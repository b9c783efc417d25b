import Tollgate.Coin.Decimal
import Tollgate.Json.Shape
/-! Coins and gas prices as JSON: amounts and decimals are strings. -/
namespace Tollgate

open Json (Decoder)

namespace Coin

def toJson (c : Coin) : Json := .record
  [("denom", .string c.denom), ("amount", .string c.amount.text)]

def decodeAmount : Decoder Amount := fun levels j => (Decoder.string levels j).bind Amount.ofText?

def decode : Decoder Coin := fun levels j => do
  let fs ← Decoder.fields ["denom", "amount"] levels j
  let [denom, amount] := fs.values | none
  return ⟨← fs.required Decoder.string denom, ← fs.required decodeAmount amount⟩

end Coin

namespace Coins

def toJson (s : Coins) : Json := .ofList Coin.toJson s.toList

def decode : Decoder Coins := fun levels j => (Decoder.list Coin.decode levels j).map Coins.mk

end Coins

namespace Decimal

def toJson (d : Decimal) : Json := .string d.text

def decode : Decoder Decimal := fun levels j =>
  (Decoder.string levels j).bind fun s => read? s.toList

end Decimal

namespace GasPrice

def toJson (p : GasPrice) : Json := .record
  [("denom", .string p.denom), ("amount", p.amount.toJson)]

def decode : Decoder GasPrice := fun levels j => do
  let fs ← Decoder.fields ["denom", "amount"] levels j
  let [denom, amount] := fs.values | none
  return ⟨← fs.required Decoder.string denom, ← fs.required Decimal.decode amount⟩

end GasPrice
end Tollgate
