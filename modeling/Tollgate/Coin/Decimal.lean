import Tollgate.Coin.Basic
import Tollgate.Text.Space
/-! Fixed-point decimals with eighteen fractional digits, and gas prices written with them. -/
namespace Tollgate

/-- The number `raw / 10^18`. -/
structure Decimal where
  raw : Amount
  deriving DecidableEq

namespace Decimal

/-- The number of fractional digits. -/
def places : Nat := 18

def one : Nat := 10 ^ places

def zero : Decimal := ⟨.zero⟩

def isZero (d : Decimal) : Bool := d.raw.isZero

/-- A 64-bit number as a decimal; the scaled value always fits. -/
def ofWord (n : UInt64) : Decimal :=
  ⟨⟨n.toNat * one, by have := n.toNat_lt; simp only [one, places]; omega⟩⟩

/-- The characters before the first point, and those after it. -/
def splitPoint (cs : List Char) : List Char × List Char :=
  (cs.takeWhile (· ≠ '.'), (cs.dropWhile (· ≠ '.')).drop 1)

/-- At least one digit, then at most one point and up to eighteen digits. -/
def read? (cs : List Char) : Option Decimal := do
  let (whole, fraction) := splitPoint cs
  guard (fraction.length ≤ places)
  let int ← Amount.ofDigits? whole
  let frac ← if fraction = [] then some 0 else Text.ofDigits? fraction
  let raw ← Amount.ofNat? (int.toNat * one + frac * 10 ^ (places - fraction.length))
  return ⟨raw⟩

def parse (s : String) : Except CoinError Decimal :=
  match read? s.toList with
  | some d => .ok d
  | none => .error (.invalidDecimal s)

/-- The integer part, a point, and all eighteen fractional digits. -/
def chars (d : Decimal) : List Char :=
  Text.digits (d.raw.toNat / one) ++ '.' :: Text.padLeft places (Text.digits (d.raw.toNat % one))

def text (d : Decimal) : String := String.ofList d.chars

end Decimal

/-- The price of one unit of gas in one denomination. -/
structure GasPrice where
  denom : String
  amount : Decimal
  deriving DecidableEq

namespace GasPrice

/-- A decimal, perhaps with white space around it, directly before a denom. The denom starts at the
first ASCII letter and is checked before the decimal. -/
def parse (s : String) : Except CoinError GasPrice := do
  let cs := s.toList
  let number := cs.takeWhile fun c => !c.isAlpha
  let denom := cs.dropWhile fun c => !c.isAlpha
  if denom = [] then throw (.invalidDecimal s)
  let denom := String.ofList denom
  Denom.check denom
  let amount ← Decimal.parse (String.ofList (Text.trim number))
  return ⟨denom, amount⟩

def text (p : GasPrice) : String := p.amount.text ++ p.denom

end GasPrice
end Tollgate
