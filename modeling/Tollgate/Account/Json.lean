import Tollgate.Account
import Tollgate.Transaction.Json
/-! Accounts and chain parameters as JSON. -/
namespace Tollgate

open Json (Decoder)

namespace AuthParams

def toJson (p : AuthParams) : Json := .record
  [("max_memo_characters", .nat p.maxMemoBytes.toNat),
   ("tx_sig_limit", .nat p.signatureLimit.toNat),
   ("tx_size_cost_per_byte", .nat p.costPerByte.toNat),
   ("sig_verify_cost_ed25519", .nat p.ed25519Cost.toNat),
   ("sig_verify_cost_secp256k1", .nat p.secp256k1Cost.toNat)]

def decode : Decoder AuthParams := fun levels j => do
  let fs ← Decoder.fields ["max_memo_characters", "tx_sig_limit", "tx_size_cost_per_byte",
    "sig_verify_cost_ed25519", "sig_verify_cost_secp256k1"] levels j
  let [memo, signatures, byte, ed25519, secp256k1] := fs.values | none
  return ⟨← fs.required Decoder.word64 memo, ← fs.required Decoder.word64 signatures,
    ← fs.required Decoder.word64 byte, ← fs.required Decoder.word64 ed25519,
    ← fs.required Decoder.word64 secp256k1⟩

end AuthParams

namespace Account

def toJson (a : Account) : Json := .record
  [("address", a.address.toJson), ("account_number", .nat a.number.toNat),
   ("sequence", .nat a.sequence.toNat), ("pub_key", .ofOption PublicKey.toJson a.key)]

def decode : Decoder Account := fun levels j => do
  let fs ← Decoder.fields ["address", "account_number", "sequence", "pub_key"] levels j
  let [address, number, sequence, key] := fs.values | none
  return ⟨← fs.required Message.decodeAddress address, ← fs.required Decoder.word64 number,
    ← fs.required Decoder.word64 sequence, ← fs.optional PublicKey.decode key⟩

end Account
end Tollgate
