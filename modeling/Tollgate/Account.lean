import Tollgate.Key
/-! Accounts, and the parameters that admission takes from the chain. -/
namespace Tollgate

structure AuthParams where
  /-- The greatest length of a memo in bytes. -/
  maxMemoBytes : UInt64
  /-- The greatest number of single keys of all signers together. -/
  signatureLimit : UInt64
  /-- Gas for every byte of a transaction. -/
  costPerByte : UInt64
  ed25519Cost : UInt64
  secp256k1Cost : UInt64
  deriving DecidableEq, Repr

namespace AuthParams

def default : AuthParams := ⟨256, 7, 10, 590, 1000⟩

instance : Inhabited AuthParams := ⟨default⟩

/-- Gas for checking one signature of a key. -/
def cost (params : AuthParams) : SingleKey → UInt64
  | .secp256k1 _ => params.secp256k1Cost
  | .ed25519 _ => params.ed25519Cost

end AuthParams

structure Account where
  address : Address
  number : UInt64
  sequence : UInt64
  /-- Stored with the first signed transaction. -/
  key : Option PublicKey
  deriving DecidableEq

namespace Account

def new (address : Address) (number : UInt64) : Account := ⟨address, number, 0, none⟩

end Account
end Tollgate
