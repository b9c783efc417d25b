import Tollgate.Admission.Run
/-! Gas for the size of a transaction. A simulation also pays for signatures that are empty. -/
namespace Tollgate

namespace PublicKey

/-- Stands in for the unknown key of a signer in a simulation. -/
def placeholder : PublicKey := .single (.secp256k1
  ⟨[0x03, 0x5a, 0xd6, 0x81, 0x0a, 0x47, 0xf0, 0x73, 0xd8, 0x65, 0x8d, 0x68, 0x32, 0x72, 0x39, 0x86,
    0x3d, 0x9e, 0xfd, 0x55, 0x00, 0x1f, 0x43, 0x3a, 0x98, 0x9d, 0x2e, 0xa6, 0x6d, 0x6d, 0x5d, 0x41,
    0x58], rfl⟩)

/-- The length of the signature of a single key. -/
def signatureLength : Nat := 64

/-- What surrounds a signature and its key. -/
def signatureOverhead : Nat := 6

/-- The bytes that a signature adds together with its key. -/
def signedSize (key : PublicKey) : UInt64 :=
  Word.clamp (signatureLength + key.encodedLength + signatureOverhead)

/-- The bytes that a missing signature counts for. A threshold key counts for as many signatures as
a transaction may have. -/
def missingSize (signatureLimit : UInt64) (key : PublicKey) : UInt64 :=
  match key with
  | .single _ => key.signedSize
  | .multisig _ _ => Word.mulSat key.signedSize signatureLimit

end PublicKey

/-- The bytes that are paid for: those received, else the encoding of the transaction. -/
def Context.txSize (c : Context) (tx : Transaction) : UInt64 :=
  if c.txBytes.isEmpty then Word.clamp tx.encode.length else Word.clamp c.txBytes.length

namespace Gate

variable {σ : Type}

def chargeBytes (params : AuthParams) (size : UInt64) : Gate σ Unit :=
  charge (Call.mapError .outOfGas (GasMeter.consume (Word.mulSat params.costPerByte size) "txSize"))

/-- The bytes that the missing signatures of some signers count for, after `total` bytes. Each
signer comes with its position. -/
def missingSignatures (w : Wiring σ) (tx : Transaction) (signatureLimit : UInt64) (total : UInt64) :
    List (Address × Nat) → Gate σ UInt64
  | [] => pure total
  | (a, i) :: rest => do
    if !(tx.signature i).isEmpty then missingSignatures w tx signatureLimit total rest
    else
      let stored := (← account w a).bind Account.key
      let size := (stored.getD .placeholder).missingSize signatureLimit
      missingSignatures w tx signatureLimit (Word.addSat total size) rest

def chargeSize (w : Wiring σ) (tx : Transaction) (simulate : Bool) : Gate σ Unit := do
  let p ← params w
  let c ← context
  chargeBytes p (c.txSize tx)
  if simulate then
    let extra ← missingSignatures w tx p.signatureLimit 0 tx.signers.zipIdx
    chargeBytes p extra

end Gate
end Tollgate
