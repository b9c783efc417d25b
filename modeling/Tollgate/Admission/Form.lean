import Tollgate.Admission.Run
/-! The form of a transaction: what can be checked against limits alone. -/
namespace Tollgate
namespace Transaction

/-- The most gas a transaction may state. -/
def maxGas : UInt64 := UInt64.ofNat (2 ^ 63 - 1)

def require (condition : Bool) (otherwise : Malformed) : Except AdmissionError Unit :=
  if condition then .ok () else .error (.malformed otherwise)

/-- Every message meets its own rules; `index` is the position of the first one. -/
def checkMessages (index : Nat) : List Message → Except AdmissionError Unit
  | [] => .ok ()
  | m :: ms =>
    match m.check with
    | .error e => .error (.invalidMessage index e)
    | .ok _ => checkMessages (index + 1) ms

/-- There are messages and signatures, the gas and the fee are in range, every signer has one
signature and one entry of signer data, and every message is valid. -/
def checkForm (tx : Transaction) : Except AdmissionError Unit := do
  require (!tx.messages.isEmpty) .noMessages
  require (!tx.signatures.isEmpty) .noSignatures
  require (tx.gasLimit ≤ maxGas) (.gasTooHigh tx.gasLimit maxGas)
  tx.fee.check.mapError fun e => .malformed (.fee e)
  let signers := tx.signers.length
  let signatures := tx.signatures.length
  require (signers = signatures) (.signatureCount signers signatures)
  let infos := tx.authInfo.signerInfos.length
  require (signers = infos) (.signerInfoCount signers infos)
  checkMessages 0 tx.messages

/-- A block after the timeout height is too late. -/
def checkTimeout (tx : Transaction) (height : UInt64) : Except AdmissionError Unit :=
  if 0 < tx.timeoutHeight ∧ tx.timeoutHeight < height then
    .error (.timeoutExpired tx.timeoutHeight height)
  else .ok ()

def checkMemo (tx : Transaction) (max : UInt64) : Except AdmissionError Unit :=
  let size := tx.memo.utf8ByteSize
  if max.toNat < size then .error (.memoTooLong size max) else .ok ()

end Transaction

namespace Gate

variable {σ : Type}

/-- A transaction in the pool was checked before it entered. -/
def checkForm (tx : Transaction) : Gate σ Unit := do
  let c ← context
  if c.isRecheck then return
  ofExcept tx.checkForm

def checkTimeout (tx : Transaction) : Gate σ Unit := do
  let c ← context
  ofExcept (tx.checkTimeout c.height)

def checkMemo (w : Wiring σ) (tx : Transaction) : Gate σ Unit := do
  let p ← params w
  ofExcept (tx.checkMemo p.maxMemoBytes)

end Gate
end Tollgate
