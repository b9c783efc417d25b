import Tollgate.Admission.Size
/-! The stages about signers: their keys, the gas for their signatures, the signatures themselves
and their sequences. Signers come with their position in the transaction. -/
namespace Tollgate

/-- The signature of a signer, read as the signer data says. A simulation takes what it cannot read
for a single signature. -/
def Transaction.signatureData (tx : Transaction) (index : Nat) (signer : Address)
    (simulate : Bool) : Except AdmissionError SignatureData :=
  let raw := tx.signature index
  match tx.signerInfo? index with
  | none =>
    if simulate then .ok (.single .direct raw) else .error (.malformed (.noSignerInfo index))
  | some info =>
    match SignatureData.decode info.modeInfo raw with
    | .ok data => .ok data
    | .error e =>
      if simulate then .ok (.single .direct raw) else .error (.invalidSignature signer e)

namespace Gate

variable {σ : Type}

/-- Looks a signer up: a stored key comes before a provided one, and a simulation can do without. -/
def resolveSigner (w : Wiring σ) (tx : Transaction) (simulate : Bool) (a : Address) (index : Nat) :
    Gate σ Signer := do
  let some acc ← account w a | throw (.unknownSigner a .noAccount)
  match acc.key <|> tx.providedKey? index with
  | some key => return ⟨a, acc.number, acc.sequence, key, false⟩
  | none =>
    if simulate then return ⟨a, acc.number, acc.sequence, .placeholder, true⟩
    throw (.unknownSigner a .noKey)

/-- The signer as an earlier stage found it, else as it is found now. -/
def signer (w : Wiring σ) (tx : Transaction) (simulate : Bool) (a : Address) (index : Nat) :
    Gate σ Signer := do
  match (← context).signer? a with
  | some s => return s
  | none => resolveSigner w tx simulate a index

/-- A provided key must be the key of the address. -/
def checkProvidedKey (tx : Transaction) (a : Address) (index : Nat) : Except AdmissionError Unit :=
  match tx.providedKey? index with
  | some key => if key.address = a then .ok () else .error (.foreignKey a)
  | none => .ok ()

/-- Stores a provided key in an account that has none. -/
def storeProvidedKey (w : Wiring σ) (tx : Transaction) (a : Address) (index : Nat) : Gate σ Unit :=
  match tx.providedKey? index with
  | none => pure ()
  | some key => do
    let stored := (← account w a).bind Account.key
    if stored.isNone then call .ofLedger (w.accounts.setKey a key)

def resolveKey (w : Wiring σ) (tx : Transaction) (simulate : Bool) (a : Address) (index : Nat) :
    Gate σ Signer := do
  if !simulate then ofExcept (checkProvidedKey tx a index)
  let s ← resolveSigner w tx simulate a index
  if !simulate then storeProvidedKey w tx a index
  return s

/-- Looks all signers up and keeps them in the context. -/
def resolveKeys (w : Wiring σ) (tx : Transaction) (simulate : Bool) : Gate σ Unit := do
  let signers ← tx.signers.zipIdx.mapM fun (a, i) => resolveKey w tx simulate a i
  modifyContext fun c => { c with signers := signers }

/-- Counts single keys after `count` of them; the first signer above the limit ends the count. -/
def countKeys (w : Wiring σ) (tx : Transaction) (simulate : Bool) (limit count : UInt64) :
    List (Address × Nat) → Gate σ Unit
  | [] => pure ()
  | (a, i) :: rest => do
    let s ← signer w tx simulate a i
    let count := Word.addSat count (Word.clamp s.key.leafCount)
    if limit < count then throw (.tooManySignatures count limit)
    countKeys w tx simulate limit count rest

def checkKeyCount (w : Wiring σ) (tx : Transaction) (simulate : Bool) : Gate σ Unit := do
  let p ← params w
  countKeys w tx simulate p.signatureLimit 0 tx.signers.zipIdx

/-- Charges for every signature before any of them is verified. -/
def chargeSignatures (w : Wiring σ) (tx : Transaction) (simulate : Bool) : Gate σ Unit := do
  let p ← params w
  tx.signers.zipIdx.forM fun (a, i) => do
    let s ← signer w tx simulate a i
    let data ← ofExcept (tx.signatureData i a simulate)
    charge (w.signatureGas p s.key data)

/-- What a signer signs in this run; in the first block every account number counts as zero. -/
def signerData (c : Context) (s : Signer) (a : Address) : SignerData :=
  ⟨a, c.chainId, if c.isGenesis then 0 else s.accountNumber, s.sequence, s.key⟩

/-- Verifies one signature over the bytes of its mode. -/
def verifyTask (w : Wiring σ) (tx : Transaction) (data : SignerData) (task : SignatureTask) :
    Call SignatureError σ Unit := do
  let message ← (w.signModes.signBytes task.mode data tx).mapError fun e => .signBytes e.message
  w.checkSignature task.key message task.signature

/-- The stated sequence must be the one of the account. The signature is verified unless this is a
simulation or the transaction was verified before. -/
def verifySigner (w : Wiring σ) (tx : Transaction) (simulate : Bool) (a : Address) (index : Nat) :
    Gate σ Unit := do
  let s ← signer w tx simulate a index
  let some info := tx.signerInfo? index | throw (.malformed (.noSignerInfo index))
  if info.sequence ≠ s.sequence then throw (.sequenceMismatch a s.sequence info.sequence)
  let c ← context
  if simulate || c.isRecheck then return
  let data ← ofExcept (tx.signatureData index a false)
  call (.invalidSignature a) (s.key.verify (verifyTask w tx (signerData c s a)) data)

def verifySignatures (w : Wiring σ) (tx : Transaction) (simulate : Bool) : Gate σ Unit := do
  let signers := tx.signers
  if signers.length ≠ tx.signatures.length then
    throw (.malformed (.signerCount signers.length tx.signatures.length))
  signers.zipIdx.forM fun (a, i) => verifySigner w tx simulate a i

/-- Advances the sequence of every signer, so that no signature counts twice. -/
def advanceSequences (w : Wiring σ) (tx : Transaction) (simulate : Bool) : Gate σ Unit := do
  if simulate then return
  tx.signers.forM fun a => do
    let _ ← call .ofLedger (w.accounts.advanceSequence a)

end Gate
end Tollgate
