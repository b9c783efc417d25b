import Tollgate.Admission.Stage
import Tollgate.Gas
import Tollgate.Ledger.Error
import Tollgate.Message.Check
import Tollgate.Signature.Basic
/-! Why a transaction is not admitted, and why a handler cannot be built. -/
namespace Tollgate

/-- The kinds of outcome that callers tell apart. -/
inductive ErrorKind where
  | missingCapability
  | gasCeilingExceeded
  | structuralInvalid
  | timeoutExpired
  | memoTooLong
  | insufficientFee
  | insufficientFunds
  | unknownSigner
  | tooManySignatures
  | invalidSignature
  | sequenceMismatch
  /-- An outcome of success. -/
  | redundantRelay
  | outOfGas
  | invalidGasLimit
  | invalidPubKey
  | unknownAccount
  | feeGrantDenied
  | ledger
  deriving DecidableEq, Repr

namespace ErrorKind

/-- Another transaction could succeed where this one fails. -/
def isCallerFixable : ErrorKind → Bool
  | .missingCapability => false
  | .ledger => false
  | _ => true

/-- The name in documents. -/
def tag : ErrorKind → String
  | .missingCapability => "MissingCapability"
  | .gasCeilingExceeded => "GasCeilingExceeded"
  | .structuralInvalid => "StructuralInvalid"
  | .timeoutExpired => "TimeoutExpired"
  | .memoTooLong => "MemoTooLong"
  | .insufficientFee => "InsufficientFee"
  | .insufficientFunds => "InsufficientFunds"
  | .unknownSigner => "UnknownSigner"
  | .tooManySignatures => "TooManySignatures"
  | .invalidSignature => "InvalidSignature"
  | .sequenceMismatch => "SequenceMismatch"
  | .redundantRelay => "RedundantRelay"
  | .outOfGas => "OutOfGas"
  | .invalidGasLimit => "InvalidGasLimit"
  | .invalidPubKey => "InvalidPubKey"
  | .unknownAccount => "UnknownAccount"
  | .feeGrantDenied => "FeeGrantDenied"
  | .ledger => "Ledger"

end ErrorKind

/-- How the parts of a transaction fail to fit together. -/
inductive Malformed where
  | noMessages
  | noSignatures
  | gasTooHigh (gas max : UInt64)
  | fee (cause : CoinError)
  | signatureCount (expected got : Nat)
  | signerInfoCount (expected got : Nat)
  /-- Found when the signatures are verified. -/
  | signerCount (expected got : Nat)
  | noSignerInfo (index : Nat)
  | extensionOption (typeUrl : String)
  | noFeePayer
  deriving DecidableEq

def Malformed.message : Malformed → String
  | .noMessages => "must contain at least one message"
  | .noSignatures => "no signatures supplied"
  | .gasTooHigh gas max => s!"invalid gas supplied; {gas} > {max}"
  | .fee e => s!"invalid fee amount: {e.message}"
  | .signatureCount expected got =>
    s!"wrong number of signatures; expected {expected}, got {got}"
  | .signerInfoCount expected got =>
    s!"wrong number of signer infos; expected {expected}, got {got}"
  | .signerCount expected got => s!"invalid number of signers; expected {expected}, got {got}"
  | .noSignerInfo index => s!"missing signer info for signer {index}"
  | .extensionOption url => s!"unknown extension option {url}"
  | .noFeePayer => "no fee payer"

inductive UnknownSigner where
  | noAccount
  | noKey
  deriving DecidableEq

def UnknownSigner.message : UnknownSigner → String
  | .noAccount => "account does not exist"
  | .noKey => "public key neither stored nor provided"

/-- Why a granter does not pay a fee. -/
inductive GrantDenial where
  | notEnabled
  | refused (cause : AllowanceError)
  deriving DecidableEq

def GrantDenial.message : GrantDenial → String
  | .notEnabled => "fee grants are not enabled"
  | .refused e => e.message

inductive AdmissionError where
  | gasCeilingExceeded (declared ceiling : UInt64)
  | malformed (cause : Malformed)
  | invalidMessage (index : Nat) (cause : MessageError)
  | timeoutExpired (timeout height : UInt64)
  | memoTooLong (size : Nat) (max : UInt64)
  | insufficientFee (provided required : Coins)
  | insufficientFunds (denom : String) (required available : Amount)
  | unknownSigner (address : Address) (cause : UnknownSigner)
  | tooManySignatures (count limit : UInt64)
  | invalidSignature (signer : Address) (cause : SignatureError)
  | sequenceMismatch (signer : Address) (expected got : UInt64)
  | outOfGas (cause : GasError)
  | invalidGasLimit
  /-- The provided key is not the key of the signer's address. -/
  | foreignKey (address : Address)
  | unknownAccount (address : Address)
  | feeGrantDenied (granter grantee : Address) (cause : GrantDenial)
  /-- The prices a node asks for make no coin set. -/
  | invalidGasPrices (cause : CoinError)
  | ledger (reason : String)
  deriving DecidableEq

namespace AdmissionError

def kind : AdmissionError → ErrorKind
  | .gasCeilingExceeded _ _ => .gasCeilingExceeded
  | .malformed _ => .structuralInvalid
  | .invalidMessage _ _ => .structuralInvalid
  | .timeoutExpired _ _ => .timeoutExpired
  | .memoTooLong _ _ => .memoTooLong
  | .insufficientFee _ _ => .insufficientFee
  | .insufficientFunds _ _ _ => .insufficientFunds
  | .unknownSigner _ _ => .unknownSigner
  | .tooManySignatures _ _ => .tooManySignatures
  | .invalidSignature _ _ => .invalidSignature
  | .sequenceMismatch _ _ _ => .sequenceMismatch
  | .outOfGas _ => .outOfGas
  | .invalidGasLimit => .invalidGasLimit
  | .foreignKey _ => .invalidPubKey
  | .unknownAccount _ => .unknownAccount
  | .feeGrantDenied _ _ _ => .feeGrantDenied
  | .invalidGasPrices _ => .ledger
  | .ledger _ => .ledger

def message : AdmissionError → String
  | .gasCeilingExceeded declared ceiling =>
    s!"Simulation gas limit exceeded: declared {declared}, ceiling {ceiling}"
  | .malformed e => s!"Invalid transaction: {e.message}"
  | .invalidMessage index e => s!"Invalid message at index {index}: {e.message}"
  | .timeoutExpired timeout height =>
    s!"Transaction timed out: timeout height {timeout}, current height {height}"
  | .memoTooLong size max => s!"Memo too long: {size} > {max}"
  | .insufficientFee provided required =>
    s!"Insufficient fee: got {provided.text}, required {required.text}"
  | .insufficientFunds denom required available =>
    s!"Insufficient funds in {denom}: required {required.text}, available {available.text}"
  | .unknownSigner a e => s!"Unknown signer {a.hex}: {e.message}"
  | .tooManySignatures count limit => s!"Too many signatures: {count} > {limit}"
  | .invalidSignature a e => s!"Invalid signature for {a.hex}: {e.message}"
  | .sequenceMismatch a expected got =>
    s!"Account sequence mismatch for {a.hex}: expected {expected}, got {got}"
  | .outOfGas e => e.message
  | .invalidGasLimit => "Must provide positive gas"
  | .foreignKey a =>
    s!"Invalid public key for {a.hex}: public key does not match signer address"
  | .unknownAccount a => s!"Unknown account {a.hex}"
  | .feeGrantDenied granter grantee e =>
    s!"Fee grant from {granter.hex} to {grantee.hex} denied: {e.message}"
  | .invalidGasPrices e => s!"Ledger error: invalid min gas prices: {e.message}"
  | .ledger reason => s!"Ledger error: {reason}"

def ofLedger : LedgerError → AdmissionError
  | .accountNotFound a => .unknownAccount a
  | .store reason => .ledger reason

def ofFeeLedger : FeeLedgerError → AdmissionError
  | .insufficientFunds denom required available => .insufficientFunds denom required available
  | .store reason => .ledger reason

/-- A failing store is no refusal by the granter. -/
def ofAllowance (granter grantee : Address) : AllowanceError → AdmissionError
  | .store reason => .ledger reason
  | e => .feeGrantDenied granter grantee (.refused e)

end AdmissionError

/-- An error and the stage that found it. -/
structure StageError where
  stage : Stage
  cause : AdmissionError
  deriving DecidableEq

namespace StageError

def kind (e : StageError) : ErrorKind := e.cause.kind

def message (e : StageError) : String := s!"{e.stage.name}: {e.cause.message}"

end StageError

/-- What a handler cannot do without. -/
inductive Capability where
  | accountLedger
  | feeLedger
  | signModeHandler
  | simulationCeiling
  | txCounter
  deriving DecidableEq, Repr

namespace Capability

def name : Capability → String
  | .accountLedger => "account ledger"
  | .feeLedger => "fee ledger"
  | .signModeHandler => "sign mode handler"
  | .simulationCeiling => "simulation gas ceiling"
  | .txCounter => "tx count store"

/-- The name in descriptions of options. -/
def tag : Capability → String
  | .accountLedger => "AccountLedger"
  | .feeLedger => "FeeLedger"
  | .signModeHandler => "SignModeHandler"
  | .simulationCeiling => "SimulationGasCeiling"
  | .txCounter => "TxCountStore"

end Capability

inductive BuildError where
  | missing (capabilities : List Capability)
  | order (cause : OrderError)
  deriving DecidableEq

namespace BuildError

def kind : BuildError → ErrorKind
  | .missing _ => .missingCapability
  | .order _ => .structuralInvalid

def message : BuildError → String
  | .missing cs =>
    let names := ", ".intercalate (cs.map Capability.name)
    s!"Missing required capabilities: {names}"
  | .order e => s!"Invalid stage order: {e.message}"

end BuildError
end Tollgate
