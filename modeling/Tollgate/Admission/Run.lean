import Tollgate.Admission.Fee
import Tollgate.Admission.Settings
import Tollgate.Ledger.Service
import Tollgate.Signature.Gas
/-! What a run of admission works with and works on: services and rules, a context and the state of
the services. A failed step keeps what was changed before it. -/
namespace Tollgate

/-- The outcome of a run that did not fail. -/
inductive Admission where
  | accepted
  /-- All the packets of the transaction were already applied. -/
  | redundantRelay (packets : List PacketId)
  deriving DecidableEq

def Admission.isRedundantRelay : Admission → Bool
  | .accepted => false
  | .redundantRelay _ => true

/-- What happens after a stage that did not fail. -/
inductive Flow where
  | proceed
  | halt (outcome : Admission)
  deriving DecidableEq

/-- Which extension options a node understands. -/
abbrev OptionRule := ExtensionOption → Bool

namespace OptionRule

def rejectAll : OptionRule := fun _ => false

/-- Accepts exactly the options of these types. -/
def acceptTypes (urls : List String) : OptionRule := fun o => o.typeUrl ∈ urls

end OptionRule

/-- Charges for the signature of one signer. -/
abbrev SignatureGas := AuthParams → PublicKey → SignatureData → EStateM AdmissionError GasMeter Unit

namespace SignatureGas

/-- The cost of every single key that signed. -/
def standard : SignatureGas := fun params key data =>
  Call.mapError .outOfGas (key.consumeGas params data)

end SignatureGas

/-- The services and rules of a handler. -/
structure Wiring (σ : Type) where
  accounts : AccountLedger σ
  bank : FeeLedger σ
  signModes : SignModeHandler σ
  ceiling : SimulationCeiling
  counter : TxCounter σ
  /-- Absent when nobody pays for others. -/
  allowances : Option (AllowanceRegistry σ)
  relays : Option (RelayRegistry σ)
  checkFee : FeeChecker
  acceptsOption : OptionRule
  signatureGas : SignatureGas
  checkSignature : SignatureChecker σ
  feeCollector : String

/-- What a run changes. -/
structure Run (σ : Type) where
  context : Context
  services : σ

abbrev Gate (σ α : Type) := EStateM AdmissionError (Run σ) α

namespace Gate

variable {σ ε α : Type}

def context : Gate σ Context := fun r => .ok r.context r

def modifyContext (f : Context → Context) : Gate σ Unit := fun r =>
  .ok () { r with context := f r.context }

/-- Lets a service work on its state. -/
def call (explain : ε → AdmissionError) (c : Call ε σ α) : Gate σ α := fun r =>
  match c r.services with
  | .ok a s => .ok a { r with services := s }
  | .error e s => .error (explain e) { r with services := s }

/-- Charges the gas meter of the context. -/
def charge (c : EStateM AdmissionError GasMeter α) : Gate σ α := fun r =>
  match c r.context.meter with
  | .ok a m => .ok a { r with context := { r.context with meter := m } }
  | .error e m => .error e { r with context := { r.context with meter := m } }

/-- A check that changes nothing. -/
def ofExcept (x : Except AdmissionError α) : Gate σ α := fun r =>
  match x with
  | .ok a => .ok a r
  | .error e => .error e r

/-- The parameters of the chain at this point of the run. -/
def params (w : Wiring σ) : Gate σ AuthParams := fun r => .ok (w.accounts.params r.services) r

def account (w : Wiring σ) (a : Address) : Gate σ (Option Account) :=
  call .ofLedger (w.accounts.account a)

end Gate
end Tollgate
