import Tollgate.Ledger.Service
/-! Services that fail after a number of calls, to see how admission behaves when they do. -/
namespace Tollgate

/-- The calls that can be made to fail. -/
inductive ServiceCall where
  | account
  | setKey
  | advanceSequence
  | spendable
  | deduct
  | checkAllowance
  | spendAllowance
  | signBytes
  | isProcessed
  | increment
  deriving DecidableEq, Repr

/-- What a call fails with. Failing to make bytes may depend on the mode that was asked for. -/
def ServiceCall.Failure : ServiceCall → Type
  | .deduct => FeeLedgerError
  | .checkAllowance => AllowanceError
  | .spendAllowance => AllowanceError
  | .signBytes => SignMode → SignModeError
  | .account => LedgerError
  | .setKey => LedgerError
  | .advanceSequence => LedgerError
  | .spendable => LedgerError
  | .isProcessed => LedgerError
  | .increment => LedgerError

/-- A failure that begins after some more calls and then lasts. -/
structure Outage (ε : Type) where
  remaining : Nat
  failure : ε

/-- Services with the outages that lie ahead, and how often bytes to sign were asked for. -/
structure Monitored (σ : Type) where
  services : σ
  outages : (c : ServiceCall) → Option (Outage c.Failure)
  signBytesCalls : Nat

namespace Monitored

variable {σ ε α : Type}

def new (services : σ) : Monitored σ := ⟨services, fun _ => none, 0⟩

/-- Sets or clears the outage of one call. -/
def schedule (s : Monitored σ) (c : ServiceCall) (outage : Option (Outage c.Failure)) :
    Monitored σ :=
  { s with outages := fun d => if h : c = d then h ▸ outage else s.outages d }

/-- A call of the services themselves. -/
def direct (x : Call ε σ α) : Call ε (Monitored σ) α := fun s =>
  match x s.services with
  | .ok a t => .ok a { s with services := t }
  | .error e t => .error e { s with services := t }

/-- A call that fails during its outage, without reaching the services. -/
def guarded (c : ServiceCall) (explain : c.Failure → ε) (x : Call ε σ α) : Call ε (Monitored σ) α :=
  fun s =>
    match s.outages c with
    | none => direct x s
    | some ⟨0, e⟩ => .error (explain e) s
    | some ⟨n+1, e⟩ => direct x (s.schedule c (some ⟨n, e⟩))

def countSignBytes (x : Call ε (Monitored σ) α) : Call ε (Monitored σ) α := fun s =>
  x { s with signBytesCalls := s.signBytesCalls + 1 }

end Monitored

variable {σ : Type}

open Monitored (guarded direct countSignBytes)

def AccountLedger.monitored (l : AccountLedger σ) : AccountLedger (Monitored σ) where
  params s := l.params s.services
  moduleAddress := l.moduleAddress
  account a := guarded .account id (l.account a)
  setKey a key := guarded .setKey id (l.setKey a key)
  advanceSequence a := guarded .advanceSequence id (l.advanceSequence a)

def FeeLedger.monitored (l : FeeLedger σ) : FeeLedger (Monitored σ) where
  spendable a denom := guarded .spendable id (l.spendable a denom)
  deduct payer collector fee := guarded .deduct id (l.deduct payer collector fee)

def AllowanceRegistry.monitored (r : AllowanceRegistry σ) : AllowanceRegistry (Monitored σ) where
  check granter grantee fee messages :=
    guarded .checkAllowance id (r.check granter grantee fee messages)
  spend granter grantee fee messages :=
    guarded .spendAllowance id (r.spend granter grantee fee messages)

def SignModeHandler.monitored (h : SignModeHandler σ) : SignModeHandler (Monitored σ) where
  defaultMode := h.defaultMode
  modes := h.modes
  signBytes mode signer tx :=
    countSignBytes (guarded .signBytes (· mode) (h.signBytes mode signer tx))

def SignatureChecker.monitored (c : SignatureChecker σ) : SignatureChecker (Monitored σ) :=
  fun key message signature => direct (c key message signature)

def RelayRegistry.monitored (r : RelayRegistry σ) : RelayRegistry (Monitored σ) where
  isProcessed action packet := guarded .isProcessed id (r.isProcessed action packet)

def TxCounter.monitored (c : TxCounter σ) : TxCounter (Monitored σ) where
  increment height urls := guarded .increment id (c.increment height urls)

end Tollgate
