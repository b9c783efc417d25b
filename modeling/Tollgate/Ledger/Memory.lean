import Tollgate.Ledger.Accounts
import Tollgate.Ledger.Allowances
import Tollgate.Ledger.Bank
import Tollgate.Ledger.Counter
import Tollgate.Ledger.Relays
/-! All services in memory, over one state. -/
namespace Tollgate

structure Memory where
  accounts : AccountBook
  bank : Bank
  allowances : Allowances
  relays : RelayLog
  counter : BlockCounter

namespace Memory

def new (params : AuthParams) : Memory := ⟨.new params, .new, .new, .new, .new⟩

variable {ε α : Type}

/-- A call on the accounts alone. -/
def onAccounts (c : Call ε AccountBook α) : Call ε Memory α := fun s =>
  match c s.accounts with
  | .ok a b => .ok a { s with accounts := b }
  | .error e b => .error e { s with accounts := b }

def onBank (c : Call ε Bank α) : Call ε Memory α := fun s =>
  match c s.bank with
  | .ok a b => .ok a { s with bank := b }
  | .error e b => .error e { s with bank := b }

def onAllowances (c : Call ε Allowances α) : Call ε Memory α := fun s =>
  match c s.allowances with
  | .ok a b => .ok a { s with allowances := b }
  | .error e b => .error e { s with allowances := b }

def onCounter (c : Call ε BlockCounter α) : Call ε Memory α := fun s =>
  match c s.counter with
  | .ok a b => .ok a { s with counter := b }
  | .error e b => .error e { s with counter := b }

def accountLedger : AccountLedger Memory where
  params s := s.accounts.params
  moduleAddress := Tollgate.moduleAddress
  account a := .reading fun s => s.accounts.find? a
  setKey a key := onAccounts (AccountBook.setKey a key)
  advanceSequence a := onAccounts (AccountBook.advanceSequence a)

def feeLedger : FeeLedger Memory where
  spendable a denom := .reading fun s => s.bank.balance a denom
  deduct payer collector fee := onBank (Bank.deduct payer collector fee)

def allowanceRegistry : AllowanceRegistry Memory where
  check granter grantee fee _ := onAllowances (Allowances.check granter grantee fee)
  spend granter grantee fee _ := onAllowances (Allowances.spend granter grantee fee)

def relayRegistry : RelayRegistry Memory where
  isProcessed action packet := .reading fun s => s.relays.isProcessed action packet

def txCounter : TxCounter Memory where
  increment height urls := onCounter (BlockCounter.increment height urls)

end Memory

/-- The handler for both sign modes; it needs no state. -/
def SignModeHandler.standard (σ : Type) : SignModeHandler σ where
  defaultMode := SignMode.default
  modes := SignMode.supported
  signBytes mode signer tx := .reading fun _ => signer.signBytes tx mode

/-- The signature checks of the two curves; they need no state. -/
def SignatureChecker.standard (σ : Type) : SignatureChecker σ := fun key message signature =>
  .ofExcept (key.verify message signature)

end Tollgate
