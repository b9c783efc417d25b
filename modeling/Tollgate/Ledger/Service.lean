import Tollgate.Account
import Tollgate.Ledger.Error
import Tollgate.Signature.Basic
import Tollgate.Signature.Document
/-! The services that admission relies on, over any type of state. A call may change the state even
when it fails. -/
namespace Tollgate

/-- A call of a service with state `σ`. -/
abbrev Call (ε σ α : Type) := EStateM ε σ α

namespace Call

variable {ε ε' σ α : Type}

/-- A call that only looks at the state. -/
def reading (f : σ → α) : Call ε σ α := fun s => .ok (f s) s

/-- The same call with another name for its failure. -/
def mapError (f : ε → ε') (c : Call ε σ α) : Call ε' σ α := fun s =>
  match c s with
  | .ok a s => .ok a s
  | .error e s => .error (f e) s

/-- A result that does not depend on the state. -/
def ofExcept (x : Except ε α) : Call ε σ α := fun s =>
  match x with
  | .ok a => .ok a s
  | .error e => .error e s

end Call

structure AccountLedger (σ : Type) where
  params : σ → AuthParams
  /-- The address of a module account. -/
  moduleAddress : String → Address
  account : Address → Call LedgerError σ (Option Account)
  setKey : Address → PublicKey → Call LedgerError σ Unit
  /-- Raises the sequence of an account by one and returns it. -/
  advanceSequence : Address → Call LedgerError σ UInt64

structure FeeLedger (σ : Type) where
  spendable : Address → String → Call LedgerError σ Amount
  /-- Moves a fee from a payer to a collector, all of it or nothing. -/
  deduct : Address → Address → Coins → Call FeeLedgerError σ Unit

/-- Looks whether an account could pay some coins, one coin after the other. -/
def FeeLedger.ensureSpendableCoins {σ : Type} (bank : FeeLedger σ) (payer : Address) :
    List Coin → Call FeeLedgerError σ Unit
  | [] => pure ()
  | c :: cs => do
    let available ← (bank.spendable payer c.denom).mapError fun e => .store e.message
    if available < c.amount then throw (.insufficientFunds c.denom c.amount available)
    bank.ensureSpendableCoins payer cs

/-- Looks whether an account could pay a fee, and moves nothing. -/
def FeeLedger.ensureSpendable {σ : Type} (bank : FeeLedger σ) (payer : Address) (fee : Coins) :
    Call FeeLedgerError σ Unit := bank.ensureSpendableCoins payer fee.toList

/-- Who may pay fees for whom. -/
structure AllowanceRegistry (σ : Type) where
  /-- Looks whether a granter would pay a fee for a grantee. -/
  check : Address → Address → Coins → List Message → Call AllowanceError σ Unit
  /-- Takes the fee off the allowance. -/
  spend : Address → Address → Coins → List Message → Call AllowanceError σ Unit

structure SignModeHandler (σ : Type) where
  /-- The mode of a signer who states none. -/
  defaultMode : SignMode
  modes : List SignMode
  signBytes : SignMode → SignerData → Transaction → Call SignModeError σ Bytes

/-- Checks one signature of a single key over a message. -/
abbrev SignatureChecker (σ : Type) := SingleKey → Bytes → Bytes → Call SignatureError σ Unit

structure RelayRegistry (σ : Type) where
  /-- The action on the packet was already applied. -/
  isProcessed : RelayAction → PacketId → Call LedgerError σ Bool

structure TxCounter (σ : Type) where
  /-- Counts a transaction of a block and its message types; returns its position in the block. -/
  increment : UInt64 → List String → Call LedgerError σ UInt32

end Tollgate
