import Tollgate.Proofs.Admission.AroundBook
/-! Services of any kind around balances in memory, and the one change that admission makes to the
balances: the stage of the fee deducts what the checker found. -/
namespace Tollgate

open Call

variable {σ τ : Type}

/-- The balances are a bank in memory, seen through a view, and no other service changes them. -/
structure Wiring.KeepsBank (w : Wiring σ) (bank : σ → Bank) : Prop where
  account : ∀ a, Leaves bank (w.accounts.account a)
  setKey : ∀ a key, Leaves bank (w.accounts.setKey a key)
  advance : ∀ a, Leaves bank (w.accounts.advanceSequence a)
  spendable : ∀ a denom, Leaves bank (w.bank.spendable a denom)
  deduct : ∀ payer collector fee,
    Mirrors bank (w.bank.deduct payer collector fee) (Bank.deduct payer collector fee)
  checkAllowance : ∀ registry ∈ w.allowances, ∀ granter grantee fee ms,
    Leaves bank (registry.check granter grantee fee ms)
  spendAllowance : ∀ registry ∈ w.allowances, ∀ granter grantee fee ms,
    Leaves bank (registry.spend granter grantee fee ms)
  signBytes : ∀ mode data tx, Leaves bank (w.signModes.signBytes mode data tx)
  checkSignature : ∀ key message signature, Leaves bank (w.checkSignature key message signature)
  isProcessed : ∀ registry ∈ w.relays, ∀ action packet,
    Leaves bank (registry.isProcessed action packet)
  increment : ∀ height urls, Leaves bank (w.counter.increment height urls)

/-- A change leaves the balances, or is the deduction of a fee that the checker found. -/
theorem Change.bank_cases {w : Wiring σ} {tx : Transaction} {simulate : Bool} {bank : σ → Bank}
    (hw : w.KeepsBank bank) {s : Stage} {r t : Run σ} (h : Change w tx simulate s r t) :
    bank t.services = bank r.services ∨
    (s = .fee ∧ simulate = false ∧ ∃ payer fee, (∃ c n, w.checkFee c tx = .ok (fee, n)) ∧
      bank t.services = after (Bank.deduct payer (w.accounts.moduleAddress w.feeCollector) fee)
        (bank r.services)) := by
  cases h with
  | count _ hs => exact .inl (hw.increment _ _ _)
  | account _ _ a => exact .inl (hw.account a _)
  | spendable _ a denom hs => exact .inl (hw.spendable a denom _)
  | deduct _ payer fee hs hfee =>
    exact .inr ⟨rfl, hs, payer, fee, hfee, (hw.deduct payer _ fee).after _⟩
  | checkAllowance _ registry granter grantee fee hr hs =>
    exact .inl (hw.checkAllowance registry hr _ _ _ _ _)
  | spendAllowance _ registry granter grantee fee hr hs =>
    exact .inl (hw.spendAllowance registry hr _ _ _ _ _)
  | storeKey _ a i key found u hs ha hkey hderives hfound hnone =>
    -- the look-up before the storing leaves the balances as well
    have hlook := hw.account a r.services
    rw [after_of_ok hfound] at hlook
    exact .inl ((hw.setKey a key u).trans hlook)
  | signBytes _ mode data => exact .inl (hw.signBytes mode data tx _)
  | checkSignature _ key message signature => exact .inl (hw.checkSignature key message signature _)
  | advance _ a hs ha => exact .inl (hw.advance a _)
  | isProcessed _ registry action packet hr =>
    exact .inl (hw.isProcessed registry hr action packet _)
  | _ => exact .inl rfl

namespace Bank

variable {ε α : Type}

/-- A call on the balances alone. -/
def onBank (c : Call ε Bank α) : Call ε (Bank × τ) α := fun s =>
  match c s.1 with
  | .ok a b => .ok a (b, s.2)
  | .error e b => .error e (b, s.2)

/-- A call on what stands beside the balances. -/
def besideBank (c : Call ε τ α) : Call ε (Bank × τ) α := fun s =>
  match c s.2 with
  | .ok a t => .ok a (s.1, t)
  | .error e t => .error e (s.1, t)

theorem mirrors_onBank (c : Call ε Bank α) :
    Mirrors (Prod.fst : Bank × τ → Bank) (onBank c) c := by
  intro s
  unfold onBank
  cases c s.1 <;> rfl

theorem leaves_besideBank (c : Call ε τ α) :
    Leaves (Prod.fst : Bank × τ → Bank) (besideBank c) := by
  intro s
  unfold after besideBank
  cases c s.2 <;> rfl

def ledger (τ : Type) : FeeLedger (Bank × τ) where
  spendable a denom := onBank (.reading fun b => b.balance a denom)
  deduct payer collector fee := onBank (deduct payer collector fee)

end Bank

open Bank (leaves_besideBank)

def AccountLedger.besideBank (l : AccountLedger τ) : AccountLedger (Bank × τ) where
  params s := l.params s.2
  moduleAddress := l.moduleAddress
  account a := Bank.besideBank (l.account a)
  setKey a key := Bank.besideBank (l.setKey a key)
  advanceSequence a := Bank.besideBank (l.advanceSequence a)

def SignModeHandler.besideBank (m : SignModeHandler τ) : SignModeHandler (Bank × τ) where
  defaultMode := m.defaultMode
  modes := m.modes
  signBytes mode data tx := Bank.besideBank (m.signBytes mode data tx)

def AllowanceRegistry.besideBank (r : AllowanceRegistry τ) : AllowanceRegistry (Bank × τ) where
  check granter grantee fee ms := Bank.besideBank (r.check granter grantee fee ms)
  spend granter grantee fee ms := Bank.besideBank (r.spend granter grantee fee ms)

def RelayRegistry.besideBank (r : RelayRegistry τ) : RelayRegistry (Bank × τ) where
  isProcessed action packet := Bank.besideBank (r.isProcessed action packet)

def TxCounter.besideBank (c : TxCounter τ) : TxCounter (Bank × τ) where
  increment height urls := Bank.besideBank (c.increment height urls)

/-- Balances in memory, with other services and rules of any kind beside them. -/
def Options.aroundBank (o : Options τ) : Options (Bank × τ) where
  accounts := o.accounts.map AccountLedger.besideBank
  bank := some (Bank.ledger τ)
  signModes := o.signModes.map SignModeHandler.besideBank
  ceiling := o.ceiling
  counter := o.counter.map TxCounter.besideBank
  allowances := o.allowances.map AllowanceRegistry.besideBank
  relays := o.relays.map RelayRegistry.besideBank
  feeChecker := o.feeChecker
  optionRule := o.optionRule
  signatureGas := o.signatureGas
  checkSignature key message signature := Bank.besideBank (o.checkSignature key message signature)
  settings := o.settings

theorem Options.wiring?_aroundBank {o : Options τ} {w : Wiring (Bank × τ)}
    (h : o.aroundBank.wiring? = some w) :
    w.KeepsBank Prod.fst ∧ w.checkFee = o.feeChecker.getD .standard := by
  simp only [wiring?, aroundBank, Option.bind_eq_bind, Option.bind_some, Option.bind_eq_some_iff,
    Option.map_eq_some_iff, Option.pure_def, Option.some.injEq] at h
  obtain ⟨_, ⟨accounts, -, rfl⟩, _, ⟨modes, -, rfl⟩, ceiling, -, _, ⟨counter, -, rfl⟩, rfl⟩ := h
  refine ⟨?_, rfl⟩
  exact {
    account := fun a => leaves_besideBank _
    setKey := fun a key => leaves_besideBank _
    advance := fun a => leaves_besideBank _
    spendable := fun a denom s => rfl
    deduct := fun payer collector fee => Bank.mirrors_onBank _
    checkAllowance := by
      intro registry hr granter grantee fee ms
      obtain ⟨r, -, rfl⟩ := Option.map_eq_some_iff.1 hr
      exact leaves_besideBank _
    spendAllowance := by
      intro registry hr granter grantee fee ms
      obtain ⟨r, -, rfl⟩ := Option.map_eq_some_iff.1 hr
      exact leaves_besideBank _
    signBytes := fun mode data tx => leaves_besideBank _
    checkSignature := fun key message signature => leaves_besideBank _
    isProcessed := by
      intro registry hr action packet
      obtain ⟨r, -, rfl⟩ := Option.map_eq_some_iff.1 hr
      exact leaves_besideBank _
    increment := fun height urls => leaves_besideBank _ }

end Tollgate
