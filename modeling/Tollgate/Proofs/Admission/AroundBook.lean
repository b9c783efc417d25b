import Tollgate.Proofs.Admission.Bookkeeping
/-! Services of any kind around an account book in memory. -/
namespace Tollgate

open Call

namespace AccountBook

variable {τ ε α : Type}

/-- A call on the book alone. -/
def onBook (c : Call ε AccountBook α) : Call ε (AccountBook × τ) α := fun s =>
  match c s.1 with
  | .ok a b => .ok a (b, s.2)
  | .error e b => .error e (b, s.2)

/-- A call on what stands beside the book. -/
def besideBook (c : Call ε τ α) : Call ε (AccountBook × τ) α := fun s =>
  match c s.2 with
  | .ok a t => .ok a (s.1, t)
  | .error e t => .error e (s.1, t)

theorem mirrors_onBook (c : Call ε AccountBook α) :
    Mirrors (Prod.fst : AccountBook × τ → AccountBook) (onBook c) c := by
  intro s
  unfold onBook
  cases c s.1 <;> rfl

theorem leaves_besideBook (c : Call ε τ α) :
    Leaves (Prod.fst : AccountBook × τ → AccountBook) (besideBook c) := by
  intro s
  unfold after besideBook
  cases c s.2 <;> rfl

def ledger (τ : Type) : AccountLedger (AccountBook × τ) where
  params s := s.1.params
  moduleAddress := Tollgate.moduleAddress
  account a := onBook (.reading fun b => b.find? a)
  setKey a key := onBook (setKey a key)
  advanceSequence a := onBook (advanceSequence a)

end AccountBook

open AccountBook (besideBook leaves_besideBook)

variable {τ : Type}

def FeeLedger.besideBook (l : FeeLedger τ) : FeeLedger (AccountBook × τ) where
  spendable a denom := AccountBook.besideBook (l.spendable a denom)
  deduct payer collector fee := AccountBook.besideBook (l.deduct payer collector fee)

def AllowanceRegistry.besideBook (r : AllowanceRegistry τ) :
    AllowanceRegistry (AccountBook × τ) where
  check granter grantee fee ms := AccountBook.besideBook (r.check granter grantee fee ms)
  spend granter grantee fee ms := AccountBook.besideBook (r.spend granter grantee fee ms)

def RelayRegistry.besideBook (r : RelayRegistry τ) : RelayRegistry (AccountBook × τ) where
  isProcessed action packet := AccountBook.besideBook (r.isProcessed action packet)

def TxCounter.besideBook (c : TxCounter τ) : TxCounter (AccountBook × τ) where
  increment height urls := AccountBook.besideBook (c.increment height urls)

/-- Accounts in memory and the standard sign modes, with other services and rules of any kind beside
them. The checks of single signatures are given. -/
def Options.aroundBook (o : Options τ)
    (check : SingleKey → Bytes → Bytes → Except SignatureError Unit) :
    Options (AccountBook × τ) where
  accounts := some (AccountBook.ledger τ)
  bank := o.bank.map FeeLedger.besideBook
  signModes := some (.standard _)
  ceiling := o.ceiling
  counter := o.counter.map TxCounter.besideBook
  allowances := o.allowances.map AllowanceRegistry.besideBook
  relays := o.relays.map RelayRegistry.besideBook
  feeChecker := o.feeChecker
  optionRule := o.optionRule
  signatureGas := o.signatureGas
  checkSignature key message signature := .ofExcept (check key message signature)
  settings := o.settings

/-- The bytes of the standard sign modes, and checks that need no services. -/
structure Wiring.Checks {σ : Type} (w : Wiring σ)
    (check : SingleKey → Bytes → Bytes → Except SignatureError Unit) : Prop where
  signModes : w.signModes = .standard σ
  checkSignature : w.checkSignature = fun key message signature =>
    .ofExcept (check key message signature)

theorem Options.wiring?_aroundBook {o : Options τ} {w : Wiring (AccountBook × τ)}
    {check : SingleKey → Bytes → Bytes → Except SignatureError Unit}
    (h : (o.aroundBook check).wiring? = some w) : w.KeepsBook Prod.fst ∧ w.Checks check := by
  simp only [wiring?, aroundBook, Option.bind_eq_bind, Option.bind_some, Option.bind_eq_some_iff,
    Option.map_eq_some_iff, Option.pure_def, Option.some.injEq] at h
  obtain ⟨_, ⟨bank, -, rfl⟩, ceiling, -, _, ⟨counter, -, rfl⟩, rfl⟩ := h
  refine ⟨?_, rfl, rfl⟩
  exact {
    account := fun a => AccountBook.mirrors_onBook _
    setKey := fun a key => AccountBook.mirrors_onBook _
    advance := fun a => AccountBook.mirrors_onBook _
    spendable := fun a denom => leaves_besideBook _
    deduct := fun payer collector fee => leaves_besideBook _
    checkAllowance := by
      intro registry hr granter grantee fee ms
      obtain ⟨r, -, rfl⟩ := Option.map_eq_some_iff.1 hr
      exact leaves_besideBook _
    spendAllowance := by
      intro registry hr granter grantee fee ms
      obtain ⟨r, -, rfl⟩ := Option.map_eq_some_iff.1 hr
      exact leaves_besideBook _
    signBytes := fun mode data tx => leaves_reading _ _
    checkSignature := fun key message signature => leaves_ofExcept _ _
    isProcessed := by
      intro registry hr action packet
      obtain ⟨r, -, rfl⟩ := Option.map_eq_some_iff.1 hr
      exact leaves_besideBook _
    increment := fun height urls => leaves_besideBook _ }

theorem StageOrder.stages_ofList {ss : List Stage} {order : StageOrder}
    (h : StageOrder.ofList ss = .ok order) : order.stages = ss := by
  unfold ofList at h
  split at h
  · cases h
  · split at h
    · split at h
      · cases h
      · cases h
        rfl
    · cases h

/-- A handler that was built has the wiring and the order of its options. -/
theorem Options.build_eq_ok {σ : Type} {o : Options σ} {ss : List Stage} {h : Handler σ}
    (hb : o.build ss = .ok h) : o.wiring? = some h.wiring ∧ h.order.stages = ss := by
  unfold build at hb
  split at hb
  · cases hb
  · next w hw =>
    cases ho : StageOrder.ofList ss with
    | error e =>
      rw [ho] at hb
      cases hb
    | ok order =>
      rw [ho] at hb
      cases hb
      exact ⟨hw, StageOrder.stages_ofList ho⟩

end Tollgate
