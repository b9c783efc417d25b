import Tollgate.Proofs.Admission.Lockstep
import Tollgate.Proofs.Admission.Tuning
import Tollgate.Proofs.Ledger.Counter
/-! The counter of a block under admission: outside simulation every call of the canonical stages asks
it for a position before anything can fail, and nothing else changes it. -/
namespace Tollgate

open Call Relation

variable {σ : Type}

/-- The counter is one in memory, seen through a view, and no other service changes it. -/
structure Wiring.KeepsCounter (w : Wiring σ) (counter : σ → BlockCounter) : Prop where
  account : ∀ a, Leaves counter (w.accounts.account a)
  setKey : ∀ a key, Leaves counter (w.accounts.setKey a key)
  advance : ∀ a, Leaves counter (w.accounts.advanceSequence a)
  spendable : ∀ a denom, Leaves counter (w.bank.spendable a denom)
  deduct : ∀ payer collector fee, Leaves counter (w.bank.deduct payer collector fee)
  checkAllowance : ∀ registry ∈ w.allowances, ∀ granter grantee fee ms,
    Leaves counter (registry.check granter grantee fee ms)
  spendAllowance : ∀ registry ∈ w.allowances, ∀ granter grantee fee ms,
    Leaves counter (registry.spend granter grantee fee ms)
  signBytes : ∀ mode data tx, Leaves counter (w.signModes.signBytes mode data tx)
  checkSignature : ∀ key message signature,
    Leaves counter (w.checkSignature key message signature)
  isProcessed : ∀ registry ∈ w.relays, ∀ action packet,
    Leaves counter (registry.isProcessed action packet)
  increment : ∀ height urls,
    Mirrors counter (w.counter.increment height urls) (BlockCounter.increment height urls)

theorem Tuning.keepsCounter (u : Tuning) : u.wiring.KeepsCounter Memory.counter where
  account _ _ := rfl
  setKey _ _ := Memory.leaves_counter_onAccounts _
  advance _ := Memory.leaves_counter_onAccounts _
  spendable _ _ := leaves_reading _ _
  deduct _ _ _ := Memory.leaves_counter_onBank _
  checkAllowance _ hr _ _ _ _ := by
    obtain rfl := allowances_eq hr
    exact Memory.leaves_counter_onAllowances _
  spendAllowance _ hr _ _ _ _ := by
    obtain rfl := allowances_eq hr
    exact Memory.leaves_counter_onAllowances _
  signBytes _ _ _ := leaves_reading _ _
  checkSignature _ _ _ := leaves_ofExcept _ _
  isProcessed _ hr _ _ := by
    obtain rfl := relays_eq hr
    exact leaves_reading _ _
  increment _ _ := Memory.mirrors_onCounter _

variable {w : Wiring σ} {tx : Transaction} {simulate : Bool} {counter : σ → BlockCounter}
  {s : Stage} {r t : Run σ}

/-- Only one stage changes the counter, and not in a simulation. -/
theorem Change.counter_eq (hw : w.KeepsCounter counter) (h : Change w tx simulate s r t)
    (hs : simulate = true ∨ s ≠ .blockIndex) : counter t.services = counter r.services := by
  cases h with
  | count _ hcount =>
    rcases hs with hs | hs
    · exact nomatch hs.symm.trans hcount
    · exact absurd rfl hs
  | account _ _ a => exact hw.account a _
  | spendable _ a denom => exact hw.spendable a denom _
  | deduct _ payer fee => exact hw.deduct payer _ fee _
  | checkAllowance _ registry granter grantee fee hr =>
    exact hw.checkAllowance registry hr _ _ _ _ _
  | spendAllowance _ registry granter grantee fee hr =>
    exact hw.spendAllowance registry hr _ _ _ _ _
  | storeKey _ a i key found u _ ha hkey hderives hfound hnone =>
    have hlook := hw.account a r.services
    rw [after_of_ok hfound] at hlook
    exact (hw.setKey a key u).trans hlook
  | signBytes _ mode data => exact hw.signBytes mode data tx _
  | checkSignature _ key message signature => exact hw.checkSignature key message signature _
  | advance _ a => exact hw.advance a _
  | isProcessed _ registry action packet hr => exact hw.isProcessed registry hr action packet _
  | _ => rfl

/-- The position in the block is given once. -/
theorem Change.txIndex_eq (h : Change w tx simulate s r t) (hs : s ≠ .setup ∧ s ≠ .blockIndex) :
    t.context.txIndex = r.context.txIndex := by
  cases h with
  | reset => exact absurd rfl hs.1
  | index => exact absurd rfl hs.2
  | _ => rfl

section Intake

variable {i : UInt32} {e : LedgerError} {u : σ}

namespace Gate

theorem countInBlock_eq (w : Wiring σ) (tx : Transaction) (r : Run σ) :
    countInBlock w tx false r = (do
      let i ← call .ofLedger (w.counter.increment r.context.height tx.typeUrls)
      modifyContext fun c => c.placed (some i)) r := rfl

theorem countInBlock_of_counted
    (h : w.counter.increment r.context.height tx.typeUrls r.services = .ok i u) :
    countInBlock w tx false r = .ok () ⟨r.context.placed (some i), u⟩ := by
  rw [countInBlock_eq]
  exact bind_of_ok (call_eq_ok_iff.2 ⟨u, h, rfl⟩)

theorem countInBlock_of_full
    (h : w.counter.increment r.context.height tx.typeUrls r.services = .error e u) :
    countInBlock w tx false r = .error (.ofLedger e) { r with services := u } := by
  rw [countInBlock_eq]
  exact bind_of_error (call_eq_error_iff.2 ⟨e, u, h, rfl, rfl⟩)

end Gate

namespace Stage

theorem runAll_canonical_eq (r : Run σ) : runAll w tx false canonical r =
    runAll w tx false (canonical.drop 2)
      { r with context := r.context.reset false (r.context.freshMeter tx false) } := by
  have hpass : Passes w tx false [.setup, .gasCeiling] r
      { r with context := r.context.reset false (r.context.freshMeter tx false) } :=
    .cons rfl (.cons rfl (.nil _))
  exact hpass.runAll_append (canonical.drop 2)

/-- With a position in its block, a call goes on behind the stages that count it. -/
theorem runAll_canonical_of_counted
    (h : w.counter.increment r.context.height tx.typeUrls r.services = .ok i u) :
    runAll w tx false canonical r = runAll w tx false (canonical.drop 3)
      ⟨(r.context.reset false (r.context.freshMeter tx false)).placed (some i), u⟩ := by
  have hcount : Stage.blockIndex.run w tx false
      { r with context := r.context.reset false (r.context.freshMeter tx false) } =
      .ok .proceed ⟨(r.context.reset false (r.context.freshMeter tx false)).placed (some i), u⟩ :=
    proceeding_eq_ok_iff.2 ⟨rfl, Gate.countInBlock_of_counted h⟩
  have hpass := Passes.cons hcount (.nil _)
  rw [runAll_canonical_eq]
  exact hpass.runAll_append (canonical.drop 3)

/-- Without one it ends there. -/
theorem runAll_canonical_of_full
    (h : w.counter.increment r.context.height tx.typeUrls r.services = .error e u) :
    runAll w tx false canonical r = .error ⟨.blockIndex, .ofLedger e⟩
      ⟨r.context.reset false (r.context.freshMeter tx false), u⟩ := by
  have hcount : Stage.blockIndex.run w tx false
      { r with context := r.context.reset false (r.context.freshMeter tx false) } =
      .error (.ofLedger e) ⟨r.context.reset false (r.context.freshMeter tx false), u⟩ :=
    bind_of_error (Gate.countInBlock_of_full h)
  rw [runAll_canonical_eq]
  simp only [canonical, List.drop_succ_cons, List.drop_zero, runAll, hcount]

end Stage
end Intake
end Tollgate
