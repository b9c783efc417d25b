import Tollgate.Ledger.Memory
import Tollgate.Proofs.Ledger.Outcome
/-! Calls on one part of the services in memory: what they do there, and that they leave the other parts
alone. -/
namespace Tollgate.Memory

open Call

variable {ε α : Type}

theorem mirrors_onAccounts (c : Call ε AccountBook α) :
    Mirrors Memory.accounts (onAccounts c) c := by
  intro s
  unfold onAccounts
  cases c s.accounts <;> rfl

theorem mirrors_onCounter (c : Call ε BlockCounter α) : Mirrors Memory.counter (onCounter c) c := by
  intro s
  unfold onCounter
  cases c s.counter <;> rfl

theorem after_onAccounts (c : Call ε AccountBook α) (s : Memory) :
    after (onAccounts c) s = { s with accounts := after c s.accounts } := by
  unfold after onAccounts
  cases c s.accounts <;> rfl

theorem after_onBank (c : Call ε Bank α) (s : Memory) :
    after (onBank c) s = { s with bank := after c s.bank } := by
  unfold after onBank
  cases c s.bank <;> rfl

theorem after_onAllowances (c : Call ε Allowances α) (s : Memory) :
    after (onAllowances c) s = { s with allowances := after c s.allowances } := by
  unfold after onAllowances
  cases c s.allowances <;> rfl

theorem after_onCounter (c : Call ε BlockCounter α) (s : Memory) :
    after (onCounter c) s = { s with counter := after c s.counter } := by
  unfold after onCounter
  cases c s.counter <;> rfl

theorem leaves_accounts_onBank (c : Call ε Bank α) : Leaves Memory.accounts (onBank c) := by
  intro s
  rw [after_onBank]

theorem leaves_accounts_onAllowances (c : Call ε Allowances α) :
    Leaves Memory.accounts (onAllowances c) := by
  intro s
  rw [after_onAllowances]

theorem leaves_accounts_onCounter (c : Call ε BlockCounter α) :
    Leaves Memory.accounts (onCounter c) := by
  intro s
  rw [after_onCounter]

theorem leaves_counter_onAccounts (c : Call ε AccountBook α) :
    Leaves Memory.counter (onAccounts c) := by
  intro s
  rw [after_onAccounts]

theorem leaves_counter_onBank (c : Call ε Bank α) : Leaves Memory.counter (onBank c) := by
  intro s
  rw [after_onBank]

theorem leaves_counter_onAllowances (c : Call ε Allowances α) :
    Leaves Memory.counter (onAllowances c) := by
  intro s
  rw [after_onAllowances]

theorem onBank_eq_ok_iff {c : Call ε Bank α} {s t : Memory} {a : α} :
    onBank c s = .ok a t ↔ ∃ b, c s.bank = .ok a b ∧ t = { s with bank := b } := by
  unfold onBank
  cases c s.bank <;> simp [eq_comm]

theorem onAllowances_eq_ok_iff {c : Call ε Allowances α} {s t : Memory} {a : α} :
    onAllowances c s = .ok a t ↔
      ∃ g, c s.allowances = .ok a g ∧ t = { s with allowances := g } := by
  unfold onAllowances
  cases c s.allowances <;> simp [eq_comm]

theorem onAccounts_eq_ok_iff {c : Call ε AccountBook α} {s t : Memory} {a : α} :
    onAccounts c s = .ok a t ↔ ∃ b, c s.accounts = .ok a b ∧ t = { s with accounts := b } := by
  unfold onAccounts
  cases c s.accounts <;> simp [eq_comm]

theorem onAccounts_eq_error_iff {c : Call ε AccountBook α} {s t : Memory} {e : ε} :
    onAccounts c s = .error e t ↔ ∃ b, c s.accounts = .error e b ∧ t = { s with accounts := b } := by
  unfold onAccounts
  cases c s.accounts <;> simp [eq_comm]

theorem onAllowances_eq_error_iff {c : Call ε Allowances α} {s t : Memory} {e : ε} :
    onAllowances c s = .error e t ↔
      ∃ g, c s.allowances = .error e g ∧ t = { s with allowances := g } := by
  unfold onAllowances
  cases c s.allowances <;> simp [eq_comm]

theorem onCounter_eq_ok_iff {c : Call ε BlockCounter α} {s t : Memory} {a : α} :
    onCounter c s = .ok a t ↔ ∃ k, c s.counter = .ok a k ∧ t = { s with counter := k } := by
  unfold onCounter
  cases c s.counter <;> simp [eq_comm]

theorem onBank_eq_error_iff {c : Call ε Bank α} {s t : Memory} {e : ε} :
    onBank c s = .error e t ↔ ∃ b, c s.bank = .error e b ∧ t = { s with bank := b } := by
  unfold onBank
  cases c s.bank <;> simp [eq_comm]

theorem atomic_onBank {c : Call ε Bank α} (h : Atomic c) : Atomic (onBank c) := by
  intro s e t ht
  obtain ⟨b, hb, rfl⟩ := onBank_eq_error_iff.1 ht
  rw [h _ _ _ hb]

theorem atomic_onAllowances {c : Call ε Allowances α} (h : Atomic c) :
    Atomic (onAllowances c) := by
  intro s e t ht
  obtain ⟨g, hg, rfl⟩ := onAllowances_eq_error_iff.1 ht
  rw [h _ _ _ hg]

theorem atomic_onCounter {c : Call ε BlockCounter α} (h : Atomic c) : Atomic (onCounter c) := by
  intro s e t ht
  unfold onCounter at ht
  split at ht
  · cases ht
  · next k hk =>
    obtain ⟨rfl, rfl⟩ := EStateM.Result.error.inj ht
    rw [h _ _ _ hk]

end Tollgate.Memory
