import Tollgate.Proofs.Admission.Overflow
import Tollgate.Proofs.Admission.Replay
/-! The accounts as a register of keys. No call opens, closes or renumbers an account, a stored key stays
for good, and no key gets in that is not the key of its address. -/
namespace Tollgate

open Call Relation

/-- A later state of an account: the same account, with the key that it had if it had one. -/
structure Account.Continues (old new : Account) : Prop where
  address : new.address = old.address
  number : new.number = old.number
  key : ∀ key, old.key = some key → new.key = some key

namespace Account.Continues

variable {x y z : Account}

protected theorem refl (x : Account) : x.Continues x := ⟨rfl, rfl, fun _ h => h⟩

protected theorem trans (hxy : x.Continues y) (hyz : y.Continues z) : x.Continues z :=
  ⟨hyz.address.trans hxy.address, hyz.number.trans hxy.number, fun k h => hyz.key k (hxy.key k h)⟩

end Account.Continues

namespace AccountBook

/-- The same addresses have accounts, and every account is a later state of what it was. -/
def Continues (b c : AccountBook) : Prop :=
  ∀ a, Option.Rel Account.Continues (b.find? a) (c.find? a)

namespace Continues

variable {b c d : AccountBook}

protected theorem refl (b : AccountBook) : b.Continues b := by
  intro a
  cases b.find? a with
  | none => exact .none
  | some account => exact .some (.refl account)

protected theorem trans (hbc : b.Continues c) (hcd : c.Continues d) : b.Continues d := by
  intro a
  have hb := hbc a
  have hc := hcd a
  revert hb hc
  generalize b.find? a = x, c.find? a = y, d.find? a = z
  rintro (h | _) (h' | _)
  · exact .some (h.trans h')
  · exact .none

theorem modify {a : Address} {f : Account → Account}
    (h : ∀ account, b.find? a = some account → account.Continues (f account)) :
    b.Continues (b.modify a f) := by
  intro x
  rw [find?_modify]
  split
  · next hx =>
    subst hx
    cases hfind : b.find? a with
    | none => exact .none
    | some account => exact .some (h account hfind)
  · exact Continues.refl b x

/-- A key may be stored where there is none. -/
theorem setKey {a : Address} (hnone : (b.find? a).bind Account.key = none) (key : PublicKey) :
    b.Continues (after (setKey a key) b) := by
  rw [after_setKey]
  refine .modify fun account hfind => ⟨rfl, rfl, fun k hk => ?_⟩
  rw [hfind, Option.bind_some, hk] at hnone
  cases hnone

theorem advanceSequence (a : Address) (b : AccountBook) :
    b.Continues (after (advanceSequence a) b) := by
  rcases after_advanceSequence a b with h | ⟨n, h⟩
  · rw [h]
    exact .refl b
  · obtain ⟨m, -, -, hb⟩ := advanceSequence_eq_ok_iff.1 h
    rw [hb]
    exact .modify fun account _ => ⟨rfl, rfl, fun _ hk => hk⟩

end Continues
end AccountBook

variable {σ : Type} {book : σ → AccountBook}

/-- The check that a key derives its address and the check that none is stored both stand before the
one change that stores a key. -/
theorem Change.continues {w : Wiring σ} {tx : Transaction} {simulate : Bool}
    (hw : w.KeepsBook book) {s : Stage} {r t : Run σ} (h : Change w tx simulate s r t) :
    (book r.services).Continues (book t.services) := by
  rcases h.book_cases hw with h | ⟨-, -, a, -, key, -, hnone, h⟩ | ⟨-, -, a, -, h⟩
  · rw [h]
    exact .refl _
  · rw [h]
    exact .setKey hnone key
  · rw [h]
    exact .advanceSequence a _

namespace Attempt

variable {q : Attempt σ} {qs : List (Attempt σ)}

theorem continues_leaves (hq : q.handler.wiring.KeepsBook book) (s : σ) :
    (book s).Continues (book (q.leaves s)) := by
  refine Stage.of_reached (P := fun x => (book s).Continues (book x.services)) ?_
    (q.reached s) (.refl _)
  intro _ _ x y hc hx
  exact hx.trans (hc.continues hq)

theorem continues_leavesAll (hqs : ∀ q ∈ qs, q.handler.wiring.KeepsBook book) (s : σ) :
    (book s).Continues (book (leavesAll qs s)) := by
  induction qs generalizing s with
  | nil => exact .refl _
  | cons q qs ih =>
    have hq := continues_leaves (hqs q List.mem_cons_self) s
    exact hq.trans (ih (fun p hp => hqs p (List.mem_cons_of_mem q hp)) (q.leaves s))

theorem keysDerive_leavesAll (hqs : ∀ q ∈ qs, q.handler.wiring.KeepsBook book) {s : σ}
    (hs : (book s).KeysDerive) : (book (leavesAll qs s)).KeysDerive := by
  induction qs generalizing s with
  | nil => exact hs
  | cons q qs ih =>
    have hq := Stage.keysDerive_of_reached (hqs q List.mem_cons_self) (q.reached s) hs
    exact ih (fun p hp => hqs p (List.mem_cons_of_mem q hp)) hq

/-- Keys are stored once and for good, over runs of calls of any handlers around accounts in memory,
whatever their orders of stages, contexts, modes and outcomes. Between any two points of a run no
account has come, gone or got another number, and every key that was stored at the first is stored
at the second. If at the start every stored key derived the address of its account, then so it is at
every point. -/
theorem keys_stored_for_good (hqs : ∀ q ∈ qs, q.handler.wiring.KeepsBook book) (s : σ) :
    ∀ ps ms rs, qs = ps ++ ms ++ rs →
      (book (leavesAll ps s)).Continues (book (leavesAll (ps ++ ms) s)) ∧
      ((book s).KeysDerive → (book (leavesAll ps s)).KeysDerive) := by
  rintro ps ms rs rfl
  have hps : ∀ q ∈ ps, q.handler.wiring.KeepsBook book := fun q hq =>
    hqs q (List.mem_append_left rs (List.mem_append_left ms hq))
  have hms : ∀ q ∈ ms, q.handler.wiring.KeepsBook book := fun q hq =>
    hqs q (List.mem_append_left rs (List.mem_append_right ps hq))
  refine ⟨?_, keysDerive_leavesAll hps⟩
  rw [leavesAll_append]
  exact continues_leavesAll hms _

end Attempt

/-- A transfer, not signed yet, that brings the key of another account. -/
def strangerTransfer : Transaction :=
  { transfer 0 none with
    authInfo := ⟨[⟨some trusteeKey, .single .direct, 0⟩], (transfer 0 none).authInfo.fee⟩
    signatures := [[]] }

/-- A simulation that accepts a wrong key, a transaction of two signers that fails at the second, and
a transfer of the first. -/
def registeringAttempts (h k : Handler (AccountBook × Memory)) :
    List (Attempt (AccountBook × Memory)) :=
  [⟨h, .new "unit" 1 0, strangerTransfer, true⟩,
   ⟨k, .new "unit" 1 0, signedJointTransfer, false⟩,
   ⟨h, .new "unit" 2 0, signedTransfer 0 none, false⟩]

/-- The keys of the unit account after the first call, after the second and after all three. -/
def registeredKeys (h k : Handler (AccountBook × Memory)) : List (Option PublicKey) :=
  [1, 2, 3].map fun n =>
    ((Attempt.leavesAll ((registeringAttempts h k).take n) unitServices).1.find?
      unitKey.address).bind Account.key

/-- The simulation is no failure and stores nothing; the second call fails and stores the key. -/
theorem registeringAttempts_keys :
    (signaturesFirst.toOption.any fun h => canonicalAroundUnit.toOption.any fun k =>
      decide (succeeds (h.handle strangerTransfer true) ⟨.new "unit" 1 0, unitServices⟩ = true ∧
        (Attempt.admitted (registeringAttempts h k) unitServices).map Attempt.tx =
          [signedTransfer 0 none] ∧
        registeredKeys h k = [none, some unitKey, some unitKey])) = true := by decide +kernel

theorem registeringAttempts_store_for_good : ∃ h k,
    signaturesFirst = .ok h ∧ canonicalAroundUnit = .ok k ∧
    registeredKeys h k = [none, some unitKey, some unitKey] ∧
    ∀ ps ms rs, registeringAttempts h k = ps ++ ms ++ rs →
      (Attempt.leavesAll ps unitServices).1.Continues
        (Attempt.leavesAll (ps ++ ms) unitServices).1 ∧
      (unitServices.1.KeysDerive → (Attempt.leavesAll ps unitServices).1.KeysDerive) := by
  have hkeys := registeringAttempts_keys
  cases hh : signaturesFirst with
  | error e =>
    rw [hh] at hkeys
    cases hkeys
  | ok h =>
    cases hk : canonicalAroundUnit with
    | error e =>
      rw [hh, hk] at hkeys
      cases hkeys
    | ok k =>
      rw [hh, hk] at hkeys
      have hkeep : h.wiring.KeepsBook Prod.fst :=
        (Options.wiring?_aroundBook (Options.build_eq_ok hh).1).1
      have kkeep : k.wiring.KeepsBook Prod.fst :=
        (Options.wiring?_aroundBook (Options.build_eq_ok hk).1).1
      have hall : ∀ q ∈ registeringAttempts h k, q.handler.wiring.KeepsBook Prod.fst := by
        intro q hq
        simp only [registeringAttempts, List.mem_cons, List.not_mem_nil, or_false] at hq
        rcases hq with rfl | rfl | rfl
        · exact hkeep
        · exact kkeep
        · exact hkeep
      exact ⟨h, k, rfl, rfl, (of_decide_eq_true hkeys).2.2,
        Attempt.keys_stored_for_good hall unitServices⟩

end Tollgate
