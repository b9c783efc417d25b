import Tollgate.Proofs.Admission.Independence
import Tollgate.Proofs.Admission.Replay
import Tollgate.Proofs.Ledger.Numbering
/-! Account numbers over runs of operations on the accounts in memory and of calls of handlers around
them. The accounts that the book numbers itself never get a number twice before the counter comes round.
An account that is put in as it is does not move the counter, and its number is given once more when the
counter comes to it. -/
namespace Tollgate

open AccountBook (Numbered)

/-- An operation on accounts in memory, or a call of a handler around them. -/
inductive Operation (τ : Type) where
  | create (a : Address)
  | createModule (name : String)
  | insert (account : Account)
  | setSequence (a : Address) (sequence : UInt64)
  | setKey (a : Address) (key : PublicKey)
  | advanceSequence (a : Address)
  | handle (q : Attempt (AccountBook × τ))

namespace Operation

variable {τ : Type}

/-- The services after the operation, whether it failed or not. -/
def leaves : Operation τ → AccountBook × τ → AccountBook × τ
  | .create a, s => ((s.1.create a).2, s.2)
  | .createModule name, s => ((s.1.createModule name).2, s.2)
  | .insert account, s => (s.1.insert account, s.2)
  | .setSequence a sequence, s => (s.1.setSequence a sequence, s.2)
  | .setKey a key, s => (Call.after (AccountBook.setKey a key) s.1, s.2)
  | .advanceSequence a, s => (Call.after (AccountBook.advanceSequence a) s.1, s.2)
  | .handle q, s => q.leaves s

/-- The accounts of a handler that is called are the book. -/
def KeepsBook : Operation τ → Prop
  | .handle q => q.handler.wiring.KeepsBook Prod.fst
  | _ => True

/-- An account that is put in replaces one of its number, or is added with a number that none has. -/
def Allowed : Operation τ → AccountBook → Prop
  | .insert account, b => b.number? account.address = some account.number ∨
      b.number? account.address = none ∧ ¬ b.Holds account.number
  | _, _ => True

/-- How many accounts the operation opens under the number of the counter. -/
def opens : Operation τ → AccountBook → Nat
  | .create a, b => if b.find? a = none then 1 else 0
  | .createModule name, b => if b.find? (moduleAddress name) = none then 1 else 0
  | _, _ => 0

/-- The number of an account that the operation adds as it is. -/
def adds : Operation τ → AccountBook → List UInt64
  | .insert account, b => if b.number? account.address = none then [account.number] else []
  | _, _ => []

/-- The services after some operations, one after the other. -/
def leavesAll (ops : List (Operation τ)) (s : AccountBook × τ) : AccountBook × τ :=
  ops.foldl (fun s op => op.leaves s) s

/-- Every operation of a run is allowed where the ones before it have led. -/
def AllAllowed : List (Operation τ) → AccountBook × τ → Prop
  | [], _ => True
  | op :: ops, s => op.Allowed s.1 ∧ AllAllowed ops (op.leaves s)

def opened : List (Operation τ) → AccountBook × τ → Nat
  | [], _ => 0
  | op :: ops, s => op.opens s.1 + opened ops (op.leaves s)

def added : List (Operation τ) → AccountBook × τ → List UInt64
  | [], _ => []
  | op :: ops, s => op.adds s.1 ++ added ops (op.leaves s)

instance : (op : Operation τ) → (b : AccountBook) → Decidable (op.Allowed b)
  | .insert account, b => inferInstanceAs (Decidable (b.number? account.address = _ ∨ _))
  | .create _, _ | .createModule _, _ | .setSequence .., _ | .setKey .., _ | .advanceSequence _, _
  | .handle _, _ => .isTrue trivial

instance decidableAllAllowed :
    (ops : List (Operation τ)) → (s : AccountBook × τ) → Decidable (AllAllowed ops s)
  | [], _ => .isTrue trivial
  | op :: ops, s =>
    have := decidableAllAllowed ops (op.leaves s)
    inferInstanceAs (Decidable (op.Allowed s.1 ∧ _))

variable {op : Operation τ} {ops ps qs : List (Operation τ)} {s : AccountBook × τ} {k : Nat}
  {ns : List UInt64}

theorem AllAllowed.of_append (h : AllAllowed (ps ++ qs) s) : AllAllowed ps s := by
  induction ps generalizing s with
  | nil => trivial
  | cons op ps ih => exact ⟨h.1, ih h.2⟩

theorem numbered_create (hs : s.1.Numbered k ns) (a : Address) :
    (s.1.create a).2.Numbered (k + if s.1.find? a = none then 1 else 0) ns := by
  split
  · next hnone => exact hs.create hnone
  · next hsome =>
    obtain ⟨account, hfind⟩ := Option.ne_none_iff_exists'.1 hsome
    rwa [AccountBook.create_of_some hfind]

/-- What the counter and the numbers say of each other is kept by every operation. -/
theorem numbered_leaves (hop : op.KeepsBook) (hallowed : op.Allowed s.1)
    (hs : s.1.Numbered k ns) :
    (op.leaves s).1.Numbered (k + op.opens s.1) (ns ++ op.adds s.1) := by
  have hnone {c : AccountBook} {m : Nat} (h : c.Numbered m ns) : c.Numbered m (ns ++ []) := by
    rwa [List.append_nil]
  cases op with
  | create a => exact hnone (numbered_create hs a)
  | createModule name => exact hnone (numbered_create hs (moduleAddress name))
  | insert account =>
    rcases hallowed with hsame | ⟨hmissing, hfree⟩
    · rw [adds, hsame, if_neg (Option.some_ne_none _)]
      exact hnone (hs.insert_old hsame)
    · rw [adds, hmissing, if_pos rfl]
      exact hs.insert_new hmissing hfree
  | setSequence a sequence => exact hnone (hs.modify a fun _ => rfl)
  | setKey a key =>
    rw [leaves, AccountBook.after_setKey]
    exact hnone (hs.modify a fun _ => rfl)
  | advanceSequence a =>
    rw [leaves]
    rcases AccountBook.after_advanceSequence a s.1 with hsame | ⟨n, hn⟩
    · rw [hsame]
      exact hnone hs
    · obtain ⟨m, -, -, hset⟩ := AccountBook.advanceSequence_eq_ok_iff.1 hn
      rw [hset]
      exact hnone (hs.modify a fun _ => rfl)
  | handle q =>
    exact hnone (hs.congr (congrArg Prod.snd (Stage.header_of_reached hop (q.reached s)))
      (Stage.numbers_of_reached hop (q.reached s)))

theorem numbered_leavesAll (hops : ∀ op ∈ ops, op.KeepsBook) (hallowed : AllAllowed ops s)
    (hs : s.1.Numbered k ns) :
    (leavesAll ops s).1.Numbered (k + opened ops s) (ns ++ added ops s) := by
  induction ops generalizing s k ns with
  | nil =>
    rw [added, List.append_nil]
    exact hs
  | cons op ops ih =>
    have hop := numbered_leaves (hops op List.mem_cons_self) hallowed.1 hs
    rw [opened, added, ← Nat.add_assoc, ← List.append_assoc]
    exact ih (fun p hp => hops p (List.mem_cons_of_mem op hp)) hallowed.2 hop

/-- Only an account that is put in over it can give an account another number. -/
theorem number?_leaves (hop : op.KeepsBook) (hinsert : ∀ account, op ≠ .insert account) {a : Address}
    {n : UInt64} (h : s.1.number? a = some n) : (op.leaves s).1.number? a = some n := by
  have hcreate (c : Address) : (s.1.create c).2.number? a = some n := by
    cases hfind : s.1.find? c with
    | none => exact (AccountBook.adds_create hfind).number_of_some h
    | some account => rwa [AccountBook.create_of_some hfind]
  cases op with
  | create c => exact hcreate c
  | createModule name => exact hcreate (moduleAddress name)
  | insert account => exact absurd rfl (hinsert account)
  | setSequence c sequence => exact (AccountBook.number?_setSequence ..).trans h
  | setKey c key => exact (AccountBook.number?_setKey ..).trans h
  | advanceSequence c => exact (AccountBook.number?_advanceSequence ..).trans h
  | handle q => exact (Stage.numbers_of_reached hop (q.reached s) a).trans h

/-- Account numbers over every run from a new book, at every point of it, if every account that is put
in replaces one of its number or is added with a number that none has at that time. All numbers are
distinct exactly as long as the accounts that the book has opened itself are no more than there are
numbers, and no more than any number that was added. An account that is there is returned by its
creation as it is, and no operation but putting one in gives an account another number. -/
theorem numbers_distinct_until_reached (params : AuthParams) (t : τ)
    (hops : ∀ op ∈ ops, op.KeepsBook) (hallowed : AllAllowed ops (.new params, t)) :
    ∀ ps qs, ops = ps ++ qs →
      ((leavesAll ps (.new params, t)).1.DistinctNumbers ↔
        opened ps (.new params, t) ≤ 2 ^ 64 ∧
          ∀ n ∈ added ps (.new params, t), opened ps (.new params, t) ≤ n.toNat) ∧
      (∀ a account, (leavesAll ps (.new params, t)).1.find? a = some account →
        (leavesAll ps (.new params, t)).1.create a =
          (account, (leavesAll ps (.new params, t)).1)) ∧
      ∀ op rest, qs = op :: rest → (∀ account, op ≠ .insert account) →
        ∀ a n, (leavesAll ps (.new params, t)).1.number? a = some n →
          (leavesAll (ps ++ [op]) (.new params, t)).1.number? a = some n := by
  rintro ps qs rfl
  have hps : ∀ op ∈ ps, op.KeepsBook := fun op hop => hops op (List.mem_append_left qs hop)
  have hnumbered :=
    numbered_leavesAll hps hallowed.of_append (AccountBook.numbered_new params)
  rw [Nat.zero_add, List.nil_append] at hnumbered
  refine ⟨hnumbered.distinct, fun a account => AccountBook.create_of_some, ?_⟩
  rintro op rest rfl hinsert a n hn
  have hop := hops op (List.mem_append_right ps List.mem_cons_self)
  rw [leavesAll, List.foldl_append]
  exact number?_leaves hop hinsert hn

/-- An account of the number zero is put into a new book, and another one is created. -/
def insertedZero : List (Operation Unit) :=
  [.insert ⟨.replicate 20 1, 0, 0, none⟩, .create (.replicate 20 2)]

/-- The counter is at zero still when the number zero is put in, and gives it once more. -/
theorem insertedZero_reached :
    (∀ op ∈ insertedZero, op.KeepsBook) ∧ AllAllowed insertedZero (.new .default, ()) ∧
      ¬ (leavesAll insertedZero (.new .default, ())).1.DistinctNumbers := by
  refine ⟨by simp [insertedZero, KeepsBook], by decide, fun h => ?_⟩
  have hsame := h (.replicate 20 1) (.replicate 20 2) 0 (by decide) (by decide)
  exact absurd hsame (by decide)

end Operation

/-- A run that puts in an account of a number which the counter does not reach, with a call of a handler
on the way. -/
def sparedNumber (h : Handler (AccountBook × Memory)) : List (Operation Memory) :=
  [.create unitKey.address, .createModule "fee_collector", .insert ⟨.replicate 20 5, 7, 0, none⟩,
   .handle ⟨h, .new "unit" 1 0, signedTransfer 0 none, false⟩, .create (.replicate 20 6),
   .insert ⟨.replicate 20 5, 7, 3, none⟩]

theorem sparedNumber_allowed : (canonicalAroundUnit.toOption.any fun h =>
    decide (Operation.AllAllowed (sparedNumber h) (.new .default, unitServices.2) ∧
      Operation.opened (sparedNumber h) (.new .default, unitServices.2) = 3 ∧
      Operation.added (sparedNumber h) (.new .default, unitServices.2) = [7] ∧
      ((Operation.leavesAll (sparedNumber h) (.new .default, unitServices.2)).1.find?
        unitKey.address).bind Account.key = some unitKey)) = true := by decide +kernel

theorem sparedNumber_not_reached : ∃ h, canonicalAroundUnit = .ok h ∧
    (∀ op ∈ sparedNumber h, op.KeepsBook) ∧
    Operation.AllAllowed (sparedNumber h) (.new .default, unitServices.2) ∧
    (Operation.leavesAll (sparedNumber h) (.new .default, unitServices.2)).1.DistinctNumbers := by
  have hallowed := sparedNumber_allowed
  cases hh : canonicalAroundUnit with
  | error e =>
    rw [hh] at hallowed
    cases hallowed
  | ok h =>
    simp only [hh, Except.toOption, Option.any_some, decide_eq_true_eq] at hallowed
    obtain ⟨hallowed, hopened, hadded, -⟩ := hallowed
    have hkeep : h.wiring.KeepsBook Prod.fst :=
      (Options.wiring?_aroundBook (Options.build_eq_ok hh).1).1
    have hops : ∀ op ∈ sparedNumber h, op.KeepsBook := by
      intro op hop
      simp only [sparedNumber, List.mem_cons, List.not_mem_nil, or_false] at hop
      rcases hop with rfl | rfl | rfl | rfl | rfl | rfl
      case inr.inr.inr.inl => exact hkeep
      all_goals trivial
    refine ⟨h, rfl, hops, hallowed, ?_⟩
    refine (Operation.numbers_distinct_until_reached .default unitServices.2 hops hallowed
      (sparedNumber h) [] (List.append_nil _).symm).1.2 ?_
    rw [hopened, hadded]
    exact ⟨by decide, List.forall_mem_singleton.2 (by decide)⟩

end Tollgate
