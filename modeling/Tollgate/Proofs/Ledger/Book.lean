import Tollgate.Ledger.Accounts
import Tollgate.Proofs.Ledger.Outcome
/-! What the calls of admission make of an account book. -/
namespace Tollgate

namespace AccountBook

open Call

/-- The number of an account, if there is one. -/
def number? (b : AccountBook) (a : Address) : Option UInt64 := (b.find? a).map Account.number

def sequence? (b : AccountBook) (a : Address) : Option UInt64 := (b.find? a).map Account.sequence

/-- Every stored key derives the address it is stored for. -/
def KeysDerive (b : AccountBook) : Prop :=
  ∀ a account key, b.find? a = some account → account.key = some key → key.address = a

/-- No account is lost, and no sequence is lower. -/
def Rises (b c : AccountBook) : Prop :=
  ∀ a n, b.sequence? a = some n → ∃ m, c.sequence? a = some m ∧ n ≤ m

theorem Rises.refl (b : AccountBook) : b.Rises b := fun _ n hn => ⟨n, hn, UInt64.le_refl n⟩

theorem Rises.trans {b c d : AccountBook} (hbc : b.Rises c) (hcd : c.Rises d) : b.Rises d := by
  intro a n hn
  obtain ⟨m, hm, hnm⟩ := hbc a n hn
  obtain ⟨k, hk, hmk⟩ := hcd a m hm
  exact ⟨k, hk, UInt64.le_trans hnm hmk⟩

theorem find?_modify (b : AccountBook) (a c : Address) (f : Account → Account) :
    (b.modify a f).find? c = if a = c then (b.find? c).map f else b.find? c := by
  unfold modify
  split
  · next account h =>
    simp only [find?, Table.find?_insert]
    split
    · next hac =>
      subst hac
      rw [find?] at h
      rw [h, Option.map_some]
    · rfl
  · next h =>
    split
    · next hac =>
      subst hac
      rw [h, Option.map_none]
    · rfl

theorem number?_modify (b : AccountBook) (a c : Address) {f : Account → Account}
    (hf : ∀ account, (f account).number = account.number) :
    (b.modify a f).number? c = b.number? c := by
  rw [number?, find?_modify]
  split
  · rw [Option.map_map]
    exact Option.map_congr fun account _ => hf account
  · rfl

theorem keysDerive_new (params : AuthParams) : (new params).KeysDerive := fun _ _ _ h => nomatch h

/-- A created account has no key yet. -/
theorem KeysDerive.create {b : AccountBook} (h : b.KeysDerive) (a : Address) :
    (b.create a).2.KeysDerive := by
  unfold AccountBook.create
  split
  · exact h
  · intro c account key hc hk
    change (b.accounts.insert a (.new a b.nextNumber)).find? c = some account at hc
    rw [Table.find?_insert] at hc
    split at hc
    · obtain rfl := Option.some.inj hc
      cases hk
    · exact h c account key hc hk

theorem after_setKey (a : Address) (key : PublicKey) (b : AccountBook) :
    after (setKey a key) b = b.modify a fun account => { account with key := some key } := by
  unfold after setKey
  cases h : b.find? a with
  | none => simp only [modify, h]
  | some account => rfl

theorem number?_setKey (a c : Address) (key : PublicKey) (b : AccountBook) :
    (after (setKey a key) b).number? c = b.number? c := by
  rw [after_setKey]
  exact number?_modify b a c fun _ => rfl

theorem sequence?_setKey (a c : Address) (key : PublicKey) (b : AccountBook) :
    (after (setKey a key) b).sequence? c = b.sequence? c := by
  rw [after_setKey, sequence?, find?_modify]
  split
  · rw [Option.map_map]
    rfl
  · rfl

theorem KeysDerive.setKey {b : AccountBook} (h : b.KeysDerive) {a : Address} {key : PublicKey}
    (hkey : key.address = a) : (after (setKey a key) b).KeysDerive := by
  intro c account k hc hk
  rw [after_setKey, find?_modify] at hc
  split at hc
  · next hac =>
    obtain ⟨old, -, rfl⟩ := Option.map_eq_some_iff.1 hc
    rw [← hac, ← hkey, ← Option.some.inj hk]
  · exact h c account k hc hk

theorem advanceSequence_eq_ok_iff {a : Address} {b c : AccountBook} {n : UInt64} :
    advanceSequence a b = .ok n c ↔
      ∃ m, b.sequence? a = some m ∧ Word.add? m 1 = some n ∧ c = b.setSequence a n := by
  unfold advanceSequence sequence?
  cases b.find? a with
  | none => simp
  | some account =>
    simp only [Option.map_some, Option.some.injEq, exists_eq_left']
    cases Word.add? account.sequence 1 with
    | none => simp
    | some m =>
      simp only [EStateM.Result.ok.injEq, Option.some.injEq]
      constructor
      · rintro ⟨rfl, rfl⟩
        exact ⟨rfl, rfl⟩
      · rintro ⟨rfl, rfl⟩
        exact ⟨rfl, rfl⟩

theorem advanceSequence_eq_error_iff {a : Address} {b c : AccountBook} {e : LedgerError} :
    advanceSequence a b = .error e c ↔ c = b ∧ ((b.sequence? a = none ∧ e = .accountNotFound a) ∨
      ∃ n, b.sequence? a = some n ∧ 2 ^ 64 ≤ n.toNat + 1 ∧ e = .store "sequence overflow") := by
  unfold advanceSequence sequence?
  cases b.find? a with
  | none => simp [eq_comm, and_comm]
  | some account =>
    have hnone := Word.add?_eq_none_iff (a := account.sequence) (b := 1)
    have hone : (1 : UInt64).toNat = 1 := rfl
    rw [hone] at hnone
    simp only [Option.map_some, Option.some.injEq, exists_eq_left', reduceCtorEq, false_and,
      false_or]
    rw [← hnone]
    cases Word.add? account.sequence 1 with
    | none => simp [eq_comm, and_comm]
    | some m => simp

/-- A sequence that cannot be raised is left as it is. -/
theorem after_advanceSequence (a : Address) (b : AccountBook) :
    after (advanceSequence a) b = b ∨
      ∃ n, advanceSequence a b = .ok n (after (advanceSequence a) b) := by
  cases h : advanceSequence a b with
  | ok n c => exact .inr ⟨n, by rw [after_of_ok h]⟩
  | error e c =>
    rw [after_of_error h]
    unfold advanceSequence at h
    split at h
    · exact .inl (EStateM.Result.error.inj h).2.symm
    · split at h
      · exact .inl (EStateM.Result.error.inj h).2.symm
      · cases h

theorem sequence?_setSequence (b : AccountBook) (a c : Address) (n : UInt64) :
    (b.setSequence a n).sequence? c =
      if a = c then (b.sequence? c).map fun _ => n else b.sequence? c := by
  rw [setSequence, sequence?, find?_modify]
  split
  · simp only [sequence?, Option.map_map, Function.comp_def]
  · rfl

theorem number?_setSequence (b : AccountBook) (a c : Address) (n : UInt64) :
    (b.setSequence a n).number? c = b.number? c := number?_modify b a c fun _ => rfl

theorem KeysDerive.setSequence {b : AccountBook} (h : b.KeysDerive) (a : Address) (n : UInt64) :
    (b.setSequence a n).KeysDerive := by
  intro c account k hc hk
  rw [AccountBook.setSequence, find?_modify] at hc
  split at hc
  · obtain ⟨old, hold, rfl⟩ := Option.map_eq_some_iff.1 hc
    exact h c old k hold hk
  · exact h c account k hc hk

theorem number?_advanceSequence (a c : Address) (b : AccountBook) :
    (after (advanceSequence a) b).number? c = b.number? c := by
  rcases after_advanceSequence a b with h | ⟨n, h⟩
  · rw [h]
  · obtain ⟨m, -, -, hb⟩ := advanceSequence_eq_ok_iff.1 h
    rw [hb, number?_setSequence]

theorem KeysDerive.advanceSequence {b : AccountBook} (h : b.KeysDerive) (a : Address) :
    (after (advanceSequence a) b).KeysDerive := by
  rcases after_advanceSequence a b with he | ⟨n, he⟩
  · rwa [he]
  · obtain ⟨m, -, -, hb⟩ := advanceSequence_eq_ok_iff.1 he
    rw [hb]
    exact h.setSequence a n

theorem rises_advanceSequence (a : Address) (b : AccountBook) :
    b.Rises (after (advanceSequence a) b) := by
  rcases after_advanceSequence a b with h | ⟨n, h⟩
  · rw [h]
    exact .refl b
  · obtain ⟨m, hm, hn, hb⟩ := advanceSequence_eq_ok_iff.1 h
    intro c k hk
    rw [hb, sequence?_setSequence]
    split
    · next hac =>
      subst hac
      rw [hm] at hk
      refine ⟨n, by rw [hm, Option.map_some], ?_⟩
      rw [← Option.some.inj hk, UInt64.le_iff_toNat_le, Word.add?_eq_some_iff.1 hn]
      omega
    · exact ⟨k, hk, UInt64.le_refl k⟩

end AccountBook
end Tollgate
