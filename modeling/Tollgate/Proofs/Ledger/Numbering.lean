import Tollgate.Proofs.Ledger.Signing
/-! The numbers of the accounts of a book. The counter moves with the accounts that the book numbers
itself, so an account that is put in as it is may have a number that the counter has still to reach. -/
namespace Tollgate.AccountBook

variable {b c : AccountBook} {a : Address} {n : UInt64} {k : Nat} {ns : List UInt64}

/-- No two addresses have accounts of one number. -/
def DistinctNumbers (b : AccountBook) : Prop :=
  ∀ a c n, b.number? a = some n → b.number? c = some n → a = c

/-- Some account has the number. -/
def Holds (b : AccountBook) (n : UInt64) : Prop := ∃ a, b.number? a = some n

theorem holds_iff_mem_entries : b.Holds n ↔ ∃ e ∈ b.accounts.entries, e.2.number = n := by
  simp only [Holds, number?, find?, Option.map_eq_some_iff, Table.find?_eq_some_iff]
  constructor
  · rintro ⟨a, account, hm, rfl⟩
    exact ⟨_, hm, rfl⟩
  · rintro ⟨e, hm, rfl⟩
    exact ⟨e.1, e.2, hm, rfl⟩

instance : Decidable (b.Holds n) := decidable_of_iff _ holds_iff_mem_entries.symm

theorem number?_eq_none_iff : b.number? a = none ↔ b.find? a = none := Option.map_eq_none_iff

theorem number?_insert (b : AccountBook) (account : Account) (x : Address) :
    (b.insert account).number? x =
      if account.address = x then some account.number else b.number? x := by
  simp only [number?, find?, insert, Table.find?_insert]
  split <;> rfl

/-- An account that is there is returned as it is. -/
theorem create_of_some {account : Account} (h : b.find? a = some account) :
    b.create a = (account, b) := by
  unfold create
  rw [h]

theorem create_of_none (h : b.find? a = none) : b.create a =
    (.new a b.nextNumber,
      { b.insert (.new a b.nextNumber) with nextNumber := b.nextNumber + 1 }) := by
  unfold create
  rw [h]

/-- One account more, and the numbers of the others as they were. -/
structure Adds (b : AccountBook) (a : Address) (n : UInt64) (c : AccountBook) : Prop where
  missing : b.number? a = none
  number : ∀ x, c.number? x = if a = x then some n else b.number? x

theorem adds_create (h : b.find? a = none) : b.Adds a b.nextNumber (b.create a).2 where
  missing := number?_eq_none_iff.2 h
  number x := by
    rw [create_of_none h]
    exact number?_insert b (.new a b.nextNumber) x

theorem adds_insert {account : Account} (h : b.number? account.address = none) :
    b.Adds account.address account.number (b.insert account) := ⟨h, number?_insert b account⟩

namespace Adds

theorem number_of_ne (h : b.Adds a n c) {x : Address} (hx : a ≠ x) : c.number? x = b.number? x := by
  rw [h.number, if_neg hx]

theorem number_self (h : b.Adds a n c) : c.number? a = some n := by rw [h.number, if_pos rfl]

/-- The new account is not the one of a number that was there. -/
theorem number_of_some (h : b.Adds a n c) {x : Address} {m : UInt64} (hx : b.number? x = some m) :
    c.number? x = some m := by
  rw [h.number_of_ne, hx]
  rintro rfl
  rw [h.missing] at hx
  cases hx

theorem holds_iff (h : b.Adds a n c) {m : UInt64} : c.Holds m ↔ b.Holds m ∨ m = n := by
  constructor
  · rintro ⟨x, hx⟩
    rw [h.number] at hx
    split at hx
    · exact .inr (Option.some.inj hx).symm
    · exact .inl ⟨x, hx⟩
  · rintro (⟨x, hx⟩ | rfl)
    · exact ⟨x, h.number_of_some hx⟩
    · exact ⟨a, h.number_self⟩

/-- Numbers stay distinct exactly if the number that is added is held by no account. -/
theorem distinctNumbers_iff (h : b.Adds a n c) :
    c.DistinctNumbers ↔ b.DistinctNumbers ∧ ¬ b.Holds n := by
  constructor
  · refine fun hc => ⟨fun x y m hx hy => ?_, fun ⟨x, hx⟩ => ?_⟩
    · exact hc x y m (h.number_of_some hx) (h.number_of_some hy)
    · obtain rfl := hc x a n (h.number_of_some hx) h.number_self
      rw [h.missing] at hx
      cases hx
  · rintro ⟨hb, hfree⟩ x y m hx hy
    rw [h.number] at hx hy
    split at hx <;> split at hy
    · next hax hay => exact hax.symm.trans hay
    · exact absurd ⟨y, hx ▸ hy⟩ hfree
    · exact absurd ⟨x, hy ▸ hx⟩ hfree
    · exact hb x y m hx hy

end Adds

/-- A book that has numbered `k` accounts itself, next to accounts that were added with the numbers
`ns`, each of them free at that time. A number that was added below `k` was still to come then, and is
held twice now. -/
structure Numbered (k : Nat) (ns : List UInt64) (b : AccountBook) : Prop where
  next : b.nextNumber = UInt64.ofNat k
  holds : ∀ n, b.Holds n ↔ n.toNat < k ∨ n ∈ ns
  distinct : b.DistinctNumbers ↔ k ≤ 2 ^ 64 ∧ ∀ n ∈ ns, k ≤ n.toNat

theorem numbered_new (params : AuthParams) : (new params).Numbered 0 [] where
  next := rfl
  holds n := by simp [Holds, number?, find?, new]
  distinct := by simp [DistinctNumbers, number?, find?, new]

namespace Numbered

theorem congr (h : b.Numbered k ns) (hnext : c.nextNumber = b.nextNumber)
    (hnumber : ∀ x, c.number? x = b.number? x) : c.Numbered k ns where
  next := hnext.trans h.next
  holds := by simpa only [Holds, hnumber] using h.holds
  distinct := by simpa only [DistinctNumbers, hnumber] using h.distinct

theorem modify (h : b.Numbered k ns) (a : Address) {f : Account → Account}
    (hf : ∀ account, (f account).number = account.number) : (b.modify a f).Numbered k ns :=
  h.congr (congrArg Prod.snd (header_modify b a f)) fun x => number?_modify b a x hf

/-- The counter has come round, or has come to a number that was added before it, exactly if the number
of a new account is held already. -/
theorem create (h : b.Numbered k ns) (hnone : b.find? a = none) :
    (b.create a).2.Numbered (k + 1) ns where
  next := by
    rw [create_of_none hnone]
    change b.nextNumber + 1 = _
    rw [h.next, UInt64.ofNat_add]
    rfl
  holds m := by
    have hm := m.toNat_lt
    rw [(adds_create hnone).holds_iff, h.holds, h.next, or_right_comm, ← UInt64.toNat_inj,
      UInt64.toNat_ofNat']
    refine or_congr_left ?_
    omega
  distinct := by
    rw [(adds_create hnone).distinctNumbers_iff, h.distinct, h.holds, h.next]
    have hnext := UInt64.toNat_ofNat' (n := k)
    constructor
    · rintro ⟨⟨hk, hns⟩, hfree⟩
      refine ⟨by omega, fun m hm => ?_⟩
      have hle := hns m hm
      have hne : m.toNat ≠ k := by
        rintro rfl
        exact hfree (.inr (by rwa [UInt64.ofNat_toNat]))
      omega
    · rintro ⟨hk, hns⟩
      refine ⟨⟨by omega, fun m hm => Nat.le_of_succ_le (hns m hm)⟩, ?_⟩
      rintro (hlt | hm)
      · omega
      · have hle := hns _ hm
        omega

theorem insert_new (h : b.Numbered k ns) {account : Account}
    (hmissing : b.number? account.address = none) (hfree : ¬ b.Holds account.number) :
    (b.insert account).Numbered k (ns ++ [account.number]) where
  next := h.next
  holds m := by
    rw [(adds_insert hmissing).holds_iff, h.holds, List.mem_append, List.mem_singleton, or_assoc]
  distinct := by
    rw [(adds_insert hmissing).distinctNumbers_iff, and_iff_left hfree, h.distinct]
    have hle : k ≤ account.number.toNat :=
      Nat.le_of_not_lt fun hlt => hfree ((h.holds _).2 (.inl hlt))
    simp only [List.forall_mem_append, List.forall_mem_singleton, hle, and_true]

theorem insert_old (h : b.Numbered k ns) {account : Account}
    (hsame : b.number? account.address = some account.number) :
    (b.insert account).Numbered k ns := by
  refine h.congr rfl fun x => ?_
  rw [number?_insert]
  split
  · next hx => rw [← hx, hsame]
  · rfl

end Numbered
end Tollgate.AccountBook
