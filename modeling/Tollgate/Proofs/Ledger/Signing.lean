import Tollgate.Admission.Context
import Tollgate.Proofs.Ledger.Book
/-! What the keys and sequences of some signers make of an account book: their own accounts change,
each of them once, and nothing else does. -/
namespace Tollgate.AccountBook

open Call

variable {b c : AccountBook} {a : Address} {s : Signer} {ss : List Signer} {as : List Address}

/-- What a book holds besides the accounts. -/
def header (b : AccountBook) : AuthParams × UInt64 := (b.params, b.nextNumber)

theorem header_modify (b : AccountBook) (a : Address) (f : Account → Account) :
    (b.modify a f).header = b.header := by
  unfold modify
  cases b.find? a <;> rfl

/-- Stores the key of a signer in an account that has none. -/
def keepKey (b : AccountBook) (s : Signer) : AccountBook :=
  if ((b.find? s.address).bind Account.key).isNone then
    b.modify s.address fun account => { account with key := some s.key }
  else b

def keepKeys (b : AccountBook) (ss : List Signer) : AccountBook := ss.foldl keepKey b

theorem find?_keepKey_of_ne (h : s.address ≠ a) : (b.keepKey s).find? a = b.find? a := by
  unfold keepKey
  split
  · rw [find?_modify, if_neg h]
  · rfl

theorem find?_keepKey {account : Account} (h : b.find? s.address = some account) :
    (b.keepKey s).find? s.address =
      some { account with key := some (account.key.getD s.key) } := by
  unfold keepKey
  rw [h, Option.bind_some]
  cases hkey : account.key with
  | none =>
    simp only [Option.isNone_none, if_true, find?_modify, h, Option.map_some, Option.getD_none]
  | some key =>
    simp only [Option.isNone_some, Bool.false_eq_true, if_false, Option.getD_some]
    rw [h, ← hkey]

theorem find?_keepKeys_of_not_mem (h : a ∉ ss.map Signer.address) :
    (b.keepKeys ss).find? a = b.find? a := by
  induction ss generalizing b with
  | nil => rfl
  | cons s ss ih =>
    rw [List.map_cons, List.mem_cons, not_or] at h
    exact (ih h.2).trans (find?_keepKey_of_ne (Ne.symm h.1))

theorem find?_keepKeys_of_mem (hn : (ss.map Signer.address).Nodup) (hs : s ∈ ss)
    {account : Account} (h : b.find? s.address = some account) :
    (b.keepKeys ss).find? s.address =
      some { account with key := some (account.key.getD s.key) } := by
  induction ss generalizing b with
  | nil => cases hs
  | cons s' ss ih =>
    rw [List.map_cons, List.nodup_cons] at hn
    rcases List.mem_cons.1 hs with rfl | hs
    · exact (find?_keepKeys_of_not_mem hn.1).trans (find?_keepKey h)
    · have hne : s'.address ≠ s.address := fun he => hn.1 (he ▸ List.mem_map_of_mem hs)
      exact ih hn.2 hs ((find?_keepKey_of_ne hne).trans h)

theorem header_keepKeys (b : AccountBook) (ss : List Signer) :
    (b.keepKeys ss).header = b.header := by
  induction ss generalizing b with
  | nil => rfl
  | cons s ss ih =>
    refine (ih (b.keepKey s)).trans ?_
    unfold keepKey
    split
    · exact header_modify b _ _
    · rfl

theorem params_keepKeys (b : AccountBook) (ss : List Signer) : (b.keepKeys ss).params = b.params :=
  congrArg Prod.fst (header_keepKeys b ss)

/-- In the second book some of these addresses that had no key have one that derives the address.
Nothing else differs. -/
structure KeysAdded (b c : AccountBook) (as : List Address) : Prop where
  header : c.header = b.header
  account : ∀ a, c.find? a = b.find? a ∨ (a ∈ as ∧ ∃ (account : Account) (key : PublicKey),
    b.find? a = some account ∧ account.key = none ∧ key.address = a ∧
      c.find? a = some { account with key := some key })

namespace KeysAdded

protected theorem refl (b : AccountBook) (as : List Address) : b.KeysAdded b as :=
  ⟨rfl, fun _ => .inl rfl⟩

/-- An account that was given a key is not given another one. -/
protected theorem trans {d : AccountBook} (hbc : b.KeysAdded c as) (hcd : c.KeysAdded d as) :
    b.KeysAdded d as := by
  refine ⟨hcd.header.trans hbc.header, fun a => ?_⟩
  rcases hcd.account a with hsame | ⟨ha, account, key, hc, hnone, hkey, hd⟩
  · rw [hsame]
    exact hbc.account a
  · rcases hbc.account a with hsame | ⟨-, account', key', -, -, -, hc'⟩
    · exact .inr ⟨ha, account, key, hsame.symm.trans hc, hnone, hkey, hd⟩
    · obtain rfl := Option.some.inj (hc'.symm.trans hc)
      cases hnone

theorem sequence?_eq (h : b.KeysAdded c as) (a : Address) : c.sequence? a = b.sequence? a := by
  unfold sequence?
  rcases h.account a with hsame | ⟨-, account, key, hb, -, -, hc⟩
  · rw [hsame]
  · rw [hb, hc]
    rfl

theorem of_setKey (ha : a ∈ as) {key : PublicKey} (hkey : key.address = a)
    (hnone : (b.find? a).bind Account.key = none) :
    b.KeysAdded (after (setKey a key) b) as := by
  rw [after_setKey]
  refine ⟨header_modify b a _, fun x => ?_⟩
  rw [find?_modify]
  by_cases hx : a = x
  · subst hx
    rw [if_pos rfl]
    cases hfind : b.find? a with
    | none => exact .inl rfl
    | some account =>
      rw [hfind] at hnone
      exact .inr ⟨ha, account, key, rfl, hnone, hkey, rfl⟩
  · rw [if_neg hx]
    exact .inl rfl

end KeysAdded

/-- Advances the sequences of some accounts. -/
def advanceAll (as : List Address) : Call LedgerError AccountBook Unit :=
  as.forM fun a => do
    let _ ← advanceSequence a

theorem advanceAll_cons_eq_ok_iff : advanceAll (a :: as) b = .ok () c ↔
    ∃ account n, b.find? a = some account ∧ n.toNat = account.sequence.toNat + 1 ∧
      advanceAll as (b.setSequence a n) = .ok () c := by
  unfold advanceAll
  rw [List.forM_eq_forM, List.forM_cons, bind_eq_ok_iff]
  constructor
  · rintro ⟨⟨⟩, u, hu, hrest⟩
    obtain ⟨n, v, hv, hpure⟩ := bind_eq_ok_iff.1 hu
    obtain ⟨-, rfl⟩ := pure_eq_ok_iff.1 hpure
    obtain ⟨m, hm, hn, rfl⟩ := advanceSequence_eq_ok_iff.1 hv
    obtain ⟨account, haccount, rfl⟩ := Option.map_eq_some_iff.1 hm
    exact ⟨account, n, haccount, Word.add?_eq_some_iff.1 hn, hrest⟩
  · rintro ⟨account, n, haccount, hn, hrest⟩
    have hm : b.sequence? a = some account.sequence := by
      rw [sequence?, haccount, Option.map_some]
    have hadvance : advanceSequence a b = .ok n (b.setSequence a n) :=
      advanceSequence_eq_ok_iff.2 ⟨_, hm, Word.add?_eq_some_iff.2 hn, rfl⟩
    exact ⟨(), _, bind_eq_ok_iff.2 ⟨n, _, hadvance, rfl⟩, hrest⟩

theorem find?_setSequence_of_ne {x : Address} (h : a ≠ x) (n : UInt64) :
    (b.setSequence a n).find? x = b.find? x := by
  rw [setSequence, find?_modify, if_neg h]

theorem find?_setSequence {account : Account} (h : b.find? a = some account) (n : UInt64) :
    (b.setSequence a n).find? a = some { account with sequence := n } := by
  rw [setSequence, find?_modify, if_pos rfl, h, Option.map_some]

theorem find?_advanceAll_of_not_mem (h : advanceAll as b = .ok () c) (ha : a ∉ as) :
    c.find? a = b.find? a := by
  induction as generalizing b with
  | nil =>
    obtain ⟨-, rfl⟩ := pure_eq_ok_iff.1 h
    rfl
  | cons x as ih =>
    obtain ⟨account, n, -, -, hrest⟩ := advanceAll_cons_eq_ok_iff.1 h
    rw [List.mem_cons, not_or] at ha
    exact (ih hrest ha.2).trans (find?_setSequence_of_ne (Ne.symm ha.1) n)

theorem find?_advanceAll_of_mem (hn : as.Nodup) (h : advanceAll as b = .ok () c) (ha : a ∈ as) :
    ∃ account n, b.find? a = some account ∧ n.toNat = account.sequence.toNat + 1 ∧
      c.find? a = some { account with sequence := n } := by
  induction as generalizing b with
  | nil => cases ha
  | cons x as ih =>
    obtain ⟨account, n, haccount, hnext, hrest⟩ := advanceAll_cons_eq_ok_iff.1 h
    rw [List.nodup_cons] at hn
    rcases List.mem_cons.1 ha with rfl | ha
    · refine ⟨account, n, haccount, hnext, ?_⟩
      exact (find?_advanceAll_of_not_mem hrest hn.1).trans (find?_setSequence haccount n)
    · have hne : x ≠ a := fun he => hn.1 (he ▸ ha)
      obtain ⟨own, m, hown, hm, hc⟩ := ih hn.2 hrest ha
      rw [find?_setSequence_of_ne hne] at hown
      exact ⟨own, m, hown, hm, hc⟩

theorem header_advanceAll (h : advanceAll as b = .ok () c) : c.header = b.header := by
  induction as generalizing b with
  | nil =>
    obtain ⟨-, rfl⟩ := pure_eq_ok_iff.1 h
    rfl
  | cons x as ih =>
    obtain ⟨account, n, -, -, hrest⟩ := advanceAll_cons_eq_ok_iff.1 h
    exact (ih hrest).trans (header_modify b _ _)

end Tollgate.AccountBook
