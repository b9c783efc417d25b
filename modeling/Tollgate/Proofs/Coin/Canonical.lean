import Mathlib.Data.List.Basic
import Tollgate.Coin.Basic
/-! Canonical coin sets: the check accepts exactly those, building a set from one changes nothing,
and every denom has one entry. -/
namespace Tollgate.Coins

/-- Denoms are well formed, amounts positive, and the entries ascend by the bytes of the denom. -/
structure Canonical (cs : List Coin) : Prop where
  valid : ∀ c ∈ cs, Denom.isValid c.denom = true
  positive : ∀ c ∈ cs, 0 < c.amount.toNat
  ascending : cs.Pairwise fun a b => utf8 a.denom < utf8 b.denom

theorem canonical_nil : Canonical [] := ⟨by simp, by simp, .nil⟩

theorem canonical_cons_iff {c : Coin} {cs : List Coin} :
    Canonical (c :: cs) ↔ Denom.isValid c.denom = true ∧ 0 < c.amount.toNat ∧
      (∀ d ∈ cs, utf8 c.denom < utf8 d.denom) ∧ Canonical cs := by
  constructor
  · rintro ⟨hvalid, hpos, hasc⟩
    rw [List.pairwise_cons] at hasc
    simp only [List.mem_cons, forall_eq_or_imp] at hvalid hpos
    exact ⟨hvalid.1, hpos.1, hasc.1, hvalid.2, hpos.2, hasc.2⟩
  · rintro ⟨hvalid, hpos, hlt, hcs⟩
    refine ⟨?_, ?_, List.pairwise_cons.2 ⟨hlt, hcs.ascending⟩⟩
    · simpa using ⟨hvalid, hcs.valid⟩
    · simpa using ⟨hpos, hcs.positive⟩

theorem Canonical.nodup_denoms {cs : List Coin} (h : Canonical cs) :
    (cs.map Coin.denom).Nodup := by
  rw [List.Nodup, List.pairwise_map]
  refine h.ascending.imp fun hlt he => ?_
  rw [he] at hlt
  exact List.lt_irrefl _ hlt

theorem checkOrder_eq_ok_iff {previous : Option String} {denom : String} :
    checkOrder previous denom = .ok () ↔ ∀ p ∈ previous, utf8 p < utf8 denom := by
  cases previous with
  | none => simp [checkOrder]
  | some p =>
    simp only [checkOrder, Option.mem_def, Option.some.injEq, forall_eq']
    by_cases he : p = denom
    · rw [if_pos he, he]
      simp only [reduceCtorEq, false_iff]
      exact List.lt_irrefl _
    · rw [if_neg he]
      have hne : utf8 p ≠ utf8 denom := fun h => he (utf8_inj.1 h)
      by_cases hlt : utf8 denom < utf8 p
      · simp only [if_pos hlt, reduceCtorEq, false_iff]
        exact List.not_lt.2 (List.le_of_lt hlt)
      · simp only [if_neg hlt, true_iff]
        exact Std.lt_of_le_of_ne (List.not_lt.1 hlt) hne

theorem checkFrom_cons_eq_ok_iff {previous : Option String} {c : Coin} {cs : List Coin} :
    checkFrom previous (c :: cs) = .ok () ↔ Denom.isValid c.denom = true ∧ 0 < c.amount.toNat ∧
      (∀ p ∈ previous, utf8 p < utf8 c.denom) ∧ checkFrom (some c.denom) cs = .ok () := by
  rw [← checkOrder_eq_ok_iff, checkFrom]
  unfold Coin.check Denom.check Coin.isZero Amount.isZero
  by_cases hvalid : Denom.isValid c.denom = true
  · by_cases hzero : c.amount.toNat = 0
    · simp [bind, Except.bind, hvalid, hzero, throw, throwThe, MonadExceptOf.throw]
    · have hpos : 0 < c.amount.toNat := by omega
      cases horder : checkOrder previous c.denom <;>
        simp [bind, Except.bind, hzero, hvalid, hpos]
  · simp [bind, Except.bind, hvalid]

theorem checkFrom_eq_ok_iff {previous : Option String} {cs : List Coin} :
    checkFrom previous cs = .ok () ↔
      Canonical cs ∧ ∀ p ∈ previous, ∀ c ∈ cs, utf8 p < utf8 c.denom := by
  induction cs generalizing previous with
  | nil => simp [checkFrom, canonical_nil]
  | cons c cs ih =>
    rw [checkFrom_cons_eq_ok_iff, canonical_cons_iff, ih]
    simp only [Option.mem_def, Option.some.injEq, forall_eq', List.mem_cons, forall_eq_or_imp]
    constructor
    · rintro ⟨hvalid, hpos, hprev, hcs, hlt⟩
      refine ⟨⟨hvalid, hpos, hlt, hcs⟩, fun p hp => ⟨hprev p hp, fun d hd => ?_⟩⟩
      exact List.lt_trans (hprev p hp) (hlt d hd)
    · rintro ⟨⟨hvalid, hpos, hlt, hcs⟩, hprev⟩
      exact ⟨hvalid, hpos, fun p hp => (hprev p hp).1, hcs, hlt⟩

theorem check_eq_ok_iff {s : Coins} : s.check = .ok () ↔ Canonical s.toList := by
  rw [check, checkFrom_eq_ok_iff]
  simp

/-- A canonical list is its own coin set. -/
theorem ofList_of_canonical {cs : List Coin} (h : Canonical cs) : ofList cs = .ok ⟨cs⟩ := by
  have hsorted : cs.mergeSort Coin.before = cs := by
    refine List.mergeSort_of_pairwise (h.ascending.imp fun hlt => ?_)
    exact decide_eq_true (List.le_of_lt hlt)
  have hcheck : (⟨cs⟩ : Coins).check = .ok () := check_eq_ok_iff.2 h
  simp only [ofList, hsorted, hcheck]
  rfl

section AmountOf

variable {c : Coin} {cs : List Coin} {denom : String}

theorem amountOf_cons : amountOf ⟨c :: cs⟩ denom =
    if c.denom = denom then c.amount else amountOf ⟨cs⟩ denom := by
  unfold amountOf
  by_cases h : c.denom = denom <;> simp [h]

theorem amountOf_eq_zero (h : ∀ c ∈ cs, c.denom ≠ denom) : amountOf ⟨cs⟩ denom = .zero := by
  have hnone : cs.find? (fun c => c.denom = denom) = none := by simpa using h
  unfold amountOf
  rw [hnone]

/-- Some entry states the amount of a denom, unless it is zero. -/
theorem amountOf_eq_zero_or (s : Coins) (denom : String) :
    s.amountOf denom = .zero ∨ ∃ c ∈ s.toList, c.denom = denom ∧ s.amountOf denom = c.amount := by
  unfold amountOf
  cases h : s.toList.find? fun c => c.denom = denom with
  | none => exact .inl rfl
  | some c => exact .inr ⟨c, List.mem_of_find?_eq_some h, by simpa using List.find?_some h, rfl⟩

/-- The amount of an entry is the amount of its denom, if no denom comes twice. -/
theorem amountOf_of_mem (hn : (cs.map Coin.denom).Nodup) (hc : c ∈ cs) :
    amountOf ⟨cs⟩ c.denom = c.amount := by
  induction cs with
  | nil => cases hc
  | cons d cs ih =>
    rw [List.map_cons, List.nodup_cons] at hn
    rw [amountOf_cons]
    rcases List.mem_cons.1 hc with rfl | hc
    · rw [if_pos rfl]
    · have hne : d.denom ≠ c.denom := fun he => hn.1 (he ▸ List.mem_map_of_mem hc)
      rw [if_neg hne]
      exact ih hn.2 hc

theorem toNat_amountOf_of_isZero {s : Coins} (h : s.isZero = true) (denom : String) :
    (s.amountOf denom).toNat = 0 := by
  rcases s.amountOf_eq_zero_or denom with hzero | ⟨c, hc, -, hamount⟩
  · simp [hzero]
  · have hczero : c.isZero = true := List.all_eq_true.1 h c hc
    unfold Coin.isZero Amount.isZero at hczero
    simpa [hamount] using hczero

end AmountOf
end Tollgate.Coins
