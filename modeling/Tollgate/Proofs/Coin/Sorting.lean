import Mathlib.Data.List.Nodup
import Tollgate.Proofs.Coin.Canonical
import Tollgate.Proofs.Coin.Denom
/-! How a coin set is built. It is the one canonical arrangement of the given coins. There is one if the
denoms are well formed and different and the amounts positive, and it does not depend on the order in
which the coins are given; nor does the error if there is none. The check accepts what is built, and
nothing else. -/
namespace Tollgate.Coins

variable {cs ds : List Coin} {s : Coins}

theorem pairwise_mergeSort (cs : List Coin) :
    (cs.mergeSort Coin.before).Pairwise fun a b => utf8 a.denom ≤ utf8 b.denom := by
  have htrans (a b c : Coin) (hab : a.before b = true) (hbc : b.before c = true) :
      a.before c = true :=
    decide_eq_true (List.le_trans (of_decide_eq_true hab) (of_decide_eq_true hbc))
  have htotal (a b : Coin) : (a.before b || b.before a) = true := by
    rw [Bool.or_eq_true]
    exact (List.le_total (utf8 a.denom) (utf8 b.denom)).imp decide_eq_true decide_eq_true
  exact (List.pairwise_mergeSort htrans htotal cs).imp of_decide_eq_true

/-- Two coins of a canonical list in neither order are one. -/
theorem Canonical.eq_of_le {a b : Coin} (h : Canonical cs) (ha : a ∈ cs) (hb : b ∈ cs)
    (hab : utf8 a.denom ≤ utf8 b.denom) (hba : utf8 b.denom ≤ utf8 a.denom) : a = b :=
  List.inj_on_of_nodup_map h.nodup_denoms ha hb (utf8_inj.1 (List.le_antisymm hab hba))

/-- Sorting finds the canonical arrangement. -/
theorem Canonical.mergeSort_eq (h : Canonical cs) (hperm : cs.Perm ds) :
    ds.mergeSort Coin.before = cs := by
  have hsort := List.mergeSort_perm ds Coin.before
  refine List.Perm.eq_of_pairwise (fun a b ha hb => h.eq_of_le ?_ hb) (pairwise_mergeSort ds)
    (h.ascending.imp List.le_of_lt) (hsort.trans hperm.symm)
  exact hperm.mem_iff.2 (hsort.mem_iff.1 ha)

theorem ofList_eq_map (cs : List Coin) : ofList cs =
    (check ⟨cs.mergeSort Coin.before⟩).map fun _ => ⟨cs.mergeSort Coin.before⟩ := by
  dsimp only [ofList]
  cases check ⟨cs.mergeSort Coin.before⟩ <;> rfl

theorem ofList_eq_ok_iff : ofList cs = .ok s ↔ Canonical s.toList ∧ s.toList.Perm cs := by
  rw [ofList_eq_map]
  constructor
  · intro h
    cases hcheck : check ⟨cs.mergeSort Coin.before⟩ with
    | error e =>
      rw [hcheck] at h
      cases h
    | ok =>
      rw [hcheck] at h
      obtain rfl := Except.ok.inj h
      exact ⟨check_eq_ok_iff.1 hcheck, List.mergeSort_perm cs Coin.before⟩
  · rintro ⟨h, hperm⟩
    have hcheck : check ⟨s.toList⟩ = .ok () := check_eq_ok_iff.2 h
    rw [h.mergeSort_eq hperm, hcheck]
    rfl

theorem exists_ofList_eq_ok_iff : (∃ s, ofList cs = .ok s) ↔
    (∀ c ∈ cs, Denom.isValid c.denom = true) ∧ (∀ c ∈ cs, 0 < c.amount.toNat) ∧
      (cs.map Coin.denom).Nodup := by
  constructor
  · rintro ⟨s, hs⟩
    obtain ⟨h, hperm⟩ := ofList_eq_ok_iff.1 hs
    refine ⟨fun c hc => h.valid c (hperm.mem_iff.2 hc), fun c hc => h.positive c (hperm.mem_iff.2 hc),
      (hperm.map Coin.denom).nodup_iff.1 h.nodup_denoms⟩
  · rintro ⟨hvalid, hpositive, hnodup⟩
    have hsort := List.mergeSort_perm cs Coin.before
    have hne := (hsort.map Coin.denom).nodup_iff.2 hnodup
    rw [List.Nodup, List.pairwise_map] at hne
    refine ⟨⟨cs.mergeSort Coin.before⟩, ofList_eq_ok_iff.2 ⟨⟨fun c hc => hvalid c (hsort.mem_iff.1 hc),
      fun c hc => hpositive c (hsort.mem_iff.1 hc), ?_⟩, hsort⟩⟩
    exact ((pairwise_mergeSort cs).and hne).imp fun ⟨hle, hne⟩ =>
      Std.lt_of_le_of_ne hle fun he => hne (utf8_inj.1 he)

/-- Of positive amounts, the check reads the denoms alone. -/
theorem checkFrom_congr {previous : Option String} (hcs : ∀ c ∈ cs, c.isZero = false)
    (hds : ∀ d ∈ ds, d.isZero = false) (h : cs.map Coin.denom = ds.map Coin.denom) :
    checkFrom previous cs = checkFrom previous ds := by
  induction cs generalizing previous ds with
  | nil =>
    obtain rfl := List.map_eq_nil_iff.1 h.symm
    rfl
  | cons c cs ih =>
    cases ds with
    | nil => cases h
    | cons d ds =>
      obtain ⟨hdenom, h⟩ := List.cons.inj h
      rw [List.forall_mem_cons] at hcs hds
      unfold checkFrom Coin.check
      rw [hcs.1, hds.1, hdenom]
      simp only [ih hcs.2 hds.2 h]

/-- In whatever order positive amounts are given, the same set or the same error results. -/
theorem ofList_perm (h : cs.Perm ds) (hpositive : ∀ c ∈ cs, c.isZero = false) :
    ofList cs = ofList ds := by
  have hcs := List.mergeSort_perm cs Coin.before
  have hds := List.mergeSort_perm ds Coin.before
  have hperm := (hcs.trans h).trans hds.symm
  have hdenoms : (cs.mergeSort Coin.before).map Coin.denom =
      (ds.mergeSort Coin.before).map Coin.denom := by
    refine List.Perm.eq_of_pairwise
      (fun a b _ _ (hab : utf8 a ≤ utf8 b) (hba : utf8 b ≤ utf8 a) =>
        utf8_inj.1 (List.le_antisymm hab hba))
      (List.pairwise_map.2 (pairwise_mergeSort cs)) (List.pairwise_map.2 (pairwise_mergeSort ds))
      (hperm.map Coin.denom)
  have hcheck : check ⟨cs.mergeSort Coin.before⟩ = check ⟨ds.mergeSort Coin.before⟩ := by
    refine checkFrom_congr (fun c hc => hpositive c (hcs.mem_iff.1 hc)) (fun d hd => ?_) hdenoms
    exact hpositive d (h.mem_iff.2 (hds.mem_iff.1 hd))
  rw [ofList_eq_map, ofList_eq_map, hcheck]
  cases he : check ⟨ds.mergeSort Coin.before⟩ with
  | error e => rfl
  | ok =>
    have hcanonical := check_eq_ok_iff.1 (hcheck.trans he)
    rw [hcanonical.mergeSort_eq (hcs.trans h)]

/-- Entries in order are not found to be out of order, whatever else is wrong with them. -/
theorem checkFrom_ne_unsorted {previous : Option String}
    (h : cs.Pairwise fun a b => utf8 a.denom ≤ utf8 b.denom)
    (hprevious : ∀ p ∈ previous, ∀ c ∈ cs, utf8 p ≤ utf8 c.denom) :
    checkFrom previous cs ≠ .error .unsorted := by
  induction cs generalizing previous with
  | nil => exact nofun
  | cons c cs ih =>
    rw [List.pairwise_cons] at h
    have hrest : checkFrom (some c.denom) cs ≠ .error .unsorted :=
      ih h.2 fun p hp d hd => Option.some.inj hp ▸ h.1 d hd
    have horder : checkOrder previous c.denom ≠ .error .unsorted := by
      cases previous with
      | none => exact nofun
      | some p =>
        have hle := hprevious p rfl c List.mem_cons_self
        unfold checkOrder
        dsimp only
        rw [if_neg (List.not_lt.2 hle)]
        split <;> exact nofun
    unfold checkFrom Coin.check Denom.check
    by_cases hvalid : Denom.isValid c.denom = true
    · by_cases hzero : c.isZero = true
      · simp [bind, Except.bind, hvalid, hzero, throw, throwThe, MonadExceptOf.throw]
      · cases hcheck : checkOrder previous c.denom with
        | error e =>
          rw [hcheck] at horder
          simpa [bind, Except.bind, hvalid, hzero] using horder
        | ok => simpa [bind, Except.bind, hvalid, hzero] using hrest
    · simp [bind, Except.bind, hvalid]

theorem ofList_ne_unsorted (cs : List Coin) : ofList cs ≠ .error .unsorted := by
  have hcheck : check ⟨cs.mergeSort Coin.before⟩ ≠ .error .unsorted :=
    checkFrom_ne_unsorted (pairwise_mergeSort cs) nofun
  rw [ofList_eq_map]
  cases he : check ⟨cs.mergeSort Coin.before⟩ with
  | ok => exact nofun
  | error e =>
    rw [he] at hcheck
    exact fun h => hcheck (congrArg _ (Except.error.inj h))

/-- What is accepted is its own set, and no other list is built. -/
theorem ofList_self_iff : ofList cs = .ok ⟨cs⟩ ↔ Canonical cs := by
  rw [ofList_eq_ok_iff]
  exact and_iff_left (.refl cs)

theorem exists_ofList_iff : (∃ ds, ofList ds = .ok s) ↔ Canonical s.toList := by
  refine ⟨fun ⟨ds, hds⟩ => (ofList_eq_ok_iff.1 hds).1, fun h => ?_⟩
  exact ⟨s.toList, ofList_of_canonical h⟩

/-- Building finds the one canonical arrangement of some coins if there is one, and the check accepts
exactly what can be built. A set is built if and only if every denom is in the pattern, every amount is
positive and no denom comes twice. It is then the only arrangement of the coins that strictly ascends by
the bytes of the denoms, whatever the order in which they were given, it holds each amount that was
given and nothing of another denom. It never fails for the order. -/
theorem canonical_sets (cs : List Coin) :
    ((∃ s, ofList cs = .ok s) ↔
      (∀ c ∈ cs, c.denom.toList ∈ Denom.pattern.matches') ∧ (∀ c ∈ cs, 0 < c.amount.toNat) ∧
        (cs.map Coin.denom).Nodup) ∧
    (∀ s, ofList cs = .ok s →
      (∀ ds : List Coin, ds.Perm cs ∧ (ds.Pairwise fun a b => utf8 a.denom < utf8 b.denom) ↔
        ds = s.toList) ∧
      (∀ ds : List Coin, ds.Perm cs → ofList ds = .ok s) ∧
      (∀ c ∈ cs, s.amountOf c.denom = c.amount) ∧
      ∀ denom, denom ∉ cs.map Coin.denom → s.amountOf denom = .zero) ∧
    ofList cs ≠ .error .unsorted ∧
    (check ⟨cs⟩ = .ok () ↔ ∃ ds, ofList ds = .ok ⟨cs⟩) ∧
    (check ⟨cs⟩ = .ok () ↔ ofList cs = .ok ⟨cs⟩) := by
  refine ⟨?_, fun s hs => ?_, ofList_ne_unsorted cs, ?_, ?_⟩
  · simp only [← Denom.isValid_iff_mem_pattern]
    exact exists_ofList_eq_ok_iff
  · obtain ⟨h, hperm⟩ := ofList_eq_ok_iff.1 hs
    refine ⟨fun ds => ⟨fun ⟨hds, hascending⟩ => ?_, ?_⟩, fun ds hds => ?_, fun c hc => ?_,
      fun denom hdenom => ?_⟩
    · have hcanonical : Canonical ds := ⟨fun d hd => h.valid d (hperm.mem_iff.2 (hds.mem_iff.1 hd)),
        fun d hd => h.positive d (hperm.mem_iff.2 (hds.mem_iff.1 hd)), hascending⟩
      rw [← hcanonical.mergeSort_eq hds, h.mergeSort_eq hperm]
    · rintro rfl
      exact ⟨hperm, h.ascending⟩
    · exact ofList_eq_ok_iff.2 ⟨h, hperm.trans hds.symm⟩
    · exact amountOf_of_mem h.nodup_denoms (hperm.mem_iff.2 hc)
    · refine amountOf_eq_zero fun c hc he => hdenom (List.mem_map.2 ⟨c, hperm.mem_iff.1 hc, he⟩)
  · rw [check_eq_ok_iff, exists_ofList_iff]
  · rw [check_eq_ok_iff, ofList_self_iff]

/-- Atoms and stakes are put in order; the set holds five atoms, and no photons. -/
theorem atomsAndStakes_set :
    ofList [⟨"uatom", .clamp 5⟩, ⟨"stake", .clamp 10⟩] =
      .ok ⟨[⟨"stake", .clamp 10⟩, ⟨"uatom", .clamp 5⟩]⟩ ∧
    ofList [⟨"stake", .clamp 10⟩, ⟨"uatom", .clamp 5⟩] =
      .ok ⟨[⟨"stake", .clamp 10⟩, ⟨"uatom", .clamp 5⟩]⟩ ∧
    amountOf ⟨[⟨"stake", .clamp 10⟩, ⟨"uatom", .clamp 5⟩]⟩ "uatom" = .clamp 5 ∧
    amountOf ⟨[⟨"stake", .clamp 10⟩, ⟨"uatom", .clamp 5⟩]⟩ "photon" = .zero := by
  have hset : ofList [⟨"uatom", .clamp 5⟩, ⟨"stake", .clamp 10⟩] =
      .ok ⟨[⟨"stake", .clamp 10⟩, ⟨"uatom", .clamp 5⟩]⟩ :=
    ofList_eq_ok_iff.2 ⟨check_eq_ok_iff.1 (by decide +kernel), .swap _ _ _⟩
  obtain ⟨-, hall, -⟩ := canonical_sets [⟨"uatom", .clamp 5⟩, ⟨"stake", .clamp 10⟩]
  obtain ⟨-, hperm, hlisted, hother⟩ := hall _ hset
  exact ⟨hset, hperm _ (.swap _ _ _), hlisted _ List.mem_cons_self, hother "photon" (by decide)⟩

end Tollgate.Coins
