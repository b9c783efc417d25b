import Mathlib.Data.List.Nodup
import Tollgate.Json.Shape
/-! Typed values come back from their documents. A decoder restores a form of its values if it reads every
document of that form as the value it was made of, as long as the document is nested less deep than the
levels that are left, and else refuses it. -/
namespace Tollgate.Json

section Depth

variable {levels : Nat}

theorem depthOfList_lt_iff (h : 0 < levels) {xs : List Json} :
    depthOfList xs < levels ↔ ∀ x ∈ xs, x.depth < levels := by
  induction xs with
  | nil => simpa [depthOfList] using h
  | cons x xs ih => rw [depthOfList, Nat.max_lt, ih, List.forall_mem_cons]

theorem depthOfMembers_lt_iff (h : 0 < levels) {ms : List (JsonText × Json)} :
    depthOfMembers ms < levels ↔ ∀ m ∈ ms, m.2.depth < levels := by
  induction ms with
  | nil => simpa [depthOfMembers] using h
  | cons m ms ih =>
    obtain ⟨k, v⟩ := m
    rw [depthOfMembers, Nat.max_lt, ih, List.forall_mem_cons]

end Depth

variable {α β γ : Type}

/-- What is inside a container has fewer levels. -/
theorem enter_bind_eq {g : Nat → Option α} {n levels : Nat} {a : α}
    (hg : ∀ l, 0 < l → l < levels → g l = if n < l then some a else none) :
    (enter levels).bind g = if 1 + n < levels then some a else none := by
  unfold enter
  by_cases h : levels ≤ 1
  · rw [if_pos h, if_neg (by omega)]
    rfl
  · rw [if_neg h]
    exact (hg (levels - 1) (by omega) (by omega)).trans (if_congr (by omega) rfl rfl)

theorem bind_ite_none {p : Prop} [Decidable p] (a : α) (g : α → Option β) :
    (if p then some a else none).bind g = if p then g a else none := by split <;> rfl

/-- The decoder reads a document of this form as its value, if it is not nested too deep. -/
def Restored (f : α → Json) (d : Decoder α) : Prop :=
  ∀ a levels, 0 < levels → d levels (f a) = if (f a).depth < levels then some a else none

namespace Restored

variable {f : α → Json} {d : Decoder α}

theorem of_scalar (hdepth : ∀ a, (f a).depth = 0) (h : ∀ a levels, d levels (f a) = some a) :
    Restored f d := by
  intro a levels hlevels
  rw [h, hdepth, if_pos hlevels]

theorem bool : Restored .bool Decoder.bool := of_scalar (fun _ => rfl) fun _ _ => rfl

theorem string : Restored string Decoder.string :=
  of_scalar (fun _ => rfl) fun s _ => JsonText.text?_ofString s

theorem below_nat {bound n : Nat} (h : n < bound) (levels : Nat) :
    Decoder.below bound levels (.nat n) = some n := if_pos h

theorem byte : Restored (fun b : UInt8 => .nat b.toNat) Decoder.byte :=
  of_scalar (fun _ => rfl) fun b levels => by
    rw [Decoder.byte, below_nat b.toNat_lt, Option.map_some, UInt8.ofNat_toNat]

theorem word32 : Restored (fun n : UInt32 => .nat n.toNat) Decoder.word32 :=
  of_scalar (fun _ => rfl) fun n levels => by
    rw [Decoder.word32, below_nat n.toNat_lt, Option.map_some, UInt32.ofNat_toNat]

theorem word64 : Restored (fun n : UInt64 => .nat n.toNat) Decoder.word64 :=
  of_scalar (fun _ => rfl) fun n levels => by
    rw [Decoder.word64, below_nat n.toNat_lt, Option.map_some, UInt64.ofNat_toNat]

/-- A value that is written in the form of another one, from which it can be found again. -/
theorem bind (h : Restored f d) {g : β → α} {k : α → Option β} (hk : ∀ b, k (g b) = some b) :
    Restored (fun b => f (g b)) fun levels j => (d levels j).bind k := by
  intro b levels hlevels
  dsimp only
  rw [h _ _ hlevels]
  split
  · exact hk b
  · rfl

/-- An absent value is null, so present ones must not be. -/
theorem option (h : Restored f d) (hnull : ∀ a, f a ≠ .null) :
    Restored (ofOption f) d.option := by
  intro o levels hlevels
  cases o with
  | none => exact (if_pos hlevels).symm
  | some a =>
    have hoption : d.option levels (f a) = (d levels (f a)).map some := by
      cases hf : f a with
      | null => exact absurd hf (hnull a)
      | _ => rfl
    change d.option levels (f a) = if (f a).depth < levels then some (some a) else none
    rw [hoption, h a levels hlevels]
    split <;> rfl

theorem mapM_eq {g : Json → Option α} {levels : Nat} {xs : List α}
    (hg : ∀ a ∈ xs, g (f a) = if (f a).depth < levels then some a else none) :
    (xs.map f).mapM g = if ∀ a ∈ xs, (f a).depth < levels then some xs else none := by
  induction xs with
  | nil => simp
  | cons a as ih =>
    rw [List.forall_mem_cons] at hg
    rw [List.map_cons, List.mapM_cons, hg.1, ih hg.2]
    simp only [List.forall_mem_cons, ite_and]
    split
    · split <;> rfl
    · rfl

/-- A list is read if its items are. -/
theorem list_eq {levels : Nat} {xs : List α} (h : ∀ a ∈ xs, ∀ l, 0 < l → l < levels →
      d l (f a) = if (f a).depth < l then some a else none) :
    d.list levels (ofList f xs) = if (ofList f xs).depth < levels then some xs else none := by
  refine enter_bind_eq fun l hpos hl => ?_
  rw [mapM_eq fun a ha => h a ha l hpos hl]
  refine if_congr ?_ rfl rfl
  rw [depthOfList_lt_iff hpos, List.forall_mem_map]

theorem list (h : Restored f d) : Restored (ofList f) d.list :=
  fun _ _ _ => list_eq fun a _ l hpos _ => h a l hpos

theorem bytes : Restored ofBytes Decoder.bytes := byte.list

theorem fixedBytes (n : Nat) : Restored (fun b : FixedBytes n => ofBytes b.toList)
    (Decoder.fixedBytes n) := bytes.bind FixedBytes.ofList?_toList

end Restored

section Structures

variable {names : List String} {values : List Json}

theorem textMembers_record (fs : List (String × Json)) :
    Decoder.textMembers (fs.map fun f => (.ofString f.1, f.2)) = some fs := by
  induction fs with
  | nil => rfl
  | cons f fs ih =>
    unfold Decoder.textMembers at ih ⊢
    rw [List.map_cons, List.mapM_cons, ih]
    simp

theorem occursOnce_of_nodup {ms : List (String × Json)} (h : (ms.map Prod.fst).Nodup)
    (name : String) : Decoder.occursOnce ms name = true := by
  have hcount := List.nodup_iff_count_le_one.1 h name
  rw [List.count, List.countP_map, List.countP_eq_length_filter] at hcount
  unfold Decoder.occursOnce
  simpa [Function.comp_def, beq_eq_decide] using hcount

theorem map_lookup_zip (hn : names.Nodup) (hl : values.length = names.length) :
    (names.map fun n => (names.zip values).lookup n) = values.map some := by
  induction names generalizing values with
  | nil =>
    obtain rfl := List.length_eq_zero_iff.1 hl
    rfl
  | cons n ns ih =>
    cases values with
    | nil => cases hl
    | cons v vs =>
      obtain ⟨hmem, hn⟩ := List.nodup_cons.1 hn
      rw [List.map_cons, List.map_cons, List.zip_cons_cons, List.lookup_cons_self,
        ← ih hn (Nat.succ.inj hl)]
      refine congrArg (some v :: ·) (List.map_congr_left fun m hm => ?_)
      have hne : (m == n) = false := beq_eq_false_iff_ne.2 fun he => hmem (he ▸ hm)
      rw [List.lookup_cons, hne]

/-- An object that was made of named fields has these fields. -/
theorem fields_record (hn : names.Nodup) (hl : values.length = names.length) (levels : Nat) :
    Decoder.fields names levels (record (names.zip values)) =
      (enter levels).bind fun levels => some ⟨levels, values.map some, true⟩ := by
  have honce : names.all (Decoder.occursOnce (names.zip values)) = true :=
    List.all_eq_true.2 fun n _ => occursOnce_of_nodup (by rwa [List.map_fst_zip (Nat.le_of_eq hl.symm)]) n
  have hknown : ((names.zip values).all fun m => m.1 ∈ names || m.2.isClean) = true := by
    refine List.all_eq_true.2 fun m hm => ?_
    rw [decide_eq_true (List.of_mem_zip hm).1, Bool.true_or]
  unfold record Decoder.fields
  dsimp only
  rw [textMembers_record, ← map_lookup_zip hn hl]
  cases enter levels with
  | none => rfl
  | some l =>
    simp only [Option.bind_eq_bind, Option.bind_some, guard, honce, hknown, if_true,
      Option.pure_def]

theorem depthOfMembers_zip_lt_iff (hl : values.length = names.length) {levels : Nat}
    (h : 0 < levels) :
    depthOfMembers ((names.zip values).map fun f => (.ofString f.1, f.2)) < levels ↔
      ∀ v ∈ values, v.depth < levels := by
  have hall : (∀ v ∈ (names.zip values).map Prod.snd, v.depth < levels) ↔
      ∀ f ∈ names.zip values, f.2.depth < levels := List.forall_mem_map
  rw [depthOfMembers_lt_iff h, List.forall_mem_map, ← hall, List.map_snd_zip (Nat.le_of_eq hl)]

/-- A structure is read if its fields are. -/
theorem fields_bind_eq (names : List String) (values : List Json) (hn : names.Nodup)
    (hl : values.length = names.length) {levels : Nat} {a : α} {read : Decoder.Fields → Option α}
    (hread : ∀ l, 0 < l → l < levels →
      read ⟨l, values.map some, true⟩ = if ∀ v ∈ values, v.depth < l then some a else none) :
    (Decoder.fields names levels (record (names.zip values))).bind read =
      if (record (names.zip values)).depth < levels then some a else none := by
  rw [fields_record hn hl, Option.bind_assoc]
  refine enter_bind_eq fun l hpos hlt => (hread l hpos hlt).trans (if_congr ?_ rfl rfl)
  exact (depthOfMembers_zip_lt_iff hl hpos).symm

end Structures

section Alternatives

theorem choice_record (name : String) (v : Json) (levels : Nat) :
    Decoder.choice levels (.record [(name, v)]) =
      (enter levels).bind fun levels => some ⟨name, levels, some v⟩ := by
  change (enter levels).bind (fun levels => (JsonText.ofString name).text?.bind fun name =>
    some (⟨name, levels, some v⟩ : Decoder.Choice)) = _
  rw [JsonText.text?_ofString]
  rfl

theorem depth_choice (name : String) (v : Json) : (record [(name, v)]).depth = 1 + v.depth := by
  simp [record, depth, depthOfMembers]

/-- An alternative is read if its content is. -/
theorem choice_bind_eq {name : String} {v : Json} {levels : Nat} {a : α}
    {pick : Decoder.Choice → Option α} (hpick : ∀ l, 0 < l → l < levels →
      pick ⟨name, l, some v⟩ = if v.depth < l then some a else none) :
    (Decoder.choice levels (.record [(name, v)])).bind pick =
      if (record [(name, v)]).depth < levels then some a else none := by
  rw [choice_record, Option.bind_assoc, depth_choice]
  exact enter_bind_eq hpick

theorem holding_eq {name : String} {j : Json} {levels : Nat} {d : Decoder α} {a : α}
    (h : d levels j = if j.depth < levels then some a else none) (g : α → β) :
    (⟨name, levels, some j⟩ : Decoder.Choice).holding d g =
      if j.depth < levels then some (g a) else none := by
  change (d levels j).map g = _
  rw [h]
  split <;> rfl

end Alternatives

namespace Restored

variable {f : α → Json} {d : Decoder α} {levels : Nat} {vs : List (Option Json)} {named : Bool}

theorem required (h : Restored f d) (hl : 0 < levels) (a : α) :
    (⟨levels, vs, named⟩ : Decoder.Fields).required d (some (f a)) =
      if (f a).depth < levels then some a else none := h a levels hl

theorem optional (h : Restored f d) (hnull : ∀ a, f a ≠ .null) (hl : 0 < levels) (o : Option α) :
    (⟨levels, vs, named⟩ : Decoder.Fields).optional d (some (ofOption f o)) =
      if (ofOption f o).depth < levels then some o else none := h.option hnull o levels hl

theorem holding (h : Restored f d) (g : α → β) (hl : 0 < levels) {name : String} (a : α) :
    (⟨name, levels, some (f a)⟩ : Decoder.Choice).holding d g =
      if (f a).depth < levels then some (g a) else none := holding_eq (h a levels hl) g

/-- A structure is restored if its fields are. -/
theorem record {f : γ → Json} {d : Decoder γ} (names : List String) (values : γ → List Json)
    (hn : names.Nodup) (hl : ∀ c, (values c).length = names.length)
    (hf : ∀ c, f c = .record (names.zip (values c))) {read : Decoder.Fields → Option γ}
    (hd : ∀ levels j, d levels j = (Decoder.fields names levels j).bind read)
    (hread : ∀ c levels, 0 < levels → read ⟨levels, (values c).map some, true⟩ =
      if ∀ v ∈ values c, v.depth < levels then some c else none) : Restored f d := by
  intro c levels _
  rw [hf, hd]
  exact fields_bind_eq names (values c) hn (hl c) fun l hpos _ => hread c l hpos

end Restored
end Tollgate.Json
