import Mathlib.Data.List.Sort
import Tollgate.Proofs.Json.ReadBack
/-! Values whose sorted text tells them apart. Sorting loses the order of the members of an object, but
not what belongs to which key; so an object with fixed keys is told apart by its fields. -/
namespace Tollgate

@[simp] theorem JsonText.ofString_inj {s t : String} : ofString s = ofString t ↔ s = t := by
  simp [ofString, utf8_inj]

namespace Json

/-- Members compared by key alone. -/
def memberLe (m n : JsonText × Json) : Prop := m.1.bytes ≤ n.1.bytes

instance : DecidableRel memberLe := fun m n => inferInstanceAs (Decidable (m.1.bytes ≤ n.1.bytes))

theorem insertMember_eq (m : JsonText × Json) (ms : List (JsonText × Json)) :
    insertMember m ms = ms.orderedInsert memberLe m := by
  induction ms with
  | nil => rfl
  | cons n ns ih =>
    rw [insertMember, List.orderedInsert_cons, ih]
    rfl

theorem sortMembers_eq (ms : List (JsonText × Json)) :
    sortMembers ms = ms.insertionSort memberLe := by
  induction ms with
  | nil => rfl
  | cons m ms ih =>
    rw [List.insertionSort_cons, ← ih, ← insertMember_eq]
    rfl

theorem perm_sortMembers (ms : List (JsonText × Json)) : (sortMembers ms).Perm ms :=
  sortMembers_eq ms ▸ List.perm_insertionSort _ ms

theorem sortedList_eq_map (xs : List Json) : sortedList xs = xs.map sorted := by
  induction xs with
  | nil => rfl
  | cons x xs ih => rw [sortedList, ih, List.map_cons]

theorem sortedMembers_eq_map (ms : List (JsonText × Json)) :
    sortedMembers ms = ms.map fun m => (m.1, m.2.sorted) := by
  induction ms with
  | nil => rfl
  | cons m ms ih =>
    obtain ⟨k, v⟩ := m
    rw [sortedMembers, ih, List.map_cons]

@[simp] theorem sorted_string (s : String) : (string s).sorted = string s := rfl

@[simp] theorem string_inj {s t : String} : string s = string t ↔ s = t := by
  simp [string]

theorem Plain.sorted {j : Json} (h : Plain j) : Plain j.sorted := by
  induction h with
  | null => exact .null
  | bool b => exact .bool b
  | number h => exact .number h
  | text h => exact .text h
  | @list xs _ ih =>
    rw [Json.sorted, sortedList_eq_map]
    exact .list (List.forall_mem_map.2 ih)
  | @object ms hk _ ih =>
    rw [Json.sorted, sortedMembers_eq_map]
    have hmem (m : JsonText × Json)
        (hm : m ∈ sortMembers (ms.map fun m => (m.1, m.2.sorted))) :
        ∃ n ∈ ms, (n.1, n.2.sorted) = m := List.mem_map.1 ((perm_sortMembers _).mem_iff.1 hm)
    refine .object (fun m hm => ?_) fun m hm => ?_
    · obtain ⟨n, hn, rfl⟩ := hmem m hm
      exact hk n hn
    · obtain ⟨n, hn, rfl⟩ := hmem m hm
      exact ih n hn

/-- The members of an object that is made of named fields, with sorted values. -/
def fieldMembers (fields : List (String × Json)) : List (JsonText × Json) :=
  fields.map fun f => (.ofString f.1, f.2.sorted)

theorem perm_fieldMembers {fs gs : List (String × Json)} (h : (record fs).sorted = (record gs).sorted) :
    (fieldMembers fs).Perm (fieldMembers gs) := by
  have hsorted (fs : List (String × Json)) :
      (record fs).sorted = .object (sortMembers (fieldMembers fs)) := by
    rw [record, sorted, sortedMembers_eq_map, List.map_map]
    rfl
  rw [hsorted, hsorted] at h
  have hperm := perm_sortMembers (fieldMembers fs)
  rw [Json.object.inj h] at hperm
  exact hperm.symm.trans (perm_sortMembers _)

theorem plain_record {fs : List (String × Json)} (h : ∀ f ∈ fs, Plain f.2) : Plain (record fs) :=
  .object (List.forall_mem_map.2 fun _ _ => rfl) (List.forall_mem_map.2 h)

/-- An object with one member is told apart by the name and the content. -/
theorem sorted_choice_inj {n l : String} {i j : Json} :
    (record [(n, i)]).sorted = (record [(l, j)]).sorted ↔ n = l ∧ i.sorted = j.sorted := by
  change Json.object [(.ofString n, i.sorted)] = .object [(.ofString l, j.sorted)] ↔ _
  simp

/-- Entries of the same distinct keys in the same order are not permuted. -/
theorem eq_of_perm_of_keys {κ ν : Type} {xs ys : List (κ × ν)} (h : xs.Perm ys)
    (hkeys : xs.map Prod.fst = ys.map Prod.fst) (hn : (ys.map Prod.fst).Nodup) : xs = ys := by
  induction xs generalizing ys with
  | nil => exact h.nil_eq
  | cons x xs ih =>
    cases ys with
    | nil => cases hkeys
    | cons y ys =>
      rw [List.map_cons, List.map_cons, List.cons.injEq] at hkeys
      rw [List.map_cons, List.nodup_cons] at hn
      have hx : x = y := by
        rcases List.mem_cons.1 (h.mem_iff.1 List.mem_cons_self) with hx | hx
        · exact hx
        · exact absurd (hkeys.1 ▸ List.mem_map_of_mem hx) hn.1
      subst hx
      rw [ih h.cons_inv hkeys.2 hn.2]

variable {α β γ : Type} {f : α → Json}

/-- The sorted text of a value, in this form, is the text of no other value. -/
structure Faithful (f : α → Json) : Prop where
  plain : ∀ a, Plain (f a)
  sorted_inj : ∀ {a b}, (f a).sorted = (f b).sorted → a = b

/-- Several values in turn, told apart by all of them together. -/
structure FaithfulFields (g : α → List Json) : Prop where
  plain : ∀ a, ∀ v ∈ g a, Plain v
  sorted_inj : ∀ {a b}, (g a).map sorted = (g b).map sorted → a = b

namespace Faithful

theorem print_sorted_inj (h : Faithful f) {a b : α}
    (he : (f a).sorted.print = (f b).sorted.print) : a = b :=
  h.sorted_inj ((print_inj (h.plain a).sorted (h.plain b).sorted).1 he)

theorem comp (h : Faithful f) {g : β → α} (hg : Function.Injective g) :
    Faithful fun b => f (g b) where
  plain b := h.plain (g b)
  sorted_inj he := hg (h.sorted_inj he)

theorem string : Faithful Json.string where
  plain _ := .text rfl
  sorted_inj h := string_inj.1 h

theorem word8 : Faithful fun b : UInt8 => .nat b.toNat where
  plain b := .number (Nat.lt_trans b.toNat_lt (by decide))
  sorted_inj h := UInt8.toNat_inj.1 (Option.some.inj (Json.number.inj h))

theorem word64 : Faithful fun n : UInt64 => .nat n.toNat where
  plain n := .number n.toNat_lt
  sorted_inj h := UInt64.toNat_inj.1 (Option.some.inj (Json.number.inj h))

theorem ofList (h : Faithful f) : Faithful (Json.ofList f) where
  plain xs := .list (List.forall_mem_map.2 fun x _ => h.plain x)
  sorted_inj {xs ys} he := by
    rw [Json.ofList, Json.ofList, sorted, sorted, sortedList_eq_map, sortedList_eq_map, List.map_map,
      List.map_map] at he
    exact List.map_injective_iff.2 (fun a b => h.sorted_inj) (Json.list.inj he)

theorem ofBytes : Faithful Json.ofBytes := word8.ofList

/-- An absent value is null, so present ones must not be. -/
theorem ofOption (h : Faithful f) (hnull : ∀ a, (f a).sorted ≠ .null) :
    Faithful (Json.ofOption f) where
  plain o := by
    cases o with
    | none => exact .null
    | some a => exact h.plain a
  sorted_inj {o p} he := by
    cases o with
    | none =>
      cases p with
      | none => rfl
      | some b => exact absurd he.symm (hnull b)
    | some a =>
      cases p with
      | none => exact absurd he (hnull a)
      | some b => rw [h.sorted_inj he]

end Faithful

namespace FaithfulFields

variable {g : β → List Json}

theorem nil : FaithfulFields fun _ : Unit => [] := ⟨fun _ => nofun, fun _ => rfl⟩

theorem cons (hf : Faithful f) (hg : FaithfulFields g) :
    FaithfulFields fun p : α × β => f p.1 :: g p.2 where
  plain p := List.forall_mem_cons.2 ⟨hf.plain p.1, hg.plain p.2⟩
  sorted_inj {p q} h := by
    rw [List.map_cons, List.map_cons, List.cons.injEq] at h
    exact Prod.ext (hf.sorted_inj h.1) (hg.sorted_inj h.2)

/-- A structure is told apart by its fields. -/
theorem record (hg : FaithfulFields g) (names : List String) (toFields : γ → β) (ofFields : β → γ)
    (hn : names.Nodup) (hof : Function.LeftInverse ofFields toFields) {f : γ → Json}
    (hf : ∀ c, f c = .record (names.zip (g (toFields c))))
    (hl : ∀ b, (g b).length = names.length) : Faithful f where
  plain c := by
    rw [hf]
    exact plain_record fun x hx => hg.plain _ _ (List.of_mem_zip hx).2
  sorted_inj {c d} h := by
    rw [hf, hf] at h
    have hkeys (b : β) : (fieldMembers (names.zip (g b))).map Prod.fst = names.map .ofString := by
      rw [fieldMembers, List.map_map]
      change (names.zip (g b)).map (JsonText.ofString ∘ Prod.fst) = _
      rw [← List.map_map, List.map_fst_zip (hl b).ge]
    have hvalues (b : β) : (fieldMembers (names.zip (g b))).map Prod.snd = (g b).map sorted := by
      rw [fieldMembers, List.map_map]
      change (names.zip (g b)).map (sorted ∘ Prod.snd) = _
      rw [← List.map_map, List.map_snd_zip (hl b).le]
    have hnodup : (names.map JsonText.ofString).Nodup :=
      hn.map fun _ _ => JsonText.ofString_inj.1
    have heq := eq_of_perm_of_keys (perm_fieldMembers h) ((hkeys _).trans (hkeys _).symm)
      ((hkeys _).symm ▸ hnodup)
    have hsame := congrArg (List.map Prod.snd) heq
    rw [hvalues, hvalues] at hsame
    exact hof.injective (hg.sorted_inj hsame)

end FaithfulFields
end Json
end Tollgate
