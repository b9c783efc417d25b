/-! Finite maps as lists of entries without repeated keys. A new key goes to the end. -/
namespace Tollgate

namespace Entries

variable {κ ν : Type} [DecidableEq κ]

def find? (k : κ) : List (κ × ν) → Option ν
  | [] => none
  | e :: es => if e.1 = k then some e.2 else find? k es

/-- Replaces the value of a key, or appends an entry for it. -/
def insert (k : κ) (v : ν) : List (κ × ν) → List (κ × ν)
  | [] => [(k, v)]
  | e :: es => if e.1 = k then (k, v) :: es else e :: insert k v es

def erase (k : κ) : List (κ × ν) → List (κ × ν)
  | [] => []
  | e :: es => if e.1 = k then erase k es else e :: erase k es

theorem find?_insert (k j : κ) (v : ν) (es : List (κ × ν)) :
    find? j (insert k v es) = if k = j then some v else find? j es := by
  induction es with
  | nil => simp [insert, find?]
  | cons e es ih =>
    unfold insert
    split
    · next h => by_cases hj : k = j <;> simp [find?, h, hj]
    · next h =>
      by_cases hj : e.1 = j
      · subst hj; simp [find?, Ne.symm h]
      · simp [find?, hj, ih]

theorem find?_erase (k j : κ) (es : List (κ × ν)) :
    find? j (erase k es) = if k = j then none else find? j es := by
  induction es with
  | nil => simp [erase, find?]
  | cons e es ih =>
    unfold erase
    split
    · next h => by_cases hj : k = j <;> simp_all [find?]
    · next h =>
      by_cases hj : e.1 = j
      · subst hj; simp [find?, Ne.symm h]
      · simp [find?, hj, ih]

theorem mem_keys_of_find? {k : κ} {v : ν} {es : List (κ × ν)} (h : find? k es = some v) :
    k ∈ es.map Prod.fst := by
  induction es with
  | nil => cases h
  | cons e es ih =>
    unfold find? at h
    split at h
    · next he => exact List.mem_cons.2 (.inl he.symm)
    · exact List.mem_cons_of_mem _ (ih h)

theorem find?_eq_some_iff {k : κ} {v : ν} {es : List (κ × ν)} (h : (es.map Prod.fst).Nodup) :
    find? k es = some v ↔ (k, v) ∈ es := by
  induction es with
  | nil => simp [find?]
  | cons e es ih =>
    have hc := List.nodup_cons.1 h
    unfold find?
    rw [List.mem_cons]
    split
    · next he =>
      subst he
      have hrest : (e.1, v) ∉ es := fun hm => hc.1 (List.mem_map.2 ⟨_, hm, rfl⟩)
      simp [Prod.ext_iff, hrest, eq_comm]
    · next he => simp [Prod.ext_iff, ih hc.2, Ne.symm he]

theorem mem_keys_insert {k j : κ} {v : ν} {es : List (κ × ν)}
    (h : j ∈ (insert k v es).map Prod.fst) : j = k ∨ j ∈ es.map Prod.fst := by
  induction es with
  | nil => simp only [insert, List.map, List.mem_singleton] at h; exact .inl h
  | cons e es ih =>
    unfold insert at h
    split at h
    · simp only [List.map_cons, List.mem_cons] at h ⊢
      exact h.imp id .inr
    · simp only [List.map_cons, List.mem_cons] at h ⊢
      rcases h with h | h
      · exact .inr (.inl h)
      · exact (ih h).imp id .inr

theorem nodup_keys_insert {k : κ} {v : ν} {es : List (κ × ν)} (h : (es.map Prod.fst).Nodup) :
    ((insert k v es).map Prod.fst).Nodup := by
  induction es with
  | nil => simp [insert]
  | cons e es ih =>
    have hc := List.nodup_cons.1 h
    unfold insert
    split
    · next he => simpa [← he] using h
    · next he =>
      refine List.nodup_cons.2 ⟨fun hm => ?_, ih hc.2⟩
      exact (mem_keys_insert hm).elim he hc.1

theorem erase_sublist (k : κ) (es : List (κ × ν)) : (erase k es).Sublist es := by
  induction es with
  | nil => exact .slnil
  | cons e es ih =>
    unfold erase
    split
    · exact ih.cons e
    · exact ih.cons_cons e

theorem nodup_keys_erase {k : κ} {es : List (κ × ν)} (h : (es.map Prod.fst).Nodup) :
    ((erase k es).map Prod.fst).Nodup := h.sublist ((erase_sublist k es).map _)

end Entries

/-- A finite map from keys to values. -/
structure Table (κ ν : Type) where
  entries : List (κ × ν)
  nodup_keys : (entries.map Prod.fst).Nodup

namespace Table

variable {κ ν : Type} [DecidableEq κ]

def empty : Table κ ν := ⟨[], List.nodup_nil⟩

def find? (t : Table κ ν) (k : κ) : Option ν := Entries.find? k t.entries

def insert (t : Table κ ν) (k : κ) (v : ν) : Table κ ν :=
  ⟨Entries.insert k v t.entries, Entries.nodup_keys_insert t.nodup_keys⟩

def erase (t : Table κ ν) (k : κ) : Table κ ν :=
  ⟨Entries.erase k t.entries, Entries.nodup_keys_erase t.nodup_keys⟩

def size (t : Table κ ν) : Nat := t.entries.length

@[simp] theorem find?_empty (k : κ) : (empty : Table κ ν).find? k = none := rfl

theorem find?_insert (t : Table κ ν) (k j : κ) (v : ν) :
    (t.insert k v).find? j = if k = j then some v else t.find? j := Entries.find?_insert ..

theorem find?_eq_some_iff {t : Table κ ν} {k : κ} {v : ν} :
    t.find? k = some v ↔ (k, v) ∈ t.entries := Entries.find?_eq_some_iff t.nodup_keys

theorem find?_erase (t : Table κ ν) (k j : κ) :
    (t.erase k).find? j = if k = j then none else t.find? j := Entries.find?_erase ..

end Table
end Tollgate
