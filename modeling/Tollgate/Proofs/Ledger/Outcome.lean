import Mathlib.Data.List.Forall2
import Mathlib.Logic.Relation
import Tollgate.Ledger.Service
/-! What calls leave behind, whether they fail or not: a call moves within a relation when every
state it leaves is reached by steps of the relation. -/
namespace Tollgate.Call

open Relation

variable {ε ε' σ α β : Type} {R : σ → σ → Prop}

/-- The state a call leaves, whether it fails or not. -/
def after (c : Call ε σ α) (s : σ) : σ :=
  match c s with
  | .ok _ t => t
  | .error _ t => t

theorem after_of_ok {c : Call ε σ α} {s t : σ} {a : α} (h : c s = .ok a t) : after c s = t := by
  simp [after, h]

theorem after_of_error {c : Call ε σ α} {s t : σ} {e : ε} (h : c s = .error e t) :
    after c s = t := by simp [after, h]

@[simp] theorem after_ofExcept (x : Except ε α) (s : σ) : after (ofExcept x) s = s := by
  cases x <;> rfl

@[simp] theorem after_mapError (f : ε → ε') (c : Call ε σ α) (s : σ) :
    after (c.mapError f) s = after c s := by
  simp only [after, mapError]
  cases c s <;> rfl

theorem mapError_eq_ok_iff {f : ε → ε'} {c : Call ε σ α} {s t : σ} {a : α} :
    c.mapError f s = .ok a t ↔ c s = .ok a t := by
  unfold mapError
  cases c s <;> simp

theorem mapError_eq_error_iff {f : ε → ε'} {c : Call ε σ α} {s t : σ} {e : ε'} :
    c.mapError f s = .error e t ↔ ∃ x, c s = .error x t ∧ e = f x := by
  unfold mapError
  cases c s <;> simp [eq_comm, and_comm]

theorem ofExcept_eq_ok_iff {x : Except ε α} {s t : σ} {a : α} :
    ofExcept x s = .ok a t ↔ x = .ok a ∧ s = t := by
  cases x <;> simp [ofExcept]

theorem ofExcept_bind (x : Except ε α) (f : α → Except ε β) :
    (ofExcept (x >>= f) : Call ε σ β) = ofExcept x >>= fun a => ofExcept (f a) := by
  cases x <;> rfl

theorem except_bind_eq_ok_iff {x : Except ε α} {f : α → Except ε β} {b : β} :
    (x >>= f) = .ok b ↔ ∃ a, x = .ok a ∧ f a = .ok b := by
  cases x <;> simp [bind, Except.bind]

theorem pure_eq_ok_iff {a b : α} {s t : σ} : (pure a : Call ε σ α) s = .ok b t ↔ a = b ∧ s = t := by
  change EStateM.Result.ok a s = .ok b t ↔ _
  simp

theorem throw_ne_ok {e : ε} {a : α} {s t : σ} : ¬ (throw e : Call ε σ α) s = .ok a t := nofun

theorem bind_eq_ok_iff {c : Call ε σ α} {f : α → Call ε σ β} {s t : σ} {b : β} :
    (c >>= f) s = .ok b t ↔ ∃ a u, c s = .ok a u ∧ f a u = .ok b t := by
  change EStateM.bind c f s = .ok b t ↔ _
  cases h : c s <;> simp [EStateM.bind, h]

theorem bind_eq_error_iff {c : Call ε σ α} {f : α → Call ε σ β} {s t : σ} {e : ε} :
    (c >>= f) s = .error e t ↔ c s = .error e t ∨ ∃ a u, c s = .ok a u ∧ f a u = .error e t := by
  change EStateM.bind c f s = .error e t ↔ _
  cases h : c s <;> simp [EStateM.bind, h]

theorem bind_of_ok {c : Call ε σ α} {f : α → Call ε σ β} {s u : σ} {a : α} (h : c s = .ok a u) :
    (c >>= f) s = f a u := by
  change EStateM.bind c f s = _
  simp only [EStateM.bind, h]

theorem bind_of_error {c : Call ε σ α} {f : α → Call ε σ β} {s u : σ} {e : ε}
    (h : c s = .error e u) : (c >>= f) s = .error e u := by
  change EStateM.bind c f s = _
  simp only [EStateM.bind, h]

theorem after_bind_of_ok {c : Call ε σ α} {f : α → Call ε σ β} {s u : σ} {a : α}
    (h : c s = .ok a u) : after (c >>= f) s = after (f a) u := by
  change after (EStateM.bind c f) s = _
  simp [after, EStateM.bind, h]

theorem after_bind_of_error {c : Call ε σ α} {f : α → Call ε σ β} {s u : σ} {e : ε}
    (h : c s = .error e u) : after (c >>= f) s = u := by
  change after (EStateM.bind c f) s = _
  simp [after, EStateM.bind, h]

theorem after_bind_reached {c : Call ε σ α} {f : α → Call ε σ β} {s : σ}
    (hc : ReflTransGen R s (after c s))
    (hf : ∀ a t, c s = .ok a t → ReflTransGen R t (after (f a) t)) :
    ReflTransGen R s (after (c >>= f) s) := by
  cases h : c s with
  | ok a t =>
    rw [after_of_ok h] at hc
    rw [after_bind_of_ok h]
    exact hc.trans (hf a t h)
  | error e t =>
    rw [after_of_error h] at hc
    rwa [after_bind_of_error h]

/-- Every state the call leaves is reached by steps of the relation. -/
def Within (R : σ → σ → Prop) (c : Call ε σ α) : Prop := ∀ s, ReflTransGen R s (after c s)

namespace Within

theorem of_after_eq {c : Call ε σ α} (h : ∀ s, after c s = s) : Within R c := by
  intro s
  rw [h]

theorem of_step {c : Call ε σ α} (h : ∀ s, R s (after c s)) : Within R c :=
  fun s => .single (h s)

protected theorem pure (a : α) : Within R (pure a : Call ε σ α) := of_after_eq fun _ => rfl

protected theorem throw (e : ε) : Within R (throw e : Call ε σ α) := of_after_eq fun _ => rfl

theorem reached {c : Call ε σ α} (h : Within R c) {s t : σ} {a : α} (hs : c s = .ok a t) :
    ReflTransGen R s t := after_of_ok hs ▸ h s

/-- The second call may rely on what the success of the first one shows. -/
theorem bind_ok {c : Call ε σ α} {f : α → Call ε σ β} (hc : Within R c)
    (hf : ∀ s a t, c s = .ok a t → ReflTransGen R t (after (f a) t)) : Within R (c >>= f) :=
  fun s => after_bind_reached (hc s) (hf s)

protected theorem bind {c : Call ε σ α} {f : α → Call ε σ β} (hc : Within R c)
    (hf : ∀ a, Within R (f a)) : Within R (c >>= f) := hc.bind_ok fun _ a t _ => hf a t

theorem mono {S : σ → σ → Prop} {c : Call ε σ α} (h : ∀ s t, R s t → S s t) (hc : Within R c) :
    Within S c := fun s => ReflTransGen.mono h _ _ (hc s)

protected theorem forM {f : α → Call ε σ PUnit} {xs : List α} (h : ∀ a ∈ xs, Within R (f a)) :
    Within R (xs.forM f) := by
  induction xs with
  | nil => exact .pure _
  | cons a xs ih =>
    rw [List.forM_eq_forM, List.forM_cons]
    exact (h a List.mem_cons_self).bind fun _ => ih fun b hb => h b (List.mem_cons_of_mem a hb)

protected theorem mapM {f : α → Call ε σ β} {xs : List α} (h : ∀ a ∈ xs, Within R (f a)) :
    Within R (xs.mapM f) := by
  induction xs with
  | nil => exact .pure _
  | cons a xs ih =>
    rw [List.mapM_cons]
    refine (h a List.mem_cons_self).bind fun b => ?_
    exact (ih fun c hc => h c (List.mem_cons_of_mem a hc)).bind fun _ => .pure _

end Within

/-- Every call of a loop that succeeds runs between two states of the loop. -/
theorem forM_eq_ok {f : α → Call ε σ PUnit} {xs : List α} (hf : ∀ a ∈ xs, Within R (f a))
    {s t : σ} (h : xs.forM f s = .ok () t) :
    ∀ a ∈ xs, ∃ u v, ReflTransGen R s u ∧ f a u = .ok () v ∧ ReflTransGen R v t := by
  induction xs generalizing s with
  | nil => exact fun _ h => nomatch h
  | cons a xs ih =>
    rw [List.forM_eq_forM, List.forM_cons, bind_eq_ok_iff] at h
    obtain ⟨⟨⟩, u, ha, hxs⟩ := h
    have hfs : ∀ b ∈ xs, Within R (f b) := fun b hb => hf b (List.mem_cons_of_mem a hb)
    have hau := (hf a List.mem_cons_self).reached ha
    intro b hb
    rcases List.mem_cons.1 hb with rfl | hb
    · exact ⟨s, u, .refl, ha, (Within.forM hfs).reached hxs⟩
    · obtain ⟨v, w, hv, hw, ht⟩ := ih hfs hxs b hb
      exact ⟨v, w, hau.trans hv, hw, ht⟩

/-- A loop that fails has succeeded up to the call that fails, and what follows is not called. -/
theorem forM_eq_error {f : α → Call ε σ PUnit} {xs : List α} {s t : σ} {e : ε}
    (h : xs.forM f s = .error e t) : ∃ ys x zs u, xs = ys ++ x :: zs ∧ ys.forM f s = .ok () u ∧
      f x u = .error e t := by
  induction xs generalizing s with
  | nil => cases h
  | cons a xs ih =>
    rw [List.forM_eq_forM, List.forM_cons, bind_eq_error_iff] at h
    rcases h with h | ⟨⟨⟩, v, ha, h⟩
    · exact ⟨[], a, xs, s, rfl, rfl, h⟩
    · obtain ⟨ys, x, zs, u, rfl, hys, hx⟩ := ih h
      refine ⟨a :: ys, x, zs, u, rfl, ?_, hx⟩
      rw [List.forM_eq_forM, List.forM_cons]
      exact bind_eq_ok_iff.2 ⟨(), v, ha, hys⟩

/-- A loop whose calls leave the state as it is succeeds when all of them do. -/
theorem forM_eq_ok_iff_of_keeps {f : α → Call ε σ PUnit} {P : α → Prop} {xs : List α} {s t : σ}
    (hf : ∀ a ∈ xs, ∀ t, f a s = .ok () t ↔ P a ∧ s = t) :
    xs.forM f s = .ok () t ↔ (∀ a ∈ xs, P a) ∧ s = t := by
  induction xs with
  | nil =>
    change (pure () : Call ε σ PUnit) s = .ok () t ↔ _
    rw [pure_eq_ok_iff]
    simp
  | cons a xs ih =>
    have hhead (u : σ) : f a s = .ok () u ↔ P a ∧ s = u := hf a List.mem_cons_self u
    have htail := ih fun b hb => hf b (List.mem_cons_of_mem a hb)
    rw [List.forM_eq_forM, List.forM_cons, bind_eq_ok_iff]
    constructor
    · rintro ⟨⟨⟩, u, ha, hxs⟩
      obtain ⟨hpa, rfl⟩ := (hhead u).1 ha
      obtain ⟨hall, rfl⟩ := htail.1 hxs
      exact ⟨List.forall_mem_cons.2 ⟨hpa, hall⟩, rfl⟩
    · rintro ⟨hall, rfl⟩
      obtain ⟨hpa, hall⟩ := List.forall_mem_cons.1 hall
      exact ⟨(), s, (hhead s).2 ⟨hpa, rfl⟩, htail.2 ⟨hall, rfl⟩⟩

/-- Such a loop fails as its first call that fails. -/
theorem forM_eq_error_iff_of_keeps {f : α → Call ε σ PUnit} {P : α → Prop} {xs : List α} {s t : σ}
    {e : ε} (hf : ∀ a ∈ xs, ∀ t, f a s = .ok () t ↔ P a ∧ s = t) :
    xs.forM f s = .error e t ↔ ∃ (i : Nat) (a : α), xs[i]? = some a ∧
      (∀ j < i, ∀ b, xs[j]? = some b → P b) ∧ f a s = .error e t := by
  induction xs with
  | nil => simp [pure, EStateM.pure]
  | cons x xs ih =>
    have hhead (u : σ) : f x s = .ok () u ↔ P x ∧ s = u := hf x List.mem_cons_self u
    have htail := ih fun b hb => hf b (List.mem_cons_of_mem x hb)
    rw [List.forM_eq_forM, List.forM_cons, bind_eq_error_iff]
    constructor
    · rintro (hx | ⟨⟨⟩, u, hx, hxs⟩)
      · exact ⟨0, x, rfl, fun j hj => absurd hj (Nat.not_lt_zero j), hx⟩
      · obtain ⟨hpx, rfl⟩ := (hhead u).1 hx
        obtain ⟨i, a, ha, hbefore, herror⟩ := htail.1 hxs
        refine ⟨i + 1, a, ha, fun j hj b hb => ?_, herror⟩
        cases j with
        | zero =>
          obtain rfl := Option.some.inj hb
          exact hpx
        | succ j => exact hbefore j (Nat.lt_of_succ_lt_succ hj) b hb
    · rintro ⟨i, a, ha, hbefore, herror⟩
      cases i with
      | zero =>
        obtain rfl := Option.some.inj ha
        exact .inl herror
      | succ i =>
        have hpx : P x := hbefore 0 (Nat.succ_pos i) x rfl
        refine .inr ⟨(), s, (hhead s).2 ⟨hpx, rfl⟩, htail.2 ⟨i, a, ha, fun j hj b hb => ?_, herror⟩⟩
        exact hbefore (j + 1) (Nat.succ_lt_succ hj) b hb

theorem mapM_eq_ok {f : α → Call ε σ β} {xs : List α} (hf : ∀ a ∈ xs, Within R (f a))
    {s t : σ} {bs : List β} (h : xs.mapM f s = .ok bs t) :
    List.Forall₂ (fun a b => ∃ u v, ReflTransGen R s u ∧ f a u = .ok b v ∧ ReflTransGen R v t)
      xs bs := by
  induction xs generalizing s bs with
  | nil =>
    rw [List.mapM_nil, pure_eq_ok_iff] at h
    rw [← h.1]
    exact .nil
  | cons a xs ih =>
    rw [List.mapM_cons, bind_eq_ok_iff] at h
    obtain ⟨b, u, ha, h⟩ := h
    rw [bind_eq_ok_iff] at h
    obtain ⟨cs, v, hxs, h⟩ := h
    obtain ⟨rfl, rfl⟩ := pure_eq_ok_iff.1 h
    have hfs : ∀ c ∈ xs, Within R (f c) := fun c hc => hf c (List.mem_cons_of_mem a hc)
    have hau := (hf a List.mem_cons_self).reached ha
    refine .cons ⟨s, u, .refl, ha, (Within.mapM hfs).reached hxs⟩ ?_
    refine (ih hfs hxs).imp fun c d hcd => ?_
    obtain ⟨w, x, hw, hd, hx⟩ := hcd
    exact ⟨w, x, hau.trans hw, hd, hx⟩

/-- A traversal that fails has succeeded up to the call that fails. -/
theorem mapM_eq_error {f : α → Call ε σ β} {xs : List α} {s t : σ} {e : ε}
    (h : xs.mapM f s = .error e t) : ∃ ys x zs bs u, xs = ys ++ x :: zs ∧
      ys.mapM f s = .ok bs u ∧ f x u = .error e t := by
  induction xs generalizing s with
  | nil => cases h
  | cons a xs ih =>
    rw [List.mapM_cons, bind_eq_error_iff] at h
    rcases h with h | ⟨b, v, ha, h⟩
    · exact ⟨[], a, xs, [], s, rfl, rfl, h⟩
    · rcases bind_eq_error_iff.1 h with h | ⟨_, _, -, hpure⟩
      · obtain ⟨ys, x, zs, bs, u, rfl, hys, hx⟩ := ih h
        refine ⟨a :: ys, x, zs, b :: bs, u, rfl, ?_, hx⟩
        rw [List.mapM_cons]
        exact bind_eq_ok_iff.2 ⟨b, v, ha, bind_eq_ok_iff.2 ⟨bs, u, hys, rfl⟩⟩
      · cases hpure

theorem exists_left_of_forall₂ {P : α → β → Prop} {xs : List α} {ys : List β}
    (h : List.Forall₂ P xs ys) {y : β} (hy : y ∈ ys) : ∃ x ∈ xs, P x y := by
  induction h with
  | nil => cases hy
  | cons hxy _ ih =>
    rcases List.mem_cons.1 hy with rfl | hy
    · exact ⟨_, List.mem_cons_self, hxy⟩
    · obtain ⟨x, hx, hp⟩ := ih hy
      exact ⟨x, List.mem_cons_of_mem _ hx, hp⟩

theorem exists_right_of_forall₂ {P : α → β → Prop} {xs : List α} {ys : List β}
    (h : List.Forall₂ P xs ys) {x : α} (hx : x ∈ xs) : ∃ y ∈ ys, P x y :=
  exists_left_of_forall₂ h.flip hx

/-- The call does not fail. -/
def succeeds (c : Call ε σ α) (s : σ) : Bool :=
  match c s with
  | .ok _ _ => true
  | .error _ _ => false

theorem succeeds_of_ok {c : Call ε σ α} {s t : σ} {a : α} (h : c s = .ok a t) :
    succeeds c s = true := by simp [succeeds, h]

theorem succeeds_of_error {c : Call ε σ α} {s t : σ} {e : ε} (h : c s = .error e t) :
    succeeds c s = false := by simp [succeeds, h]

theorem eq_ok_of_succeeds {c : Call ε σ α} {s : σ} (h : succeeds c s = true) :
    ∃ a t, c s = .ok a t := by
  cases hc : c s with
  | ok a t => exact ⟨a, t, rfl⟩
  | error e t =>
    rw [succeeds_of_error hc] at h
    cases h

/-- A call that fails leaves the state as it was. -/
def Atomic (c : Call ε σ α) : Prop := ∀ s e t, c s = .error e t → t = s

namespace Atomic

protected theorem throw (e : ε) : Atomic (throw e : Call ε σ α) :=
  fun _ _ _ h => (EStateM.Result.error.inj h).2.symm

protected theorem pure (a : α) : Atomic (pure a : Call ε σ α) := nofun

/-- What only looks at the state before may be followed by any atomic call. -/
theorem look_bind {c : Call ε σ α} {f : α → Call ε σ β} (hc : ∀ s, after c s = s)
    (hf : ∀ a, Atomic (f a)) : Atomic (c >>= f) := by
  intro s e t h
  rcases bind_eq_error_iff.1 h with h | ⟨a, u, hu, h⟩
  · rw [← after_of_error h, hc]
  · rw [hf a u e t h, ← after_of_ok hu, hc]

theorem bind_pure {c : Call ε σ α} {f : α → β} (hc : Atomic c) :
    Atomic (c >>= fun a => pure (f a)) := by
  intro s e t h
  rcases bind_eq_error_iff.1 h with h | ⟨a, u, -, h⟩
  · exact hc s e t h
  · cases h

end Atomic

/-- All errors of a call are of some sort. -/
def FailsWith (P : ε → Prop) (c : Call ε σ α) : Prop := ∀ s e t, c s = .error e t → P e

namespace FailsWith

variable {P : ε → Prop}

protected theorem pure (a : α) : FailsWith P (pure a : Call ε σ α) := nofun

protected theorem throw {e : ε} (h : P e) : FailsWith P (throw e : Call ε σ α) := by
  intro s x t hx
  obtain ⟨rfl, -⟩ := EStateM.Result.error.inj hx
  exact h

protected theorem bind {c : Call ε σ α} {f : α → Call ε σ β} (hc : FailsWith P c)
    (hf : ∀ a, FailsWith P (f a)) : FailsWith P (c >>= f) := by
  intro s e t h
  rcases bind_eq_error_iff.1 h with h | ⟨a, u, -, h⟩
  · exact hc s e t h
  · exact hf a u e t h

end FailsWith

section View

variable {ρ : Type} {view : σ → ρ}

/-- Whatever its outcome, the call changes nothing that the view shows. -/
def Leaves (view : σ → ρ) (c : Call ε σ α) : Prop := ∀ s, view (after c s) = view s

/-- Seen through the view, the call does what another call does. -/
def Mirrors (view : σ → ρ) (c : Call ε σ α) (d : Call ε ρ α) : Prop :=
  ∀ s, d (view s) = match c s with
    | .ok a t => .ok a (view t)
    | .error e t => .error e (view t)

theorem Within.leaves {view : σ → ρ} {c : Call ε σ α}
    (h : Within (fun s t => view t = view s) c) : Leaves view c := by
  intro s
  have hs := h s
  generalize after c s = t at hs
  induction hs with
  | refl => rfl
  | tail _ hstep ih => exact hstep.trans ih

theorem leaves_reading (view : σ → ρ) (f : σ → α) : Leaves view (reading f : Call ε σ α) :=
  fun _ => rfl

theorem leaves_ofExcept (view : σ → ρ) (x : Except ε α) :
    Leaves view (ofExcept x : Call ε σ α) := fun s => by rw [after_ofExcept]

namespace Mirrors

variable {c : Call ε σ α} {d : Call ε ρ α}

theorem after (h : Mirrors view c d) (s : σ) : view (c.after s) = d.after (view s) := by
  have hs := h s
  cases hc : c s with
  | ok a t =>
    rw [hc] at hs
    rw [after_of_ok hc, after_of_ok hs]
  | error e t =>
    rw [hc] at hs
    rw [after_of_error hc, after_of_error hs]

theorem ok (h : Mirrors view c d) {s t : σ} {a : α} (hc : c s = .ok a t) :
    d (view s) = .ok a (view t) := by
  rw [h s, hc]

theorem eq_ok_iff (h : Mirrors view c d) {s : σ} {a : α} {v : ρ} :
    d (view s) = .ok a v ↔ ∃ t, c s = .ok a t ∧ view t = v := by
  rw [h s]
  cases c s <;> simp

theorem eq_error_iff (h : Mirrors view c d) {s : σ} {e : ε} {v : ρ} :
    d (view s) = .error e v ↔ ∃ t, c s = .error e t ∧ view t = v := by
  rw [h s]
  cases c s <;> simp

end Mirrors
end View

section Lockstep

variable {τ : Type} {S : σ → τ → Prop}

/-- Two outcomes agree if both are successes or both are failures, with the same value or error and in
related states. -/
inductive Agrees (S : σ → τ → Prop) : EStateM.Result ε σ α → EStateM.Result ε τ α → Prop
  | ok (a : α) {s : σ} {t : τ} (h : S s t) : Agrees S (.ok a s) (.ok a t)
  | error (e : ε) {s : σ} {t : τ} (h : S s t) : Agrees S (.error e s) (.error e t)

theorem Agrees.mono {T : σ → τ → Prop} (h : ∀ s t, S s t → T s t) {x : EStateM.Result ε σ α}
    {y : EStateM.Result ε τ α} (hxy : Agrees S x y) : Agrees T x y := by
  cases hxy with
  | ok a hst => exact .ok a (h _ _ hst)
  | error e hst => exact .error e (h _ _ hst)

theorem Agrees.after {c : Call ε σ α} {d : Call ε τ α} {s : σ} {t : τ} (h : Agrees S (c s) (d t)) :
    S (c.after s) (d.after t) := by
  unfold Call.after
  revert h
  generalize c s = x, d t = y
  rintro (⟨a, hst⟩ | ⟨e, hst⟩) <;> exact hst

/-- The relation is needed of the two states only that are left. -/
theorem Agrees.of_after {T : σ → τ → Prop} {c : Call ε σ α} {d : Call ε τ α} {s : σ} {t : τ}
    (h : Agrees S (c s) (d t)) (hT : T (c.after s) (d.after t)) : Agrees T (c s) (d t) := by
  unfold Call.after at hT
  revert h hT
  generalize c s = x, d t = y
  rintro (⟨a, -⟩ | ⟨e, -⟩) hT
  · exact .ok a hT
  · exact .error e hT

/-- From states with the first relation, both calls have the same outcome, in states with the second
one. -/
def Leads (S T : σ → τ → Prop) (c : Call ε σ α) (d : Call ε τ α) : Prop :=
  ∀ s t, S s t → Agrees T (c s) (d t)

/-- From related states, both calls have the same outcome, and the states stay related. -/
def Lockstep (S : σ → τ → Prop) (c : Call ε σ α) (d : Call ε τ α) : Prop := Leads S S c d

theorem Leads.mono {T U : σ → τ → Prop} (h : ∀ s t, T s t → U s t) {c : Call ε σ α}
    {d : Call ε τ α} (hcd : Leads S T c d) : Leads S U c d := fun s t hst => (hcd s t hst).mono h

protected theorem Leads.bind {T U : σ → τ → Prop} {c : Call ε σ α} {d : Call ε τ α}
    {f : α → Call ε σ β} {g : α → Call ε τ β} (h : Leads S T c d)
    (hf : ∀ a, Leads T U (f a) (g a)) (hTU : ∀ s t, T s t → U s t) :
    Leads S U (c >>= f) (d >>= g) := by
  intro s t hst
  have hcd := h s t hst
  change Agrees U (EStateM.bind c f s) (EStateM.bind d g t)
  unfold EStateM.bind
  revert hcd
  generalize c s = x, d t = y
  rintro (⟨a, hst⟩ | ⟨e, hst⟩)
  · exact hf a _ _ hst
  · exact .error e (hTU _ _ hst)

namespace Lockstep

protected theorem pure (a : α) : Lockstep S (pure a : Call ε σ α) (pure a) := fun _ _ h => .ok a h

protected theorem throw (e : ε) : Lockstep S (throw e : Call ε σ α) (throw e) :=
  fun _ _ h => .error e h

protected theorem ofExcept (x : Except ε α) :
    Lockstep S (ofExcept x : Call ε σ α) (ofExcept x) := by
  intro s t h
  cases x with
  | ok a => exact .ok a h
  | error e => exact .error e h

theorem reading {f : σ → α} {g : τ → α} (h : ∀ s t, S s t → f s = g t) :
    Lockstep S (reading f : Call ε σ α) (reading g) := by
  intro s t hst
  unfold Call.reading
  rw [h s t hst]
  exact .ok _ hst

protected theorem mapError {c : Call ε σ α} {d : Call ε τ α} (f : ε → ε') (h : Lockstep S c d) :
    Lockstep S (c.mapError f) (d.mapError f) := by
  intro s t hst
  unfold Call.mapError
  have hcd := h s t hst
  revert hcd
  generalize c s = x, d t = y
  rintro (⟨a, hst⟩ | ⟨e, hst⟩)
  · exact .ok a hst
  · exact .error (f e) hst

protected theorem bind {c : Call ε σ α} {d : Call ε τ α} {f : α → Call ε σ β}
    {g : α → Call ε τ β} (h : Lockstep S c d) (hf : ∀ a, Lockstep S (f a) (g a)) :
    Lockstep S (c >>= f) (d >>= g) := Leads.bind h hf fun _ _ => id

protected theorem forM {f : α → Call ε σ PUnit} {g : α → Call ε τ PUnit} {xs : List α}
    (h : ∀ a ∈ xs, Lockstep S (f a) (g a)) : Lockstep S (xs.forM f) (xs.forM g) := by
  induction xs with
  | nil => exact .pure _
  | cons a xs ih =>
    rw [List.forM_eq_forM, List.forM_eq_forM, List.forM_cons, List.forM_cons]
    exact (h a List.mem_cons_self).bind fun _ => ih fun b hb => h b (List.mem_cons_of_mem a hb)

protected theorem mapM {f : α → Call ε σ β} {g : α → Call ε τ β} {xs : List α}
    (h : ∀ a ∈ xs, Lockstep S (f a) (g a)) : Lockstep S (xs.mapM f) (xs.mapM g) := by
  induction xs with
  | nil => exact .pure _
  | cons a xs ih =>
    rw [List.mapM_cons, List.mapM_cons]
    refine (h a List.mem_cons_self).bind fun b => ?_
    exact (ih fun c hc => h c (List.mem_cons_of_mem a hc)).bind fun _ => .pure _

end Lockstep
end Lockstep
end Tollgate.Call
