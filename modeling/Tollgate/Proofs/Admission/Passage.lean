import Tollgate.Proofs.Admission.Change
/-! Runs of several stages. An accepted transaction has passed every stage, and whatever the outcome,
the run moved within the changes of the stages. -/
namespace Tollgate.Stage

open Call Relation

variable {σ : Type} {w : Wiring σ} {tx : Transaction} {simulate : Bool}

/-- A change of one of some stages. -/
def Changes (w : Wiring σ) (tx : Transaction) (simulate : Bool) (ss : List Stage)
    (r t : Run σ) : Prop := ∃ s ∈ ss, Change w tx simulate s r t

theorem Changes.mono {ss ts : List Stage} (h : ss ⊆ ts) (r t : Run σ)
    (hc : Changes w tx simulate ss r t) : Changes w tx simulate ts r t := by
  obtain ⟨s, hs, hc⟩ := hc
  exact ⟨s, h hs, hc⟩

theorem within_run_of_mem {s : Stage} {ss : List Stage} (h : s ∈ ss) :
    Within (Changes w tx simulate ss) (s.run w tx simulate) :=
  (within_run w tx simulate s).mono fun _ _ hc => ⟨s, h, hc⟩

theorem reflTransGen_changes_mono {ss ts : List Stage} (h : ss ⊆ ts) {r t : Run σ}
    (hr : ReflTransGen (Changes w tx simulate ss) r t) :
    ReflTransGen (Changes w tx simulate ts) r t := ReflTransGen.mono (Changes.mono h) _ _ hr

theorem reflTransGen_changes_of_change {s : Stage} {ss : List Stage} (hs : s ∈ ss) {r t : Run σ}
    (hr : ReflTransGen (Change w tx simulate s) r t) :
    ReflTransGen (Changes w tx simulate ss) r t :=
  ReflTransGen.mono (fun _ _ hc => ⟨s, hs, hc⟩) _ _ hr

/-- What every change of some stages keeps, any number of them keeps. -/
theorem of_reached {P : Run σ → Prop} {ss : List Stage} {r t : Run σ}
    (hstep : ∀ s ∈ ss, ∀ x y, Change w tx simulate s x y → P x → P y)
    (h : ReflTransGen (Changes w tx simulate ss) r t) (hr : P r) : P t := by
  induction h with
  | refl => exact hr
  | tail _ hc ih =>
    obtain ⟨s, hs, hc⟩ := hc
    exact hstep s hs _ _ hc ih

theorem eq_of_reached {β : Type} {f : Run σ → β} {ss : List Stage} {r t : Run σ}
    (hstep : ∀ s ∈ ss, ∀ x y, Change w tx simulate s x y → f y = f x)
    (h : ReflTransGen (Changes w tx simulate ss) r t) : f t = f r :=
  of_reached (P := fun x => f x = f r) (fun s hs x y hc hx => (hstep s hs x y hc).trans hx) h rfl

/-- What every change of a stage keeps, the stage keeps, whether it fails or not. -/
theorem of_run {P : Run σ → Prop} {s : Stage}
    (hstep : ∀ x y, Change w tx simulate s x y → P x → P y) {r : Run σ} (hr : P r) :
    P (after (s.run w tx simulate) r) := by
  refine of_reached (fun x hx y z hc => ?_) (within_run_of_mem (List.mem_singleton_self s) r) hr
  obtain rfl := List.mem_singleton.1 hx
  exact hstep y z hc

theorem eq_of_run {β : Type} {f : Run σ → β} {s : Stage}
    (hstep : ∀ x y, Change w tx simulate s x y → f y = f x) (r : Run σ) :
    f (after (s.run w tx simulate) r) = f r :=
  of_run (P := fun x => f x = f r) (fun x y hc hx => (hstep x y hc).trans hx) rfl

/-- Every stage runs, one after the other, and none of them fails or halts. -/
inductive Passes (w : Wiring σ) (tx : Transaction) (simulate : Bool) :
    List Stage → Run σ → Run σ → Prop
  | nil (r : Run σ) : Passes w tx simulate [] r r
  | cons {s : Stage} {ss : List Stage} {r t u : Run σ}
      (hs : s.run w tx simulate r = .ok .proceed t) (hss : Passes w tx simulate ss t u) :
      Passes w tx simulate (s :: ss) r u

theorem passes_cons_iff {s : Stage} {ss : List Stage} {r u : Run σ} :
    Passes w tx simulate (s :: ss) r u ↔
      ∃ t, s.run w tx simulate r = .ok .proceed t ∧ Passes w tx simulate ss t u := by
  constructor
  · intro h
    cases h with
    | cons hs hss => exact ⟨_, hs, hss⟩
  · rintro ⟨t, hs, hss⟩
    exact .cons hs hss

namespace Passes

theorem split {ss ts : List Stage} {r u : Run σ} (h : Passes w tx simulate (ss ++ ts) r u) :
    ∃ t, Passes w tx simulate ss r t ∧ Passes w tx simulate ts t u := by
  induction ss generalizing r with
  | nil => exact ⟨r, .nil r, h⟩
  | cons s ss ih =>
    cases h with
    | cons hs hss =>
      obtain ⟨t, hst, htu⟩ := ih hss
      exact ⟨t, .cons hs hst, htu⟩

theorem append {ss ts : List Stage} {r t u : Run σ} (h : Passes w tx simulate ss r t)
    (ht : Passes w tx simulate ts t u) : Passes w tx simulate (ss ++ ts) r u := by
  induction h with
  | nil => exact ht
  | cons hs _ ih => exact .cons hs (ih ht)

theorem at_stage {s : Stage} {ss : List Stage} {r u : Run σ} (hs : s ∈ ss)
    (h : Passes w tx simulate ss r u) :
    ∃ pre post t v, ss = pre ++ s :: post ∧ Passes w tx simulate pre r t ∧
      s.run w tx simulate t = .ok .proceed v ∧ Passes w tx simulate post v u := by
  obtain ⟨pre, post, rfl⟩ := List.append_of_mem hs
  obtain ⟨t, hpre, hpost⟩ := h.split
  cases hpost with
  | cons hrun hpost => exact ⟨pre, post, t, _, rfl, hpre, hrun, hpost⟩

theorem reached {ss : List Stage} {r u : Run σ} (h : Passes w tx simulate ss r u) :
    ReflTransGen (Changes w tx simulate ss) r u := by
  induction h with
  | nil r => exact .refl
  | @cons s ss r t u hs _ ih =>
    have hrt := (within_run_of_mem (List.mem_cons_self (a := s) (l := ss))).reached hs
    exact hrt.trans (reflTransGen_changes_mono (List.subset_cons_self s ss) ih)

end Passes

theorem proceeding_eq_ok_iff {g : Gate σ Unit} {r t : Run σ} {f : Flow} :
    proceeding g r = .ok f t ↔ f = .proceed ∧ g r = .ok () t := by
  unfold proceeding
  rw [bind_eq_ok_iff]
  constructor
  · rintro ⟨⟨⟩, u, hg, hf⟩
    obtain ⟨rfl, rfl⟩ := pure_eq_ok_iff.1 hf
    exact ⟨rfl, hg⟩
  · rintro ⟨rfl, hg⟩
    exact ⟨(), t, hg, rfl⟩

/-- Only the last of the canonical stages can halt, and it never accepts by halting. -/
theorem eq_relay_of_run_halt {s : Stage} {r t : Run σ} {outcome : Admission}
    (h : s.run w tx simulate r = .ok (.halt outcome) t) :
    s = .relay ∧ ∃ packets, outcome = .redundantRelay packets := by
  cases s with
  | relay =>
    refine ⟨rfl, ?_⟩
    change Gate.checkRelay w tx simulate r = _ at h
    unfold Gate.checkRelay at h
    obtain ⟨c, u, -, h⟩ := bind_eq_ok_iff.1 h
    split at h
    · cases (pure_eq_ok_iff.1 h).1
    · cases hw : w.relays with
      | none =>
        rw [hw] at h
        cases (pure_eq_ok_iff.1 h).1
      | some registry =>
        rw [hw] at h
        obtain ⟨found, v, -, h⟩ := bind_eq_ok_iff.1 h
        cases hall : found.bind Gate.allApplied? with
        | none =>
          rw [hall] at h
          cases (pure_eq_ok_iff.1 h).1
        | some packets =>
          rw [hall] at h
          obtain ⟨-, x, -, h⟩ := bind_eq_ok_iff.1 h
          exact ⟨packets, (Flow.halt.inj (pure_eq_ok_iff.1 h).1).symm⟩
  | _ => exact nomatch (proceeding_eq_ok_iff.1 h).1

theorem passes_of_runAll_accepted {ss : List Stage} {r u : Run σ}
    (h : runAll w tx simulate ss r = .ok .accepted u) : Passes w tx simulate ss r u := by
  induction ss generalizing r with
  | nil =>
    obtain ⟨-, rfl⟩ := pure_eq_ok_iff.1 h
    exact .nil r
  | cons s ss ih =>
    unfold runAll at h
    split at h
    · next hs => exact .cons hs (ih h)
    · next hs =>
      obtain ⟨-, packets, rfl⟩ := eq_relay_of_run_halt hs
      cases h
    · cases h

/-- Stages that cannot halt are passed whenever a longer run has an outcome. -/
theorem passes_of_runAll_append {ss ts : List Stage} (hr : .relay ∉ ss) {r u : Run σ}
    {outcome : Admission} (h : runAll w tx simulate (ss ++ ts) r = .ok outcome u) :
    ∃ t, Passes w tx simulate ss r t ∧ runAll w tx simulate ts t = .ok outcome u := by
  induction ss generalizing r with
  | nil => exact ⟨r, .nil r, h⟩
  | cons s ss ih =>
    rw [List.cons_append] at h
    unfold runAll at h
    split at h
    · next hs =>
      obtain ⟨t, hp, ht⟩ := ih (fun hm => hr (List.mem_cons_of_mem s hm)) h
      exact ⟨t, .cons hs hp, ht⟩
    · next hs => exact absurd (List.mem_cons.2 (.inl (eq_relay_of_run_halt hs).1.symm)) hr
    · cases h

/-- Whatever the outcome of the canonical stages, all but the last one were passed. -/
theorem passes_of_runAll_canonical {r u : Run σ} {outcome : Admission}
    (h : runAll w tx simulate canonical r = .ok outcome u) :
    ∃ t, Passes w tx simulate (canonical.take 14) r t ∧
      runAll w tx simulate [.relay] t = .ok outcome u := by
  have h : runAll w tx simulate (canonical.take 14 ++ [.relay]) r = .ok outcome u := h
  exact passes_of_runAll_append (by decide) h

/-- A run goes on behind stages that were passed. -/
theorem Passes.runAll_append {ss : List Stage} {r u : Run σ} (h : Passes w tx simulate ss r u)
    (ts : List Stage) : runAll w tx simulate (ss ++ ts) r = runAll w tx simulate ts u := by
  induction h with
  | nil => rfl
  | @cons s ss r t u hs _ ih =>
    simp only [List.cons_append, runAll, hs]
    exact ih

/-- Behind its first stage, a run moves within the changes of the other ones. -/
theorem reached_after_run {ss : List Stage} (hss : Within (Changes w tx simulate ss)
    (runAll w tx simulate ss)) (s : Stage) (r : Run σ) :
    ReflTransGen (Changes w tx simulate ss) (after (s.run w tx simulate) r)
      (after (runAll w tx simulate (s :: ss)) r) := by
  cases hrun : s.run w tx simulate r with
  | ok f t =>
    rw [after_of_ok hrun]
    cases f with
    | proceed =>
      have hafter : after (runAll w tx simulate (s :: ss)) r =
          after (runAll w tx simulate ss) t := by simp only [after, runAll, hrun]
      rw [hafter]
      exact hss t
    | halt outcome =>
      have hafter : after (runAll w tx simulate (s :: ss)) r = t := by
        simp only [after, runAll, hrun]
      rw [hafter]
  | error e t =>
    have hafter : after (runAll w tx simulate (s :: ss)) r = t := by
      simp only [after, runAll, hrun]
    rw [after_of_error hrun, hafter]

/-- Stages that fail or halt leave what they and the stages before them changed. -/
theorem within_runAll (ss : List Stage) :
    Within (Changes w tx simulate ss) (runAll w tx simulate ss) := by
  induction ss with
  | nil => exact .pure _
  | cons s ss ih =>
    intro r
    have hs : ReflTransGen (Changes w tx simulate (s :: ss)) r
        (after (s.run w tx simulate) r) := within_run_of_mem List.mem_cons_self r
    have hrest := reached_after_run ih s r
    exact hs.trans (reflTransGen_changes_mono (List.subset_cons_self s ss) hrest)

end Tollgate.Stage
