import Tollgate.Proofs.Admission.Passage
/-! A run seen from one of its stages: the run with which the stage starts, and what the stages around
it can have changed. -/
namespace Tollgate.Stage

open Call Relation

variable {σ : Type} {w : Wiring σ} {tx : Transaction} {simulate : Bool} {target : Stage}
  {ss : List Stage} {r u v : Run σ}

/-- The run with which a stage starts, if all stages before it are passed. -/
def arrival? (w : Wiring σ) (tx : Transaction) (simulate : Bool) (target : Stage) :
    List Stage → Run σ → Option (Run σ)
  | [], _ => none
  | s :: ss, r =>
    if s = target then some r
    else
      match s.run w tx simulate r with
      | .ok .proceed t => arrival? w tx simulate target ss t
      | _ => none

/-- All stages but one. -/
def others (target : Stage) : List Stage := canonical.filter (· ≠ target)

theorem mem_others {s : Stage} : s ∈ others target ↔ s ≠ target := by
  simp [others, mem_canonical]

/-- The run to a stage moves within the changes of other stages, and goes on from there as if it had
started there. -/
theorem of_arrival? (h : arrival? w tx simulate target ss r = some u) :
    ReflTransGen (Changes w tx simulate (others target)) r u ∧ ∃ pre post,
      ss = pre ++ target :: post ∧
      runAll w tx simulate ss r = runAll w tx simulate (target :: post) u := by
  induction ss generalizing r with
  | nil => cases h
  | cons s ss ih =>
    unfold arrival? at h
    split at h
    · next hs =>
      subst hs
      obtain rfl := Option.some.inj h
      exact ⟨.refl, [], ss, rfl, rfl⟩
    · next hs =>
      split at h
      · next t hrun =>
        obtain ⟨hreached, pre, post, rfl, hrest⟩ := ih h
        have hmove := (within_run_of_mem (mem_others.2 hs)).reached hrun
        refine ⟨hmove.trans hreached, s :: pre, post, rfl, ?_⟩
        rw [← hrest]
        simp only [runAll, hrun]
      · cases h

theorem passes_of_arrival? (h : arrival? w tx simulate target ss r = some u) :
    ∃ pre post, ss = pre ++ target :: post ∧ Passes w tx simulate pre r u := by
  induction ss generalizing r with
  | nil => cases h
  | cons s ss ih =>
    unfold arrival? at h
    split at h
    · next hs =>
      obtain rfl := Option.some.inj h
      exact ⟨[], ss, by rw [hs]; rfl, .nil r⟩
    · split at h
      · next t hrun =>
        obtain ⟨pre, post, rfl, hpass⟩ := ih h
        exact ⟨s :: pre, post, rfl, .cons hrun hpass⟩
      · cases h

/-- A run that does not come to a stage moves within the changes of other stages. -/
theorem reached_of_arrival?_eq_none (h : arrival? w tx simulate target ss r = none) :
    ReflTransGen (Changes w tx simulate (others target)) r (after (runAll w tx simulate ss) r) := by
  induction ss generalizing r with
  | nil => exact .refl
  | cons s ss ih =>
    unfold arrival? at h
    split at h
    · cases h
    · next hs =>
      have hmove : ReflTransGen (Changes w tx simulate (others target)) r
          (after (s.run w tx simulate) r) := within_run_of_mem (mem_others.2 hs) r
      cases hrun : s.run w tx simulate r with
      | error e t =>
        have hend : runAll w tx simulate (s :: ss) r = .error ⟨s, e⟩ t := by
          simp only [runAll, hrun]
        rw [after_of_error hend]
        rwa [after_of_error hrun] at hmove
      | ok f t =>
        rw [after_of_ok hrun] at hmove
        cases f with
        | halt outcome =>
          have hend : runAll w tx simulate (s :: ss) r = .ok outcome t := by
            simp only [runAll, hrun]
          rwa [after_of_ok hend]
        | proceed =>
          rw [hrun] at h
          have hrest : after (runAll w tx simulate (s :: ss)) r =
              after (runAll w tx simulate ss) t := by simp only [after, runAll, hrun]
          rw [hrest]
          exact hmove.trans (ih h)

theorem runAll_of_arrival?_of_error {cause : AdmissionError}
    (h : arrival? w tx simulate target ss r = some u)
    (hrun : target.run w tx simulate u = .error cause v) :
    runAll w tx simulate ss r = .error ⟨target, cause⟩ v := by
  obtain ⟨-, pre, post, -, hrest⟩ := of_arrival? h
  rw [hrest]
  simp only [runAll, hrun]

/-- A stage runs once, so that behind it other stages make all changes. -/
theorem reached_of_arrival?_of_ok (hn : ss.Nodup)
    (h : arrival? w tx simulate target ss r = some u)
    (hrun : target.run w tx simulate u = .ok .proceed v) :
    ReflTransGen (Changes w tx simulate (others target)) v
      (after (runAll w tx simulate ss) r) := by
  obtain ⟨-, pre, post, rfl, hrest⟩ := of_arrival? h
  have hpost : target ∉ post := (List.nodup_cons.1 (List.nodup_append.1 hn).2.1).1
  have hend : after (runAll w tx simulate (pre ++ target :: post)) r =
      after (runAll w tx simulate post) v := by
    simp only [after, hrest]
    simp only [runAll, hrun]
  rw [hend]
  refine reflTransGen_changes_mono (fun s hs => mem_others.2 ?_) (within_runAll post v)
  exact fun he => hpost (he ▸ hs)

end Tollgate.Stage
