import Tollgate.Proofs.Signature.Selection
/-! Services that are watched while signatures are verified. Watching changes no outcome, and the single
keys that are tried for a signature are those that it selects, up to the first that fails. -/
namespace Tollgate

open Call

namespace Call

variable {ε ε' σ α β κ : Type}

/-- From a state of this kind the call adds these entries to a log, or the first of them if it fails. -/
structure Logs (P : σ → Prop) (log : σ → List κ) (c : Call ε σ α) (ks : List κ) : Prop where
  ok : ∀ s a t, P s → c s = .ok a t → P t ∧ log t = log s ++ ks
  error : ∀ s e t, P s → c s = .error e t → ∃ done, done <+: ks ∧ log t = log s ++ done

namespace Logs

variable {P : σ → Prop} {log : σ → List κ} {ks ls : List κ}

protected theorem pure (a : α) : Logs P log (pure a : Call ε σ α) [] where
  ok s a t hs h := by
    obtain ⟨-, rfl⟩ := pure_eq_ok_iff.1 h
    exact ⟨hs, (List.append_nil _).symm⟩
  error := nofun

/-- What fails at once may stand for anything. -/
protected theorem throw (e : ε) (ks : List κ) : Logs P log (throw e : Call ε σ α) ks where
  ok := nofun
  error s e t _ h := by
    obtain ⟨-, rfl⟩ := EStateM.Result.error.inj h
    exact ⟨[], List.nil_prefix, (List.append_nil _).symm⟩

protected theorem bind {c : Call ε σ α} {f : α → Call ε σ β} (hc : Logs P log c ks)
    (hf : ∀ a, Logs P log (f a) ls) : Logs P log (c >>= f) (ks ++ ls) where
  ok s b t hs h := by
    obtain ⟨a, u, hu, h⟩ := bind_eq_ok_iff.1 h
    obtain ⟨hpu, hlog⟩ := hc.ok s a u hs hu
    obtain ⟨hpt, hlog'⟩ := (hf a).ok u b t hpu h
    exact ⟨hpt, by rw [hlog', hlog, List.append_assoc]⟩
  error s e t hs h := by
    rcases bind_eq_error_iff.1 h with h | ⟨a, u, hu, h⟩
    · obtain ⟨done, hdone, hlog⟩ := hc.error s e t hs h
      exact ⟨done, hdone.trans (List.prefix_append ks ls), hlog⟩
    · obtain ⟨hpu, hlog⟩ := hc.ok s a u hs hu
      obtain ⟨done, hdone, hlog'⟩ := (hf a).error u e t hpu h
      refine ⟨ks ++ done, (List.prefix_append_right_inj ks).2 hdone, ?_⟩
      rw [hlog', hlog, List.append_assoc]

/-- Calls that do the same log the same. -/
theorem congr {c d : Call ε σ α} (h : ∀ s, P s → c s = d s) (hd : Logs P log d ks) :
    Logs P log c ks where
  ok s a t hs hc := hd.ok s a t hs ((h s hs).symm.trans hc)
  error s e t hs hc := hd.error s e t hs ((h s hs).symm.trans hc)

protected theorem forM {f : α → Call ε σ PUnit} {g : α → List κ} {xs : List α}
    (h : ∀ a ∈ xs, Logs P log (f a) (g a)) : Logs P log (xs.forM f) (xs.flatMap g) := by
  induction xs with
  | nil => exact .pure _
  | cons a xs ih =>
    rw [List.forM_eq_forM, List.forM_cons, List.flatMap_cons]
    exact (h a List.mem_cons_self).bind fun _ => ih fun b hb => h b (List.mem_cons_of_mem a hb)

protected theorem mapError {c : Call ε σ α} (f : ε → ε') (hc : Logs P log c ks) :
    Logs P log (c.mapError f) ks where
  ok s a t hs h := hc.ok s a t hs (mapError_eq_ok_iff.1 h)
  error s e t hs h := by
    obtain ⟨x, hx, -⟩ := mapError_eq_error_iff.1 h
    exact hc.error s x t hs hx

/-- Whatever the outcome, some of the entries were added, from the first one on. -/
theorem after {c : Call ε σ α} (h : Logs P log c ks) {s : σ} (hs : P s) :
    ∃ done, done <+: ks ∧ log (Call.after c s) = log s ++ done := by
  cases hc : c s with
  | ok a t =>
    rw [after_of_ok hc]
    exact ⟨ks, List.prefix_rfl, (h.ok s a t hs hc).2⟩
  | error e t =>
    rw [after_of_error hc]
    exact h.error s e t hs hc

end Logs
end Call

/-- Verification tries the selected keys, up to the first that fails. -/
theorem PublicKey.logs_verify {σ : Type} {P : σ → Prop} {log : σ → List SingleKey}
    {check : SignatureTask → Call SignatureError σ PUnit}
    (hc : ∀ task, Logs P log (check task) [task.key]) (key : PublicKey) (data : SignatureData) :
    Logs P log (key.verify check data) (key.selected data) := by
  obtain ⟨hstart, hall⟩ := plan_selected key data
  have htasks : Logs P log ((key.plan data).1.forM check)
      ((key.plan data).1.map SignatureTask.key) := by
    rw [List.map_eq_flatMap]
    exact .forM fun task _ => hc task
  rw [verify_eq]
  cases hverdict : (key.plan data).2 with
  | ok _ =>
    rw [← hall hverdict, ← List.append_nil ((key.plan data).1.map SignatureTask.key)]
    exact htasks.bind fun _ => .pure _
  | error e =>
    -- the walk ends here, whatever else is selected
    obtain ⟨rest, hrest⟩ := hstart
    rw [← hrest]
    exact htasks.bind fun _ => .throw e rest

/-- Services with a record of what the verification of signatures asks of them, from the first time to
the last: the states in which bytes to sign were asked for, and the single keys that were tried. -/
structure Watched (σ : Type) where
  services : σ
  asked : List σ
  tried : List SingleKey

namespace Watched

variable {σ ε α : Type}

def new (s : σ) : Watched σ := ⟨s, [], []⟩

def recordAsk (s : Watched σ) : Watched σ := { s with asked := s.asked ++ [s.services] }

def recordTry (key : SingleKey) (s : Watched σ) : Watched σ := { s with tried := s.tried ++ [key] }

/-- A call of the services, after something was recorded. -/
def recording (record : Watched σ → Watched σ) (c : Call ε σ α) : Call ε (Watched σ) α := fun s =>
  match c s.services with
  | .ok a t => .ok a { record s with services := t }
  | .error e t => .error e { record s with services := t }

/-- A call of the services that is not recorded. -/
def direct (c : Call ε σ α) : Call ε (Watched σ) α := recording id c

/-- These are the services that are watched. -/
def Watches (s : σ) (t : Watched σ) : Prop := t.services = s

theorem after_recording (record : Watched σ → Watched σ) (c : Call ε σ α) (s : Watched σ) :
    after (recording record c) s = { record s with services := after c s.services } := by
  unfold after recording
  cases c s.services <;> rfl

theorem lockstep_recording (record : Watched σ → Watched σ) (c : Call ε σ α) :
    Lockstep Watches c (recording record c) := by
  rintro _ s rfl
  unfold recording
  cases c s.services with
  | ok a t => exact .ok a rfl
  | error e t => exact .error e rfl

theorem logs_recording {record : Watched σ → Watched σ} {ks : List SingleKey}
    (h : ∀ s, (record s).tried = s.tried ++ ks) (c : Call ε σ α) :
    Logs (fun _ => True) Watched.tried (recording record c) ks := by
  have hafter (s : Watched σ) : (after (recording record c) s).tried = s.tried ++ ks := by
    rw [after_recording]
    exact h s
  constructor
  · intro s a t _ ht
    exact ⟨trivial, after_of_ok ht ▸ hafter s⟩
  · intro s e t _ ht
    exact ⟨ks, List.prefix_rfl, after_of_error ht ▸ hafter s⟩

end Watched

variable {σ : Type}

open Watched (direct recording recordAsk recordTry)

def AccountLedger.watched (l : AccountLedger σ) : AccountLedger (Watched σ) where
  params s := l.params s.services
  moduleAddress := l.moduleAddress
  account a := direct (l.account a)
  setKey a key := direct (l.setKey a key)
  advanceSequence a := direct (l.advanceSequence a)

def FeeLedger.watched (l : FeeLedger σ) : FeeLedger (Watched σ) where
  spendable a denom := direct (l.spendable a denom)
  deduct payer collector fee := direct (l.deduct payer collector fee)

def AllowanceRegistry.watched (l : AllowanceRegistry σ) : AllowanceRegistry (Watched σ) where
  check granter grantee fee messages := direct (l.check granter grantee fee messages)
  spend granter grantee fee messages := direct (l.spend granter grantee fee messages)

def SignModeHandler.watched (l : SignModeHandler σ) : SignModeHandler (Watched σ) where
  defaultMode := l.defaultMode
  modes := l.modes
  signBytes mode signer tx := recording recordAsk (l.signBytes mode signer tx)

def SignatureChecker.watched (c : SignatureChecker σ) : SignatureChecker (Watched σ) :=
  fun key message signature => recording (recordTry key) (c key message signature)

def RelayRegistry.watched (l : RelayRegistry σ) : RelayRegistry (Watched σ) where
  isProcessed action packet := direct (l.isProcessed action packet)

def TxCounter.watched (l : TxCounter σ) : TxCounter (Watched σ) where
  increment height urls := direct (l.increment height urls)

end Tollgate
