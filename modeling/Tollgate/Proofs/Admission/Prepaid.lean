import Tollgate.Proofs.Admission.Arrival
import Tollgate.Proofs.Admission.Consumption
import Tollgate.Proofs.Admission.Effect
import Tollgate.Proofs.Admission.Lockstep
import Tollgate.Proofs.Ledger.Watch
/-! The work on signatures is bounded and paid for in advance. When bytes to sign are asked for the first
time, the fee was moved and every single key that can be tried is paid for; and the keys are no more than
the limit of the chain. -/
namespace Tollgate

open Call Relation
open Watched (Watches direct recording recordAsk)

variable {σ : Type} {w : Wiring σ} {tx : Transaction}

/-- The same services and rules, watched. -/
def Wiring.watched (w : Wiring σ) : Wiring (Watched σ) where
  accounts := w.accounts.watched
  bank := w.bank.watched
  signModes := w.signModes.watched
  ceiling := w.ceiling
  counter := w.counter.watched
  allowances := w.allowances.map AllowanceRegistry.watched
  relays := w.relays.map RelayRegistry.watched
  checkFee := w.checkFee
  acceptsOption := w.acceptsOption
  signatureGas := w.signatureGas
  checkSignature := w.checkSignature.watched
  feeCollector := w.feeCollector

def Handler.watched (h : Handler σ) : Handler (Watched σ) := ⟨h.wiring.watched, h.order⟩

/-- The same run, with nothing recorded yet. -/
def Run.watched (r : Run σ) : Run (Watched σ) := ⟨r.context, .new r.services⟩

/-- What a run leaves when it is watched. -/
def Handler.watchedRun (h : Handler σ) (tx : Transaction) (r : Run σ) : Run (Watched σ) :=
  after (h.watched.handle tx false) r.watched

theorem Run.parallel_watched (r : Run σ) : Run.Parallel True Watches r r.watched :=
  ⟨⟨r.context.txIndex, rfl, fun _ => rfl⟩, rfl⟩

/-- Watching changes no outcome. -/
theorem Wiring.lockstep_watched (hfee : ∀ c i, w.checkFee (c.placed i) tx = w.checkFee c tx) :
    w.Lockstep Watches w.watched tx where
  params s t hst := congrArg w.accounts.params hst.symm
  moduleAddress := rfl
  feeCollector := rfl
  acceptsOption := rfl
  signatureGas := rfl
  checkFee := hfee
  collector := Watched.lockstep_recording _ _
  source _ _ := Watched.lockstep_recording _ _
  signer _ _ := Watched.lockstep_recording _ _
  setKey _ _ _ := Watched.lockstep_recording _ _
  advance _ _ := Watched.lockstep_recording _ _
  allowances := by
    unfold watched
    cases w.allowances with
    | none => exact .none
    | some registry => exact .some fun _ _ _ => Watched.lockstep_recording _ _
  signBytes _ _ := Watched.lockstep_recording _ _
  checkSignature _ _ _ := Watched.lockstep_recording _ _
  relays := by
    unfold watched
    cases w.relays with
    | none => exact .none
    | some registry => exact .some fun _ _ => Watched.lockstep_recording _ _

theorem Wiring.countsAlike_watched : w.CountsAlike Watches w.watched tx :=
  fun _ => Watched.lockstep_recording _ _

theorem Wiring.deductsAlike_watched : w.DeductsAlike Watches Watches w.watched tx :=
  fun _ _ _ => Watched.lockstep_recording _ _

section Watching

variable {r t : Run (Watched σ)} {s : Stage}

/-- What was recorded so far. -/
def Run.record (r : Run (Watched σ)) : List σ × List SingleKey := (r.services.asked, r.services.tried)

/-- Only the stage of the signatures is recorded. -/
theorem Change.record_eq (h : Change w.watched tx false s r t) (hs : s ≠ .signatures) :
    t.record = r.record := by
  have hdirect {ε α : Type} (c : Call ε σ α) (x : Watched σ) (ctx : Context) :
      Run.record ⟨ctx, after (direct c) x⟩ = Run.record ⟨ctx, x⟩ := by
    rw [direct, Watched.after_recording]
    rfl
  cases h with
  | count => exact hdirect _ _ _
  | account => exact hdirect _ _ _
  | spendable _ _ _ hsimulate => cases hsimulate
  | deduct => exact hdirect _ _ _
  | checkAllowance _ _ _ _ _ _ hsimulate => cases hsimulate
  | spendAllowance _ registry _ _ _ hw =>
    obtain ⟨_, -, rfl⟩ := Option.map_eq_some_iff.1 hw
    exact hdirect _ _ _
  | storeKey _ _ _ _ _ u _ _ _ _ hfound =>
    obtain rfl := after_of_ok hfound
    exact (hdirect _ _ _).trans (hdirect _ _ r.context)
  | signBytes => exact absurd rfl hs
  | checkSignature => exact absurd rfl hs
  | advance => exact hdirect _ _ _
  | isProcessed _ registry _ _ hw =>
    obtain ⟨_, -, rfl⟩ := Option.map_eq_some_iff.1 hw
    exact hdirect _ _ _
  | _ => rfl

namespace Gate

variable {ε α : Type} {c : Context} {ks : List SingleKey}

/-- The runs with a context. -/
def InContext (c : Context) (r : Run (Watched σ)) : Prop := r.context = c

def triedBy (r : Run (Watched σ)) : List SingleKey := r.services.tried

theorem logs_call {explain : ε → AdmissionError} {d : Call ε (Watched σ) α}
    (h : Logs (fun _ => True) Watched.tried d ks) : Logs (InContext c) triedBy (call explain d) ks where
  ok r a t hr ht := by
    obtain ⟨u, hu, rfl⟩ := call_eq_ok_iff.1 ht
    exact ⟨hr, (h.ok _ _ _ trivial hu).2⟩
  error r e t _ ht := by
    obtain ⟨x, u, hu, -, rfl⟩ := call_eq_error_iff.1 ht
    exact h.error _ _ _ trivial hu

theorem logs_verifyTask (data : SignerData) (task : SignatureTask) :
    Logs (fun _ => True) Watched.tried (verifyTask w.watched tx data task) [task.key] := by
  have hsame (s : Watched σ) : (recordAsk s).tried = s.tried ++ [] := (List.append_nil _).symm
  have hask := Watched.logs_recording hsame (w.signModes.signBytes task.mode data tx)
  exact (hask.mapError _).bind fun message => Watched.logs_recording (fun _ => rfl) _

/-- One signer has those keys tried that its signature selects. -/
theorem logs_verifySigner (hmode : c.isRecheck = false) {x : Signer × Nat}
    (hx : c.signer? x.1.address = some x.1) :
    Logs (InContext c) triedBy (verifySigner w.watched tx false x.1.address x.2)
      (match tx.signatureData x.2 x.1.address false with
        | .ok data => x.1.key.selected data
        | .error _ => []) := by
  have hfound (r : Run (Watched σ)) (hr : r.context = c) :
      signer w.watched tx false x.1.address x.2 r = .ok x.1 r := signer_of_cached (by rw [hr, hx])
  cases hinfo : tx.signerInfo? x.2 with
  | none =>
    refine .congr (fun r hr => ?_) (.throw (.malformed (.noSignerInfo x.2)) _)
    unfold verifySigner
    rw [bind_of_ok (hfound r hr), hinfo]
  | some info =>
    -- a wrong sequence is noticed before any bytes are asked for
    by_cases hseq : info.sequence = x.1.sequence
    · have hverify (r : Run (Watched σ)) (hr : r.context = c) :
          verifySigner w.watched tx false x.1.address x.2 r = (do
            let data ← ofExcept (tx.signatureData x.2 x.1.address false)
            call (.invalidSignature x.1.address) (x.1.key.verify
              (verifyTask w.watched tx (signerData c x.1 x.1.address)) data)) r := by
        unfold verifySigner
        rw [bind_of_ok (hfound r hr), hinfo]
        simp only [hseq, ne_eq, not_true_eq_false, if_false]
        rw [context_bind, hr]
        simp only [hmode, Bool.or_self, Bool.false_eq_true, if_false]
      refine .congr hverify ?_
      cases tx.signatureData x.2 x.1.address false with
      | error e => exact .throw e []
      | ok data => exact logs_call (PublicKey.logs_verify (logs_verifyTask _) x.1.key data)
    · have hstop (r : Run (Watched σ)) (hr : r.context = c) :
          verifySigner w.watched tx false x.1.address x.2 r =
            (throw (.sequenceMismatch x.1.address x.1.sequence info.sequence) :
              Gate (Watched σ) Unit) r := by
        unfold verifySigner
        rw [bind_of_ok (hfound r hr), hinfo]
        simp only [hseq, ne_eq, not_false_eq_true, if_true]
        rfl
      exact .congr hstop (.throw _ _)

theorem logs_verifySignatures (hmode : c.isRecheck = false) (hcached : c.Caches tx) :
    Logs (InContext c) triedBy (verifySignatures w.watched tx false)
      (tx.selectedKeys c.signers.zipIdx) := by
  have hall : Logs (InContext c) triedBy (tx.signers.zipIdx.forM fun x =>
      verifySigner w.watched tx false x.1 x.2) (tx.selectedKeys c.signers.zipIdx) := by
    rw [hcached.zipIdx, List.forM_eq_forM, List.forM_map]
    exact .forM fun x hx => logs_verifySigner hmode (hcached.signer? hx)
  unfold verifySignatures
  dsimp only
  split
  · exact (Logs.throw _ []).bind fun _ => hall
  · exact hall

end Gate

/-- What the stage of the signatures tries is among what its signers' signatures select. -/
theorem Stage.tried_of_signatures (hmode : r.context.isRecheck = false) (hcached : r.context.Caches tx) :
    ∃ done, done <+: tx.selectedKeys r.context.signers.zipIdx ∧
      (after (Stage.signatures.run w.watched tx false) r).services.tried =
        r.services.tried ++ done := by
  have hlogs : Logs (Gate.InContext r.context) Gate.triedBy
      (Stage.signatures.run w.watched tx false) (tx.selectedKeys r.context.signers.zipIdx) := by
    rw [← List.append_nil (tx.selectedKeys _)]
    exact (Gate.logs_verifySignatures hmode hcached).bind fun _ => .pure _
  exact hlogs.after rfl

end Watching

namespace Signer

/-- Single keys are counted in words, so that a count beyond the largest word stops there. -/
theorem KeysWithin.sum_le {limit count : UInt64} {ss : List Signer} (h : KeysWithin limit count ss)
    (hcount : count ≤ limit) :
    min (count.toNat + (ss.map fun s => s.key.leafCount).sum) (2 ^ 64 - 1) ≤ limit.toNat := by
  induction ss generalizing count with
  | nil =>
    have hle := UInt64.le_iff_toNat_le.1 hcount
    simp only [List.map_nil, List.sum_nil]
    omega
  | cons s ss ih =>
    have hrest := ih h.2 h.1
    rw [Word.toNat_addSat, Word.toNat_clamp] at hrest
    rw [List.map_cons, List.sum_cons]
    omega

end Signer

theorem Transaction.length_selectedKeys_le (tx : Transaction) (xs : List (Signer × Nat)) :
    (tx.selectedKeys xs).length ≤ ((xs.map Prod.fst).map fun s => s.key.leafCount).sum := by
  induction xs with
  | nil => exact Nat.le_refl _
  | cons x xs ih =>
    rw [selectedKeys, List.flatMap_cons, List.length_append, List.map_cons, List.map_cons,
      List.sum_cons]
    refine Nat.add_le_add ?_ ih
    split
    · exact PublicKey.length_selected_le _ _
    · exact Nat.zero_le _

theorem AuthParams.total_le_of_prefix (params : AuthParams) {keys keys' : List SingleKey}
    (h : keys <+: keys') : params.total keys ≤ params.total keys' :=
  params.total_le_of_sublist h.sublist

/-- The fee of a transaction was moved in full from its source to the collector. -/
def Tuning.FeeMoved (u : Tuning) (tx : Transaction) (s t : Memory) : Prop :=
  ∃ payer, tx.feePayer = some payer ∧
    s.bank.Transfers (tx.feeSource payer) (moduleAddress u.settings.feeCollector) tx.fee t.bank

/-- What is settled when the signatures are verified. Between the two runs the gas for the signatures
is charged. -/
structure Tuning.Settled (u : Tuning) (tx : Transaction) (r before ready : Run Memory) : Prop where
  feeMoved : u.FeeMoved tx r.services ready.services
  charged : ready.context.meter.consumed.toNat = before.context.meter.consumed.toNat +
    r.services.accounts.params.total (tx.selectedKeys ready.context.signers.zipIdx)
  inLimit : ready.context.meter.InLimit
  keyCount : min (ready.context.signers.map fun s => s.key.leafCount).sum (2 ^ 64 - 1) ≤
    r.services.accounts.params.signatureLimit.toNat
  cached : ready.context.Caches tx
  mode : ready.context.mode = r.context.mode

section InMemory

variable {tuning : Tuning} {r t ready : Run Memory}

namespace Stage

/-- Once the signers are found and counted, they are in the cache, and nothing but their keys has
changed. -/
theorem of_passes_keys {u : Run Memory} (h : Passes tuning.wiring tx false [.keys, .keyCount] u t) :
    t.context.Caches tx ∧
    Signer.KeysWithin u.services.accounts.params.signatureLimit 0 t.context.signers ∧
    t.context.meter = u.context.meter ∧ t.context.mode = u.context.mode ∧
    t.services.bank = u.services.bank ∧
    t.services.accounts.params = u.services.accounts.params := by
  obtain ⟨_, hkeys, h⟩ := passes_cons_iff.1 h
  obtain ⟨signers, hfound, rfl⟩ :=
    Gate.resolveKeys_false_eq_ok_iff.1 (proceeding_eq_ok_iff.1 hkeys).2
  have hcached : Context.Caches { u.context with signers := signers } tx := hfound.addresses
  have hparams := u.services.accounts.params_keepKeys signers
  obtain ⟨_, hcount, h⟩ := passes_cons_iff.1 h
  obtain ⟨hwithin, rfl⟩ :=
    (Gate.checkKeyCount_eq_ok_iff hcached).1 (proceeding_eq_ok_iff.1 hcount).2
  cases h
  exact ⟨hcached, hparams ▸ hwithin, rfl, rfl, rfl, hparams⟩

/-- The signatures of the cached signers are charged for, and nothing else changes. -/
theorem of_run_signatureGas {u : Run Memory} (hgas : tuning.signatureGas = none)
    (hcached : u.context.Caches tx)
    (h : Stage.signatureGas.run tuning.wiring tx false u = .ok .proceed t) :
    ∃ meter, t = u.withMeter meter ∧ (u.context.meter.InLimit → meter.InLimit) ∧
      meter.consumed.toNat = u.context.meter.consumed.toNat +
        u.services.accounts.params.total (tx.selectedKeys u.context.signers.zipIdx) := by
  have hcharge := (proceeding_eq_ok_iff.1 h).2
  rw [Gate.chargeSignatures_eq hcached, Tuning.signatureGas_eq hgas] at hcharge
  obtain ⟨meter, hmetered, rfl⟩ := Gate.charge_eq_ok_iff.1 hcharge
  obtain ⟨-, -, hsum, hin⟩ := meterSignatures_eq_ok hmetered
  exact ⟨meter, rfl, hin, hsum⟩

theorem settled_of_passes (hfee : tuning.feeChecker = none) (hgas : tuning.signatureGas = none)
    (hmode : r.context.mode ≠ .recheck)
    (h : Passes tuning.wiring tx false (canonical.take 12) r ready) :
    ∃ before, Passes tuning.wiring tx false (canonical.take 11) r before ∧
      Stage.signatureGas.run tuning.wiring tx false before = .ok .proceed ready ∧
      tuning.Settled tx r before ready := by
  have hlast : canonical.take 12 = canonical.take 11 ++ [.signatureGas] := rfl
  rw [hlast] at h
  obtain ⟨before, hbefore, h⟩ := h.split
  obtain ⟨_, hcharge, h⟩ := passes_cons_iff.1 h
  cases h
  refine ⟨before, hbefore, hcharge, ?_⟩
  -- what is left is the intake, the fee, and the stages that find and count the keys
  have hparts : canonical.take 11 = intake ++ .fee :: [.keys, .keyCount] := rfl
  rw [hparts] at hbefore
  obtain ⟨_, hintake, hbefore⟩ := hbefore.split
  obtain ⟨index, counter, sized, htaken, rfl⟩ := passes_intake_iff.1 hintake
  obtain ⟨u, hpay, hkeys⟩ := passes_cons_iff.1 hbefore
  obtain ⟨-, -, payer, allowances, bank, hpays, rfl⟩ :=
    (Gate.chargeFee_false_eq_ok_iff hfee).1 (proceeding_eq_ok_iff.1 hpay).2
  obtain ⟨hcached, hwithin, hmeter, hmodes, hbank, hparams⟩ := of_passes_keys hkeys
  obtain ⟨meter, rfl, hin, hsum⟩ := of_run_signatureGas hgas hcached hcharge
  rw [hmeter, hparams] at hsum
  rw [hmeter] at hin
  obtain ⟨-, hsizedIn, -⟩ := htaken.consumed
  have hform : tx.checkForm = .ok () := by
    refine htaken.form.resolve_left fun hre => hmode ?_
    simpa [Context.isRecheck] using hre
  constructor
  · refine ⟨payer, hpays.charged, fun a denom => ?_⟩
    change (before.services.bank.balance a denom).toNat + _ = _
    rw [hbank]
    exact hpays.balance (Transaction.fee_check_of_checkForm hform) a denom
  · change meter.consumed.toNat = before.context.meter.consumed.toNat + _
    rw [hmeter]
    exact hsum
  · exact hin hsizedIn
  · have hcount := hwithin.sum_le (UInt64.le_iff_toNat_le.2 (Nat.zero_le _))
    rw [UInt64.toNat_zero, Nat.zero_add] at hcount
    exact hcount
  · exact hcached
  · exact hmodes

end Stage

/-- The services are in this state, as they were whenever bytes to sign were asked for. -/
def Run.AsksIn (s : Memory) (u : Run (Watched Memory)) : Prop :=
  u.services.services = s ∧ ∀ x ∈ u.services.asked, x = s

/-- While signatures are verified, services in memory stay as they are. -/
theorem Change.asksIn {s : Memory} {u v : Run (Watched Memory)}
    (h : Change tuning.wiring.watched tx false .signatures u v) (hu : u.AsksIn s) : v.AsksIn s := by
  obtain ⟨rfl, hasked⟩ := hu
  cases h with
  | account => exact ⟨rfl, hasked⟩
  | signBytes =>
    refine ⟨rfl, fun x hx => ?_⟩
    rcases List.mem_append.1 hx with hx | hx
    · exact hasked x hx
    · exact List.mem_singleton.1 hx
  | checkSignature _ key message signature =>
    have hsame : after (tuning.wiring.checkSignature key message signature) u.services.services =
        u.services.services := after_ofExcept _ _
    have hafter := Watched.after_recording (Watched.recordTry key)
      (tuning.wiring.checkSignature key message signature) u.services
    rw [hsame] at hafter
    change Run.AsksIn _ ⟨u.context, after (recording _ _) u.services⟩
    rw [hafter]
    exact ⟨rfl, hasked⟩

theorem Run.Parallel.context_eq {S : σ → Watched σ → Prop} {r : Run σ} {u : Run (Watched σ)}
    (h : Run.Parallel True S r u) : u.context = r.context := by
  obtain ⟨i, hi, hindex⟩ := h.context
  rw [hi, hindex trivial]
  rfl

/-- From the stage of the signatures on, the keys that are tried are among the selected ones, and the
meter is left alone. -/
theorem Stage.record_of_signatures {u : Run (Watched Memory)} (hrecord : u.record = ([], []))
    (hmode : u.context.isRecheck = false) (hcached : u.context.Caches tx) :
    let t := after (runAll tuning.wiring.watched tx false [.signatures, .sequences, .relay]) u
    t.services.tried <+: tx.selectedKeys u.context.signers.zipIdx ∧
      (∀ x ∈ t.services.asked, x = u.services.services) ∧
      t.context.meter = u.context.meter := by
  intro t
  obtain ⟨hasked, htried⟩ := Prod.mk.inj hrecord
  have hlater : t.record = (after (Stage.signatures.run tuning.wiring.watched tx false) u).record := by
    refine eq_of_reached (fun s hs _ _ hc => hc.record_eq ?_)
      (reached_after_run (within_runAll [.sequences, .relay]) .signatures u)
    rintro rfl
    exact absurd hs (by decide)
  obtain ⟨hlaterAsked, hlaterTried⟩ := Prod.mk.inj hlater
  refine ⟨?_, ?_, ?_⟩
  · obtain ⟨done, hdone, hadded⟩ := tried_of_signatures (w := tuning.wiring) hmode hcached
    rw [hlaterTried, hadded, htried, List.nil_append]
    exact hdone
  · rw [hlaterAsked]
    have hstart : u.AsksIn u.services.services := by
      refine ⟨rfl, ?_⟩
      rw [hasked]
      exact nofun
    exact (of_run (P := Run.AsksIn u.services.services) (fun _ _ hc => hc.asksIn) hstart).2
  · have hfree : ∀ s ∈ [Stage.signatures, .sequences, .relay],
        s ∉ [Stage.setup, .gasCeiling, .size, .signatureGas] := by decide
    exact eq_of_reached (f := fun x => x.context.meter) (fun s hs _ _ hc => hc.meter_eq (hfree s hs))
      (within_runAll [.signatures, .sequences, .relay] u)

theorem Tuning.lockstep_watched (hfee : tuning.feeChecker = none) :
    tuning.wiring.Lockstep Watches tuning.wiring.watched tx := by
  refine Wiring.lockstep_watched fun c i => ?_
  rw [Gate.checkFee_eq hfee]
  rfl

/-- A run that does not come to the signatures leaves no record. -/
theorem Handler.record_of_unreached (harrival : Stage.arrival? tuning.wiring.watched tx false
      .signatures Stage.canonical r.watched = none) :
    (tuning.handler.watchedRun tx r).record = ([], []) := by
  refine Stage.eq_of_reached (fun s hs _ _ hc => hc.record_eq ?_)
    (Stage.reached_of_arrival?_eq_none harrival)
  exact Stage.mem_others.1 hs

/-- A run that comes to the signatures has settled everything before them, and has recorded nothing. -/
theorem Handler.settled_of_arrival (hfee : tuning.feeChecker = none)
    (hgas : tuning.signatureGas = none) (hmode : r.context.mode ≠ .recheck)
    {u : Run (Watched Memory)} (harrival : Stage.arrival? tuning.wiring.watched tx false
      .signatures Stage.canonical r.watched = some u) :
    ∃ before ready, Stage.Passes tuning.wiring tx false (Stage.canonical.take 11) r before ∧
      Stage.signatureGas.run tuning.wiring tx false before = .ok .proceed ready ∧
      tuning.Settled tx r before ready ∧ Run.Parallel True Watches ready u ∧
      u.record = ([], []) ∧ tuning.handler.watchedRun tx r =
        after (Stage.runAll tuning.wiring.watched tx false [.signatures, .sequences, .relay]) u := by
  obtain ⟨pre, post, hsplit, hpass⟩ := Stage.passes_of_arrival? harrival
  rw [Stage.eq_take_position hsplit] at hpass
  obtain ⟨ready, hready, hparallel⟩ := Stage.lockstep_passes (Tuning.lockstep_watched hfee)
    (fun _ => Wiring.countsAlike_watched) (fun _ => Wiring.deductsAlike_watched)
    r.parallel_watched hpass
  obtain ⟨before, hbefore, hcharge, hsettled⟩ := Stage.settled_of_passes hfee hgas hmode hready
  refine ⟨before, ready, hbefore, hcharge, hsettled, hparallel, ?_, ?_⟩
  · refine Stage.eq_of_reached (fun s hs _ _ hc => hc.record_eq ?_) hpass.reached
    rintro rfl
    exact absurd hs (by decide)
  · have hrest : tuning.handler.watched.handle tx false r.watched = Stage.runAll
        tuning.wiring.watched tx false [.signatures, .sequences, .relay] u := hpass.runAll_append _
    simp only [watchedRun, after, hrest]

/-- Outside simulation and recheck, watching a run changes nothing about it. No more single keys are
tried than the limit of the chain, as long as their number is a word. If bytes to sign are asked for at
all, then the stage before has charged at least what the keys cost that are tried, the meter is within its
limit, and the fee has been moved in full. -/
theorem Handler.signatures_prepaid (hfee : tuning.feeChecker = none)
    (hgas : tuning.signatureGas = none) (hmode : r.context.mode ≠ .recheck) (tx : Transaction) :
    let t := tuning.handler.watchedRun tx r
    let params := r.services.accounts.params
    Agrees (Run.Parallel True Watches) (tuning.handler.handle tx false r)
      (tuning.handler.watched.handle tx false r.watched) ∧
    (t.services.tried.length < 2 ^ 64 →
      t.services.tried.length ≤ params.signatureLimit.toNat) ∧
    (t.record = ([], []) ∨ ∃ before ready,
      Stage.Passes tuning.wiring tx false (Stage.canonical.take 11) r before ∧
      Stage.signatureGas.run tuning.wiring tx false before = .ok .proceed ready ∧
      before.context.meter.consumed.toNat + params.total t.services.tried ≤
        ready.context.meter.consumed.toNat ∧
      ready.context.meter.InLimit ∧ t.context.meter = ready.context.meter ∧
      (∀ s ∈ t.services.asked, s = ready.services) ∧
      tuning.FeeMoved tx r.services ready.services) := by
  intro t params
  refine ⟨Stage.lockstep_runAll (Tuning.lockstep_watched hfee)
    (fun _ => Wiring.countsAlike_watched) (fun _ => Wiring.deductsAlike_watched) _ _
    r.parallel_watched, ?_⟩
  cases harrival : Stage.arrival? tuning.wiring.watched tx false .signatures Stage.canonical
      r.watched with
  | none =>
    have hrecord : t.record = ([], []) := record_of_unreached harrival
    refine ⟨fun _ => ?_, .inl hrecord⟩
    rw [(Prod.mk.inj hrecord).2]
    exact Nat.zero_le _
  | some u =>
    obtain ⟨before, ready, hbefore, hcharge, hsettled, hparallel, hrecord, (hend : t = _)⟩ :=
      settled_of_arrival hfee hgas hmode harrival
    have hcontext := hparallel.context_eq
    have hrecheck : u.context.isRecheck = false := by
      rw [hcontext, Context.isRecheck, hsettled.mode]
      exact decide_eq_false hmode
    obtain ⟨htried, hasked, hmeter⟩ := Stage.record_of_signatures hrecord hrecheck
      (hcontext ▸ hsettled.cached)
    rw [← hend] at htried hasked hmeter
    rw [hcontext] at htried hmeter
    have hlength := Nat.le_trans htried.length_le (tx.length_selectedKeys_le _)
    rw [List.zipIdx_map_fst] at hlength
    refine ⟨fun hword => ?_, .inr ⟨before, ready, hbefore, hcharge, ?_, hsettled.inLimit, hmeter,
      fun s hs => (hasked s hs).trans hparallel.services, hsettled.feeMoved⟩⟩
    · have hkeys := hsettled.keyCount
      change t.services.tried.length ≤ r.services.accounts.params.signatureLimit.toNat
      omega
    · rw [hsettled.charged]
      exact Nat.add_le_add_left (params.total_le_of_prefix htried) _

end InMemory

theorem signedTransfer_tried : (Tuning.standard.handler.watchedRun (signedTransfer 0 none)
    unitMemoryRun).services.tried.map unitMemoryRun.services.accounts.params.cost = [1000] := by
  decide +kernel

/-- The one key of the transfer is tried after its cost of 1000 was charged and the fee was moved. -/
theorem signedTransfer_prepaid : ∃ keys : List SingleKey, keys.length = 1 ∧
    unitMemoryRun.services.accounts.params.total keys = 1000 ∧
    keys = (Tuning.standard.handler.watchedRun (signedTransfer 0 none) unitMemoryRun).services.tried ∧
    keys.length ≤ unitMemoryRun.services.accounts.params.signatureLimit.toNat ∧
    ∃ before ready, Stage.signatureGas.run Tuning.standard.wiring (signedTransfer 0 none) false before =
        .ok .proceed ready ∧
      before.context.meter.consumed.toNat + unitMemoryRun.services.accounts.params.total keys ≤
        ready.context.meter.consumed.toNat ∧
      ready.context.meter.InLimit ∧
      Tuning.standard.FeeMoved (signedTransfer 0 none) unitMemoryRun.services ready.services := by
  have htried := signedTransfer_tried
  obtain ⟨-, hlimit, hpaid⟩ := Handler.signatures_prepaid
    (rfl : Tuning.standard.feeChecker = none) rfl (r := unitMemoryRun) (by decide)
    (signedTransfer 0 none)
  have hone := congrArg List.length htried
  rw [List.length_map] at hone
  refine ⟨_, hone, ?_, rfl, hlimit ?_, ?_⟩
  · rw [AuthParams.total_eq_sum, htried]
    rfl
  · rw [hone]
    decide
  · rcases hpaid with hnone | ⟨before, ready, -, hcharge, hcost, hin, -, -, hmoved⟩
    · rw [(Prod.mk.inj hnone).2] at htried
      cases htried
    · exact ⟨before, ready, hcharge, hcost, hin, hmoved⟩

end Tollgate
