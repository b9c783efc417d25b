import Tollgate.Proofs.Admission.DryRun
import Tollgate.Proofs.Admission.Failure
import Tollgate.Proofs.Admission.Imprint
import Tollgate.Proofs.Admission.Simulation
import Tollgate.Proofs.Admission.Size
import Tollgate.Proofs.Signature.Selection
/-! The gas that a run consumes. No stage after the first gives gas back, a charge that fails is kept,
and a run outside simulation that succeeds has consumed exactly the gas for its bytes and for the single
keys that its signatures select. -/
namespace Tollgate

open Call Relation

variable {σ : Type} {w : Wiring σ} {tx : Transaction} {simulate : Bool} {r t : Run σ}

/-- A run on this meter stopped at a charge that failed, and the charge is kept: the sum, or the largest
word if the sum does not fit. -/
def GasMeter.StoppedAt (m n : GasMeter) (e : GasError) : Prop :=
  ∃ (k : GasMeter) (amount : UInt64) (descriptor : String),
    m.consumed ≤ k.consumed ∧ k.limit = m.limit ∧
    GasMeter.consume amount descriptor k = .error e n ∧
    n.consumed = Word.addSat k.consumed amount

namespace GasMeter

variable {m n k : GasMeter} {e : GasError} {params : AuthParams}

theorem StoppedAt.of_later (h : k.StoppedAt n e) (hconsumed : m.consumed ≤ k.consumed)
    (hlimit : k.limit = m.limit) : m.StoppedAt n e := by
  obtain ⟨k', amount, descriptor, hk, hl, hfail, hkept⟩ := h
  exact ⟨k', amount, descriptor, UInt64.le_trans hconsumed hk, hl.trans hlimit, hfail, hkept⟩

theorem consumed_le_addSat (m : GasMeter) (amount : UInt64) :
    m.consumed ≤ Word.addSat m.consumed amount := by
  have hlt := m.consumed.toNat_lt
  rw [UInt64.le_iff_toNat_le, Word.toNat_addSat]
  omega

theorem stoppedAt_consume {amount : UInt64} {descriptor : String}
    (h : consume amount descriptor m = .error e n) : m.StoppedAt n e := by
  refine ⟨m, amount, descriptor, UInt64.le_refl _, rfl, h, ?_⟩
  rw [← after_of_error h, after_consume]

/-- Gas is consumed and the limit stays. -/
def Spends (m n : GasMeter) : Prop := m.consumed ≤ n.consumed ∧ n.limit = m.limit

theorem spends_of_reached (h : ReflTransGen Spends m n) : m.Spends n := by
  induction h with
  | refl => exact ⟨UInt64.le_refl _, rfl⟩
  | tail _ hstep ih => exact ⟨UInt64.le_trans ih.1 hstep.1, hstep.2.trans ih.2⟩

theorem within_consumeKey (key : SingleKey) : Within Spends (PublicKey.consumeKey params key) := by
  refine .of_step fun m => ?_
  unfold PublicKey.consumeKey
  rw [after_consume]
  exact ⟨consumed_le_addSat m _, rfl⟩

theorem within_consumeKeys (keys : List SingleKey) :
    Within Spends (keys.forM (PublicKey.consumeKey params)) :=
  .forM fun key _ => within_consumeKey key

theorem stoppedAt_consumeKeys {keys : List SingleKey}
    (h : keys.forM (PublicKey.consumeKey params) m = .error e n) : m.StoppedAt n e := by
  obtain ⟨done, key, rest, k, -, hdone, hkey⟩ := forM_eq_error h
  obtain ⟨hconsumed, hlimit⟩ := spends_of_reached ((within_consumeKeys done).reached hdone)
  exact (stoppedAt_consume hkey).of_later hconsumed hlimit

end GasMeter

namespace Gate

open GasMeter

variable {α β : Type}

/-- The gate gives no gas back, leaves the limit alone, does not succeed on a meter that has run out,
and keeps a charge that fails. -/
structure Metered (g : Gate σ α) : Prop where
  spends : ∀ r : Run σ, r.context.meter.Spends (after g r).context.meter
  inLimit : ∀ (r : Run σ) a t, g r = .ok a t → r.context.meter.InLimit → t.context.meter.InLimit
  kept : ∀ (r : Run σ) e t, g r = .error (.outOfGas e) t → r.context.meter.StoppedAt t.context.meter e

namespace Metered

/-- What leaves the meter alone, and does not report that gas is short. -/
theorem of_meter_eq {g : Gate σ α} (h : ∀ r : Run σ, (after g r).context.meter = r.context.meter)
    (he : ∀ r e t, g r ≠ .error (.outOfGas e) t) : Metered g where
  spends r := by
    rw [h r]
    exact ⟨UInt64.le_refl _, rfl⟩
  inLimit r a t ht := by
    rw [← after_of_ok ht, h r]
    exact id
  kept r e t ht := absurd ht (he r e t)

protected theorem pure (a : α) : Metered (pure a : Gate σ α) :=
  of_meter_eq (fun _ => rfl) fun _ _ _ h => nomatch h

protected theorem throw {e : AdmissionError} (h : ∀ x, e ≠ .outOfGas x) :
    Metered (throw e : Gate σ α) :=
  of_meter_eq (fun _ => rfl) fun _ x _ ht => h x (EStateM.Result.error.inj ht).1

protected theorem bind {g : Gate σ α} {f : α → Gate σ β} (hg : Metered g)
    (hf : ∀ a, Metered (f a)) : Metered (g >>= f) where
  spends r := by
    have hfirst := hg.spends r
    cases h : g r with
    | ok a u =>
      rw [after_of_ok h] at hfirst
      have hrest := (hf a).spends u
      rw [after_bind_of_ok h]
      exact ⟨UInt64.le_trans hfirst.1 hrest.1, hrest.2.trans hfirst.2⟩
    | error e u =>
      rw [after_of_error h] at hfirst
      rwa [after_bind_of_error h]
  inLimit r b t h hin := by
    obtain ⟨a, u, hu, h⟩ := bind_eq_ok_iff.1 h
    exact (hf a).inLimit u b t h (hg.inLimit r a u hu hin)
  kept r e t h := by
    rcases bind_eq_error_iff.1 h with h | ⟨a, u, hu, h⟩
    · exact hg.kept r e t h
    · have hfirst := hg.spends r
      rw [after_of_ok hu] at hfirst
      exact ((hf a).kept u e t h).of_later hfirst.1 hfirst.2

protected theorem forM {f : α → Gate σ PUnit} {xs : List α} (h : ∀ a ∈ xs, Metered (f a)) :
    Metered (xs.forM f) := by
  induction xs with
  | nil => exact .pure _
  | cons a xs ih =>
    rw [List.forM_eq_forM, List.forM_cons]
    exact (h a List.mem_cons_self).bind fun _ => ih fun b hb => h b (List.mem_cons_of_mem a hb)

end Metered

theorem metered_context : Metered (context : Gate σ Context) :=
  .of_meter_eq (fun _ => rfl) fun _ _ _ h => nomatch h

theorem metered_params (w : Wiring σ) : Metered (params w) :=
  .of_meter_eq (fun _ => rfl) fun _ _ _ h => nomatch h

theorem metered_ofExcept {x : Except AdmissionError α} (h : ∀ e, x ≠ .error (.outOfGas e)) :
    Metered (ofExcept x : Gate σ α) := by
  refine .of_meter_eq (fun r => by rw [after_ofExcept]) fun r e t ht => ?_
  cases x with
  | ok a => cases ht
  | error x => exact h e (congrArg _ (EStateM.Result.error.inj ht).1)

theorem metered_account (w : Wiring σ) (a : Address) : Metered (account w a) := by
  refine .of_meter_eq (fun r => by rw [account, after_call]) fun r e t ht => ?_
  obtain ⟨x, _, -, he, -⟩ := call_eq_error_iff.1 ht
  cases x <;> cases he

/-- What a charge does to the meter of the context is what it does to a meter. -/
theorem metered_charge {c : EStateM GasError GasMeter Unit} (hspends : Within Spends c)
    (hin : ∀ m n, c m = .ok () n → m.InLimit → n.InLimit)
    (hkept : ∀ m n e, c m = .error e n → m.StoppedAt n e) :
    Metered (charge (Call.mapError .outOfGas c) : Gate σ Unit) where
  spends r := by
    rw [after_charge, after_mapError]
    exact spends_of_reached (hspends r.context.meter)
  inLimit r a t h := by
    obtain ⟨m, hm, rfl⟩ := charge_eq_ok_iff.1 h
    exact hin _ _ (mapError_eq_ok_iff.1 hm)
  kept r e t h := by
    obtain ⟨m, hm, rfl⟩ := charge_eq_error_iff.1 h
    obtain ⟨x, hx, he⟩ := mapError_eq_error_iff.1 hm
    obtain rfl := AdmissionError.outOfGas.inj he
    exact hkept _ _ _ hx

theorem metered_chargeBytes (p : AuthParams) (size : UInt64) :
    Metered (chargeBytes p size : Gate σ Unit) := by
  refine metered_charge (.of_step fun m => ?_) (fun m n h _ => (consume_keeps h).2)
    fun m n e => stoppedAt_consume
  rw [after_consume]
  exact ⟨consumed_le_addSat m _, rfl⟩

theorem metered_missingSignatures (w : Wiring σ) (tx : Transaction) (limit total : UInt64)
    (xs : List (Address × Nat)) : Metered (missingSignatures w tx limit total xs) := by
  induction xs generalizing total with
  | nil => exact .pure _
  | cons x xs ih =>
    obtain ⟨a, i⟩ := x
    unfold missingSignatures
    split
    · exact ih total
    · exact (metered_account w a).bind fun _ => ih _

theorem metered_chargeSize (w : Wiring σ) (tx : Transaction) (simulate : Bool) :
    Metered (chargeSize w tx simulate) := by
  refine (metered_params w).bind fun p => metered_context.bind fun c => ?_
  refine (metered_chargeBytes p _).bind fun _ => ?_
  split
  · exact (metered_missingSignatures w tx _ _ _).bind fun _ => metered_chargeBytes p _
  · exact .pure _

theorem metered_chargeSignature (p : AuthParams) (key : PublicKey) (data : SignatureData) :
    Metered (charge (SignatureGas.standard p key data) : Gate σ Unit) := by
  have hkeys := PublicKey.consumeGas_eq p key data
  refine metered_charge ?_ (fun m n h hin => ?_) fun m n e h => ?_
  · rw [hkeys]
    exact within_consumeKeys _
  · rw [hkeys] at h
    exact (consumeKeys_eq_ok h).2.2 hin
  · rw [hkeys] at h
    exact stoppedAt_consumeKeys h

theorem metered_resolveSigner (w : Wiring σ) (tx : Transaction) (simulate : Bool) (a : Address)
    (i : Nat) : Metered (resolveSigner w tx simulate a i) := by
  refine (metered_account w a).bind fun found => ?_
  cases found with
  | none => exact .throw nofun
  | some account =>
    dsimp only
    split
    · exact .pure _
    · split
      · exact .pure _
      · exact .throw nofun

theorem metered_signer (w : Wiring σ) (tx : Transaction) (simulate : Bool) (a : Address)
    (i : Nat) : Metered (signer w tx simulate a i) := by
  refine metered_context.bind fun c => ?_
  split
  · exact .pure _
  · exact metered_resolveSigner w tx simulate a i

theorem signatureData_ne_outOfGas (tx : Transaction) (simulate : Bool) (a : Address) (i : Nat)
    (e : GasError) : tx.signatureData i a simulate ≠ .error (.outOfGas e) := by
  unfold Transaction.signatureData
  dsimp only
  split
  · split <;> nofun
  · split
    · nofun
    · split <;> nofun

theorem metered_chargeSignatures (hgas : w.signatureGas = .standard) (tx : Transaction)
    (simulate : Bool) : Metered (chargeSignatures w tx simulate) := by
  unfold chargeSignatures
  rw [hgas]
  refine (metered_params w).bind fun p => .forM fun x _ => ?_
  refine (metered_signer w tx simulate x.1 x.2).bind fun s => ?_
  refine (metered_ofExcept (signatureData_ne_outOfGas tx simulate x.1 x.2)).bind fun data => ?_
  exact metered_chargeSignature p s.key data

end Gate

theorem Change.meter_eq {s : Stage} (h : Change w tx simulate s r t)
    (hs : s ∉ [.setup, .gasCeiling, .size, .signatureGas]) :
    t.context.meter = r.context.meter := by
  cases h with
  | reset => exact absurd (by decide) hs
  | limit => exact absurd (by decide) hs
  | chargeBytes => exact absurd (by decide) hs
  | chargeSignature => exact absurd (by decide) hs
  | _ => rfl

theorem Change.consumed_gasCeiling (h : Change w tx simulate .gasCeiling r t) :
    t.context.meter.consumed = r.context.meter.consumed := by
  cases h <;> rfl

namespace Stage

open GasMeter

variable {s : Stage} {ss : List Stage}

theorem metered_proceeding {g : Gate σ Unit} (h : Gate.Metered g) : Gate.Metered (proceeding g) :=
  h.bind fun _ => .pure _

theorem metered_run (hgas : w.signatureGas = .standard) (hs : s ∈ [.size, .signatureGas]) :
    Gate.Metered (s.run w tx simulate) := by
  rcases List.mem_cons.1 hs with rfl | hs
  · exact metered_proceeding (Gate.metered_chargeSize w tx simulate)
  · obtain rfl := List.mem_singleton.1 hs
    exact metered_proceeding (Gate.metered_chargeSignatures hgas tx simulate)

theorem meter_of_run (hs : s ∉ [.setup, .gasCeiling, .size, .signatureGas]) (r : Run σ) :
    (after (s.run w tx simulate) r).context.meter = r.context.meter :=
  eq_of_run (f := fun x => x.context.meter) (fun _ _ hc => hc.meter_eq hs) r

/-- Behind the first stage no stage gives gas back, whether it fails or not. -/
theorem consumed_le_of_run (hgas : w.signatureGas = .standard) (hs : s ≠ .setup) (r : Run σ) :
    r.context.meter.consumed ≤ (after (s.run w tx simulate) r).context.meter.consumed := by
  by_cases hcharge : s ∈ [.size, .signatureGas]
  · exact ((metered_run hgas hcharge).spends r).1
  by_cases hcap : s = .gasCeiling
  · subst hcap
    have hsame : (after (Stage.gasCeiling.run w tx simulate) r).context.meter.consumed =
        r.context.meter.consumed :=
      eq_of_run (f := fun x => x.context.meter.consumed) (fun _ _ hc => hc.consumed_gasCeiling) r
    rw [hsame]
    exact UInt64.le_refl _
  · have hother : s ∉ [.setup, .gasCeiling, .size, .signatureGas] := by
      simp only [List.mem_cons, not_or] at hcharge ⊢
      exact ⟨hs, hcap, hcharge⟩
    rw [meter_of_run hother]
    exact UInt64.le_refl _

/-- A stage that is passed stays within the limit, which only the first two stages set. -/
theorem inLimit_of_run (hgas : w.signatureGas = .standard) (hs : s ∉ [.setup, .gasCeiling])
    {f : Flow} (h : s.run w tx simulate r = .ok f t) :
    t.context.meter.limit = r.context.meter.limit ∧
      (r.context.meter.InLimit → t.context.meter.InLimit) := by
  by_cases hcharge : s ∈ [.size, .signatureGas]
  · have hmetered : Gate.Metered (s.run w tx simulate) := metered_run hgas hcharge
    have hlimit := (hmetered.spends r).2
    rw [after_of_ok h] at hlimit
    exact ⟨hlimit, hmetered.inLimit r f t h⟩
  · have hother : s ∉ [.setup, .gasCeiling, .size, .signatureGas] := by
      simp only [List.mem_cons, not_or] at hcharge hs ⊢
      exact ⟨hs.1, hs.2.1, hcharge⟩
    have hsame : (after (s.run w tx simulate) r).context.meter = r.context.meter :=
      meter_of_run hother r
    rw [after_of_ok h] at hsame
    rw [hsame]
    exact ⟨rfl, id⟩

theorem Passes.inLimit (hgas : w.signatureGas = .standard) (hsetup : .setup ∉ ss)
    (hcap : .gasCeiling ∉ ss) (h : Passes w tx simulate ss r t) :
    t.context.meter.limit = r.context.meter.limit ∧
      (r.context.meter.InLimit → t.context.meter.InLimit) := by
  induction h with
  | nil => exact ⟨rfl, id⟩
  | @cons s ss r u t hs _ ih =>
    rw [List.mem_cons, not_or] at hsetup hcap
    have hfirst : s ∉ [.setup, .gasCeiling] := by
      simp only [List.mem_cons, List.not_mem_nil, or_false, not_or]
      exact ⟨Ne.symm hsetup.1, Ne.symm hcap.1⟩
    obtain ⟨hlimit, hin⟩ := inLimit_of_run hgas hfirst hs
    obtain ⟨hlimit', hin'⟩ := ih hsetup.2 hcap.2
    exact ⟨hlimit'.trans hlimit, hin' ∘ hin⟩

theorem Passes.meter_eq (hss : ∀ s ∈ ss, s ∉ [.setup, .gasCeiling, .size, .signatureGas])
    (h : Passes w tx simulate ss r t) : t.context.meter = r.context.meter :=
  eq_of_reached (f := fun x => x.context.meter) (fun s hs _ _ hc => hc.meter_eq (hss s hs))
    h.reached

/-- A simulation is never stopped by the last stage, so it passes every stage. -/
theorem passes_of_runAll_true {outcome : Admission}
    (h : runAll w tx true ss r = .ok outcome t) : Passes w tx true ss r t := by
  induction ss generalizing r with
  | nil =>
    obtain ⟨-, rfl⟩ := pure_eq_ok_iff.1 h
    exact .nil r
  | cons s ss ih =>
    unfold runAll at h
    split at h
    · next hs => exact .cons hs (ih h)
    · next outcome u hs =>
      obtain ⟨rfl, -⟩ := eq_relay_of_run_halt hs
      cases hs
    · cases h

/-- With a ceiling, a simulation starts on a meter with that limit. -/
theorem meter_of_capGas {ceiling : UInt64}
    (hceiling : w.ceiling.effective r.context = some ceiling)
    (h : Gate.capGas w tx true r = .ok () t) :
    t.context.meter = r.context.meter.withLimit ceiling := by
  have hbody : Gate.capGas w tx true r = (do
      if ceiling < tx.gasLimit then
        throw (AdmissionError.gasCeilingExceeded tx.gasLimit ceiling)
      Gate.modifyContext fun c => { c with meter := c.meter.withLimit ceiling }) r := by
    unfold Gate.capGas
    rw [Bool.not_true, if_neg Bool.false_ne_true, Gate.context_bind, hceiling]
  rw [hbody] at h
  by_cases hover : ceiling < tx.gasLimit
  · rw [if_pos hover] at h
    obtain ⟨_, _, hthrow, -⟩ := bind_eq_ok_iff.1 h
    exact absurd hthrow throw_ne_ok
  · rw [if_neg hover] at h
    rw [← Gate.modifyContext_eq_ok_iff.1 h]

/-- The ceiling holds if nothing was charged before it was set. -/
theorem Passes.consumed_le_ceiling (hgas : w.signatureGas = .standard) {pre post : List Stage}
    (hn : (.setup :: pre ++ .gasCeiling :: post).Nodup) (hsize : .size ∉ pre)
    (hsignatures : .signatureGas ∉ pre)
    (h : Passes w tx true (.setup :: pre ++ .gasCeiling :: post) r t) {ceiling : UInt64}
    (hceiling : w.ceiling.effective r.context = some ceiling) :
    t.context.meter.consumed ≤ ceiling := by
  obtain ⟨u, hpre, hrest⟩ := h.split
  obtain ⟨v, hcap, hpost⟩ := passes_cons_iff.1 hrest
  have hsame : u.context.maxBlockGas = r.context.maxBlockGas :=
    (Context.sameCaller_of_reset_eq (caller_of_reached hpre.reached)).maxBlockGas
  have hceiling' : w.ceiling.effective u.context = some ceiling := by
    rw [← hceiling, SimulationCeiling.effective, hsame, SimulationCeiling.effective]
  have hv := meter_of_capGas hceiling' (proceeding_eq_ok_iff.1 hcap).2
  -- up to here the meter is fresh
  obtain ⟨x, hsetup, hpre⟩ := passes_cons_iff.1 hpre
  obtain rfl := Gate.modifyContext_eq_ok_iff.1 (proceeding_eq_ok_iff.1 hsetup).2
  rw [List.cons_append, List.nodup_cons, List.mem_append, not_or, List.nodup_append,
    List.nodup_cons] at hn
  obtain ⟨⟨hfirst, hlater⟩, -, ⟨honce, -⟩, hdisjoint⟩ := hn
  have hu : u.context.meter = .infinite := by
    refine (hpre.meter_eq fun s hs => ?_).trans (by simp [Context.reset, Context.freshMeter])
    simp only [List.mem_cons, List.not_mem_nil, or_false, not_or]
    exact ⟨fun he => hfirst (he ▸ hs), fun he => hdisjoint s hs _ List.mem_cons_self he,
      fun he => hsize (he ▸ hs), fun he => hsignatures (he ▸ hs)⟩
  rw [hu] at hv
  have hzero : v.context.meter.InLimit := by
    rw [hv]
    intro limit _
    exact UInt64.le_iff_toNat_le.2 (Nat.zero_le _)
  obtain ⟨hlimit, hin⟩ := hpost.inLimit hgas (fun hm => hlater (List.mem_cons_of_mem _ hm)) honce
  rw [hv] at hlimit
  exact hin hzero ceiling (by rw [hlimit]; rfl)

end Stage

namespace Transaction

/-- The single keys that the signatures of some signers select, each signer with its position. -/
def selectedKeys (tx : Transaction) (xs : List (Signer × Nat)) : List SingleKey :=
  xs.flatMap fun x =>
    match tx.signatureData x.2 x.1.address false with
    | .ok data => x.1.key.selected data
    | .error _ => []

/-- The gas that a transaction is due outside simulation: for its bytes, as far as that fits into a
word, and for the selected keys of its signers. -/
def gasDue (tx : Transaction) (params : AuthParams) (size : UInt64) (signers : List Signer) : Nat :=
  min (2 ^ 64 - 1) (params.costPerByte.toNat * size.toNat) +
    params.total (tx.selectedKeys signers.zipIdx)

end Transaction

theorem meterSignatures_eq_ok {params : AuthParams} {xs : List (Signer × Nat)} {m n : GasMeter}
    (h : meterSignatures .standard params tx false xs m = .ok () n) :
    (∀ x ∈ xs, ∃ data, tx.signatureData x.2 x.1.address false = .ok data) ∧
    n.limit = m.limit ∧
    n.consumed.toNat = m.consumed.toNat + params.total (tx.selectedKeys xs) ∧
    (m.InLimit → n.InLimit) := by
  induction xs generalizing m with
  | nil =>
    obtain ⟨-, rfl⟩ := pure_eq_ok_iff.1 h
    exact ⟨nofun, rfl, rfl, id⟩
  | cons x xs ih =>
    obtain ⟨k, hx, hxs⟩ := meterSignatures_cons_eq_ok_iff.1 h
    obtain ⟨data, hdata, hgas⟩ := meterSignature_eq_ok_iff.1 hx
    have hkeys := mapError_eq_ok_iff.1 hgas
    rw [PublicKey.consumeGas_eq] at hkeys
    obtain ⟨hlimit, hsum, hin⟩ := GasMeter.consumeKeys_eq_ok hkeys
    obtain ⟨hall, hlimit', hsum', hin'⟩ := ih hxs
    refine ⟨List.forall_mem_cons.2 ⟨⟨data, hdata⟩, hall⟩, hlimit'.trans hlimit, ?_, hin' ∘ hin⟩
    have hselected : tx.selectedKeys (x :: xs) = x.1.key.selected data ++ tx.selectedKeys xs := by
      simp only [Transaction.selectedKeys, List.flatMap_cons, hdata]
    rw [hselected, AuthParams.total_append]
    omega

section InMemory

variable {tuning : Tuning} {r t : Run Memory} {outcome : Admission}

/-- The bytes are charged first, on a fresh meter. -/
theorem Tuning.Takes.consumed {index : UInt32} {counter : BlockCounter} {sized : GasMeter}
    (h : tuning.Takes tx r index counter sized) :
    sized.limit = (r.context.freshMeter tx false).limit ∧ sized.InLimit ∧
    sized.consumed.toNat = min (2 ^ 64 - 1)
      (r.services.accounts.params.costPerByte.toNat * (r.context.txSize tx).toNat) := by
  have hcharge := Gate.meterBytes_eq_ok_iff.1 h.sized
  obtain ⟨hlimit, hin⟩ := GasMeter.consume_keeps hcharge
  obtain ⟨-, hsum, -⟩ := GasMeter.consume_eq_ok_iff.1 hcharge
  have hfresh : (r.context.freshMeter tx false).consumed.toNat = 0 := by
    unfold Context.freshMeter
    split <;> rfl
  refine ⟨hlimit, hin, ?_⟩
  rw [hsum, hfresh, Word.toNat_mulSat, Nat.zero_add, Nat.min_comm]

/-- The stage of the fee leaves the meter and the accounts alone. -/
theorem Stage.of_run_fee {u : Run Memory}
    (h : Stage.fee.run tuning.wiring tx false r = .ok .proceed u) :
    u.context.meter = r.context.meter ∧ u.services.accounts = r.services.accounts := by
  rw [← after_of_ok h]
  refine ⟨meter_of_run (by decide) r, eq_of_run (f := fun x => x.services.accounts)
    (fun _ _ hc => ?_) r⟩
  rcases hc.touches with h | ⟨h, -⟩ | ⟨-, b, g, h⟩ | ⟨h | h, -⟩
  · rw [h]
  · cases h
  · rw [h]
  · cases h
  · cases h

namespace Handler

/-- An admission has consumed the gas for its bytes and for the selected keys of its signers. -/
theorem consumed_of_admitted (hgas : tuning.signatureGas = none)
    (h : tuning.handler.handle tx false r = .ok outcome t) :
    tx.Finds r.services.accounts t.context.signers ∧
    (∀ x ∈ t.context.signers.zipIdx, ∃ data, tx.signatureData x.2 x.1.address false = .ok data) ∧
    t.context.meter.consumed.toNat =
      tx.gasDue r.services.accounts.params (r.context.txSize tx) t.context.signers ∧
    (0 < r.context.height → t.context.meter.consumed ≤ tx.gasLimit) := by
  obtain ⟨u, hpass, hrelay⟩ := Stage.passes_of_runAll_canonical h
  rw [Stage.canonical_eq] at hpass
  obtain ⟨_, hintake, hpass⟩ := hpass.split
  obtain ⟨index, counter, sized, htaken, rfl⟩ := Stage.passes_intake_iff.1 hintake
  obtain ⟨v, hfee, hsigning⟩ := Stage.passes_cons_iff.1 hpass
  obtain ⟨hmeter, haccounts⟩ : v.context.meter = sized ∧
      v.services.accounts = r.services.accounts := Stage.of_run_fee hfee
  obtain ⟨signers, meter, accounts, hsigns, rfl⟩ := Stage.passes_signing_iff.1 hsigning
  have hmetered := hsigns.metered
  rw [Tuning.signatureGas_eq hgas, hmeter, haccounts] at hmetered
  obtain ⟨hread, hlimit, hsum, hin⟩ := meterSignatures_eq_ok hmetered
  obtain ⟨hsizedLimit, hsizedIn, hsized⟩ := htaken.consumed
  have hfinds := hsigns.found
  rw [haccounts] at hfinds
  have hlast := (Stage.within_runAll [.relay]).reached hrelay
  have hfinalMeter : t.context.meter = meter :=
    Stage.eq_of_reached (f := fun x => x.context.meter) (fun s hs _ _ hc =>
      hc.meter_eq (by rw [List.mem_singleton.1 hs]; decide)) hlast
  have hfinalSigners : t.context.signers = signers :=
    Stage.cached_of_reached (by decide) (by decide) hlast
  rw [hfinalMeter, hfinalSigners]
  refine ⟨hfinds, hread, ?_, fun hheight => ?_⟩
  · rw [hsum, hsized, Transaction.gasDue]
  · have hgenesis : r.context.isGenesis = false :=
      decide_eq_false (UInt64.ne_of_lt hheight).symm
    have hcap : meter.limit = some tx.gasLimit := by
      rw [hlimit, hsizedLimit]
      simp [Context.freshMeter, hgenesis, GasMeter.limited]
    exact hin hsizedIn tx.gasLimit (by rw [hcap]; rfl)

end Handler
end InMemory

theorem Options.signatureGas_of_wiring? {o : Options σ} {w : Wiring σ} (h : o.wiring? = some w)
    (hgas : o.signatureGas = none) : w.signatureGas = .standard := by
  simp only [wiring?, Option.bind_eq_bind, Option.bind_eq_some_iff, Option.pure_def,
    Option.some.injEq] at h
  obtain ⟨_, -, _, -, _, -, _, -, _, -, rfl⟩ := h
  rw [hgas, Option.getD_none]

/-- The first stage of an order does not run again. -/
theorem StageOrder.ne_setup_of_mem_tail (order : StageOrder) {s : Stage}
    (hs : s ∈ order.stages.tail) : s ≠ .setup := by
  rintro rfl
  have hn := order.nodup
  rw [← List.cons_head?_tail order.head_eq, List.nodup_cons] at hn
  exact hn.1 hs

namespace Handler

/-- The gas of a run, where the cost of single keys is not replaced. In every order behind its first
stage no stage gives gas back, and a charge that fails is kept. In the canonical order over services in
memory, an admission outside simulation has consumed exactly the gas that is due, which fits into a word
and into the gas that the transaction states. A simulation that sets its ceiling before anything is
charged stays below it. -/
theorem gas_accounted {o : Options σ} {order : List Stage} {h : Handler σ}
    (hbuild : o.build order = .ok h) (hgas : o.signatureGas = none) (tx : Transaction) :
    (∀ s ∈ order.tail, ∀ simulate (r : Run σ), r.context.meter.consumed ≤
      (after (s.run h.wiring tx simulate) r).context.meter.consumed) ∧
    (∀ s ∈ [Stage.size, Stage.signatureGas], ∀ simulate (r t : Run σ) e,
      s.run h.wiring tx simulate r = .error (.outOfGas e) t →
        r.context.meter.StoppedAt t.context.meter e) ∧
    (∀ (tuning : Tuning) (r t : Run Memory) outcome, tuning.signatureGas = none →
      tuning.handler.handle tx false r = .ok outcome t →
        let due := tx.gasDue r.services.accounts.params (r.context.txSize tx) t.context.signers
        tx.Finds r.services.accounts t.context.signers ∧
        (∀ x ∈ t.context.signers.zipIdx, ∃ data,
          tx.signatureData x.2 x.1.address false = .ok data) ∧
        t.context.meter.consumed.toNat = due ∧ due < 2 ^ 64 ∧
        (0 < r.context.height → due ≤ tx.gasLimit.toNat)) ∧
    (∀ pre post, order = .setup :: pre ++ .gasCeiling :: post → .size ∉ pre → .signatureGas ∉ pre →
      ∀ (r t : Run σ) outcome, h.handle tx true r = .ok outcome t →
        ∀ ceiling ∈ h.wiring.ceiling.effective r.context, t.context.meter.consumed ≤ ceiling) := by
  obtain ⟨hwiring, rfl⟩ := Options.build_eq_ok hbuild
  have hstandard : h.wiring.signatureGas = .standard := Options.signatureGas_of_wiring? hwiring hgas
  refine ⟨fun s hs simulate r => ?_, fun s hs simulate r t e hrun => ?_,
    fun tuning r t outcome hrule hok => ?_, fun pre post horder hsize hsignatures r t outcome hok => ?_⟩
  · exact Stage.consumed_le_of_run hstandard (h.order.ne_setup_of_mem_tail hs) r
  · exact (Stage.metered_run hstandard hs).kept r e t hrun
  · obtain ⟨hfinds, hread, hconsumed, hlimit⟩ := consumed_of_admitted hrule hok
    refine ⟨hfinds, hread, hconsumed, ?_, fun hheight => ?_⟩
    · rw [← hconsumed]
      exact t.context.meter.consumed.toNat_lt
    · rw [← hconsumed]
      exact UInt64.le_iff_toNat_le.1 (hlimit hheight)
  · intro ceiling hceiling
    have hn := h.order.nodup
    have hpass := Stage.passes_of_runAll_true hok
    rw [horder] at hn hpass
    exact hpass.consumed_le_ceiling hstandard hn hsize hsignatures hceiling

end Handler

theorem signedTransfer_dry_run :
    succeeds (cappedTuning.handler.handle (signedTransfer 0 none) true) unitMemoryRun = true := by
  decide +kernel

theorem signedTransfer_consumed : (after (cappedTuning.handler.handle (signedTransfer 0 none) false)
    unitMemoryRun).context.meter.consumed = 4050 := by
  decide +kernel

/-- Delivered, the transfer of 305 bytes consumes what is due, 3050 for its size and 1000 for its key;
dry, it stays below the ceiling of 100000. -/
theorem signedTransfer_gas_accounted : ∃ t u,
    cappedTuning.handler.handle (signedTransfer 0 none) false unitMemoryRun = .ok .accepted t ∧
    t.context.meter.consumed.toNat = (signedTransfer 0 none).gasDue
      unitMemoryRun.services.accounts.params (unitMemoryRun.context.txSize (signedTransfer 0 none))
      t.context.signers ∧
    t.context.meter.consumed = 4050 ∧
    (∃ outcome, cappedTuning.handler.handle (signedTransfer 0 none) true unitMemoryRun =
      .ok outcome u) ∧ u.context.meter.consumed ≤ 100000 := by
  obtain ⟨-, -, hdue, hceiling⟩ :=
    Handler.gas_accounted cappedTuning.build_options rfl (signedTransfer 0 none)
  obtain ⟨t, ht⟩ := Handler.eq_ok_of_accepts signedTransfer_delivered
  obtain ⟨outcome, u, hu⟩ := eq_ok_of_succeeds signedTransfer_dry_run
  obtain ⟨-, -, hconsumed, -⟩ := hdue cappedTuning unitMemoryRun t .accepted rfl ht
  have hfigure := signedTransfer_consumed
  rw [after_of_ok ht] at hfigure
  refine ⟨t, u, ht, hconsumed, hfigure, ⟨outcome, hu⟩, ?_⟩
  exact hceiling [] (Stage.canonical.drop 2) rfl List.not_mem_nil List.not_mem_nil
    unitMemoryRun u outcome hu 100000 rfl

end Tollgate
