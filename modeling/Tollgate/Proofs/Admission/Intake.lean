import Tollgate.Proofs.Admission.Lookup
import Tollgate.Proofs.Admission.Tuning
import Tollgate.Proofs.Signature.Gas
/-! When the stages before the fee succeed over services in memory, and what they leave: the limit of
a simulation, the position in the block, the checks of form and the gas for the bytes. -/
namespace Tollgate

open Call

namespace Gate

variable {σ : Type} {w : Wiring σ} {tuning : Tuning} {tx : Transaction}

/-- Gas up to the ceiling leaves a meter with room for that gas. -/
theorem capGas_true_eq_ok {r : Run σ} (hm : r.context.meter = .infinite)
    (h : ∀ ceiling ∈ w.ceiling.effective r.context, tx.gasLimit ≤ ceiling) :
    ∃ m, capGas w tx true r = .ok () { r with context := { r.context with meter := m } } ∧
      (GasMeter.limited tx.gasLimit).Roomier m := by
  have hbody : capGas w tx true = context >>= _ := rfl
  rw [hbody, context_bind]
  cases hc : w.ceiling.effective r.context with
  | none =>
    refine ⟨r.context.meter, rfl, ?_, ?_⟩
    · rw [hm]
      rfl
    · rw [hm]
      intro k hk
      cases hk
  | some ceiling =>
    have hle : tx.gasLimit ≤ ceiling := h ceiling hc
    have hn : ¬ceiling < tx.gasLimit := UInt64.not_lt.2 hle
    refine ⟨r.context.meter.withLimit ceiling, ?_, ?_, ?_⟩
    · simp only [if_neg hn]
      rfl
    · rw [hm]
      rfl
    · intro k hk
      obtain rfl := Option.some.inj hk
      exact ⟨tx.gasLimit, rfl, hle⟩

theorem checkForm_eq_ok_iff {r t : Run σ} : checkForm tx r = .ok () t ↔
    (r.context.isRecheck = true ∨ tx.checkForm = .ok ()) ∧ r = t := by
  have hbody : checkForm tx r =
      (if r.context.isRecheck then pure () else ofExcept tx.checkForm : Gate σ Unit) r := rfl
  rw [hbody]
  by_cases h : r.context.isRecheck = true
  · rw [if_pos h, pure_eq_ok_iff]
    simp [h]
  · rw [if_neg h, ofExcept_eq_ok_iff]
    simp [h]

theorem checkOptions_eq_ok_iff {r t : Run σ} : checkOptions w tx r = .ok () t ↔
    tx.checkOptions w.acceptsOption = .ok () ∧ r = t := ofExcept_eq_ok_iff

theorem checkTimeout_eq_ok_iff {r t : Run σ} : checkTimeout tx r = .ok () t ↔
    tx.checkTimeout r.context.height = .ok () ∧ r = t := ofExcept_eq_ok_iff

theorem checkMemo_eq_ok_iff {r t : Run σ} : checkMemo w tx r = .ok () t ↔
    tx.checkMemo (w.accounts.params r.services).maxMemoBytes = .ok () ∧ r = t := ofExcept_eq_ok_iff

variable {r t : Run Memory}

theorem countInBlock_false_eq_ok_iff : countInBlock tuning.wiring tx false r = .ok () t ↔
    ∃ i c, BlockCounter.increment r.context.height tx.typeUrls r.services.counter = .ok i c ∧
      t = ⟨{ r.context with txIndex := some i }, { r.services with counter := c }⟩ := by
  have hbody : countInBlock tuning.wiring tx false r = (do
      let i ← call .ofLedger (Memory.txCounter.increment r.context.height tx.typeUrls)
      modifyContext fun c => { c with txIndex := some i }) r := rfl
  rw [hbody, bind_eq_ok_iff]
  constructor
  · rintro ⟨i, _, hcount, h⟩
    obtain ⟨s, hs, rfl⟩ := call_eq_ok_iff.1 hcount
    obtain ⟨c, hc, rfl⟩ := Memory.onCounter_eq_ok_iff.1 hs
    exact ⟨i, c, hc, (modifyContext_eq_ok_iff.1 h).symm⟩
  · rintro ⟨i, c, hc, rfl⟩
    exact ⟨i, _, call_eq_ok_iff.2 ⟨_, Memory.onCounter_eq_ok_iff.2 ⟨c, hc, rfl⟩, rfl⟩, rfl⟩

/-- Charges a meter for the bytes of a transaction. -/
def meterBytes (params : AuthParams) (size : UInt64) : EStateM AdmissionError GasMeter Unit :=
  Call.mapError .outOfGas (GasMeter.consume (Word.mulSat params.costPerByte size) "txSize")

theorem regular_meterBytes (params : AuthParams) (size : UInt64) :
    GasMeter.Regular (meterBytes params size) := (GasMeter.Regular.consume _ _).mapError _

theorem meterBytes_eq_ok_iff {params : AuthParams} {size : UInt64} {m n : GasMeter} :
    meterBytes params size m = .ok () n ↔
      GasMeter.consume (Word.mulSat params.costPerByte size) "txSize" m = .ok () n := by
  unfold meterBytes Call.mapError
  cases GasMeter.consume (Word.mulSat params.costPerByte size) "txSize" m <;> simp

theorem chargeSize_false_eq_ok_iff : chargeSize tuning.wiring tx false r = .ok () t ↔
    ∃ m, meterBytes r.services.accounts.params (r.context.txSize tx) r.context.meter = .ok () m ∧
      t = { r with context := { r.context with meter := m } } := by
  have hbody : chargeSize tuning.wiring tx false r = (do
      charge (meterBytes r.services.accounts.params (r.context.txSize tx))
      pure ()) r := rfl
  rw [hbody, ← charge_eq_ok_iff, bind_eq_ok_iff]
  constructor
  · rintro ⟨⟨⟩, u, hu, h⟩
    obtain ⟨-, rfl⟩ := pure_eq_ok_iff.1 h
    exact hu
  · intro h
    exact ⟨(), t, h, rfl⟩

theorem missingSignatures_of_signed {limit total : UInt64} {xs : List (Address × Nat)} {r : Run σ}
    (h : ∀ x ∈ xs, tx.signature x.2 ≠ []) :
    missingSignatures w tx limit total xs r = .ok total r := by
  induction xs with
  | nil => rfl
  | cons x xs ih =>
    have hsigned : (!(tx.signature x.2).isEmpty) = true := by
      simpa using h x List.mem_cons_self
    unfold missingSignatures
    rw [if_pos hsigned]
    exact ih fun y hy => h y (List.mem_cons_of_mem x hy)

/-- If no signature is missing, a simulation charges for the same bytes. -/
theorem chargeSize_true_eq_ok {m : GasMeter} (hs : ∀ x ∈ tx.signers.zipIdx, tx.signature x.2 ≠ [])
    (hm : meterBytes r.services.accounts.params (r.context.txSize tx) r.context.meter =
      .ok () m) :
    chargeSize tuning.wiring tx true r =
      .ok () { r with context := { r.context with meter := m } } := by
  have hbody : chargeSize tuning.wiring tx true r = (do
      charge (meterBytes r.services.accounts.params (r.context.txSize tx))
      let extra ← missingSignatures tuning.wiring tx r.services.accounts.params.signatureLimit 0
        tx.signers.zipIdx
      charge (meterBytes r.services.accounts.params extra)) r := rfl
  rw [hbody]
  refine bind_eq_ok_iff.2 ⟨(), _, charge_eq_ok_iff.2 ⟨m, hm, rfl⟩, ?_⟩
  refine bind_eq_ok_iff.2 ⟨0, _, missingSignatures_of_signed hs, ?_⟩
  refine charge_eq_ok_iff.2 ⟨m, ?_, rfl⟩
  obtain ⟨hlimit, -, hle⟩ := GasMeter.consume_eq_ok_iff.1 (meterBytes_eq_ok_iff.1 hm)
  have hzero : Word.mulSat r.services.accounts.params.costPerByte 0 = 0 := by
    rw [← UInt64.toNat_inj, Word.toNat_mulSat]
    simp
  rw [meterBytes_eq_ok_iff, hzero]
  exact GasMeter.consume_zero fun limit h => hle limit (hlimit ▸ h)

end Gate

/-- What the stages before the fee look for, with the position in the block, the counter and the
meter that they leave. -/
structure Tuning.Takes (u : Tuning) (tx : Transaction) (r : Run Memory) (index : UInt32)
    (counter : BlockCounter) (sized : GasMeter) : Prop where
  counted : BlockCounter.increment r.context.height tx.typeUrls r.services.counter =
    .ok index counter
  options : tx.checkOptions u.wiring.acceptsOption = .ok ()
  form : r.context.isRecheck = true ∨ tx.checkForm = .ok ()
  timeout : tx.checkTimeout r.context.height = .ok ()
  memo : tx.checkMemo r.services.accounts.params.maxMemoBytes = .ok ()
  sized : Gate.meterBytes r.services.accounts.params (r.context.txSize tx)
    (r.context.freshMeter tx false) = .ok () sized

namespace Stage

open Gate

/-- The stages before the fee. -/
def intake : List Stage :=
  [.setup, .gasCeiling, .blockIndex, .options, .form, .timeout, .memo, .size]

variable {tuning : Tuning} {tx : Transaction} {r t : Run Memory} {index : UInt32}
  {counter : BlockCounter} {sized : GasMeter}

theorem passes_intake_iff : Passes tuning.wiring tx false intake r t ↔
    ∃ index counter sized, tuning.Takes tx r index counter sized ∧
      t = ⟨{ r.context.reset false sized with txIndex := some index },
        { r.services with counter := counter }⟩ := by
  constructor
  · intro h
    obtain ⟨_, hrun, h⟩ := passes_cons_iff.1 h
    obtain rfl := modifyContext_eq_ok_iff.1 (proceeding_eq_ok_iff.1 hrun).2
    obtain ⟨_, hrun, h⟩ := passes_cons_iff.1 h
    obtain ⟨-, rfl⟩ := pure_eq_ok_iff.1 (proceeding_eq_ok_iff.1 hrun).2
    obtain ⟨_, hrun, h⟩ := passes_cons_iff.1 h
    obtain ⟨index, counter, hcounted, rfl⟩ :=
      countInBlock_false_eq_ok_iff.1 (proceeding_eq_ok_iff.1 hrun).2
    obtain ⟨_, hrun, h⟩ := passes_cons_iff.1 h
    obtain ⟨hoptions, rfl⟩ := checkOptions_eq_ok_iff.1 (proceeding_eq_ok_iff.1 hrun).2
    obtain ⟨_, hrun, h⟩ := passes_cons_iff.1 h
    obtain ⟨hform, rfl⟩ := checkForm_eq_ok_iff.1 (proceeding_eq_ok_iff.1 hrun).2
    obtain ⟨_, hrun, h⟩ := passes_cons_iff.1 h
    obtain ⟨htimeout, rfl⟩ := checkTimeout_eq_ok_iff.1 (proceeding_eq_ok_iff.1 hrun).2
    obtain ⟨_, hrun, h⟩ := passes_cons_iff.1 h
    obtain ⟨hmemo, rfl⟩ := checkMemo_eq_ok_iff.1 (proceeding_eq_ok_iff.1 hrun).2
    obtain ⟨_, hrun, h⟩ := passes_cons_iff.1 h
    obtain ⟨sized, hsized, rfl⟩ := chargeSize_false_eq_ok_iff.1 (proceeding_eq_ok_iff.1 hrun).2
    cases h
    exact ⟨index, counter, sized, ⟨hcounted, hoptions, hform, htimeout, hmemo, hsized⟩, rfl⟩
  · rintro ⟨index, counter, sized, h, rfl⟩
    refine .cons (proceeding_eq_ok_iff.2 ⟨rfl, modifyContext_eq_ok_iff.2 rfl⟩) ?_
    refine .cons (proceeding_eq_ok_iff.2 ⟨rfl, pure_eq_ok_iff.2 ⟨rfl, rfl⟩⟩) ?_
    refine .cons (proceeding_eq_ok_iff.2
      ⟨rfl, countInBlock_false_eq_ok_iff.2 ⟨index, counter, h.counted, rfl⟩⟩) ?_
    refine .cons (proceeding_eq_ok_iff.2 ⟨rfl, checkOptions_eq_ok_iff.2 ⟨h.options, rfl⟩⟩) ?_
    refine .cons (proceeding_eq_ok_iff.2 ⟨rfl, checkForm_eq_ok_iff.2 ⟨h.form, rfl⟩⟩) ?_
    refine .cons (proceeding_eq_ok_iff.2 ⟨rfl, checkTimeout_eq_ok_iff.2 ⟨h.timeout, rfl⟩⟩) ?_
    refine .cons (proceeding_eq_ok_iff.2 ⟨rfl, checkMemo_eq_ok_iff.2 ⟨h.memo, rfl⟩⟩) ?_
    refine .cons (proceeding_eq_ok_iff.2
      ⟨rfl, chargeSize_false_eq_ok_iff.2 ⟨sized, h.sized, rfl⟩⟩) ?_
    exact .nil _

/-- After the first block, a simulation up to the ceiling passes the same stages, with a roomier meter
and nothing counted. -/
theorem passes_intake_true (h : tuning.Takes tx r index counter sized)
    (hheight : r.context.isGenesis = false)
    (hceiling : ∀ ceiling ∈ tuning.ceiling.effective r.context, tx.gasLimit ≤ ceiling)
    (hsigned : ∀ x ∈ tx.signers.zipIdx, tx.signature x.2 ≠ []) :
    ∃ m, sized.Roomier m ∧ Passes tuning.wiring tx true intake r
      { r with context := r.context.reset true m } := by
  have hfresh : r.context.freshMeter tx false = .limited tx.gasLimit := by
    simp [Context.freshMeter, hheight]
  have hinfinite : r.context.freshMeter tx true = .infinite := by simp [Context.freshMeter]
  have hcap : ∃ m, capGas tuning.wiring tx true ⟨r.context.reset true .infinite, r.services⟩ =
      .ok () ⟨r.context.reset true m, r.services⟩ ∧ (GasMeter.limited tx.gasLimit).Roomier m :=
    capGas_true_eq_ok rfl hceiling
  obtain ⟨start, hcap, hstart⟩ := hcap
  have hsized := h.sized
  rw [hfresh] at hsized
  obtain ⟨m, hm, hroom⟩ := regular_meterBytes _ _ _ start _ hstart hsized
  refine ⟨m, hroom, ?_⟩
  refine .cons (proceeding_eq_ok_iff.2 ⟨rfl, modifyContext_eq_ok_iff.2 rfl⟩) ?_
  rw [hinfinite]
  refine .cons (proceeding_eq_ok_iff.2 ⟨rfl, hcap⟩) ?_
  refine .cons (proceeding_eq_ok_iff.2 ⟨rfl, pure_eq_ok_iff.2 ⟨rfl, rfl⟩⟩) ?_
  refine .cons (proceeding_eq_ok_iff.2 ⟨rfl, checkOptions_eq_ok_iff.2 ⟨h.options, rfl⟩⟩) ?_
  refine .cons (proceeding_eq_ok_iff.2 ⟨rfl, checkForm_eq_ok_iff.2 ⟨h.form, rfl⟩⟩) ?_
  refine .cons (proceeding_eq_ok_iff.2 ⟨rfl, checkTimeout_eq_ok_iff.2 ⟨h.timeout, rfl⟩⟩) ?_
  refine .cons (proceeding_eq_ok_iff.2 ⟨rfl, checkMemo_eq_ok_iff.2 ⟨h.memo, rfl⟩⟩) ?_
  refine .cons (proceeding_eq_ok_iff.2 ⟨rfl, chargeSize_true_eq_ok hsigned hm⟩) ?_
  exact .nil _

end Stage
end Tollgate
