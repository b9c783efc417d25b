import Tollgate.Proofs.Admission.Modes
/-! A dry run of a transaction that a block accepts: it succeeds as well, it costs the same gas, and it
finds the same signers. -/
namespace Tollgate

open Call

variable {tuning : Tuning} {tx : Transaction} {r t : Run Memory}

namespace Imprint

variable {x : Imprint}

/-- After the first block, a simulation up to the ceiling passes the stages that its transaction fits,
on a meter that has consumed as much. -/
theorem Fits.passes_true (h : x.Fits tuning tx r) (hgas : tuning.signatureGas = none)
    (hmode : r.context.isRecheck = false) (hheight : r.context.isGenesis = false)
    (hceiling : ∀ ceiling ∈ tuning.ceiling.effective r.context, tx.gasLimit ≤ ceiling) :
    ∃ m, x.meter.Roomier m ∧ Stage.Passes tuning.wiring tx true (Stage.canonical.take 14) r
      { r with context := { r.context.reset true m with signers := x.signers } } := by
  obtain ⟨sized, hsized, hintake⟩ := Stage.passes_intake_true h.taken hheight hceiling
    (h.signed.signature_ne_nil hmode)
  have hfee : Gate.chargeFee tuning.wiring tx true
      { r with context := r.context.reset true sized } =
        .ok () { r with context := r.context.reset true sized } :=
    Gate.chargeFee_true_eq_ok h.paid
  obtain ⟨m, hm, hsigning⟩ := Stage.passes_signing_true
    (r := { r with context := r.context.reset true sized }) hgas h.signed hsized
  refine ⟨m, hm, ?_⟩
  rw [Stage.canonical_eq]
  exact hintake.append (.cons (Stage.proceeding_eq_ok_iff.2 ⟨rfl, hfee⟩) hsigning)

end Imprint

namespace Handler

/-- What a block accepts, a dry run accepts for the same gas and with the same signers, unless the
transaction asks for more gas than a dry run may use. -/
theorem simulate_of_deliver (hrule : tuning.feeChecker = none) (hgas : tuning.signatureGas = none)
    (hheight : 0 < r.context.height)
    (hceiling : ∀ ceiling ∈ tuning.ceiling.effective r.context, tx.gasLimit ≤ ceiling)
    (h : tuning.handler.deliver tx r = .ok .accepted t) :
    ∃ u, tuning.handler.simulate tx r = .ok .accepted u ∧
      u.context.meter.consumed = t.context.meter.consumed ∧
      u.context.signers = t.context.signers := by
  obtain ⟨x, hfits, hrelay⟩ := fits_of_handle hrule h
  rw [Stage.runAll_relay_of_skipped (.inr rfl)] at hrelay
  obtain ⟨-, rfl⟩ := EStateM.Result.ok.inj hrelay
  have hgenesis : (r.inMode .deliver).context.isGenesis = false :=
    decide_eq_false (UInt64.ne_of_lt hheight).symm
  obtain ⟨m, hm, hpass⟩ := hfits.passes_true hgas rfl hgenesis hceiling
  have hrun : tuning.handler.simulate tx r = .ok .accepted _ :=
    (hpass.runAll_append [.relay]).trans (Stage.runAll_relay_of_skipped (.inl rfl))
  exact ⟨_, hrun, hm.consumed, rfl⟩

end Handler

/-- Dry runs may use as much gas as the transfer states. -/
def cappedTuning : Tuning := { Tuning.standard with ceiling := ⟨some 100000⟩ }

theorem signedTransfer_delivered :
    cappedTuning.handler.accepts (signedTransfer 0 none) unitMemoryRun = true := by decide +kernel

theorem signedTransfer_simulated : ∃ t u,
    cappedTuning.handler.deliver (signedTransfer 0 none) unitMemoryRun = .ok .accepted t ∧
    cappedTuning.handler.simulate (signedTransfer 0 none) unitMemoryRun = .ok .accepted u ∧
    u.context.meter.consumed = t.context.meter.consumed ∧
    u.context.signers = t.context.signers := by
  have hceiling : ∀ ceiling ∈ cappedTuning.ceiling.effective unitMemoryRun.context,
      (signedTransfer 0 none).gasLimit ≤ ceiling := by
    intro ceiling hc
    obtain rfl := Option.some.inj hc
    decide
  obtain ⟨t, ht⟩ := Handler.eq_ok_of_accepts signedTransfer_delivered
  obtain ⟨u, hu, hconsumed, hsigners⟩ :=
    Handler.simulate_of_deliver rfl rfl (by decide) hceiling ht
  exact ⟨t, u, ht, hu, hconsumed, hsigners⟩

end Tollgate
