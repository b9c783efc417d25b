import Tollgate.Proofs.Admission.Effect
import Tollgate.Proofs.Admission.Failure
/-! What a run outside simulation leaves in the services when it fails. The stages before the failing
one have had their effect, and the failing one has had none that the transaction did not allow. -/
namespace Tollgate

open Call Relation

variable {tuning : Tuning} {tx : Transaction} {e : StageError} {cause : AdmissionError}
  {r t u : Run Memory}

/-- The second state is what a transaction leaves of the first one, if its fee was charged and no
sequence was advanced. -/
structure Memory.Residue (s t : Memory) (tx : Transaction) (collector payer : Address)
    (height : UInt64) : Prop where
  keys : s.accounts.KeysAdded t.accounts tx.signers
  sequences : ∀ a, t.accounts.sequence? a = s.accounts.sequence? a
  /-- The fee has left its source and reached the collector, who may be the source. -/
  balance : ∀ a denom, (t.bank.balance a denom).toNat +
      (if tx.feeSource payer = a then (tx.fee.amountOf denom).toNat else 0) =
    (s.bank.balance a denom).toNat +
      (if collector = a then (tx.fee.amountOf denom).toNat else 0)
  allowances : (tx.feeSource payer = payer ∧ t.allowances = s.allowances) ∨
    (tx.feeSource payer ≠ payer ∧
      s.allowances.Charged t.allowances (tx.feeSource payer) payer tx.fee)
  counter : s.counter.Counted t.counter height tx.typeUrls
  relays : t.relays = s.relays

theorem Gate.atomic_countInBlock : Atomic (countInBlock tuning.wiring tx false) := by
  have hcount (c : Context) : Atomic (do
      let i ← call .ofLedger (Memory.txCounter.increment c.height tx.typeUrls)
      modifyContext fun c => { c with txIndex := some i } : Gate Memory Unit) := by
    intro r x t h
    rcases bind_eq_error_iff.1 h with h | ⟨_, _, -, h⟩
    · exact atomic_call (Memory.atomic_onCounter (BlockCounter.atomic_increment _ _)) r x t h
    · cases h
  exact .look_bind (fun _ => rfl) hcount

namespace Stage

/-- The first stages count the transaction and touch nothing else. -/
theorem Passes.counted {rest : List Stage}
    (h : Passes tuning.wiring tx false (.setup :: .gasCeiling :: .blockIndex :: rest) r t) :
    ∃ counter v, r.services.counter.Counted counter r.context.height tx.typeUrls ∧
      v.services = { r.services with counter := counter } ∧
      Passes tuning.wiring tx false rest v t := by
  obtain ⟨_, hrun, h⟩ := passes_cons_iff.1 h
  obtain rfl := Gate.modifyContext_eq_ok_iff.1 (proceeding_eq_ok_iff.1 hrun).2
  obtain ⟨_, hrun, h⟩ := passes_cons_iff.1 h
  obtain ⟨-, rfl⟩ := pure_eq_ok_iff.1 (proceeding_eq_ok_iff.1 hrun).2
  obtain ⟨_, hrun, h⟩ := passes_cons_iff.1 h
  obtain ⟨index, counter, hcounted, rfl⟩ :=
    Gate.countInBlock_false_eq_ok_iff.1 (proceeding_eq_ok_iff.1 hrun).2
  exact ⟨counter, _, BlockCounter.counted_of_increment hcounted, rfl, h⟩

/-- Behind the stage of the fee the transaction is counted and charged. -/
theorem Passes.charged (hrule : tuning.feeChecker = none) {rest : List Stage}
    (h : Passes tuning.wiring tx false (intake ++ .fee :: rest) r t) :
    ∃ counter payer allowances bank v,
      r.services.counter.Counted counter r.context.height tx.typeUrls ∧
      tuning.Pays tx r.services payer allowances bank ∧
      v.services = { r.services with counter := counter, allowances := allowances, bank := bank } ∧
      Passes tuning.wiring tx false rest v t := by
  obtain ⟨_, hintake, h⟩ := h.split
  obtain ⟨index, counter, sized, htaken, rfl⟩ := passes_intake_iff.1 hintake
  obtain ⟨_, hfee, h⟩ := passes_cons_iff.1 h
  obtain ⟨-, -, payer, allowances, bank, hpaid, rfl⟩ :=
    (Gate.chargeFee_false_eq_ok_iff hrule).1 (proceeding_eq_ok_iff.1 hfee).2
  exact ⟨counter, payer, allowances, bank, _, BlockCounter.counted_of_increment htaken.counted,
    hpaid.congr rfl rfl rfl, rfl, h⟩

end Stage

namespace Handler

variable {s : Stage}

theorem services_of_uncounted (h : tuning.handler.handle tx false r = .error ⟨.blockIndex, cause⟩ t) :
    t.services = r.services := by
  obtain ⟨u, hpass, hrun⟩ := Stage.passes_of_runAll_canonical_eq_error h
  obtain rfl := Gate.atomic_countInBlock u cause t (Stage.proceeding_eq_error_iff.1 hrun)
  exact Stage.services_of_reached (by decide) hpass.reached

theorem counted_of_failed (hs : s ∈ [.options, .form, .timeout, .memo, .size])
    (h : tuning.handler.handle tx false r = .error ⟨s, cause⟩ t) :
    ∃ counter, t.services = { r.services with counter := counter } ∧
      r.services.counter.Counted counter r.context.height tx.typeUrls := by
  obtain ⟨u, hpass, hrun⟩ := Stage.passes_of_runAll_canonical_eq_error h
  have hshape : ∀ s ∈ ([.options, .form, .timeout, .memo, .size] : List Stage),
      Stage.canonical.take s.position = .setup :: .gasCeiling :: .blockIndex ::
        (Stage.canonical.take s.position).drop 3 ∧
      ∀ x ∈ s :: (Stage.canonical.take s.position).drop 3, x.isIdle = true := by decide
  obtain ⟨hsplit, hidle⟩ := hshape s hs
  rw [hsplit] at hpass
  obtain ⟨counter, v, hcounted, hv, hrest⟩ := hpass.counted
  have hlater := Stage.services_of_reached hidle (hrest.reached_of_run_eq_error hrun)
  exact ⟨counter, hlater.trans hv, hcounted⟩

/-- When the fee is refused, an allowance may have been used, but no money has moved. -/
theorem drawn_of_failed (hrule : tuning.feeChecker = none)
    (hsound : r.services.allowances.Sound)
    (h : tuning.handler.handle tx false r = .error ⟨.fee, cause⟩ t) :
    ∃ counter allowances,
      t.services = { r.services with counter := counter, allowances := allowances } ∧
      r.services.counter.Counted counter r.context.height tx.typeUrls ∧
      (allowances = r.services.allowances ∨ ∃ payer, tx.feePayer = some payer ∧
        tx.feeSource payer ≠ payer ∧
        r.services.allowances.Charged allowances (tx.feeSource payer) payer tx.fee) := by
  obtain ⟨u, hpass, hrun⟩ := Stage.passes_of_runAll_canonical_eq_error h
  have hpass : Stage.Passes tuning.wiring tx false Stage.intake r u := hpass
  obtain ⟨index, counter, sized, htaken, rfl⟩ := Stage.passes_intake_iff.1 hpass
  have hcounted := BlockCounter.counted_of_increment htaken.counted
  rcases Gate.chargeFee_false_eq_error hrule (Stage.proceeding_eq_error_iff.1 hrun) with
    ⟨-, rfl⟩ | ⟨payer, g, hdraws, rfl⟩
  · exact ⟨counter, r.services.allowances, rfl, hcounted, .inl rfl⟩
  · refine ⟨counter, g, rfl, hcounted, ?_⟩
    rcases hdraws.granted with ⟨-, hsame⟩ | ⟨hne, -, hspend⟩
    · exact .inl hsame
    · exact .inr ⟨payer, hdraws.charged, hne, hsound.charged_of_spend hspend⟩

theorem charged_of_failed (hrule : tuning.feeChecker = none)
    (hsound : r.services.allowances.Sound) (hfee : tx.fee.check = .ok ())
    (hs : s ∈ [.keys, .keyCount, .signatureGas, .signatures])
    (h : tuning.handler.handle tx false r = .error ⟨s, cause⟩ t) :
    ∃ payer, tx.feePayer = some payer ∧ r.services.Residue t.services tx
      (moduleAddress tuning.settings.feeCollector) payer r.context.height := by
  obtain ⟨u, hpass, hrun⟩ := Stage.passes_of_runAll_canonical_eq_error h
  have hshape : ∀ s ∈ ([.keys, .keyCount, .signatureGas, .signatures] : List Stage),
      Stage.canonical.take s.position =
        Stage.intake ++ .fee :: (Stage.canonical.take s.position).drop 9 ∧
      .blockIndex ∉ s :: (Stage.canonical.take s.position).drop 9 ∧
      .fee ∉ s :: (Stage.canonical.take s.position).drop 9 ∧
      .sequences ∉ s :: (Stage.canonical.take s.position).drop 9 := by decide
  obtain ⟨hsplit, hblock, hcharge, hsequences⟩ := hshape s hs
  rw [hsplit] at hpass
  obtain ⟨counter, payer, allowances, bank, v, hcounted, hpaid, hv, hrest⟩ := hpass.charged hrule
  have hlater := hrest.reached_of_run_eq_error hrun
  have hkeys := Stage.keysAdded_of_reached hsequences hlater
  obtain ⟨hbank, hallowances⟩ := Stage.purses_of_reached hcharge hlater
  have hcounter := Stage.counter_of_reached hblock hlater
  have hrelays := Stage.relays_of_reached hlater
  rw [hv] at hkeys hbank hallowances hcounter hrelays
  refine ⟨payer, hpaid.charged, hkeys, hkeys.sequence?_eq, ?_, ?_, ?_, hrelays⟩
  · rw [hbank]
    exact hpaid.balance hfee
  · rw [hallowances]
    exact hpaid.allowances_charged hsound
  · rw [hcounter]
    exact hcounted

/-- What is left behind by a run that fails outside simulation, by the stage that fails: before the
count nothing, before the fee the count, without the fee an allowance at most, and before the sequences
the whole fee with keys of the signers. -/
theorem residue_of_rejected (hrule : tuning.feeChecker = none)
    (hsound : r.services.allowances.Sound) (hfee : tx.fee.check = .ok ())
    (h : tuning.handler.handle tx false r = .error e t) :
    (e.stage = .blockIndex → t.services = r.services) ∧
    (e.stage ∈ [.options, .form, .timeout, .memo, .size] →
      ∃ counter, t.services = { r.services with counter := counter } ∧
        r.services.counter.Counted counter r.context.height tx.typeUrls) ∧
    (e.stage = .fee → ∃ counter allowances,
      t.services = { r.services with counter := counter, allowances := allowances } ∧
      r.services.counter.Counted counter r.context.height tx.typeUrls ∧
      (allowances = r.services.allowances ∨ ∃ payer, tx.feePayer = some payer ∧
        tx.feeSource payer ≠ payer ∧
        r.services.allowances.Charged allowances (tx.feeSource payer) payer tx.fee)) ∧
    (e.stage ∈ [.keys, .keyCount, .signatureGas, .signatures] →
      ∃ payer, tx.feePayer = some payer ∧ r.services.Residue t.services tx
        (moduleAddress tuning.settings.feeCollector) payer r.context.height) := by
  obtain ⟨s, cause⟩ := e
  refine ⟨fun hs => ?_, fun hs => counted_of_failed hs h, fun hs => ?_,
    fun hs => charged_of_failed hrule hsound hfee hs h⟩
  · obtain rfl : s = .blockIndex := hs
    exact services_of_uncounted h
  · obtain rfl : s = .fee := hs
    exact drawn_of_failed hrule hsound h

end Handler

/-- The account of the unit key has moved on since the sponsored transfer was signed. -/
def staleRun : Run Memory :=
  ⟨.new "unit" 1 0, { sponsoredMemory with
    accounts := sponsoredMemory.accounts.setSequence unitKey.address 1 }⟩

theorem sponsoredTransfer_stale : Tuning.standard.handler.refusal? sponsoredTransfer staleRun
    unitKey.address = some (⟨.signatures, .sequenceMismatch unitKey.address 1 0⟩, some 1) := by
  decide +kernel

theorem sponsoredTransfer_residue : ∃ t payer,
    Tuning.standard.handler.handle sponsoredTransfer false staleRun =
      .error ⟨.signatures, .sequenceMismatch unitKey.address 1 0⟩ t ∧
    sponsoredTransfer.feePayer = some payer ∧
    staleRun.services.Residue t.services sponsoredTransfer (moduleAddress "fee_collector") payer
      1 := by
  have hsound : staleRun.services.allowances.Sound := sound_sponsoredMemory
  have hfee : sponsoredTransfer.fee.check = .ok () := rfl
  obtain ⟨t, ht, -⟩ := Handler.eq_error_of_refusal? sponsoredTransfer_stale
  obtain ⟨payer, hpayer, hresidue⟩ :=
    (Handler.residue_of_rejected rfl hsound hfee ht).2.2.2 (by decide)
  exact ⟨t, payer, ht, hpayer, hresidue⟩

end Tollgate
