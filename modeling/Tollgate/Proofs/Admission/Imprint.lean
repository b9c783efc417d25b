import Tollgate.Proofs.Admission.Intake
import Tollgate.Proofs.Admission.Payment
import Tollgate.Proofs.Admission.Relay
import Tollgate.Proofs.Admission.Signatures
/-! Runs of the canonical stages over services in memory, outside simulation, as one condition: the
stages before the last one are passed exactly if what they look for fits the transaction, and then the
run that they leave can be written down. -/
namespace Tollgate

open Call Gate

/-- What the stages before the last one find and write. -/
structure Imprint where
  index : UInt32
  counter : BlockCounter
  /-- The meter once the bytes are paid for. -/
  sized : GasMeter
  payer : Address
  allowances : Allowances
  bank : Bank
  signers : List Signer
  /-- The meter once the signatures are paid for. -/
  meter : GasMeter
  accounts : AccountBook

namespace Imprint

/-- The transaction meets every check of these stages, and this is what they make of it. -/
structure Fits (x : Imprint) (tuning : Tuning) (tx : Transaction) (r : Run Memory) : Prop where
  taken : tuning.Takes tx r x.index x.counter x.sized
  gas : r.context.isGenesis = true ∨ tx.gasLimit ≠ 0
  floor : FeeChecker.floor r.context tx = .ok ()
  paid : tuning.Pays tx r.services x.payer x.allowances x.bank
  signed : tuning.Signs tx r.context r.services.accounts x.sized x.signers x.meter x.accounts

/-- The run after these stages. -/
def run (x : Imprint) (tx : Transaction) (r : Run Memory) : Run Memory where
  context := { r.context.reset false x.meter with
    priority := tx.fee.priority tx.gasLimit
    txIndex := some x.index
    signers := x.signers }
  services := { r.services with
    accounts := x.accounts
    bank := x.bank
    allowances := x.allowances
    counter := x.counter }

end Imprint

variable {tuning : Tuning} {tx : Transaction} {r t : Run Memory}

namespace Stage

theorem canonical_eq : canonical.take 14 = intake ++ .fee :: signing := rfl

theorem passes_canonical_iff (hrule : tuning.feeChecker = none) :
    Passes tuning.wiring tx false (canonical.take 14) r t ↔
      ∃ x : Imprint, x.Fits tuning tx r ∧ t = x.run tx r := by
  rw [canonical_eq]
  constructor
  · intro h
    obtain ⟨_, hintake, h⟩ := h.split
    obtain ⟨index, counter, sized, htaken, rfl⟩ := passes_intake_iff.1 hintake
    obtain ⟨_, hfee, h⟩ := passes_cons_iff.1 h
    obtain ⟨hgas, hfloor, payer, allowances, bank, hpaid, rfl⟩ :=
      (chargeFee_false_eq_ok_iff hrule).1 (proceeding_eq_ok_iff.1 hfee).2
    obtain ⟨signers, meter, accounts, hsigned, rfl⟩ := passes_signing_iff.1 h
    refine ⟨⟨index, counter, sized, payer, allowances, bank, signers, meter, accounts⟩, ?_, rfl⟩
    exact {
      taken := htaken
      gas := hgas
      floor := hfloor
      paid := hpaid.congr rfl rfl rfl
      signed := { hsigned with verified := hsigned.verified } }
  · rintro ⟨x, h, rfl⟩
    refine (passes_intake_iff.2 ⟨x.index, x.counter, x.sized, h.taken, rfl⟩).append ?_
    refine .cons (proceeding_eq_ok_iff.2 ⟨rfl, (chargeFee_false_eq_ok_iff hrule).2 ⟨h.gas, h.floor,
      x.payer, x.allowances, x.bank, h.paid.congr rfl rfl rfl, rfl⟩⟩) ?_
    refine passes_signing_iff.2 ⟨x.signers, x.meter, x.accounts, ?_, rfl⟩
    exact { h.signed with verified := h.signed.verified }

end Stage

namespace Handler

variable {outcome : Admission}

theorem handle_of_fits (hrule : tuning.feeChecker = none) {x : Imprint} (h : x.Fits tuning tx r) :
    tuning.handler.handle tx false r =
      Stage.runAll tuning.wiring tx false [.relay] (x.run tx r) :=
  ((Stage.passes_canonical_iff hrule).2 ⟨x, h, rfl⟩).runAll_append [.relay]

theorem fits_of_handle (hrule : tuning.feeChecker = none)
    (h : tuning.handler.handle tx false r = .ok outcome t) : ∃ x : Imprint, x.Fits tuning tx r ∧
      Stage.runAll tuning.wiring tx false [.relay] (x.run tx r) = .ok outcome t := by
  obtain ⟨u, hpass, hrelay⟩ := Stage.passes_of_runAll_canonical h
  obtain ⟨x, hfits, rfl⟩ := (Stage.passes_canonical_iff hrule).1 hpass
  exact ⟨x, hfits, hrelay⟩

end Handler
end Tollgate
