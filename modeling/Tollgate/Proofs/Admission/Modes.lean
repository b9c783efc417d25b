import Tollgate.Proofs.Admission.Charge
/-! The three modes, from the strictest to the mildest: what is admitted to the pool is admitted there
again and in a block, and leaves the same behind. -/
namespace Tollgate

open Call

/-- The same run in another mode. -/
def Run.inMode {σ : Type} (r : Run σ) (mode : ExecMode) : Run σ :=
  { r with context := { r.context with mode := mode } }

variable {tuning : Tuning} {tx : Transaction} {r t : Run Memory} {outcome : Admission}

/-- Only the pool compares the fee with the prices of the node. -/
theorem FeeChecker.floor_of_check {c : Context} (h : floor { c with mode := .check } tx = .ok ())
    (mode : ExecMode) : floor { c with mode := mode } tx = .ok () := by
  cases mode with
  | check => exact h
  | recheck => exact h
  | deliver => rfl

namespace Imprint

variable {x : Imprint}

/-- What fits at the entry of the pool fits in every mode. -/
theorem Fits.inMode (h : x.Fits tuning tx (r.inMode .check)) (mode : ExecMode) :
    x.Fits tuning tx (r.inMode mode) := by
  have hfirst : ¬(r.inMode .check).context.isRecheck = true := by
    simp [Run.inMode, Context.isRecheck]
  have hform : tx.checkForm = .ok () := h.taken.form.resolve_left hfirst
  have hverified (s : Signer × Nat) (hs : s ∈ x.signers.zipIdx) :
      tx.States s.2 s.1.sequence ∧ ((r.inMode mode).context.isRecheck = true ∨
        tx.SignedAt SingleKey.verify s.2
          (Gate.signerData (r.inMode mode).context s.1 s.1.address)) := by
    obtain ⟨hstates, hsigned⟩ := h.signed.verified s hs
    exact ⟨hstates, .inr (hsigned.resolve_left hfirst)⟩
  exact {
    taken := { h.taken with form := .inr hform }
    gas := h.gas
    floor := FeeChecker.floor_of_check h.floor mode
    paid := h.paid
    signed := { h.signed with verified := hverified } }

end Imprint

namespace Handler

/-- A transaction that enters the pool stays there with the same outcome and is accepted in a block;
apart from the mode and the mark of a redundant relay, all three leave the same run. -/
theorem admitted_in_every_mode (hrule : tuning.feeChecker = none)
    (h : tuning.handler.check tx r = .ok outcome t) :
    tuning.handler.recheck tx r = .ok outcome (t.inMode .recheck) ∧
    tuning.handler.deliver tx r = .ok .accepted
      { t with context := { t.context with mode := .deliver, redundantPackets := none } } := by
  obtain ⟨x, hfits, hrelay⟩ := fits_of_handle hrule h
  rw [Stage.runAll_relay_of_pool rfl rfl] at hrelay
  obtain ⟨rfl, rfl⟩ := EStateM.Result.ok.inj hrelay
  constructor
  · refine (handle_of_fits hrule (hfits.inMode .recheck)).trans ?_
    exact Stage.runAll_relay_of_pool rfl rfl
  · refine (handle_of_fits hrule (hfits.inMode .deliver)).trans ?_
    exact Stage.runAll_relay_of_skipped (.inr rfl)

/-- The outcome at the entry of the pool, if there is one. -/
def checked? {σ : Type} (h : Handler σ) (tx : Transaction) (r : Run σ) : Option Admission :=
  match h.check tx r with
  | .ok outcome _ => some outcome
  | .error _ _ => none

theorem eq_ok_of_checked? {σ : Type} {h : Handler σ} {r : Run σ}
    (hc : h.checked? tx r = some outcome) : ∃ t, h.check tx r = .ok outcome t := by
  unfold checked? at hc
  split at hc
  · next hrun => exact ⟨_, Option.some.inj hc ▸ hrun⟩
  · cases hc

end Handler

/-- A packet that was delivered already. -/
def deliveredPacket : Packet :=
  ⟨1, "transfer", "channel-0", "transfer", "channel-1", [1], 10, 0⟩

/-- A signed transaction that delivers the packet once more. -/
def repeatedRelay : Transaction :=
  let message := Message.receivePacket ⟨deliveredPacket, [1], 5, unitKey.address⟩
  let tx := { transfer 0 none with body := ⟨[message], "", 0, [], []⟩ }
  let signer : SignerData := ⟨unitKey.address, "unit", 0, 0, unitKey⟩
  { tx with signatures := [unitSignature (signer.signBytes tx .direct)] }

def relayedRun : Run Memory :=
  ⟨.new "unit" 1 0,
    { unitMemory with relays := RelayLog.new.markProcessed .receive deliveredPacket.destination }⟩

theorem repeatedRelay_checked : Tuning.standard.handler.checked? repeatedRelay relayedRun =
    some (.redundantRelay [deliveredPacket.destination]) := by decide +kernel

theorem repeatedRelay_admitted : ∃ t,
    Tuning.standard.handler.check repeatedRelay relayedRun =
      .ok (.redundantRelay [deliveredPacket.destination]) t ∧
    Tuning.standard.handler.recheck repeatedRelay relayedRun =
      .ok (.redundantRelay [deliveredPacket.destination]) (t.inMode .recheck) ∧
    Tuning.standard.handler.deliver repeatedRelay relayedRun = .ok .accepted
      { t with context := { t.context with mode := .deliver, redundantPackets := none } } := by
  obtain ⟨t, ht⟩ := Handler.eq_ok_of_checked? repeatedRelay_checked
  obtain ⟨hrecheck, hdeliver⟩ := Handler.admitted_in_every_mode rfl ht
  exact ⟨t, ht, hrecheck, hdeliver⟩

end Tollgate
