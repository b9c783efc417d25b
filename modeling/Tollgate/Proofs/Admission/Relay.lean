import Tollgate.Proofs.Admission.Lookup
import Tollgate.Proofs.Admission.Tuning
/-! The outcome of the last stage over services in memory. It depends on nothing but the messages and
the packets that were applied before. -/
namespace Tollgate

open Call

/-- Every packet of some messages, and whether it was already applied; nothing if a message is no
relay. -/
def RelayLog.packets? (log : RelayLog) : List Message → Option (List (PacketId × Bool))
  | [] => some []
  | m :: ms =>
    match m.relay? with
    | some (action, packet) => (log.packets? ms).map ((packet, log.isProcessed action packet) :: ·)
    | none => if m.isRelay then log.packets? ms else none

namespace Tuning

/-- The packets of a transaction that does nothing but repeat what relayers delivered. -/
def redundant? (u : Tuning) (tx : Transaction) (log : RelayLog) : Option (List PacketId) :=
  if u.relays then (log.packets? tx.messages).bind Gate.allApplied? else none

/-- The outcome in the pool. -/
def verdict (u : Tuning) (tx : Transaction) (log : RelayLog) : Admission :=
  match u.redundant? tx log with
  | some packets => .redundantRelay packets
  | none => .accepted

end Tuning

variable {tuning : Tuning} {tx : Transaction} {r : Run Memory}

theorem Gate.appliedPackets_eq (ms : List Message) (r : Run Memory) :
    appliedPackets Memory.relayRegistry ms r = .ok (r.services.relays.packets? ms) r := by
  induction ms with
  | nil => rfl
  | cons m ms ih =>
    unfold appliedPackets RelayLog.packets?
    cases m.relay? with
    | none =>
      by_cases h : m.isRelay = true
      · simpa [h] using ih
      · simp only [h]
        rfl
    | some found =>
      obtain ⟨action, packet⟩ := found
      have hlook : call .ofLedger (Memory.relayRegistry.isProcessed action packet) r =
          .ok (r.services.relays.isProcessed action packet) r := rfl
      refine bind_eq_ok_iff.2 ⟨_, r, hlook, ?_⟩
      exact bind_eq_ok_iff.2 ⟨_, r, ih, rfl⟩

namespace Gate

/-- Outside the pool, and in a simulation, nothing is looked at. -/
theorem checkRelay_of_skipped {σ : Type} {w : Wiring σ} {simulate : Bool} {r : Run σ}
    (h : simulate = true ∨ r.context.isCheck = false) :
    checkRelay w tx simulate r = .ok .proceed r := by
  have hskip : (simulate || !r.context.isCheck) = true := by
    rcases h with h | h <;> simp [h]
  unfold checkRelay
  rw [context_bind, if_pos hskip]
  rfl

section Pool

variable (h : r.context.isCheck = true)

include h

theorem checkRelay_of_pool : checkRelay tuning.wiring tx false r = (do
    if tuning.relays then
      match (← appliedPackets Memory.relayRegistry tx.messages).bind allApplied? with
      | none => return .proceed
      | some packets =>
        modifyContext fun c => { c with redundantPackets := some packets }
        return .halt (.redundantRelay packets)
    else return .proceed : Gate Memory Flow) r := by
  unfold checkRelay
  rw [context_bind]
  simp only [h, Tuning.wiring_relays, Bool.not_true, Bool.or_self, Bool.false_eq_true, if_false]
  cases tuning.relays <;> rfl

theorem checkRelay_of_fresh (hfresh : tuning.redundant? tx r.services.relays = none) :
    checkRelay tuning.wiring tx false r = .ok .proceed r := by
  rw [checkRelay_of_pool h]
  unfold Tuning.redundant? at hfresh
  cases hrelays : tuning.relays with
  | false => rfl
  | true =>
    rw [hrelays, if_pos rfl] at hfresh
    rw [if_pos rfl]
    refine bind_eq_ok_iff.2 ⟨_, r, appliedPackets_eq tx.messages r, ?_⟩
    rw [hfresh]
    rfl

theorem checkRelay_of_redundant {packets : List PacketId}
    (hfound : tuning.redundant? tx r.services.relays = some packets) :
    checkRelay tuning.wiring tx false r = .ok (.halt (.redundantRelay packets))
      { r with context := { r.context with redundantPackets := some packets } } := by
  rw [checkRelay_of_pool h]
  unfold Tuning.redundant? at hfound
  cases hrelays : tuning.relays with
  | false =>
    rw [hrelays] at hfound
    cases hfound
  | true =>
    rw [hrelays, if_pos rfl] at hfound
    rw [if_pos rfl]
    refine bind_eq_ok_iff.2 ⟨_, r, appliedPackets_eq tx.messages r, ?_⟩
    rw [hfound]
    rfl

end Pool

/-- The stage marks and reports the same packets, or does nothing. -/
theorem checkRelay_eq {simulate : Bool} : checkRelay tuning.wiring tx simulate r =
    if simulate = false ∧ r.context.isCheck = true then
      match tuning.redundant? tx r.services.relays with
      | some packets => .ok (.halt (.redundantRelay packets))
          { r with context := { r.context with redundantPackets := some packets } }
      | none => .ok .proceed r
    else .ok .proceed r := by
  by_cases hpool : simulate = false ∧ r.context.isCheck = true
  · rw [if_pos hpool]
    obtain ⟨rfl, hmode⟩ := hpool
    cases hfound : tuning.redundant? tx r.services.relays with
    | some packets => exact checkRelay_of_redundant hmode hfound
    | none => exact checkRelay_of_fresh hmode hfound
  · rw [if_neg hpool]
    rw [not_and_or, Bool.not_eq_false, Bool.not_eq_true] at hpool
    exact checkRelay_of_skipped hpool

end Gate

namespace Stage

theorem runAll_relay_of_skipped {σ : Type} {w : Wiring σ} {simulate : Bool} {r : Run σ}
    (h : simulate = true ∨ r.context.isCheck = false) :
    runAll w tx simulate [.relay] r = .ok .accepted r := by
  have hrun : Stage.relay.run w tx simulate r = .ok .proceed r := Gate.checkRelay_of_skipped h
  unfold runAll
  rw [hrun]
  rfl

/-- In the pool, a transaction that repeats what was delivered is stopped and marked. -/
theorem runAll_relay_of_pool (h : r.context.isCheck = true)
    (hclean : r.context.redundantPackets = none) :
    runAll tuning.wiring tx false [.relay] r = .ok (tuning.verdict tx r.services.relays)
      { r with context :=
        { r.context with redundantPackets := tuning.redundant? tx r.services.relays } } := by
  have hrun : Stage.relay.run tuning.wiring tx false r =
      Gate.checkRelay tuning.wiring tx false r := rfl
  unfold runAll Tuning.verdict
  rw [hrun]
  cases hfound : tuning.redundant? tx r.services.relays with
  | some packets =>
    rw [Gate.checkRelay_of_redundant h hfound]
  | none =>
    have hstay : r = { r with context := { r.context with redundantPackets := none } } := by
      rw [← hclean]
    rw [Gate.checkRelay_of_fresh h hfound, ← hstay]
    rfl

/-- The last stage changes nothing in any service. -/
theorem services_of_runAll_relay {t : Run Memory} {outcome : Admission}
    (hclean : r.context.redundantPackets = none)
    (h : runAll tuning.wiring tx false [.relay] r = .ok outcome t) : t.services = r.services := by
  by_cases hpool : r.context.isCheck = true
  · rw [runAll_relay_of_pool hpool hclean] at h
    rw [← (EStateM.Result.ok.inj h).2]
  · have hskip : r.context.isCheck = false := by simpa using hpool
    rw [runAll_relay_of_skipped (.inr hskip)] at h
    rw [← (EStateM.Result.ok.inj h).2]

end Stage
end Tollgate
