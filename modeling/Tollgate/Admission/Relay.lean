import Tollgate.Admission.Run
/-! The stage that stops transactions which only repeat what relayers already delivered. -/
namespace Tollgate.Gate

variable {σ : Type}

/-- Every packet of some messages, and whether it was already applied. Nothing if a message is no
relay; the messages before it are looked at all the same. -/
def appliedPackets (registry : RelayRegistry σ) :
    List Message → Gate σ (Option (List (PacketId × Bool)))
  | [] => pure (some [])
  | m :: ms =>
    match m.relay? with
    | some (action, packet) => do
      let applied ← call .ofLedger (registry.isProcessed action packet)
      let rest ← appliedPackets registry ms
      return rest.map ((packet, applied) :: ·)
    | none => if m.isRelay then appliedPackets registry ms else pure none

/-- The packets, if there are any and all of them were applied. -/
def allApplied? (packets : List (PacketId × Bool)) : Option (List PacketId) :=
  if packets.isEmpty || packets.any fun p => !p.2 then none else some (packets.map Prod.fst)

/-- Looks only in the pool, and not in a simulation. -/
def checkRelay (w : Wiring σ) (tx : Transaction) (simulate : Bool) : Gate σ Flow := do
  let c ← context
  if simulate || !c.isCheck then return .proceed
  let some registry := w.relays | return .proceed
  match (← appliedPackets registry tx.messages).bind allApplied? with
  | none => return .proceed
  | some packets =>
    modifyContext fun c => { c with redundantPackets := some packets }
    return .halt (.redundantRelay packets)

end Tollgate.Gate
