import Tollgate.Proofs.Admission.Relay
/-! When the last stage stops a transaction: exactly if it delivers packets, all of them again, and
nothing but client updates with them. What the context then marks is what the outcome reports. -/
namespace Tollgate

open Call

/-- The message delivers a packet, under the name by which the chain it is delivered to knows it. -/
inductive Message.Delivers : Message → RelayAction × PacketId → Prop
  | receive (m : ReceivePacket) : Delivers (.receivePacket m) (.receive,
      ⟨m.packet.destinationPort, m.packet.destinationChannel, m.packet.sequence⟩)
  | acknowledge (m : AcknowledgePacket) : Delivers (.acknowledgePacket m) (.acknowledge,
      ⟨m.packet.sourcePort, m.packet.sourceChannel, m.packet.sequence⟩)
  | timeout (m : TimeoutPacket) : Delivers (.timeoutPacket m) (.timeout,
      ⟨m.packet.sourcePort, m.packet.sourceChannel, m.packet.sequence⟩)
  | timeoutOnClose (m : TimeoutOnClose) : Delivers (.timeoutOnClose m) (.timeout,
      ⟨m.packet.sourcePort, m.packet.sourceChannel, m.packet.sequence⟩)

/-- Messages that deliver these packets in this order, with client updates between them and nothing
else. -/
inductive Deliveries : List Message → List (RelayAction × PacketId) → Prop
  | nil : Deliveries [] []
  | packet {m : Message} {d : RelayAction × PacketId} {ms : List Message}
      {ds : List (RelayAction × PacketId)} (hm : m.Delivers d) (h : Deliveries ms ds) :
      Deliveries (m :: ms) (d :: ds)
  | update {ms : List Message} {ds : List (RelayAction × PacketId)} (m : Message.UpdateClient)
      (h : Deliveries ms ds) : Deliveries (.updateClient m :: ms) ds

theorem Message.relay?_eq_some_iff {m : Message} {d : RelayAction × PacketId} :
    m.relay? = some d ↔ m.Delivers d := by
  constructor
  · intro h
    cases m with
    | receivePacket m => exact Option.some.inj h ▸ .receive m
    | acknowledgePacket m => exact Option.some.inj h ▸ .acknowledge m
    | timeoutPacket m => exact Option.some.inj h ▸ .timeout m
    | timeoutOnClose m => exact Option.some.inj h ▸ .timeoutOnClose m
    | _ => cases h
  · intro h
    cases h <;> rfl

namespace Deliveries

variable {m : Message} {ms : List Message} {d : RelayAction × PacketId}
  {es : List (RelayAction × PacketId)}

theorem cons_iff_of_packet (hm : m.Delivers d) :
    Deliveries (m :: ms) es ↔ ∃ ds, Deliveries ms ds ∧ es = d :: ds := by
  constructor
  · intro h
    cases h with
    | packet he h =>
      rw [← Message.relay?_eq_some_iff] at hm he
      obtain rfl := Option.some.inj (he.symm.trans hm)
      exact ⟨_, h, rfl⟩
    | update => cases hm
  · rintro ⟨ds, h, rfl⟩
    exact .packet hm h

theorem cons_update_iff {m : Message.UpdateClient} :
    Deliveries (.updateClient m :: ms) es ↔ Deliveries ms es := by
  constructor
  · intro h
    cases h with
    | packet hm => cases hm
    | update _ h => exact h
  · exact .update m

theorem isRelay (h : Deliveries (m :: ms) es) : m.isRelay = true := by
  cases h with
  | packet hm => cases hm <;> rfl
  | update => rfl

end Deliveries

/-- The log finds the packets of messages that are deliveries, and marks those it has. -/
theorem RelayLog.packets?_eq_some_iff {log : RelayLog} {ms : List Message}
    {ps : List (PacketId × Bool)} : log.packets? ms = some ps ↔
      ∃ ds, Deliveries ms ds ∧ ps = ds.map fun d => (d.2, log.isProcessed d.1 d.2) := by
  induction ms generalizing ps with
  | nil =>
    constructor
    · intro h
      obtain rfl := Option.some.inj h
      exact ⟨[], .nil, rfl⟩
    · rintro ⟨ds, h, rfl⟩
      cases h
      rfl
  | cons m ms ih =>
    unfold packets?
    cases hm : m.relay? with
    | some d =>
      have hcons {es : List (RelayAction × PacketId)} :
          Deliveries (m :: ms) es ↔ ∃ ds, Deliveries ms ds ∧ es = d :: ds :=
        Deliveries.cons_iff_of_packet (Message.relay?_eq_some_iff.1 hm)
      dsimp only
      rw [Option.map_eq_some_iff]
      constructor
      · rintro ⟨ps, hps, rfl⟩
        obtain ⟨ds, h, rfl⟩ := ih.1 hps
        exact ⟨d :: ds, hcons.2 ⟨ds, h, rfl⟩, rfl⟩
      · rintro ⟨es, hes, rfl⟩
        obtain ⟨ds, h, rfl⟩ := hcons.1 hes
        exact ⟨_, ih.2 ⟨ds, h, rfl⟩, rfl⟩
    | none =>
      by_cases hrelay : m.isRelay = true
      · obtain ⟨u, rfl⟩ : ∃ u, m = .updateClient u := by
          cases m with
          | updateClient u => exact ⟨u, rfl⟩
          | _ => simp [Message.isRelay, hm] at hrelay
        simp only [Deliveries.cons_update_iff]
        exact ih
      · simp only [hrelay]
        constructor
        · intro h
          cases h
        · rintro ⟨ds, h, -⟩
          exact absurd h.isRelay hrelay

theorem Gate.allApplied?_eq_some_iff {ps : List (PacketId × Bool)} {packets : List PacketId} :
    allApplied? ps = some packets ↔
      ps ≠ [] ∧ (∀ p ∈ ps, p.2 = true) ∧ packets = ps.map Prod.fst := by
  have hstop : (ps.isEmpty || ps.any fun p => !p.2) = true ↔
      ¬(ps ≠ [] ∧ ∀ p ∈ ps, p.2 = true) := by
    simp only [Bool.or_eq_true, List.isEmpty_iff, List.any_eq_true, Bool.not_eq_true', ne_eq,
      not_and_or, not_not, not_forall, Bool.not_eq_true, exists_prop]
  unfold allApplied?
  split
  · next h =>
    constructor
    · intro he
      cases he
    · rintro ⟨hne, hall, -⟩
      exact absurd ⟨hne, hall⟩ (hstop.1 h)
  · next h =>
    obtain ⟨hne, hall⟩ := not_not.1 (mt hstop.2 h)
    constructor
    · intro he
      exact ⟨hne, hall, (Option.some.inj he).symm⟩
    · rintro ⟨-, -, rfl⟩
      rfl

/-- A transaction is redundant if it delivers at least one packet, and none for the first time. -/
theorem Tuning.redundant?_eq_some_iff {tuning : Tuning} {tx : Transaction} {log : RelayLog}
    {packets : List PacketId} : tuning.redundant? tx log = some packets ↔
      tuning.relays = true ∧ ∃ ds, Deliveries tx.messages ds ∧ ds ≠ [] ∧
        (∀ d ∈ ds, d ∈ log.processed) ∧ packets = ds.map Prod.snd := by
  unfold redundant?
  cases tuning.relays with
  | false => simp
  | true =>
    simp only [if_true, Option.bind_eq_some_iff, RelayLog.packets?_eq_some_iff,
      Gate.allApplied?_eq_some_iff, true_and]
    constructor
    · rintro ⟨ps, ⟨ds, h, rfl⟩, hne, hall, rfl⟩
      refine ⟨ds, h, fun he => hne (he ▸ rfl), fun d hd => ?_, by rw [List.map_map]; rfl⟩
      simpa [RelayLog.isProcessed] using hall _ (List.mem_map_of_mem hd)
    · rintro ⟨ds, h, hne, hall, rfl⟩
      refine ⟨_, ⟨ds, h, rfl⟩, fun he => hne (List.map_eq_nil_iff.1 he), ?_, ?_⟩
      · intro p hp
        obtain ⟨d, hd, rfl⟩ := List.mem_map.1 hp
        simpa [RelayLog.isProcessed] using hall d hd
      · rw [List.map_map]
        rfl

namespace Stage

/-- The last stage stops a transaction only in the pool. -/
theorem relay_run_eq_halt_iff {tuning : Tuning} {tx : Transaction} {simulate : Bool}
    {r t : Run Memory} {outcome : Admission} :
    Stage.relay.run tuning.wiring tx simulate r = .ok (.halt outcome) t ↔
      (simulate = false ∧ r.context.isCheck = true) ∧
      ∃ packets, tuning.redundant? tx r.services.relays = some packets ∧
        outcome = .redundantRelay packets ∧
        t = { r with context := { r.context with redundantPackets := some packets } } := by
  have hrun : Stage.relay.run tuning.wiring tx simulate r =
      Gate.checkRelay tuning.wiring tx simulate r := rfl
  rw [hrun, Gate.checkRelay_eq]
  split
  · next hpool =>
    cases tuning.redundant? tx r.services.relays with
    | some packets =>
      constructor
      · intro h
        obtain ⟨hflow, rfl⟩ := EStateM.Result.ok.inj h
        exact ⟨hpool, packets, rfl, (Flow.halt.inj hflow).symm, rfl⟩
      · rintro ⟨-, _, hp, rfl, rfl⟩
        obtain rfl := Option.some.inj hp
        rfl
    | none => exact ⟨nofun, fun ⟨_, _, hp, _⟩ => nomatch hp⟩
  · next hpool => exact ⟨nofun, fun h => absurd h.1 hpool⟩

section Marks

variable {σ : Type} {w : Wiring σ} {tx : Transaction} {simulate : Bool} {r t : Run σ}

/-- A stage marks the packets of the outcome it halts with, and otherwise leaves the earlier mark. -/
def Marks (before : Option (List PacketId)) : EStateM.Result AdmissionError (Run σ) Flow → Prop
  | .ok (.halt outcome) t => ∃ packets, outcome = .redundantRelay packets ∧
      t.context.redundantPackets = some packets
  | .ok .proceed t => t.context.redundantPackets = before
  | .error _ t => t.context.redundantPackets = before

theorem leaves_context_appliedPackets (registry : RelayRegistry σ) (ms : List Message) :
    Leaves Run.context (Gate.appliedPackets registry ms) := by
  refine Within.leaves ?_
  induction ms with
  | nil => exact .pure _
  | cons m ms ih =>
    unfold Gate.appliedPackets
    split
    · refine Within.bind (Gate.within_call_step fun r => rfl) fun _ => ih.bind fun _ => .pure _
    · split
      · exact ih
      · exact .pure _

theorem marks_checkRelay (r : Run σ) :
    Marks r.context.redundantPackets (Gate.checkRelay w tx simulate r) := by
  unfold Gate.checkRelay
  rw [Gate.context_bind]
  split
  · rfl
  · cases w.relays with
    | none => rfl
    | some registry =>
      have hleft := leaves_context_appliedPackets registry tx.messages r
      dsimp only
      cases hfound : Gate.appliedPackets registry tx.messages r with
      | ok found t =>
        rw [after_of_ok hfound] at hleft
        rw [bind_of_ok hfound]
        cases hall : found.bind Gate.allApplied? with
        | none => exact congrArg Context.redundantPackets hleft
        | some packets => exact ⟨packets, rfl, rfl⟩
      | error e t =>
        rw [after_of_error hfound] at hleft
        rw [bind_of_error hfound]
        exact congrArg Context.redundantPackets hleft

theorem redundantPackets_of_change {s : Stage} (hsetup : s ≠ .setup) (hrelay : s ≠ .relay)
    (h : Change w tx simulate s r t) :
    t.context.redundantPackets = r.context.redundantPackets := by
  cases h with
  | reset => exact absurd rfl hsetup
  | packets => exact absurd rfl hrelay
  | _ => rfl

theorem marks_run {s : Stage} (hsetup : s ≠ .setup) (r : Run σ) :
    Marks r.context.redundantPackets (s.run w tx simulate r) := by
  by_cases hrelay : s = .relay
  · subst hrelay
    exact marks_checkRelay r
  · have hleft : (after (s.run w tx simulate) r).context.redundantPackets =
        r.context.redundantPackets :=
      eq_of_run (f := fun x => x.context.redundantPackets)
        (fun _ _ hc => redundantPackets_of_change hsetup hrelay hc) r
    cases hrun : s.run w tx simulate r with
    | ok f t =>
      rw [after_of_ok hrun] at hleft
      cases f with
      | proceed => exact hleft
      | halt outcome => exact absurd (eq_relay_of_run_halt hrun).1 hrelay
    | error e t =>
      rw [after_of_error hrun] at hleft
      exact hleft

/-- Stages that start without a mark leave one exactly if they end in a redundant relay. -/
theorem redundantPackets_runAll {ss : List Stage} (hsetup : .setup ∉ ss) {r : Run σ}
    (hclean : r.context.redundantPackets = none) {packets : List PacketId} :
    (after (runAll w tx simulate ss) r).context.redundantPackets = some packets ↔
      ∃ t, runAll w tx simulate ss r = .ok (.redundantRelay packets) t := by
  induction ss generalizing r with
  | nil =>
    have hnone : (after (runAll w tx simulate []) r).context.redundantPackets = none := hclean
    rw [hnone]
    constructor
    · intro h
      cases h
    · rintro ⟨t, h⟩
      cases h
  | cons s ss ih =>
    have hmarks : Marks r.context.redundantPackets (s.run w tx simulate r) :=
      marks_run (List.ne_of_not_mem_cons hsetup).symm r
    rw [hclean] at hmarks
    cases hrun : s.run w tx simulate r with
    | ok f t =>
      rw [hrun] at hmarks
      cases f with
      | proceed =>
        have hrest : runAll w tx simulate (s :: ss) r = runAll w tx simulate ss t := by
          simp only [runAll, hrun]
        unfold after
        rw [hrest]
        exact ih (List.not_mem_of_not_mem_cons hsetup) hmarks
      | halt outcome =>
        obtain ⟨found, rfl, hmark⟩ := hmarks
        have hstop : runAll w tx simulate (s :: ss) r = .ok (.redundantRelay found) t := by
          simp only [runAll, hrun]
        rw [after_of_ok hstop, hstop, hmark]
        simp
    | error e t =>
      rw [hrun] at hmarks
      have hstop : runAll w tx simulate (s :: ss) r = .error ⟨s, e⟩ t := by
        simp only [runAll, hrun]
      have hmark : t.context.redundantPackets = none := hmarks
      rw [after_of_error hstop, hstop, hmark]
      constructor
      · intro h
        cases h
      · rintro ⟨u, h⟩
        cases h

end Marks

end Stage

/-- Setting up forgets the mark of an earlier run, so a handler's run shows its own. -/
theorem Handler.redundantPackets_handle {σ : Type} (h : Handler σ) (tx : Transaction)
    (simulate : Bool) (r : Run σ) (packets : List PacketId) :
    (after (h.handle tx simulate) r).context.redundantPackets = some packets ↔
      ∃ t, h.handle tx simulate r = .ok (.redundantRelay packets) t := by
  obtain ⟨rest, hstages⟩ := List.head?_eq_some_iff.1 h.order.head_eq
  have hsetup : .setup ∉ rest := (List.nodup_cons.1 (hstages ▸ h.order.nodup)).1
  have hrest : h.handle tx simulate r = Stage.runAll h.wiring tx simulate rest
      { r with context := r.context.reset simulate (r.context.freshMeter tx simulate) } := by
    unfold Handler.handle
    rw [hstages]
    rfl
  unfold after
  rw [hrest]
  exact Stage.redundantPackets_runAll hsetup rfl

/-- In the pool and outside simulation, with a log of the packets that were applied, the last stage
stops exactly the transactions that deliver at least one packet, all of them again and nothing else
but client updates, and reports the packets in their order. Any other transaction it lets through as it
found it. A handler's run is marked with packets exactly if it ends with them as a redundant relay. -/
theorem redundantRelay_exact :
    (∀ (tuning : Tuning) (tx : Transaction) (simulate : Bool) (r : Run Memory),
      (∀ outcome t, Stage.relay.run tuning.wiring tx simulate r = .ok (.halt outcome) t ↔
        simulate = false ∧ (r.context.mode = .check ∨ r.context.mode = .recheck) ∧
        tuning.relays = true ∧ ∃ ds, Deliveries tx.messages ds ∧ ds ≠ [] ∧
          (∀ d ∈ ds, d ∈ r.services.relays.processed) ∧
          outcome = .redundantRelay (ds.map Prod.snd) ∧
          t = { r with context :=
            { r.context with redundantPackets := some (ds.map Prod.snd) } }) ∧
      ((∃ outcome t, Stage.relay.run tuning.wiring tx simulate r = .ok (.halt outcome) t) ∨
        Stage.relay.run tuning.wiring tx simulate r = .ok .proceed r)) ∧
    ∀ (σ : Type) (h : Handler σ) (tx : Transaction) (simulate : Bool) (r : Run σ)
      (packets : List PacketId),
      (after (h.handle tx simulate) r).context.redundantPackets = some packets ↔
        ∃ t, h.handle tx simulate r = .ok (.redundantRelay packets) t := by
  refine ⟨fun tuning tx simulate r => ⟨fun outcome t => ?_, ?_⟩,
    fun σ h tx simulate r packets => h.redundantPackets_handle tx simulate r packets⟩
  · have hmode : r.context.isCheck = true ↔ r.context.mode = .check ∨ r.context.mode = .recheck := by
      simp [Context.isCheck]
    rw [Stage.relay_run_eq_halt_iff, hmode, and_assoc]
    refine and_congr_right fun _ => and_congr_right fun _ => ?_
    constructor
    · rintro ⟨packets, hfound, rfl, rfl⟩
      obtain ⟨hrelays, ds, hds, hne, hall, rfl⟩ := Tuning.redundant?_eq_some_iff.1 hfound
      exact ⟨hrelays, ds, hds, hne, hall, rfl, rfl⟩
    · rintro ⟨hrelays, ds, hds, hne, hall, rfl, rfl⟩
      exact ⟨_, Tuning.redundant?_eq_some_iff.2 ⟨hrelays, ds, hds, hne, hall, rfl⟩, rfl, rfl⟩
  · have hrun : Stage.relay.run tuning.wiring tx simulate r =
        Gate.checkRelay tuning.wiring tx simulate r := rfl
    rw [hrun, Gate.checkRelay_eq]
    split
    · split
      · exact .inl ⟨_, _, rfl⟩
      · exact .inr rfl
    · exact .inr rfl

end Tollgate
