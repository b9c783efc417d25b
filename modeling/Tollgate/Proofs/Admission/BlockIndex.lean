import Mathlib.Data.List.DropRight
import Tollgate.Proofs.Admission.Independence
/-! Positions and tallies over whole runs. Whatever becomes of the calls, a call outside simulation gets
the number of those before it in its block, and simulations leave no trace. -/
namespace Tollgate

open Call Relation

namespace Attempt

variable {σ : Type} {counter : σ → BlockCounter} {q : Attempt σ} {ps qs : List (Attempt σ)}
  {height : UInt64} {s : σ}

/-- The stages run in the canonical order, over a counter in memory. -/
structure Counts (counter : σ → BlockCounter) (q : Attempt σ) : Prop where
  order : q.handler.order.stages = Stage.canonical
  keeps : q.handler.wiring.KeepsCounter counter

/-- The context after the call, whether it failed or not. -/
def contextAfter (q : Attempt σ) (s : σ) : Context :=
  (after (q.handler.handle q.tx q.simulate) ⟨q.context, s⟩).context

/-- The calls at the end of a run that are counted in a block of this height: simulations apart, all
calls back to the last one that stated another height. -/
def block (ps : List (Attempt σ)) (height : UInt64) : List (Attempt σ) :=
  (ps.filter fun p => !p.simulate).rtakeWhile fun p => p.context.height = height

theorem block_concat_of_simulate (hs : q.simulate = true) :
    block (ps ++ [q]) height = block ps height := by
  unfold block
  rw [List.filter_append, List.filter_singleton, hs]
  simp

theorem block_concat (ps : List (Attempt σ)) (height : UInt64) (hs : q.simulate = false) :
    block (ps ++ [q]) height = if q.context.height = height then block ps height ++ [q] else [] := by
  unfold block
  rw [List.filter_append, List.filter_singleton, hs]
  simp [List.rtakeWhile_concat]

/-- What the counter can have counted of a block: the types of the messages, call by call, up to the
largest number of calls. -/
def countedTypes (ps : List (Attempt σ)) (height : UInt64) : List (List String) :=
  ((block ps height).take (2 ^ 32 - 1)).map fun p => p.tx.typeUrls

theorem length_countedTypes (ps : List (Attempt σ)) (height : UInt64) :
    (countedTypes ps height).length = min (2 ^ 32 - 1) (block ps height).length := by
  rw [countedTypes, List.length_map, List.length_take]

theorem countedTypes_of_room (h : (block ps height).length ≤ 2 ^ 32 - 1) :
    countedTypes ps height = (block ps height).map fun p => p.tx.typeUrls := by
  rw [countedTypes, List.take_of_length_le h]

theorem countedTypes_concat_of_room (hs : q.simulate = false)
    (h : (block ps q.context.height).length < 2 ^ 32 - 1) :
    countedTypes (ps ++ [q]) q.context.height =
      countedTypes ps q.context.height ++ [q.tx.typeUrls] := by
  have hblock := block_concat ps q.context.height hs
  rw [if_pos rfl] at hblock
  rw [countedTypes_of_room h.le, countedTypes, hblock, List.take_of_length_le, List.map_append,
    List.map_singleton]
  rw [List.length_append, List.length_singleton]
  exact h

theorem countedTypes_concat_of_full (hs : q.simulate = false)
    (h : 2 ^ 32 - 1 ≤ (block ps q.context.height).length) :
    countedTypes (ps ++ [q]) q.context.height = countedTypes ps q.context.height := by
  rw [countedTypes, block_concat _ _ hs, if_pos rfl, List.take_append_of_le_length h, countedTypes]

theorem countedTypes_concat_of_ne (hs : q.simulate = false) (h : q.context.height ≠ height) :
    countedTypes (ps ++ [q]) height = [] := by
  rw [countedTypes, block_concat _ _ hs, if_neg h, List.take_nil, List.map_nil]

/-- The messages of some calls, in order. -/
def messages (ps : List (Attempt σ)) : List Message := ps.flatMap fun p => p.tx.messages

/-- The types that are tallied are those of the messages. -/
theorem count_flatten_typeUrls (ps : List (Attempt σ)) (url : String) :
    (ps.map fun p => p.tx.typeUrls).flatten.count url =
      (messages ps).countP fun m => m.typeUrl = url := by
  induction ps with
  | nil => rfl
  | cons p ps ih =>
    have hfirst : p.tx.typeUrls.count url = p.tx.messages.countP fun m => m.typeUrl = url := by
      rw [Transaction.typeUrls, List.count, List.countP_map]
      rfl
    have hmessages : messages (p :: ps) = p.tx.messages ++ messages ps := List.flatMap_cons
    rw [List.map_cons, List.flatten_cons, List.count_append, ih, hfirst, hmessages,
      List.countP_append]

theorem leaves_of_simulate (hq : q.Counts counter) (hs : q.simulate = true) (s : σ) :
    counter (q.leaves s) = counter s := by
  refine Stage.eq_of_reached (f := fun x => counter x.services) ?_ (q.reached s)
  exact fun _ _ x y hc => hc.counter_eq hq.keeps (.inl hs)

theorem handle_eq (hq : q.Counts counter) (hs : q.simulate = false) :
    q.handler.handle q.tx q.simulate =
      Stage.runAll q.handler.wiring q.tx false Stage.canonical := by
  unfold Handler.handle
  rw [hs, hq.order]

/-- A counted call ends with its position and leaves the counter as counting left it, whatever the later
stages do. -/
theorem leaves_of_counted (hq : q.Counts counter) (hs : q.simulate = false) {i : UInt32}
    {d : BlockCounter}
    (h : BlockCounter.increment q.context.height q.tx.typeUrls (counter s) = .ok i d) :
    (q.contextAfter s).txIndex = some i ∧ counter (q.leaves s) = d := by
  obtain ⟨u, hu, rfl⟩ := (hq.keeps.increment _ _).eq_ok_iff.1 h
  have hrest : q.handler.handle q.tx q.simulate ⟨q.context, s⟩ =
      Stage.runAll q.handler.wiring q.tx false (Stage.canonical.drop 3)
        ⟨(q.context.reset false (q.context.freshMeter q.tx false)).placed (some i), u⟩ := by
    rw [handle_eq hq hs]
    exact Stage.runAll_canonical_of_counted hu
  have hothers : ∀ x ∈ Stage.canonical.drop 3, x ≠ .setup ∧ x ≠ .blockIndex := by decide
  have hlater : Within (Stage.Changes q.handler.wiring q.tx false (Stage.canonical.drop 3))
      (Stage.runAll q.handler.wiring q.tx false (Stage.canonical.drop 3)) := Stage.within_runAll _
  unfold contextAfter leaves after
  rw [hrest]
  exact ⟨Stage.eq_of_reached (f := fun x => x.context.txIndex)
      (fun x hx _ _ hc => hc.txIndex_eq (hothers x hx)) (hlater _),
    Stage.eq_of_reached (f := fun x => counter x.services)
      (fun x hx _ _ hc => hc.counter_eq hq.keeps (.inr (hothers x hx).2)) (hlater _)⟩

theorem result_of_full (hq : q.Counts counter) (hs : q.simulate = false) {e : LedgerError}
    {d : BlockCounter}
    (h : BlockCounter.increment q.context.height q.tx.typeUrls (counter s) = .error e d) :
    (∃ t, q.result s = .error ⟨.blockIndex, .ofLedger e⟩ t) ∧ counter (q.leaves s) = d := by
  obtain ⟨u, hu, rfl⟩ := (hq.keeps.increment _ _).eq_error_iff.1 h
  have hresult : q.handler.handle q.tx q.simulate ⟨q.context, s⟩ = .error ⟨.blockIndex, .ofLedger e⟩
      ⟨q.context.reset false (q.context.freshMeter q.tx false), u⟩ := by
    rw [handle_eq hq hs]
    exact Stage.runAll_canonical_of_full hu
  refine ⟨⟨_, hresult⟩, ?_⟩
  unfold leaves
  rw [after_of_error hresult]

/-- A call outside simulation makes its block the current one, and adds itself to it if it can. -/
theorem shows_own_block (hq : q.Counts counter) (hs : q.simulate = false)
    (h : (counter s).Shows q.context.height (countedTypes ps q.context.height)) :
    (counter (q.leaves s)).height = q.context.height ∧
      (counter (q.leaves s)).Shows q.context.height
        (countedTypes (ps ++ [q]) q.context.height) := by
  have hlength := length_countedTypes ps q.context.height
  by_cases hroom : (block ps q.context.height).length < 2 ^ 32 - 1
  · obtain ⟨i, d, hd, -, hheight, hshows⟩ := h.increment (by omega) q.tx.typeUrls
    rw [(leaves_of_counted hq hs hd).2, countedTypes_concat_of_room hs hroom]
    exact ⟨hheight, hshows⟩
  · rw [Nat.not_lt] at hroom
    obtain ⟨hrefused, hheight⟩ := h.full (by omega) q.tx.typeUrls
    rw [(result_of_full hq hs hrefused).2, countedTypes_concat_of_full hs hroom]
    exact ⟨hheight, h⟩

/-- One call keeps what the counter shows of every block. -/
theorem shows_leaves (hq : q.Counts counter)
    (h : ∀ height, (counter s).Shows height (countedTypes ps height)) (height : UInt64) :
    (counter (q.leaves s)).Shows height (countedTypes (ps ++ [q]) height) := by
  cases hs : q.simulate with
  | true =>
    rw [leaves_of_simulate hq hs, countedTypes, block_concat_of_simulate hs]
    exact h height
  | false =>
    obtain ⟨hheight, hshows⟩ := shows_own_block hq hs (h q.context.height)
    by_cases hsame : q.context.height = height
    · rw [← hsame]
      exact hshows
    · rw [countedTypes_concat_of_ne hs hsame]
      exact .of_height_ne fun he => hsame (hheight.symm.trans he)

/-- Over a run, the counter shows the current block, whichever it is. -/
theorem shows_leavesAll (hqs : ∀ q ∈ qs, q.Counts counter) (hs : counter s = .new)
    (height : UInt64) : (counter (leavesAll qs s)).Shows height (countedTypes qs height) := by
  induction qs using List.reverseRecOn generalizing height with
  | nil =>
    have hstart : counter (leavesAll [] s) = .new := hs
    rw [hstart]
    exact .new height
  | append_singleton ps q ih =>
    have hps : ∀ p ∈ ps, p.Counts counter := fun p hp => hqs p (List.mem_append_left [q] hp)
    have hq : q.Counts counter := hqs q (List.mem_append_right ps (List.mem_singleton_self q))
    rw [leavesAll_append]
    exact shows_leaves hq (fun x => ih hps x) height

/-- In every run of canonical calls over a new counter, a call outside simulation has as many calls
before it in its block as its position says, whether it is admitted or not, and then the counter stands
at one more and tallies the messages of all of them by type. The tallies are words: they are the numbers
of the messages up to multiples of 2^64, and the numbers themselves in a block of fewer messages. A call
for which no position is left fails and changes nothing of this, and neither does a simulation. -/
theorem positions_exact (hqs : ∀ q ∈ qs, q.Counts counter) (hs : counter s = .new) :
    ∀ ps q rs, qs = ps ++ q :: rs →
      (q.simulate = true → counter (leavesAll (ps ++ [q]) s) = counter (leavesAll ps s)) ∧
      (q.simulate = false → (block ps q.context.height).length < 2 ^ 32 - 1 →
        (∃ i, (q.contextAfter (leavesAll ps s)).txIndex = some i ∧
          i.toNat = (block ps q.context.height).length) ∧
        (counter (leavesAll (ps ++ [q]) s)).count.toNat =
          (block ps q.context.height).length + 1 ∧
        (∀ url, (counter (leavesAll (ps ++ [q]) s)).typeCount url = .ofNat
          ((messages (block ps q.context.height ++ [q])).countP fun m => m.typeUrl = url)) ∧
        ((messages (block ps q.context.height ++ [q])).length < 2 ^ 64 → ∀ url,
          ((counter (leavesAll (ps ++ [q]) s)).typeCount url).toNat =
            (messages (block ps q.context.height ++ [q])).countP fun m => m.typeUrl = url)) ∧
      (q.simulate = false → 2 ^ 32 - 1 ≤ (block ps q.context.height).length →
        (∃ t, q.result (leavesAll ps s) =
          .error ⟨.blockIndex, .ledger "tx counter overflow"⟩ t) ∧
        counter (leavesAll (ps ++ [q]) s) = counter (leavesAll ps s)) := by
  rintro ps q rs rfl
  have hps : ∀ p ∈ ps, p.Counts counter := fun p hp => hqs p (List.mem_append_left (q :: rs) hp)
  have hq : q.Counts counter := hqs q (List.mem_append_right ps List.mem_cons_self)
  have hlast : leavesAll (ps ++ [q]) s = q.leaves (leavesAll ps s) := leavesAll_append ps [q] s
  have hshown := shows_leavesAll hps hs q.context.height
  have hlength := length_countedTypes ps q.context.height
  rw [hlast]
  refine ⟨fun hsim => leaves_of_simulate hq hsim _, fun hsim hroom => ?_, fun hsim hfull => ?_⟩
  · obtain ⟨i, d, hd, hi, hheight, hshows⟩ := hshown.increment (by omega) q.tx.typeUrls
    obtain ⟨hindex, hcounter⟩ := leaves_of_counted hq hsim hd
    obtain ⟨hcount, htallies⟩ := hshows.current hheight
    have htallied (url : String) : d.typeCount url = .ofNat
        ((messages (block ps q.context.height ++ [q])).countP fun m => m.typeUrl = url) := by
      have hmap : (block ps q.context.height).map (fun p => p.tx.typeUrls) ++ [q.tx.typeUrls] =
          (block ps q.context.height ++ [q]).map fun p => p.tx.typeUrls := by
        rw [List.map_append, List.map_singleton]
      rw [htallies, countedTypes_of_room hroom.le, hmap, count_flatten_typeUrls]
    rw [hcounter]
    refine ⟨⟨i, hindex, by omega⟩, ?_, htallied, fun hfew url => ?_⟩
    · rw [hcount, List.length_append, List.length_singleton]
      omega
    · rw [htallied, UInt64.toNat_ofNat_of_lt' (Nat.lt_of_le_of_lt List.countP_le_length hfew)]
  · obtain ⟨hrefused, -⟩ := hshown.full (by omega) q.tx.typeUrls
    exact result_of_full hq hsim hrefused

end Attempt

/-- A transfer that is refused for its missing signature, a simulation at another height, and a transfer
that is admitted. -/
def placedAttempts : List (Attempt Memory) :=
  [⟨Tuning.standard.handler, .new "unit" 1 0, transfer 0 none, false⟩,
   ⟨Tuning.standard.handler, .new "unit" 2 0, transfer 0 none, true⟩,
   ⟨Tuning.standard.handler, .new "unit" 1 0, signedTransfer 0 none, false⟩]

theorem placedAttempts_admitted :
    (Attempt.admitted placedAttempts unitMemory).map Attempt.tx = [signedTransfer 0 none] := by
  decide +kernel

theorem placedAttempts_counted : ∃ ps q, placedAttempts = ps ++ [q] ∧
    (Attempt.admitted placedAttempts unitMemory).map Attempt.tx = [q.tx] ∧
    (∃ i, (q.contextAfter (Attempt.leavesAll ps unitMemory)).txIndex = some i ∧ i.toNat = 1) ∧
    (Attempt.leavesAll placedAttempts unitMemory).counter.count.toNat = 2 ∧
    ((Attempt.leavesAll placedAttempts unitMemory).counter.typeCount "/bank.v1.MsgSend").toNat = 2 := by
  have hall : ∀ q ∈ placedAttempts, q.Counts Memory.counter := by
    intro q hq
    simp only [placedAttempts, List.mem_cons, List.not_mem_nil, or_false] at hq
    rcases hq with rfl | rfl | rfl <;> exact ⟨rfl, Tuning.standard.keepsCounter⟩
  have hsplit : placedAttempts = placedAttempts.take 2 ++
      [⟨Tuning.standard.handler, .new "unit" 1 0, signedTransfer 0 none, false⟩] := rfl
  have hblock : (Attempt.block (placedAttempts.take 2) 1).length = 1 := rfl
  have hroom : (Attempt.block (placedAttempts.take 2) 1).length < 2 ^ 32 - 1 := by
    rw [hblock]
    omega
  obtain ⟨-, hcounted, -⟩ := Attempt.positions_exact (s := unitMemory) hall rfl _ _ [] hsplit
  obtain ⟨⟨i, hindex, hi⟩, hcount, -, htallies⟩ := hcounted rfl hroom
  rw [← hsplit] at hcount htallies
  refine ⟨_, _, hsplit, placedAttempts_admitted, ⟨i, hindex, hi⟩, hcount, ?_⟩
  exact (htallies (by decide +kernel) "/bank.v1.MsgSend").trans (by decide +kernel)

end Tollgate
