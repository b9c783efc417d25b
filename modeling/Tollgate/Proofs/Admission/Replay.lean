import Tollgate.Proofs.Admission.Authentication
/-! Runs of many calls of handlers. Whatever the contexts and outcomes of the calls, sequences never
fall, and every admission outside simulation uses up the sequence that each signer stated. -/
namespace Tollgate

open Call Relation

/-- One call of a handler. -/
structure Attempt (σ : Type) where
  handler : Handler σ
  context : Context
  tx : Transaction
  simulate : Bool

namespace Attempt

variable {σ : Type}

def result (q : Attempt σ) (s : σ) : EStateM.Result StageError (Run σ) Admission :=
  q.handler.handle q.tx q.simulate ⟨q.context, s⟩

/-- The services after the call, whether it failed or not. -/
def leaves (q : Attempt σ) (s : σ) : σ :=
  (after (q.handler.handle q.tx q.simulate) ⟨q.context, s⟩).services

/-- The call is no simulation and did not fail. -/
def isAdmitted (q : Attempt σ) (s : σ) : Bool :=
  match q.result s with
  | .ok _ _ => !q.simulate
  | .error _ _ => false

/-- The services after some calls, one after the other. -/
def leavesAll (qs : List (Attempt σ)) (s : σ) : σ := qs.foldl (fun s q => q.leaves s) s

/-- Those of some calls that were admitted, in order. -/
def admitted : List (Attempt σ) → σ → List (Attempt σ)
  | [], _ => []
  | q :: qs, s => if q.isAdmitted s then q :: admitted qs (q.leaves s) else admitted qs (q.leaves s)

theorem leavesAll_append (ps qs : List (Attempt σ)) (s : σ) :
    leavesAll (ps ++ qs) s = leavesAll qs (leavesAll ps s) := List.foldl_append

theorem eq_ok_of_isAdmitted {q : Attempt σ} {s : σ} (h : q.isAdmitted s = true) :
    q.simulate = false ∧ ∃ outcome t,
      q.handler.handle q.tx false ⟨q.context, s⟩ = .ok outcome t ∧ q.leaves s = t.services := by
  unfold isAdmitted at h
  split at h
  · next outcome t ht =>
    have hs : q.simulate = false := by simpa using h
    unfold result at ht
    refine ⟨hs, outcome, t, hs ▸ ht, ?_⟩
    unfold leaves
    rw [after_of_ok ht]
  · cases h

theorem reached (q : Attempt σ) (s : σ) :
    ReflTransGen (Stage.Changes q.handler.wiring q.tx q.simulate q.handler.order.stages)
      ⟨q.context, s⟩ (after (q.handler.handle q.tx q.simulate) ⟨q.context, s⟩) :=
  Stage.within_runAll q.handler.order.stages ⟨q.context, s⟩

end Attempt

/-- The sequence that a transaction states for an address, at the place of the address among the
signers. -/
def Transaction.stated? (tx : Transaction) (a : Address) : Option UInt64 :=
  (tx.signerInfo? (tx.signers.idxOf a)).map SignerInfo.sequence

section Sequences

variable {σ : Type} {w : Wiring σ} {tx : Transaction} {book : σ → AccountBook}
  {check : SingleKey → Bytes → Bytes → Except SignatureError Unit} {r t : Run σ}

/-- The sequence of every signer was advanced on the way. -/
theorem Gate.advanceSequences_eq_ok (hw : w.KeepsBook book)
    (h : Gate.advanceSequences w tx false r = .ok () t) :
    ∀ a ∈ tx.signers, ∃ u v n m, ReflTransGen (Change w tx false .sequences) r u ∧
      ReflTransGen (Change w tx false .sequences) v t ∧
      (book u.services).sequence? a = some n ∧ (book v.services).sequence? a = some m ∧ n < m := by
  intro a ha
  have hall : ∀ a ∈ tx.signers, Within (Change w tx false .sequences)
      (do let _ ← Gate.call .ofLedger (w.accounts.advanceSequence a)) := fun a ha =>
    Within.bind (Gate.within_call_step fun r => .advance r a rfl ha) fun _ => .pure _
  obtain ⟨u, v, hu, huv, hv⟩ := forM_eq_ok hall h a ha
  obtain ⟨m, x, hx, hxv⟩ := bind_eq_ok_iff.1 huv
  obtain ⟨-, rfl⟩ := pure_eq_ok_iff.1 hxv
  obtain ⟨y, hy, rfl⟩ := Gate.call_eq_ok_iff.1 hx
  obtain ⟨n, hn, hm, hb⟩ := AccountBook.advanceSequence_eq_ok_iff.1 ((hw.advance a).ok hy)
  refine ⟨u, _, n, m, hu, hv, hn, ?_, ?_⟩
  · rw [hb, AccountBook.sequence?_setSequence, if_pos rfl, hn, Option.map_some]
  · rw [UInt64.lt_iff_toNat_lt, Word.add?_eq_some_iff.1 hm]
    exact Nat.lt_succ_self _

/-- An admission states the sequence of every signer and leaves a higher one. -/
theorem Stage.stated_of_runAll (hw : w.KeepsBook book) (hc : w.Checks check)
    {outcome : Admission} (h : runAll w tx false canonical r = .ok outcome t) :
    ∀ a ∈ tx.signers, ∃ n m, tx.stated? a = some n ∧ (book r.services).sequence? a = some n ∧
      (book t.services).sequence? a = some m ∧ n < m := by
  intro a ha
  obtain ⟨u, hpass, hrelay⟩ := passes_of_runAll_canonical h
  have hi : (a, tx.signers.idxOf a) ∈ tx.signers.zipIdx :=
    List.mem_zipIdx_iff_getElem?.2 (List.getElem?_idxOf ha)
  obtain ⟨s, v, info, hv, hfound, hinfo, hseq, -⟩ := hpass.signed_of_canonical hw hc hi
  have hbefore (n : UInt64) (hn : (book v.services).sequence? a = some n) :
      (book r.services).sequence? a = some n := by
    rw [← sequences_of_reached hw (by decide) hv a, hn]
  have hstated : tx.stated? a = some s.sequence := by
    rw [Transaction.stated?, hinfo, Option.map_some, hseq]
  obtain ⟨pre, post, x, y, -, hrx, hrun, hyu⟩ := hpass.at_stage (s := .sequences) (by decide)
  have hadvance := (proceeding_eq_ok_iff.1 hrun).2
  obtain ⟨p, q, n, m, hxp, hqy, hn, hm, hnm⟩ := Gate.advanceSequences_eq_ok hw hadvance a ha
  have hmem : Stage.sequences ∈ [Stage.sequences] := List.mem_singleton_self _
  have hrise := (rises_of_reached hw hrx.reached).trans
    (rises_of_reached hw (reflTransGen_changes_of_change hmem hxp))
  have hlater := (rises_of_reached hw (reflTransGen_changes_of_change hmem hqy)).trans
    ((rises_of_reached hw hyu.reached).trans
      (rises_of_reached hw ((within_runAll [.relay]).reached hrelay)))
  have hstart := hbefore s.sequence hfound.sequence
  obtain ⟨n', hn', hle⟩ := hrise a s.sequence hstart
  obtain rfl := Option.some.inj (hn.symm.trans hn')
  obtain ⟨m', hm', hle'⟩ := hlater a m hm
  refine ⟨s.sequence, m', hstated, hstart, hm', ?_⟩
  rw [UInt64.lt_iff_toNat_lt] at hnm ⊢
  rw [UInt64.le_iff_toNat_le] at hle hle'
  omega

end Sequences

namespace Attempt

variable {σ : Type} {book : σ → AccountBook} {q : Attempt σ} {qs : List (Attempt σ)}

/-- The stages run in the canonical order, over accounts in memory. -/
structure IsCanonical (book : σ → AccountBook) (q : Attempt σ) : Prop where
  order : q.handler.order.stages = Stage.canonical
  keepsBook : q.handler.wiring.KeepsBook book
  checks : ∃ check, q.handler.wiring.Checks check

theorem rises (hq : q.IsCanonical book) (s : σ) : (book s).Rises (book (q.leaves s)) :=
  Stage.rises_of_reached hq.keepsBook (q.reached s)

theorem rises_all (hqs : ∀ q ∈ qs, q.IsCanonical book) (s : σ) :
    (book s).Rises (book (leavesAll qs s)) := by
  induction qs generalizing s with
  | nil => exact .refl _
  | cons q qs ih =>
    have hq := rises (hqs q List.mem_cons_self) s
    exact hq.trans (ih (fun p hp => hqs p (List.mem_cons_of_mem q hp)) (q.leaves s))

theorem stated_of_isAdmitted (hq : q.IsCanonical book) {s : σ} (h : q.isAdmitted s = true) :
    ∀ a ∈ q.tx.signers, ∃ n m, q.tx.stated? a = some n ∧ (book s).sequence? a = some n ∧
      (book (q.leaves s)).sequence? a = some m ∧ n < m := by
  obtain ⟨-, outcome, t, ht, hleaves⟩ := eq_ok_of_isAdmitted h
  obtain ⟨check, hc⟩ := hq.checks
  rw [hleaves]
  unfold Handler.handle at ht
  rw [hq.order] at ht
  exact Stage.stated_of_runAll hq.keepsBook hc ht

/-- What is admitted later states no lower sequence than there is now. -/
theorem le_stated_of_mem_admitted (hqs : ∀ q ∈ qs, q.IsCanonical book) {s : σ}
    (hq : q ∈ admitted qs s) {a : Address} (ha : a ∈ q.tx.signers) {k : UInt64}
    (hk : (book s).sequence? a = some k) : ∃ n, q.tx.stated? a = some n ∧ k ≤ n := by
  induction qs generalizing s k with
  | nil => cases hq
  | cons p qs ih =>
    have hp := hqs p List.mem_cons_self
    have hlater (hm : q ∈ admitted qs (p.leaves s)) : ∃ n, q.tx.stated? a = some n ∧ k ≤ n := by
      obtain ⟨m, hm', hkm⟩ := rises hp s a k hk
      obtain ⟨n, hn, hmn⟩ := ih (fun x hx => hqs x (List.mem_cons_of_mem p hx)) hm hm'
      exact ⟨n, hn, UInt64.le_trans hkm hmn⟩
    unfold admitted at hq
    split at hq
    · next hadmitted =>
      rcases List.mem_cons.1 hq with rfl | hm
      · obtain ⟨n, m, hn, hs, -, -⟩ := stated_of_isAdmitted hp hadmitted a ha
        obtain rfl := Option.some.inj (hk.symm.trans hs)
        exact ⟨k, hn, UInt64.le_refl k⟩
      · exact hlater hm
    · exact hlater hq

/-- Two admissions of one signer state sequences in rising order. -/
theorem pairwise_admitted (hqs : ∀ q ∈ qs, q.IsCanonical book) (s : σ) :
    (admitted qs s).Pairwise fun p q => ∀ a ∈ p.tx.signers, a ∈ q.tx.signers →
      ∃ n m, p.tx.stated? a = some n ∧ q.tx.stated? a = some m ∧ n < m := by
  induction qs generalizing s with
  | nil => exact .nil
  | cons p qs ih =>
    have hrest : ∀ q ∈ qs, q.IsCanonical book := fun q hq => hqs q (List.mem_cons_of_mem p hq)
    unfold admitted
    split
    · next hadmitted =>
      refine .cons (fun q hq a hp ha => ?_) (ih hrest _)
      obtain ⟨n, m, hn, -, hm, hnm⟩ :=
        stated_of_isAdmitted (hqs p List.mem_cons_self) hadmitted a hp
      obtain ⟨k, hk, hmk⟩ := le_stated_of_mem_admitted hrest hq ha hm
      exact ⟨n, k, hn, hk, UInt64.lt_of_lt_of_le hnm hmk⟩
    · exact ih hrest _

theorem count_admitted_le_one (hqs : ∀ q ∈ qs, q.IsCanonical book) (s : σ) {tx : Transaction}
    (hm : tx.messages ≠ []) : ((admitted qs s).map Attempt.tx).count tx ≤ 1 := by
  obtain ⟨m, ms, hmessages⟩ := List.exists_cons_of_ne_nil hm
  have ha : m.signer ∈ tx.signers := Transaction.mem_signers.2 ⟨m, by simp [hmessages], rfl⟩
  have hpairwise := (pairwise_admitted hqs s).map Attempt.tx (S := fun x y => x = tx → y ≠ tx)
    fun p q hpq hp hq => by
      rw [hp, hq] at hpq
      obtain ⟨n, k, hn, hk, hnk⟩ := hpq m.signer ha ha
      obtain rfl := Option.some.inj (hn.symm.trans hk)
      exact UInt64.lt_irrefl n hnk
  refine Nat.le_of_not_lt fun hcount => ?_
  have htwo := hpairwise.sublist (List.replicate_sublist_iff.2 hcount)
  exact (List.pairwise_cons.1 htwo).1 tx (List.mem_singleton_self tx) rfl rfl

/-- Replay protection over whole runs of canonical handlers, whatever stands beside the accounts and
whatever the contexts, modes and outcomes: no sequence ever falls, the sequences that are stated for
an address by the admitted calls rise, and so no transaction is admitted twice. -/
theorem replay_protected {τ : Type} {qs : List (Attempt (AccountBook × τ))}
    (hqs : ∀ q ∈ qs, ∃ (o : Options τ) (check : SingleKey → Bytes → Bytes →
      Except SignatureError Unit), (o.aroundBook check).build Stage.canonical = .ok q.handler)
    (s : AccountBook × τ) :
    (∀ ps ms rs, qs = ps ++ ms ++ rs →
      (leavesAll ps s).1.Rises (leavesAll (ps ++ ms) s).1) ∧
    ((admitted qs s).Pairwise fun p q => ∀ a ∈ p.tx.signers, a ∈ q.tx.signers →
      ∃ n m, p.tx.stated? a = some n ∧ q.tx.stated? a = some m ∧ n < m) ∧
    ∀ tx, tx.messages ≠ [] → ((admitted qs s).map Attempt.tx).count tx ≤ 1 := by
  have hcanonical : ∀ q ∈ qs, q.IsCanonical Prod.fst := by
    intro q hq
    obtain ⟨o, check, hb⟩ := hqs q hq
    obtain ⟨hw, horder⟩ := Options.build_eq_ok hb
    obtain ⟨hkeep, hc⟩ := Options.wiring?_aroundBook hw
    exact ⟨horder, hkeep, check, hc⟩
  refine ⟨fun ps ms rs hsplit => ?_, pairwise_admitted hcanonical s,
    fun tx hm => count_admitted_le_one hcanonical s hm⟩
  rw [leavesAll_append]
  refine rises_all (fun q hq => hcanonical q ?_) _
  rw [hsplit]
  exact List.mem_append_left rs (List.mem_append_right ps hq)

end Attempt

/-- All stages in the canonical order, over accounts with other services in memory beside them. -/
def canonicalAroundUnit : Except BuildError (Handler (AccountBook × Memory)) :=
  ((Options.inMemory ⟨none⟩ .default).aroundBook SingleKey.verify).build Stage.canonical

/-- The account of the unit key with some coins, and the account that fees are paid to. -/
def unitServices : AccountBook × Memory :=
  ((unitBook.createModule "fee_collector").2,
    { Memory.new .default with bank := Bank.new.setBalance unitKey.address "stake" (.clamp 100) })

/-- A transfer, the same transfer again, and the next one in the recheck. -/
def unitAttempts (h : Handler (AccountBook × Memory)) : List (Attempt (AccountBook × Memory)) :=
  [⟨h, .new "unit" 1 0, signedTransfer 0 none, false⟩, ⟨h, .new "unit" 1 0, signedTransfer 0 none, false⟩,
   ⟨h, { Context.new "unit" 2 0 with mode := .recheck }, signedTransfer 1 none, false⟩]

theorem unitAttempts_admitted : canonicalAroundUnit.toOption.any (fun h =>
    (Attempt.admitted (unitAttempts h) unitServices).map Attempt.tx =
      [signedTransfer 0 none, signedTransfer 1 none]) = true := by decide +kernel

theorem unitAttempts_protected : ∃ h, canonicalAroundUnit = .ok h ∧
    (Attempt.admitted (unitAttempts h) unitServices).map Attempt.tx =
      [signedTransfer 0 none, signedTransfer 1 none] ∧
    (∀ ps ms rs, unitAttempts h = ps ++ ms ++ rs →
      (Attempt.leavesAll ps unitServices).1.Rises (Attempt.leavesAll (ps ++ ms) unitServices).1) ∧
    ((Attempt.admitted (unitAttempts h) unitServices).Pairwise fun p q =>
      ∀ a ∈ p.tx.signers, a ∈ q.tx.signers →
        ∃ n m, p.tx.stated? a = some n ∧ q.tx.stated? a = some m ∧ n < m) ∧
    ∀ tx, tx.messages ≠ [] →
      ((Attempt.admitted (unitAttempts h) unitServices).map Attempt.tx).count tx ≤ 1 := by
  have hadmitted := unitAttempts_admitted
  cases hb : canonicalAroundUnit with
  | error e =>
    rw [hb] at hadmitted
    cases hadmitted
  | ok h =>
    rw [hb] at hadmitted
    refine ⟨h, rfl, of_decide_eq_true hadmitted, Attempt.replay_protected (fun q hq => ?_) _⟩
    refine ⟨.inMemory ⟨none⟩ .default, SingleKey.verify, hb.trans (congrArg Except.ok ?_)⟩
    simp only [unitAttempts, List.mem_cons, List.not_mem_nil, or_false] at hq
    rcases hq with rfl | rfl | rfl <;> rfl

end Tollgate
