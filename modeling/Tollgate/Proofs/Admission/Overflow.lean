import Tollgate.Proofs.Admission.Charge
import Tollgate.Proofs.Admission.Failure
/-! The sequences after a run that fails. They are as before, unless the advancing of the sequences is
what fails: then every signer before the one whose sequence is used up has advanced. -/
namespace Tollgate

open Call Relation

variable {tuning : Tuning} {tx : Transaction} {simulate : Bool} {e : StageError}
  {cause : AdmissionError} {r t : Run Memory}

/-- The account has the last sequence, which cannot be advanced. -/
def AccountBook.Exhausted (b : AccountBook) (a : Address) : Prop :=
  ∃ n, b.sequence? a = some n ∧ n.toNat + 1 = 2 ^ 64

/-- In the second book the sequence is the next one. -/
def AccountBook.Advanced (b c : AccountBook) (a : Address) : Prop :=
  ∃ n m, b.sequence? a = some n ∧ c.sequence? a = some m ∧ m.toNat = n.toNat + 1

namespace AccountBook

variable {b c : AccountBook} {a : Address} {as : List Address}

theorem Advanced.sequence?_ne (h : b.Advanced c a) : c.sequence? a ≠ b.sequence? a := by
  obtain ⟨n, m, hn, hm, hnext⟩ := h
  intro he
  rw [hn, hm] at he
  rw [Option.some.inj he] at hnext
  exact Nat.succ_ne_self _ hnext.symm

theorem Advanced.not_exhausted (h : b.Advanced c a) : ¬b.Exhausted a := by
  obtain ⟨n, m, hn, -, hnext⟩ := h
  rintro ⟨k, hk, hlast⟩
  obtain rfl := Option.some.inj (hn.symm.trans hk)
  have hm := m.toNat_lt
  omega

theorem advanced_of_advanceAll (hn : as.Nodup) (h : advanceAll as b = .ok () c) (ha : a ∈ as) :
    b.Advanced c a := by
  obtain ⟨account, n, hb, hnext, hc⟩ := find?_advanceAll_of_mem hn h ha
  exact ⟨account.sequence, n, by rw [sequence?, hb, Option.map_some],
    by rw [sequence?, hc, Option.map_some], hnext⟩

theorem sequence?_advanceAll_of_not_mem (h : advanceAll as b = .ok () c) (ha : a ∉ as) :
    c.sequence? a = b.sequence? a := by
  rw [sequence?, find?_advanceAll_of_not_mem h ha, sequence?]

end AccountBook

/-- The advancing fails at one signer; the signers before it have advanced. -/
theorem Gate.advanceSequences_eq_error
    (h : advanceSequences tuning.wiring tx simulate r = .error cause t) :
    simulate = false ∧ ∃ done a rest b x, tx.signers = done ++ a :: rest ∧
      AccountBook.advanceAll done r.services.accounts = .ok () b ∧
      AccountBook.advanceSequence a b = .error x b ∧ cause = .ofLedger x ∧
      t = r.withAccounts b := by
  cases simulate with
  | true => cases h
  | false =>
    refine ⟨rfl, ?_⟩
    obtain ⟨done, a, rest, u, hsplit, hdone, hfail⟩ := forM_eq_error h
    obtain ⟨b, hb, rfl⟩ := forM_advance_eq_ok_iff.1 hdone
    rcases bind_eq_error_iff.1 hfail with hcall | ⟨_, _, -, hpure⟩
    · obtain ⟨x, _, hs, rfl, rfl⟩ := call_eq_error_iff.1 hcall
      obtain ⟨c, hc, rfl⟩ := Memory.onAccounts_eq_error_iff.1 hs
      -- the call that fails leaves the accounts as the last success left them
      obtain ⟨rfl, -⟩ := AccountBook.advanceSequence_eq_error_iff.1 hc
      exact ⟨done, a, rest, _, x, hsplit, hb, hc, rfl, rfl⟩
    · cases hpure

namespace Stage

/-- Whoever signs a transaction whose keys were resolved has an account. -/
theorem Passes.sequence_of_signer {ss : List Stage}
    (h : Passes tuning.wiring tx false ss r t) (hkeys : .keys ∈ ss) (hss : .sequences ∉ ss)
    {a : Address} (ha : a ∈ tx.signers) : ∃ n, r.services.accounts.sequence? a = some n := by
  obtain ⟨pre, post, u, v, rfl, hpre, hrun, -⟩ := h.at_stage hkeys
  obtain ⟨signers, hfinds, -⟩ :=
    Gate.resolveKeys_false_eq_ok_iff.1 (proceeding_eq_ok_iff.1 hrun).2
  obtain ⟨i, hi⟩ := List.getElem?_of_mem ha
  obtain ⟨s, -, hfound⟩ := hfinds.exists_of_mem (List.mem_zipIdx_iff_getElem?.2 hi)
  have hpres : .sequences ∉ pre := fun hm => hss (List.mem_append_left _ hm)
  refine ⟨s.sequence, ?_⟩
  rw [← sequences_of_reached tuning.keepsBook hpres hpre.reached a]
  exact hfound.sequence

end Stage

namespace Handler

/-- A run that fails before its sequences are advanced leaves all of them. -/
theorem sequences_of_failed (h : tuning.handler.handle tx simulate r = .error e t)
    (he : e.stage ≠ .sequences) (a : Address) :
    t.services.accounts.sequence? a = r.services.accounts.sequence? a := by
  obtain ⟨s, cause⟩ := e
  obtain ⟨u, hpass, hrun⟩ := Stage.passes_of_runAll_canonical_eq_error h
  have hrelay : s ≠ .relay := by
    rintro rfl
    exact Stage.relay_run_ne_error hrun
  have hbefore : .sequences ∉ Stage.canonical.take s.position := by
    cases s <;> first | decide | exact absurd rfl hrelay
  have hnone : .sequences ∉ s :: Stage.canonical.take s.position := fun hm =>
    (List.mem_cons.1 hm).elim (fun hs => he hs.symm) hbefore
  exact Stage.sequences_of_reached tuning.keepsBook hnone (hpass.reached_of_run_eq_error hrun) a

/-- The advancing of sequences fails only outside simulation, at a signer whose sequence is used up. -/
theorem advanced_of_failed (h : tuning.handler.handle tx simulate r = .error ⟨.sequences, cause⟩ t) :
    simulate = false ∧ cause = .ledger "sequence overflow" ∧ ∃ done a rest,
      tx.signers = done ++ a :: rest ∧ r.services.accounts.Exhausted a ∧
      (∀ x ∈ done, r.services.accounts.Advanced t.services.accounts x) ∧
      ∀ x, x ∉ done → t.services.accounts.sequence? x = r.services.accounts.sequence? x := by
  obtain ⟨u, hpass, hrun⟩ := Stage.passes_of_runAll_canonical_eq_error h
  obtain ⟨rfl, done, a, rest, b, x, hsplit, hdone, hfail, rfl, rfl⟩ :=
    Gate.advanceSequences_eq_error (Stage.proceeding_eq_error_iff.1 hrun)
  have hbefore (y : Address) :
      u.services.accounts.sequence? y = r.services.accounts.sequence? y :=
    Stage.sequences_of_reached tuning.keepsBook (by decide) hpass.reached y
  have hn := tx.nodup_signers
  rw [hsplit, List.nodup_append] at hn
  have ha : a ∉ done := fun hm => hn.2.2 a hm a List.mem_cons_self rfl
  have hstill : b.sequence? a = r.services.accounts.sequence? a :=
    (AccountBook.sequence?_advanceAll_of_not_mem hdone ha).trans (hbefore a)
  obtain ⟨n, hknown⟩ := hpass.sequence_of_signer (by decide) (by decide)
    (a := a) (by rw [hsplit]; exact List.mem_append_right _ List.mem_cons_self)
  rw [hknown] at hstill
  obtain ⟨-, ⟨hnone, -⟩ | ⟨m, hm, hlast, rfl⟩⟩ := AccountBook.advanceSequence_eq_error_iff.1 hfail
  · rw [hstill] at hnone
    cases hnone
  · obtain rfl := Option.some.inj (hstill.symm.trans hm)
    have hlt := n.toNat_lt
    refine ⟨rfl, rfl, done, a, rest, hsplit, ⟨n, hknown, by omega⟩, fun y hy => ?_, fun y hy => ?_⟩
    · obtain ⟨k, m, hk, hm, hnext⟩ := AccountBook.advanced_of_advanceAll hn.1 hdone hy
      exact ⟨k, m, (hbefore y).symm.trans hk, hm, hnext⟩
    · exact (AccountBook.sequence?_advanceAll_of_not_mem hdone hy).trans (hbefore y)

/-- A failed run leaves every sequence as it was, unless its last step, the advancing, is what fails.
That happens only outside simulation, at a signer whose sequence is used up, and then exactly the signers
before that one have advanced. So the sequences are as before exactly if it is the first signer, or
another stage failed. -/
theorem sequences_of_rejected (h : tuning.handler.handle tx simulate r = .error e t) :
    (e.stage ≠ .sequences →
      ∀ a, t.services.accounts.sequence? a = r.services.accounts.sequence? a) ∧
    (e.stage = .sequences → simulate = false ∧ e.cause = .ledger "sequence overflow" ∧
      ∃ done a rest, tx.signers = done ++ a :: rest ∧ r.services.accounts.Exhausted a ∧
        (∀ x ∈ done, r.services.accounts.Advanced t.services.accounts x) ∧
        ∀ x, x ∉ done → t.services.accounts.sequence? x = r.services.accounts.sequence? x) ∧
    ((∀ a, t.services.accounts.sequence? a = r.services.accounts.sequence? a) ↔
      (e.stage = .sequences →
        ∃ a, tx.signers.head? = some a ∧ r.services.accounts.Exhausted a)) := by
  obtain ⟨s, cause⟩ := e
  refine ⟨sequences_of_failed h, fun hs => ?_, fun hall hs => ?_, fun hfirst => ?_⟩
  · obtain rfl : s = .sequences := hs
    exact advanced_of_failed h
  · obtain rfl : s = .sequences := hs
    obtain ⟨-, -, done, a, rest, hsplit, ha, hdone, -⟩ := advanced_of_failed h
    cases done with
    | nil => exact ⟨a, by rw [hsplit, List.nil_append, List.head?_cons], ha⟩
    | cons x done => exact absurd (hall x) (hdone x List.mem_cons_self).sequence?_ne
  · by_cases hs : s = .sequences
    · subst hs
      obtain ⟨-, -, done, a, rest, hsplit, -, hdone, hother⟩ := advanced_of_failed h
      obtain ⟨first, hhead, hlast⟩ := hfirst rfl
      cases done with
      | nil => exact fun x => hother x List.not_mem_nil
      | cons x done =>
        rw [hsplit, List.cons_append, List.head?_cons] at hhead
        obtain rfl := Option.some.inj hhead
        exact absurd hlast (hdone x List.mem_cons_self).not_exhausted
    · exact sequences_of_failed h hs

end Handler

/-- An account of one key among one, which is another account than that of the key itself. -/
def trusteeKey : PublicKey := .multisig 1 [unitKey]

/-- A transfer of two accounts, not signed yet. The second one has the last sequence. -/
def jointTransfer : Transaction where
  body := ⟨[.send ⟨unitKey.address, .replicate 20 9, ⟨[⟨"stake", .clamp 5⟩]⟩⟩,
    .send ⟨trusteeKey.address, .replicate 20 9, ⟨[⟨"stake", .clamp 5⟩]⟩⟩], "", 0, [], []⟩
  authInfo := ⟨[⟨some unitKey, .single .direct, 0⟩,
    ⟨some trusteeKey, .multi [true] [.single .direct], 18446744073709551615⟩],
    ⟨⟨[⟨"stake", .clamp 10⟩]⟩, 100000, none, none⟩⟩
  signatures := []

/-- The transfer with the signatures of both. -/
def signedJointTransfer : Transaction :=
  let first : SignerData := ⟨unitKey.address, "unit", 0, 0, unitKey⟩
  let second : SignerData :=
    ⟨trusteeKey.address, "unit", 3, 18446744073709551615, trusteeKey⟩
  { jointTransfer with signatures := [unitSignature (first.signBytes jointTransfer .direct),
      SignatureData.encodeParts [unitSignature (second.signBytes jointTransfer .direct)]] }

def jointRun : Run Memory :=
  let accounts := (unitMemory.accounts.create trusteeKey.address).2
  ⟨.new "unit" 1 0, { unitMemory with
    accounts := accounts.setSequence trusteeKey.address 18446744073709551615 }⟩

theorem signedJointTransfer_refused : Tuning.standard.handler.refusal? signedJointTransfer jointRun
    unitKey.address = some (⟨.sequences, .ledger "sequence overflow"⟩, some 1) := by
  decide +kernel

/-- The sequence of the first signer is used up by a transaction that is refused. -/
theorem signedJointTransfer_uses_sequence : ∃ t,
    Tuning.standard.handler.handle signedJointTransfer false jointRun =
      .error ⟨.sequences, .ledger "sequence overflow"⟩ t ∧
    jointRun.services.accounts.sequence? unitKey.address = some 0 ∧
    t.services.accounts.sequence? unitKey.address = some 1 := by
  obtain ⟨t, ht, hn⟩ := Handler.eq_error_of_refusal? signedJointTransfer_refused
  exact ⟨t, ht, by decide +kernel, hn⟩

theorem signedJointTransfer_first_advanced : ∃ t done a rest,
    Tuning.standard.handler.handle signedJointTransfer false jointRun =
      .error ⟨.sequences, .ledger "sequence overflow"⟩ t ∧
    signedJointTransfer.signers = done ++ a :: rest ∧ jointRun.services.accounts.Exhausted a ∧
    ∀ x ∈ done, jointRun.services.accounts.Advanced t.services.accounts x := by
  obtain ⟨t, ht, -⟩ := Handler.eq_error_of_refusal? signedJointTransfer_refused
  obtain ⟨-, -, done, a, rest, hsplit, ha, hdone, -⟩ :=
    (Handler.sequences_of_rejected ht).2.1 rfl
  exact ⟨t, done, a, rest, ht, hsplit, ha, hdone⟩

end Tollgate
