import Tollgate.Proofs.Admission.Intake
import Tollgate.Proofs.Wire.Transaction
/-! What the bytes of a transaction cost. A run that consumed less gas than another one stays below it
under smaller charges; so the bytes a transaction is decoded from, which spell it and can only be
longer than its encoding, are never cheaper than the encoding. -/
namespace Tollgate

open Call

variable {σ : Type} {w : Wiring σ} {tx : Transaction} {simulate : Bool}

namespace Word

variable {a b : UInt64}

theorem clamp_le {m n : Nat} (h : m ≤ n) : clamp m ≤ clamp n := by
  rw [UInt64.le_iff_toNat_le, toNat_clamp, toNat_clamp]
  omega

theorem addSat_le (c : UInt64) (h : a ≤ b) : addSat c a ≤ addSat c b :=
  clamp_le (Nat.add_le_add_left (UInt64.le_iff_toNat_le.1 h) c.toNat)

theorem mulSat_le (c : UInt64) (h : a ≤ b) : mulSat c a ≤ mulSat c b :=
  clamp_le (Nat.mul_le_mul_left c.toNat (UInt64.le_iff_toNat_le.1 h))

end Word

namespace GasMeter

@[simp] theorem after_consume (amount : UInt64) (descriptor : String) (m : GasMeter) :
    after (consume amount descriptor) m =
      { m with consumed := Word.addSat m.consumed amount } := by
  have hsum {total : UInt64} (h : Word.add? m.consumed amount = some total) :
      Word.addSat m.consumed amount = total := by
    have hle := total.toNat_lt
    have htotal := Word.add?_eq_some_iff.1 h
    rw [← UInt64.toNat_inj, Word.toNat_addSat]
    omega
  unfold after consume
  cases hadd : Word.add? m.consumed amount with
  | none =>
    have hover := Word.add?_eq_none_iff.1 hadd
    have hmax : Word.addSat m.consumed amount = Word.clamp (2 ^ 64) := by
      rw [← UInt64.toNat_inj, Word.toNat_addSat, Word.toNat_clamp]
      omega
    rw [hmax]
  | some total =>
    rw [hsum hadd]
    cases m.limit with
    | none => rfl
    | some limit =>
      by_cases hlimit : limit < total
      · simp [hlimit]
      · simp [hlimit]

end GasMeter

/-- The same state of the services, and no more gas consumed under the same limit. -/
structure Run.Cheaper (r s : Run σ) : Prop where
  services : r.services = s.services
  limit : r.context.meter.limit = s.context.meter.limit
  consumed : r.context.meter.consumed ≤ s.context.meter.consumed

/-- The run with the bytes that a transaction was received as. -/
def Run.receiving (r : Run σ) (bs : Bytes) : Run σ :=
  { r with context := { r.context with txBytes := bs } }

/-- Bytes at least as long as the encoding never count for less than the encoding. -/
theorem Run.txSize_receiving_le (r : Run σ) {bs : Bytes} (h : tx.encode.length ≤ bs.length) :
    (r.receiving tx.encode).context.txSize tx ≤ (r.receiving bs).context.txSize tx := by
  have hencoded : (r.receiving tx.encode).context.txSize tx = Word.clamp tx.encode.length :=
    ite_self _
  rw [hencoded]
  unfold Context.txSize
  split
  · exact UInt64.le_refl _
  · exact Word.clamp_le h

namespace Gate

variable {r s s' : Run σ} {params : AuthParams} {a b : UInt64}

theorem consumed_after_chargeBytes (params : AuthParams) (size : UInt64) (r : Run σ) :
    (after (chargeBytes params size) r).context.meter.consumed =
      Word.addSat r.context.meter.consumed (Word.mulSat params.costPerByte size) := by
  rw [chargeBytes, after_charge, after_mapError, GasMeter.after_consume]

theorem cheaper_chargeBytes (h : r.Cheaper s) (hle : a ≤ b)
    (hs : chargeBytes params b s = .ok () s') :
    ∃ r', chargeBytes params a r = .ok () r' ∧ r'.Cheaper s' := by
  obtain ⟨m, hm, rfl⟩ := charge_eq_ok_iff.1 hs
  obtain ⟨hlimit, hconsumed, hwithin⟩ := GasMeter.consume_eq_ok_iff.1 (meterBytes_eq_ok_iff.1 hm)
  have hcost := UInt64.le_iff_toNat_le.1 (Word.mulSat_le params.costPerByte hle)
  have hbefore := UInt64.le_iff_toNat_le.1 h.consumed
  let total := Word.addSat r.context.meter.consumed (Word.mulSat params.costPerByte a)
  have htotal : total.toNat =
      r.context.meter.consumed.toNat + (Word.mulSat params.costPerByte a).toNat := by
    have hlt := m.consumed.toNat_lt
    rw [Word.toNat_addSat]
    omega
  have hafter : total ≤ m.consumed := by
    rw [UInt64.le_iff_toNat_le]
    omega
  have hcharge : meterBytes params a r.context.meter = .ok () ⟨r.context.meter.limit, total⟩ := by
    refine meterBytes_eq_ok_iff.2 (GasMeter.consume_eq_ok_iff.2 ⟨rfl, htotal, fun l hl => ?_⟩)
    exact UInt64.le_trans hafter (hwithin l (h.limit ▸ hl))
  exact ⟨_, charge_eq_ok_iff.2 ⟨_, hcharge, rfl⟩, h.services, h.limit.trans hlimit.symm, hafter⟩

/-- Missing signatures are counted by looking at accounts alone. -/
theorem cheaper_missingSignatures {limit total extra : UInt64} {xs : List (Address × Nat)}
    (h : r.Cheaper s) (hs : missingSignatures w tx limit total xs s = .ok extra s') :
    ∃ r', missingSignatures w tx limit total xs r = .ok extra r' ∧ r'.Cheaper s' := by
  induction xs generalizing r s total with
  | nil =>
    obtain ⟨rfl, rfl⟩ := pure_eq_ok_iff.1 hs
    exact ⟨r, rfl, h⟩
  | cons x xs ih =>
    obtain ⟨a, i⟩ := x
    unfold missingSignatures at hs ⊢
    split at hs
    · next hsigned =>
      rw [if_pos hsigned]
      exact ih h hs
    · next hsigned =>
      rw [if_neg hsigned]
      obtain ⟨found, u, hu, hs⟩ := bind_eq_ok_iff.1 hs
      obtain ⟨v, hv, rfl⟩ := call_eq_ok_iff.1 hu
      have hlook : account w a r = .ok found { r with services := v } :=
        call_eq_ok_iff.2 ⟨v, h.services ▸ hv, rfl⟩
      obtain ⟨r', hr', hcheaper⟩ := ih (r := { r with services := v }) (s := { s with services := v })
        ⟨rfl, h.limit, h.consumed⟩ hs
      exact ⟨r', bind_eq_ok_iff.2 ⟨found, _, hlook, hr'⟩, hcheaper⟩

theorem consumed_after_chargeSize (w : Wiring σ) (tx : Transaction) (r : Run σ) :
    (after (chargeSize w tx false) r).context.meter.consumed =
      Word.addSat r.context.meter.consumed
        (Word.mulSat (w.accounts.params r.services).costPerByte (r.context.txSize tx)) := by
  rw [← consumed_after_chargeBytes]
  change (after (do chargeBytes (w.accounts.params r.services) (r.context.txSize tx); pure ())
    r).context.meter.consumed = _
  cases h : chargeBytes (w.accounts.params r.services) (r.context.txSize tx) r with
  | ok u t =>
    rw [after_bind_of_ok h, after_of_ok h]
    rfl
  | error e t => rw [after_bind_of_error h, after_of_error h]

theorem cheaper_chargeSize {t : Run σ} (h : r.Cheaper s)
    (hle : r.context.txSize tx ≤ s.context.txSize tx)
    (hs : chargeSize w tx simulate s = .ok () t) :
    ∃ t', chargeSize w tx simulate r = .ok () t' ∧ t'.Cheaper t := by
  have hbody (r : Run σ) : chargeSize w tx simulate r = (do
      chargeBytes (w.accounts.params r.services) (r.context.txSize tx)
      if simulate then
        let extra ← missingSignatures w tx (w.accounts.params r.services).signatureLimit 0
          tx.signers.zipIdx
        chargeBytes (w.accounts.params r.services) extra) r := rfl
  rw [hbody] at hs
  rw [hbody, h.services]
  obtain ⟨⟨⟩, u, hbytes, hs⟩ := bind_eq_ok_iff.1 hs
  obtain ⟨r₁, hr₁, h₁⟩ := cheaper_chargeBytes h hle hbytes
  rw [bind_of_ok hr₁]
  cases simulate with
  | false =>
    obtain ⟨-, rfl⟩ := pure_eq_ok_iff.1 hs
    exact ⟨r₁, rfl, h₁⟩
  | true =>
    obtain ⟨extra, v, hextra, hs⟩ := bind_eq_ok_iff.1 hs
    obtain ⟨r₂, hr₂, h₂⟩ := cheaper_missingSignatures h₁ hextra
    obtain ⟨r₃, hr₃, h₃⟩ := cheaper_chargeBytes h₂ (UInt64.le_refl _) hs
    exact ⟨r₃, bind_eq_ok_iff.2 ⟨extra, r₂, hr₂, hr₃⟩, h₃⟩

end Gate

namespace Transaction

/-- The bytes a transaction is decoded from spell it and can only be longer than its encoding; the
gas for them is never less than the gas for the encoding. -/
theorem canonical_of_decode? {bs : Bytes} (h : decode? bs = .ok tx) :
    tx.encode.length ≤ bs.length ∧ (tx.encode.length = bs.length ↔ tx.encode = bs) ∧
    (∃ used rest, bs = used ++ rest ∧ Padded tx.encode used) ∧
    ∀ {σ : Type} (w : Wiring σ) (r : Run σ),
      (after (Gate.chargeSize w tx false) (r.receiving tx.encode)).context.meter.consumed ≤
        (after (Gate.chargeSize w tx false) (r.receiving bs)).context.meter.consumed ∧
      ∀ simulate t, Gate.chargeSize w tx simulate (r.receiving bs) = .ok () t →
        ∃ t', Gate.chargeSize w tx simulate (r.receiving tx.encode) = .ok () t' ∧
          t'.context.meter.consumed ≤ t.context.meter.consumed := by
  obtain ⟨-, used, rest, rfl, hpadded⟩ := lawful_format.of_decode h
  have hused : tx.encode.length ≤ used.length := hpadded.length_le
  have hle : tx.encode.length ≤ (used ++ rest).length := by
    rw [List.length_append]
    omega
  refine ⟨hle, ⟨fun hl => ?_, congrArg List.length⟩, ⟨used, rest, rfl, hpadded⟩, fun w r => ?_⟩
  · rw [List.length_append] at hl
    have hrest : rest = [] := List.length_eq_zero_iff.1 (by omega)
    rw [hrest, List.append_nil]
    have hlength : tx.encode.length = used.length := by omega
    exact hpadded.eq_of_length_eq hlength
  · have hsize := r.txSize_receiving_le hle
    constructor
    · rw [Gate.consumed_after_chargeSize, Gate.consumed_after_chargeSize]
      exact Word.addSat_le _ (Word.mulSat_le _ hsize)
    · intro simulate t ht
      have hcheaper : (r.receiving tx.encode).Cheaper (r.receiving (used ++ rest)) :=
        ⟨rfl, rfl, UInt64.le_refl _⟩
      obtain ⟨t', ht', hfinal⟩ := Gate.cheaper_chargeSize hcheaper hsize ht
      exact ⟨t', ht', hfinal.consumed⟩

/-- A transaction that does nothing, with five units as its fee. -/
def bareFee : Transaction where
  body := ⟨[], "", 0, [], []⟩
  authInfo := ⟨[], ⟨⟨[⟨"stake", .clamp 5⟩]⟩, 1, none, none⟩⟩
  signatures := []

/-- The amount is written with a plus sign and a zero, and a byte follows the transaction. -/
def bareFeePadded : Bytes :=
  List.replicate 48 0 ++ Format.length.write 1 ++ Format.string.write "stake" ++
    Format.string.write "+05" ++ Format.word64.write 1 ++ [0, 0] ++ Format.length.write 0 ++ [7]

theorem bareFeePadded_canonical : decode? bareFeePadded = .ok bareFee ∧
    bareFee.encode.length ≤ bareFeePadded.length ∧
    (bareFee.encode.length = bareFeePadded.length ↔ bareFee.encode = bareFeePadded) ∧
    (∃ used rest, bareFeePadded = used ++ rest ∧ Padded bareFee.encode used) ∧
    ∀ {σ : Type} (w : Wiring σ) (r : Run σ),
      (after (Gate.chargeSize w bareFee false) (r.receiving bareFee.encode)).context.meter.consumed ≤
        (after (Gate.chargeSize w bareFee false) (r.receiving bareFeePadded)).context.meter.consumed ∧
      ∀ simulate t, Gate.chargeSize w bareFee simulate (r.receiving bareFeePadded) = .ok () t →
        ∃ t', Gate.chargeSize w bareFee simulate (r.receiving bareFee.encode) = .ok () t' ∧
          t'.context.meter.consumed ≤ t.context.meter.consumed := by
  have h : decode? bareFeePadded = .ok bareFee := by decide +kernel
  exact ⟨h, canonical_of_decode? h⟩

end Transaction
end Tollgate
