import Tollgate.Proofs.Admission.Authentication
import Tollgate.Proofs.Admission.Completion
import Tollgate.Proofs.Admission.Size
/-! The gas for the size of a transaction that is not yet signed. A simulation charges for the bytes
that are there and for an estimate of those that are missing; the charge for the complete transaction
stays below it unless the keys that are added take more than what was set aside. -/
namespace Tollgate

open Call

namespace Word

theorem addSat_clamp (a : UInt64) (n : Nat) : addSat a (clamp n) = clamp (a.toNat + n) := by
  rw [← UInt64.toNat_inj, toNat_addSat, toNat_clamp, toNat_clamp]
  omega

theorem addSat_clamp_clamp (m n : Nat) : addSat (clamp m) (clamp n) = clamp (m + n) := by
  rw [addSat_clamp, ← UInt64.toNat_inj, toNat_clamp, toNat_clamp, toNat_clamp]
  omega

theorem mulSat_clamp (a : UInt64) (n : Nat) : mulSat a (clamp n) = clamp (a.toNat * n) := by
  rw [← UInt64.toNat_inj, toNat_mulSat, toNat_clamp, toNat_clamp]
  by_cases hn : n ≤ 2 ^ 64 - 1
  · rw [Nat.min_eq_left hn]
  · rcases Nat.eq_zero_or_pos a.toNat with ha | ha
    · simp [ha]
    · have hmax : 2 ^ 64 - 1 ≤ a.toNat * (2 ^ 64 - 1) := Nat.le_mul_of_pos_left _ ha
      have hmul : n ≤ a.toNat * n := Nat.le_mul_of_pos_left _ ha
      rw [Nat.min_eq_right (Nat.le_of_not_le hn), Nat.min_eq_right hmax, Nat.min_eq_right (by omega)]

end Word

namespace PublicKey

/-- A missing signature of a single key counts for the signature and what is set aside next to it. -/
theorem missingSize_of_single {limit : UInt64} {stored : Option PublicKey}
    (h : ∀ key ∈ stored, ∃ k, key = .single k) :
    (stored.getD placeholder).missingSize limit = Word.clamp (signatureLength + reserve stored) := by
  have hkey : ∃ k, stored.getD placeholder = .single k := by
    cases stored with
    | none => exact ⟨_, rfl⟩
    | some key => exact h key rfl
  obtain ⟨k, hk⟩ := hkey
  rw [reserve, hk, ← Nat.add_assoc]
  rfl

end PublicKey

namespace Gate

variable {tuning : Tuning} {tx : Transaction} {r : Run Memory}

/-- The gas that is consumed once the bytes of a transaction are paid for, or have run out of gas. -/
def consumedForSize {σ : Type} (w : Wiring σ) (tx : Transaction) (simulate : Bool) (r : Run σ) :
    UInt64 := (after (chargeSize w tx simulate) r).context.meter.consumed

/-- What the missing signatures of some signers with single keys count for. -/
theorem missingSignatures_of_empty {limit : UInt64} {xs : List (Address × Nat)} (total : Nat)
    (hempty : ∀ x ∈ xs, tx.signature x.2 = [])
    (hsingle : ∀ x ∈ xs, ∀ key ∈ (r.services.accounts.find? x.1).bind Account.key,
      ∃ k, key = .single k) :
    missingSignatures tuning.wiring tx limit (Word.clamp total) xs r =
      .ok (Word.clamp (total + PublicKey.signatureLength * xs.length + (xs.map fun x =>
        PublicKey.reserve ((r.services.accounts.find? x.1).bind Account.key)).sum)) r := by
  induction xs generalizing total with
  | nil => rfl
  | cons x xs ih =>
    obtain ⟨a, i⟩ := x
    rw [List.forall_mem_cons] at hempty hsingle
    have hi : tx.signature i = [] := hempty.1
    have haccount : account tuning.wiring a r = .ok (r.services.accounts.find? a) r := rfl
    unfold missingSignatures
    -- the running total is clamped at every signer, which is no less than clamping it once
    rw [hi, if_neg (by simp), bind_of_ok haccount, PublicKey.missingSize_of_single hsingle.1,
      Word.addSat_clamp_clamp, ih _ hempty.2 hsingle.2]
    rw [List.map_cons, List.sum_cons, List.length_cons, Nat.mul_succ]
    congr 2
    omega

theorem missingSignatures_of_unsigned {limit : UInt64} (hunsigned : tx.Unsigned)
    (hsingle : tx.SingleKeyed r.services.accounts) :
    missingSignatures tuning.wiring tx limit 0 tx.signers.zipIdx r =
      .ok (Word.clamp (tx.estimate r.services.accounts)) r := by
  have hzero : (0 : UInt64) = Word.clamp 0 := rfl
  have hmem : ∀ x ∈ tx.signers.zipIdx, x.1 ∈ tx.signers := fun x hx =>
    List.mem_of_getElem? (List.mem_zipIdx_iff_getElem?.1 hx)
  have hfst (g : Address → Nat) :
      tx.signers.zipIdx.map (fun x => g x.1) = tx.signers.map g := by
    have hcomp : (fun x : Address × Nat => g x.1) = g ∘ Prod.fst := rfl
    rw [hcomp, ← List.map_map, List.zipIdx_map_fst]
  rw [hzero, missingSignatures_of_empty 0 (fun x hx => hunsigned.signature hx)
    (fun x hx => hsingle x.1 (hmem x hx)), List.length_zipIdx,
    hfst fun a => PublicKey.reserve ((r.services.accounts.find? a).bind Account.key), Nat.zero_add]
  rfl

theorem consumed_after_chargeBytes_clamp {σ : Type} (params : AuthParams) (size : Nat) (r : Run σ) :
    (after (chargeBytes params (Word.clamp size)) r).context.meter.consumed =
      Word.clamp (r.context.meter.consumed.toNat + params.costPerByte.toNat * size) := by
  rw [consumed_after_chargeBytes, Word.mulSat_clamp, Word.addSat_clamp]

theorem txSize_of_unreceived {c : Context} (hbytes : c.txBytes = []) :
    c.txSize tx = Word.clamp tx.encode.length := by
  rw [Context.txSize, hbytes]
  rfl

theorem consumedForSize_false (hbytes : r.context.txBytes = []) :
    consumedForSize tuning.wiring tx false r = Word.clamp (r.context.meter.consumed.toNat +
      r.services.accounts.params.costPerByte.toNat * tx.encode.length) := by
  rw [consumedForSize, consumed_after_chargeSize, txSize_of_unreceived hbytes, Word.mulSat_clamp,
    Word.addSat_clamp]
  rfl

/-- Without a limit, a charge for bytes fails only if the gas no longer fits. -/
theorem chargeSize_false_of_limitless (hlimit : r.context.meter.limit = none)
    (hbytes : r.context.txBytes = []) (hfits : r.context.meter.consumed.toNat +
      r.services.accounts.params.costPerByte.toNat * tx.encode.length < 2 ^ 64) :
    succeeds (chargeSize tuning.wiring tx false) r = true := by
  let cost := Word.mulSat r.services.accounts.params.costPerByte (r.context.txSize tx)
  have htotal : (Word.addSat r.context.meter.consumed cost).toNat =
      r.context.meter.consumed.toNat + cost.toNat := by
    dsimp only [cost]
    rw [txSize_of_unreceived hbytes, Word.mulSat_clamp, Word.toNat_addSat, Word.toNat_clamp]
    omega
  refine succeeds_of_ok (chargeSize_false_eq_ok_iff.2
    ⟨⟨none, Word.addSat r.context.meter.consumed cost⟩, ?_, rfl⟩)
  refine meterBytes_eq_ok_iff.2 (GasMeter.consume_eq_ok_iff.2 ⟨hlimit.symm, htotal, fun _ hl => ?_⟩)
  rw [hlimit] at hl
  cases hl

section Estimate

variable (hbytes : r.context.txBytes = []) (hunsigned : tx.Unsigned)
  (hsingle : tx.SingleKeyed r.services.accounts)

include hbytes hunsigned hsingle

/-- A simulation charges for the estimate as well, unless the bytes that are there fail already. -/
theorem consumedForSize_true :
    consumedForSize tuning.wiring tx true r = Word.clamp (r.context.meter.consumed.toNat +
        r.services.accounts.params.costPerByte.toNat *
          (tx.encode.length + tx.estimate r.services.accounts)) ∨
      succeeds (chargeSize tuning.wiring tx false) r = false ∧
        consumedForSize tuning.wiring tx true r = consumedForSize tuning.wiring tx false r := by
  let p := r.services.accounts.params
  have hbody (simulate : Bool) : chargeSize tuning.wiring tx simulate r = (do
      chargeBytes p (r.context.txSize tx)
      if simulate then
        let extra ← missingSignatures tuning.wiring tx p.signatureLimit 0 tx.signers.zipIdx
        chargeBytes p extra) r := rfl
  rw [txSize_of_unreceived hbytes] at hbody
  have hcharged := consumed_after_chargeBytes_clamp p tx.encode.length r
  cases h : chargeBytes p (Word.clamp tx.encode.length) r with
  | error e t =>
    refine .inr ⟨succeeds_of_error ((hbody false).trans (bind_eq_error_iff.2 (.inl h))), ?_⟩
    have hfailed (simulate : Bool) : after (chargeSize tuning.wiring tx simulate) r = t :=
      after_of_error ((hbody simulate).trans (bind_eq_error_iff.2 (.inl h)))
    rw [consumedForSize, consumedForSize, hfailed, hfailed]
  | ok u t =>
    left
    rw [after_of_ok h] at hcharged
    obtain ⟨m, -, ht⟩ := charge_eq_ok_iff.1 h
    have hservices : t.services = r.services := by rw [ht]
    rw [← hservices] at hsingle
    have hmissing : missingSignatures tuning.wiring tx p.signatureLimit 0 tx.signers.zipIdx t =
        .ok (Word.clamp (tx.estimate t.services.accounts)) t :=
      missingSignatures_of_unsigned hunsigned hsingle
    have hsecond : after (chargeSize tuning.wiring tx true) r =
        after (chargeBytes p (Word.clamp (tx.estimate t.services.accounts))) t := by
      unfold after
      rw [hbody, bind_of_ok h, if_pos rfl, bind_of_ok hmissing]
    rw [consumedForSize, hsecond, consumed_after_chargeBytes_clamp, hcharged, hservices,
      ← UInt64.toNat_inj, Nat.mul_add, Word.toNat_clamp, Word.toNat_clamp, Word.toNat_clamp]
    dsimp only [p]
    omega

/-- The charge of a simulation falls short of the complete transaction by no more than what its keys
take beyond the estimate. -/
theorem consumedForSize_complete_le (s : Signatory) (hmeter : r.context.meter.limit = none ∨
      succeeds (chargeSize tuning.wiring tx false) r = true) :
    (consumedForSize tuning.wiring (tx.complete r.services.accounts s) false r).toNat ≤
      (consumedForSize tuning.wiring tx true r).toNat +
        r.services.accounts.params.costPerByte.toNat * tx.excess r.services.accounts s := by
  have hlength := Nat.mul_le_mul_left r.services.accounts.params.costPerByte.toNat
    (hunsigned.length_complete_le r.services.accounts s)
  rw [Nat.mul_add] at hlength
  rw [consumedForSize_false hbytes, Word.toNat_clamp]
  rcases consumedForSize_true hbytes hunsigned hsingle with h | ⟨hfails, h⟩
  · rw [h, Word.toNat_clamp]
    omega
  · -- without a limit the unsigned bytes fail only at the largest word, which nothing exceeds
    have hover : 2 ^ 64 ≤ r.context.meter.consumed.toNat +
        r.services.accounts.params.costPerByte.toNat * tx.encode.length := by
      refine Nat.le_of_not_lt fun hfits => ?_
      have hok := hmeter.elim (fun hlimit => chargeSize_false_of_limitless hlimit hbytes hfits) id
      cases hfails.symm.trans hok
    rw [h, consumedForSize_false hbytes, Word.toNat_clamp]
    omega

/-- If the keys take more than what is set aside, the charge of a simulation does fall short. -/
theorem consumedForSize_lt_complete {s : Signatory}
    (hexcess : 0 < tx.excess r.services.accounts s)
    (hcost : 0 < r.services.accounts.params.costPerByte)
    (hfits : r.context.meter.consumed.toNat + r.services.accounts.params.costPerByte.toNat *
      (tx.complete r.services.accounts s).encode.length < 2 ^ 64) :
    consumedForSize tuning.wiring tx true r <
      consumedForSize tuning.wiring (tx.complete r.services.accounts s) false r := by
  have hpositive : 0 < r.services.accounts.params.costPerByte.toNat *
      tx.excess r.services.accounts s := Nat.mul_pos (UInt64.lt_iff_toNat_lt.1 hcost) hexcess
  rw [hunsigned.length_complete_of_excess hexcess, Nat.mul_add, Nat.mul_add] at hfits
  rw [consumedForSize_false hbytes, UInt64.lt_iff_toNat_lt, Word.toNat_clamp,
    hunsigned.length_complete_of_excess hexcess, Nat.mul_add, Nat.mul_add]
  rcases consumedForSize_true hbytes hunsigned hsingle with h | ⟨-, h⟩
  · rw [h, Word.toNat_clamp, Nat.mul_add]
    omega
  · rw [h, consumedForSize_false hbytes, Word.toNat_clamp]
    omega

end Estimate
end Gate

/-- A simulation charges as much as the complete transaction costs, up to the bytes of added keys for
which nothing is set aside: at most six for each curve point. If there are such bytes, it charges
less. -/
theorem Transaction.estimate_of_unsigned (tuning : Tuning) {tx : Transaction} {r : Run Memory}
    (hbytes : r.context.txBytes = []) (hunsigned : tx.Unsigned)
    (hsingle : tx.SingleKeyed r.services.accounts) (s : Signatory) :
    tx.excess r.services.accounts s ≤
      6 * (tx.addedKeys r.services.accounts s).countP SingleKey.isPoint ∧
    (r.context.meter.limit = none ∨ succeeds (Gate.chargeSize tuning.wiring tx false) r = true →
      (Gate.consumedForSize tuning.wiring (tx.complete r.services.accounts s) false r).toNat ≤
        (Gate.consumedForSize tuning.wiring tx true r).toNat +
          r.services.accounts.params.costPerByte.toNat * tx.excess r.services.accounts s) ∧
    (0 < tx.excess r.services.accounts s → 0 < r.services.accounts.params.costPerByte →
      r.context.meter.consumed.toNat + r.services.accounts.params.costPerByte.toNat *
        (tx.complete r.services.accounts s).encode.length < 2 ^ 64 →
      Gate.consumedForSize tuning.wiring tx true r <
        Gate.consumedForSize tuning.wiring (tx.complete r.services.accounts s) false r) :=
  ⟨tx.excess_le _ s, Gate.consumedForSize_complete_le hbytes hunsigned hsingle s,
    Gate.consumedForSize_lt_complete hbytes hunsigned hsingle⟩

/-- A key whose account is to store it. -/
def vaultKey : PublicKey := .single (.ed25519 (.replicate 32 1))

/-- Whoever adds a key adds the unit key. -/
def unitSignatory : Signatory where
  key _ := unitKey.leaves.headD (.ed25519 (.replicate 32 1))
  signature _ := .replicate 64 1

/-- Transfers of two accounts without any key or signature. -/
def unnamedTransfers : Transaction where
  body := ⟨[.send ⟨unitKey.address, .replicate 20 9, ⟨[⟨"stake", .clamp 5⟩]⟩⟩,
    .send ⟨vaultKey.address, .replicate 20 9, ⟨[⟨"stake", .clamp 5⟩]⟩⟩], "", 0, [], []⟩
  authInfo := ⟨[⟨none, .single .direct, 0⟩, ⟨none, .single .direct, 0⟩],
    ⟨⟨[⟨"stake", .clamp 10⟩]⟩, 100000, none, none⟩⟩
  signatures := [[], []]

def halfStoredRun : Run Memory :=
  ⟨.new "unit" 1 0, { Memory.new .default with
    accounts := unitBook.insert ⟨vaultKey.address, 1, 0, some vaultKey⟩ }⟩

/-- What is left over for the key that is stored makes up for the key that is added. -/
theorem unnamedTransfers_covered : unnamedTransfers.Unsigned ∧
    unnamedTransfers.SingleKeyed halfStoredRun.services.accounts ∧
    unnamedTransfers.addedBytes halfStoredRun.services.accounts unitSignatory = 45 ∧
    (Gate.consumedForSize Tuning.standard.wiring
      (unnamedTransfers.complete halfStoredRun.services.accounts unitSignatory) false
      halfStoredRun).toNat ≤
      (Gate.consumedForSize Tuning.standard.wiring unnamedTransfers true halfStoredRun).toNat := by
  have hunsigned : unnamedTransfers.Unsigned := by decide +kernel
  have hsigners : unnamedTransfers.signers = [unitKey.address, vaultKey.address] := by
    decide +kernel
  have hunit : (halfStoredRun.services.accounts.find? unitKey.address).bind Account.key = none := by
    decide +kernel
  have hstored : (halfStoredRun.services.accounts.find? vaultKey.address).bind Account.key =
      some vaultKey := by decide +kernel
  have hsingle : unnamedTransfers.SingleKeyed halfStoredRun.services.accounts := by
    rw [Transaction.SingleKeyed, hsigners, List.forall_mem_cons, List.forall_mem_singleton, hunit,
      hstored]
    exact ⟨nofun, fun key hkey => ⟨_, (Option.some.inj hkey).symm⟩⟩
  have hexcess : unnamedTransfers.excess halfStoredRun.services.accounts unitSignatory = 0 := by
    decide +kernel
  obtain ⟨-, hle, -⟩ :=
    Transaction.estimate_of_unsigned .standard rfl hunsigned hsingle unitSignatory
  have hcovered := hle (.inl rfl)
  rw [hexcess, Nat.mul_zero, Nat.add_zero] at hcovered
  exact ⟨hunsigned, hsingle, by decide +kernel, hcovered⟩

/-- The transfer of one account without any key or signature. -/
def unnamedTransfer : Transaction :=
  { transfer 0 none with
    authInfo.signerInfos := [⟨none, .single .direct, 0⟩]
    signatures := [[]] }

/-- A curve point that is added takes six bytes more than what is set aside for it. -/
theorem unnamedTransfer_undercharged : unnamedTransfer.Unsigned ∧
    unnamedTransfer.signers = [unitKey.address] ∧ unnamedTransfer.providedKey? 0 = none ∧
    (halfStoredRun.services.accounts.find? unitKey.address).bind Account.key = none ∧
    (unnamedTransfer.complete halfStoredRun.services.accounts unitSignatory).providedKey? 0 =
      some unitKey ∧
    Gate.consumedForSize Tuning.standard.wiring unnamedTransfer true halfStoredRun = 2990 ∧
    Gate.consumedForSize Tuning.standard.wiring
      (unnamedTransfer.complete halfStoredRun.services.accounts unitSignatory) false
      halfStoredRun = 3050 := by
  decide +kernel

end Tollgate
