import Tollgate.Ledger.Bank
import Tollgate.Proofs.Ledger.Outcome
/-! What moving a fee does to balances: nobody but the payer loses, and a payer other than the
collector loses in every denom that the fee charges. -/
namespace Tollgate.Bank

variable (b : Bank) (payer collector a : Address) (c : Coin) (denom : String)

theorem balance_setBalance (amount : Amount) :
    (b.setBalance payer c.denom amount).balance a denom =
      if payer = a ∧ c.denom = denom then amount else b.balance a denom := by
  unfold balance setBalance
  rw [Table.find?_insert]
  by_cases h : payer = a ∧ c.denom = denom
  · rw [if_pos h, if_pos (Prod.ext_iff.2 h), Option.getD_some]
  · rw [if_neg h, if_neg fun e => h (Prod.ext_iff.1 e)]

theorem balance_debit :
    (b.debit payer c).balance a denom = if payer = a ∧ c.denom = denom then
      (b.balance a denom).subSat c.amount else b.balance a denom := by
  unfold debit
  split
  · next held hheld =>
    rw [balance_setBalance]
    split
    · next h =>
      obtain ⟨rfl, rfl⟩ := h
      rw [balance, hheld, Option.getD_some]
    · rfl
  · next hnone =>
    split
    · next h =>
      obtain ⟨rfl, rfl⟩ := h
      -- there is nothing to take off an account without an entry
      rw [balance, hnone, Option.getD_none, ← Amount.toNat_inj, Amount.toNat_subSat,
        Amount.toNat_zero, Nat.zero_sub]
    · rfl

theorem toNat_balance_credit :
    ((b.credit collector c).balance a denom).toNat = if collector = a ∧ c.denom = denom then
      min ((b.balance a denom).toNat + c.amount.toNat) (2 ^ 128 - 1)
      else (b.balance a denom).toNat := by
  unfold credit
  rw [balance_setBalance]
  split
  · next h =>
    obtain ⟨rfl, rfl⟩ := h
    rfl
  · rfl

variable {b payer collector a c denom}

theorem balance_setBalance_of_ne (h : payer ≠ a) {x : String} {amount : Amount} :
    (b.setBalance payer x amount).balance a denom = b.balance a denom := by
  rw [b.balance_setBalance payer a ⟨x, amount⟩, if_neg fun hc => h hc.1]

theorem deduct_eq_ok_iff {fee : Coins} {b' : Bank} :
    deduct payer collector fee b = .ok () b' ↔
      fee.toList.forM (b.checkMove payer collector) = .ok () ∧
      b' = fee.toList.foldl (fun b c => b.move payer collector c) b := by
  unfold deduct
  split
  · next e he => simp [he]
  · next hok => simp [hok, eq_comm]

/-- A deduction that fails moves nothing. -/
theorem atomic_deduct (payer collector : Address) (fee : Coins) :
    Call.Atomic (deduct payer collector fee) := by
  intro b e t h
  unfold deduct at h
  split at h
  · exact (EStateM.Result.error.inj h).2.symm
  · cases h

theorem checkMove_of_forM {cs : List Coin} (h : cs.forM (b.checkMove payer collector) = .ok ())
    (hc : c ∈ cs) : b.checkMove payer collector c = .ok () := by
  induction cs with
  | nil => cases hc
  | cons d cs ih =>
    rw [List.forM_eq_forM, List.forM_cons] at h
    cases hd : b.checkMove payer collector d with
    | error e =>
      rw [hd] at h
      cases h
    | ok u =>
      rw [hd] at h
      rcases List.mem_cons.1 hc with rfl | hc
      · exact hd
      · exact ih h hc

theorem checkMove_eq_ok_iff : b.checkMove payer collector c = .ok () ↔
    c.amount ≤ b.balance payer c.denom ∧
      (b.balance collector c.denom).toNat + c.amount.toNat < 2 ^ 128 := by
  unfold checkMove Amount.add? Amount.ofNat?
  simp only [Amount.lt_iff, Amount.le_iff]
  by_cases hheld : (b.balance payer c.denom).toNat < c.amount.toNat
  · simp only [if_pos hheld, reduceCtorEq, false_iff]
    omega
  · by_cases hfits : (b.balance collector c.denom).toNat + c.amount.toNat < 2 ^ 128
    · simp only [if_neg hheld, dif_pos hfits, Option.isNone_some, Bool.false_eq_true, if_false,
        true_iff]
      omega
    · simp only [if_neg hheld, dif_neg hfits, Option.isNone_none, if_true, reduceCtorEq, false_iff]
      omega

end Tollgate.Bank
