import Tollgate.Proofs.Coin.Canonical
import Tollgate.Proofs.Ledger.Balance
/-! The balances after a fee was moved, exactly: every denom of a canonical fee goes from the payer to
the collector once, and nothing else moves. -/
namespace Tollgate

namespace Bank

variable {b : Bank} {payer collector a : Address} {c : Coin} {denom : String}

/-- A coin that can be moved leaves the payer and reaches the collector, who may be the payer. -/
theorem balance_move (h : b.checkMove payer collector c = .ok ()) :
    ((b.move payer collector c).balance a denom).toNat +
        (if payer = a ∧ c.denom = denom then c.amount.toNat else 0) =
      (b.balance a denom).toNat +
        (if collector = a ∧ c.denom = denom then c.amount.toNat else 0) := by
  obtain ⟨hheld, hfits⟩ := checkMove_eq_ok_iff.1 h
  rw [Amount.le_iff] at hheld
  have hlt := (b.balance a denom).toNat_lt
  unfold move
  rw [toNat_balance_credit, balance_debit]
  by_cases hd : c.denom = denom
  · subst hd
    by_cases hp : payer = a
    · subst hp
      by_cases hc : collector = payer <;> simp [hc] <;> omega
    · by_cases hc : collector = a
      · subst hc
        simp [hp]
        omega
      · simp [hp, hc]
  · simp [hd]

theorem checkMove_move (hother : c.denom ≠ denom) (amount : Amount) :
    (b.move payer collector c).checkMove payer collector ⟨denom, amount⟩ =
      b.checkMove payer collector ⟨denom, amount⟩ := by
  have hkeeps (x : Address) : (b.move payer collector c).balance x denom = b.balance x denom := by
    rw [← Amount.toNat_inj, move, toNat_balance_credit, balance_debit]
    simp [hother]
  unfold checkMove
  simp only [hkeeps]

/-- The checks before the first move hold for every later one, since no denom comes twice. -/
theorem checkMove_tail {cs : List Coin} (hn : ((c :: cs).map Coin.denom).Nodup)
    (h : ∀ d ∈ c :: cs, b.checkMove payer collector d = .ok ()) :
    ∀ d ∈ cs, (b.move payer collector c).checkMove payer collector d = .ok () := by
  rw [List.map_cons, List.nodup_cons] at hn
  intro d hd
  have hne : c.denom ≠ d.denom := fun he => hn.1 (he ▸ List.mem_map_of_mem hd)
  rw [checkMove_move hne d.amount]
  exact h d (List.mem_cons_of_mem c hd)

theorem balance_foldl_move {cs : List Coin} (hn : (cs.map Coin.denom).Nodup)
    (h : ∀ c ∈ cs, b.checkMove payer collector c = .ok ()) :
    ((cs.foldl (fun b c => b.move payer collector c) b).balance a denom).toNat +
        (if payer = a then ((⟨cs⟩ : Coins).amountOf denom).toNat else 0) =
      (b.balance a denom).toNat +
        (if collector = a then ((⟨cs⟩ : Coins).amountOf denom).toNat else 0) := by
  induction cs generalizing b with
  | nil => simp [Coins.amountOf]
  | cons c cs ih =>
    have hmove : ((b.move payer collector c).balance a denom).toNat +
        (if payer = a ∧ c.denom = denom then c.amount.toNat else 0) =
      (b.balance a denom).toNat +
        (if collector = a ∧ c.denom = denom then c.amount.toNat else 0) :=
      balance_move (h c List.mem_cons_self)
    have hrest := checkMove_tail hn h
    rw [List.map_cons, List.nodup_cons] at hn
    have hih := ih hn.2 hrest
    rw [List.foldl_cons, Coins.amountOf_cons]
    by_cases hd : c.denom = denom
    · have hzero : (⟨cs⟩ : Coins).amountOf denom = .zero := by
        refine Coins.amountOf_eq_zero fun d hmem he => hn.1 ?_
        rw [hd, ← he]
        exact List.mem_map_of_mem hmem
      simp only [hzero, Amount.toNat_zero, ite_self, Nat.add_zero] at hih
      simp only [hd, and_true, if_true] at hmove ⊢
      omega
    · simp only [hd, and_false, if_false, Nat.add_zero] at hmove ⊢
      omega

/-- One fee has left its source and reached the collector, who may be the source. -/
def Transfers (source collector : Address) (fee : Coins) (b b' : Bank) : Prop :=
  ∀ a denom, (b'.balance a denom).toNat +
      (if source = a then (fee.amountOf denom).toNat else 0) =
    (b.balance a denom).toNat + (if collector = a then (fee.amountOf denom).toNat else 0)

namespace Transfers

variable {source : Address} {fee : Coins} {b' : Bank}

theorem balance_of_ne (h : b.Transfers source collector fee b') (hs : source ≠ a)
    (hc : collector ≠ a) (denom : String) : b'.balance a denom = b.balance a denom := by
  have hmoved := h a denom
  rw [if_neg hs, if_neg hc] at hmoved
  exact Amount.toNat_inj.1 hmoved

theorem balance_collector (h : b.Transfers source collector fee b') (hs : source ≠ collector)
    (denom : String) : (b'.balance collector denom).toNat =
      (b.balance collector denom).toNat + (fee.amountOf denom).toNat := by
  have hmoved := h collector denom
  rw [if_neg hs, if_pos rfl] at hmoved
  exact hmoved

theorem balance_source (h : b.Transfers source collector fee b') (hs : source ≠ collector)
    (denom : String) : (b'.balance source denom).toNat + (fee.amountOf denom).toNat =
      (b.balance source denom).toNat := by
  have hmoved := h source denom
  rw [if_pos rfl, if_neg hs.symm] at hmoved
  exact hmoved

/-- What goes to its own source changes nothing. -/
theorem balance_self (h : b.Transfers source source fee b') (a : Address) (denom : String) :
    b'.balance a denom = b.balance a denom :=
  Amount.toNat_inj.1 (Nat.add_right_cancel (h a denom))

end Transfers

/-- A deduction moves every denom of a canonical fee once. -/
theorem balance_deduct {fee : Coins} {b' : Bank} (hfee : fee.check = .ok ())
    (h : deduct payer collector fee b = .ok () b') (a : Address) (denom : String) :
    (b'.balance a denom).toNat + (if payer = a then (fee.amountOf denom).toNat else 0) =
      (b.balance a denom).toNat + (if collector = a then (fee.amountOf denom).toNat else 0) := by
  obtain ⟨hchecks, rfl⟩ := deduct_eq_ok_iff.1 h
  exact balance_foldl_move (Coins.check_eq_ok_iff.1 hfee).nodup_denoms
    fun c hc => checkMove_of_forM hchecks hc

end Bank
end Tollgate
