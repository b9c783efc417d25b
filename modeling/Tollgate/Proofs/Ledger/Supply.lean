import Mathlib.Algebra.BigOperators.Group.Finset.Basic
import Mathlib.Algebra.BigOperators.Group.Finset.Piecewise
import Mathlib.Logic.Relation
import Tollgate.Proofs.Ledger.Transfer
/-! The supply of a denom, which is what all accounts hold of it together. A fee is collected coin by
coin in exact arithmetic, so that no coin comes up or gets lost. -/
namespace Tollgate.Bank

open Call Relation

variable {b b' : Bank} {payer collector a : Address} {denom : String}

/-- The addresses with an entry for some denom. -/
def holders (b : Bank) : Finset Address := (b.balances.entries.map fun e => e.1.1).toFinset

/-- What all accounts hold of a denom together. -/
def supply (b : Bank) (denom : String) : Nat := ∑ a ∈ b.holders, (b.balance a denom).toNat

theorem balance_of_not_mem_holders (h : a ∉ b.holders) (denom : String) :
    b.balance a denom = .zero := by
  unfold balance
  cases hfind : b.balances.find? (a, denom) with
  | none => rfl
  | some amount =>
    obtain ⟨e, he, hkey⟩ := List.mem_map.1 (Entries.mem_keys_of_find? hfind)
    have ha : a ∈ b.holders := List.mem_toFinset.2 (List.mem_map.2 ⟨e, he, by rw [hkey]⟩)
    exact absurd ha h

/-- Addresses without an entry add nothing to the supply. -/
theorem supply_eq_sum {as : Finset Address} (h : b.holders ⊆ as) (denom : String) :
    b.supply denom = ∑ a ∈ as, (b.balance a denom).toNat :=
  Finset.sum_subset h fun a _ ha => by rw [balance_of_not_mem_holders ha, Amount.toNat_zero]

/-- One coin goes from a payer to the collector in exact arithmetic: the payer holds it, and the
collector has room for it. -/
def Collects (collector : Address) (b b' : Bank) : Prop :=
  ∃ (payer : Address) (c : Coin), c.amount ≤ b.balance payer c.denom ∧
    (b.balance collector c.denom).toNat + c.amount.toNat < 2 ^ 128 ∧
    ∀ a denom, (b'.balance a denom).toNat +
        (if payer = a ∧ c.denom = denom then c.amount.toNat else 0) =
      (b.balance a denom).toNat + (if collector = a ∧ c.denom = denom then c.amount.toNat else 0)

namespace Collects

theorem of_checkMove {c : Coin} (h : b.checkMove payer collector c = .ok ()) :
    Collects collector b (b.move payer collector c) := by
  obtain ⟨hheld, hroom⟩ := checkMove_eq_ok_iff.1 h
  exact ⟨payer, c, hheld, hroom, fun _ _ => balance_move h⟩

theorem balance_le (h : Collects collector b b') (ha : a ≠ collector) (denom : String) :
    b'.balance a denom ≤ b.balance a denom := by
  obtain ⟨payer, c, -, -, hmoved⟩ := h
  have hown := hmoved a denom
  have hother : ¬(collector = a ∧ c.denom = denom) := fun he => ha he.1.symm
  rw [if_neg hother] at hown
  rw [Amount.le_iff]
  omega

theorem supply_eq (h : Collects collector b b') (denom : String) :
    b'.supply denom = b.supply denom := by
  obtain ⟨payer, c, -, -, hmoved⟩ := h
  have hsum (x : Address) (as : Finset Address) (hx : x ∈ as) :
      (∑ a ∈ as, if x = a ∧ c.denom = denom then c.amount.toNat else 0) =
        if c.denom = denom then c.amount.toNat else 0 := by
    simp only [ite_and, Finset.sum_ite_eq, hx, if_true]
  let as : Finset Address := insert payer (insert collector (b.holders ∪ b'.holders))
  have hpayer : payer ∈ as := Finset.mem_insert_self _ _
  have hcollector : collector ∈ as := Finset.mem_insert_of_mem (Finset.mem_insert_self _ _)
  have hsub : b.holders ∪ b'.holders ⊆ as := fun a ha =>
    Finset.mem_insert_of_mem (Finset.mem_insert_of_mem ha)
  have htotal := Finset.sum_congr rfl fun a (_ : a ∈ as) => hmoved a denom
  rw [Finset.sum_add_distrib, Finset.sum_add_distrib, hsum payer as hpayer,
    hsum collector as hcollector] at htotal
  rw [supply_eq_sum (Finset.union_subset_right hsub), supply_eq_sum (Finset.union_subset_left hsub)]
  omega

end Collects

theorem balance_le_of_collects (h : ReflTransGen (Collects collector) b b') (ha : a ≠ collector)
    (denom : String) : b'.balance a denom ≤ b.balance a denom := by
  induction h with
  | refl => exact Nat.le_refl _
  | tail _ hc ih => exact Nat.le_trans (hc.balance_le ha denom) ih

theorem supply_of_collects (h : ReflTransGen (Collects collector) b b') (denom : String) :
    b'.supply denom = b.supply denom := by
  induction h with
  | refl => rfl
  | tail _ hc ih => exact (hc.supply_eq denom).trans ih

/-- Every coin of a fee without repeated denoms is collected as it was checked before the first
move. -/
theorem collects_foldl_move {cs : List Coin} (hn : (cs.map Coin.denom).Nodup)
    (h : ∀ c ∈ cs, b.checkMove payer collector c = .ok ()) :
    ReflTransGen (Collects collector) b (cs.foldl (fun b c => b.move payer collector c) b) := by
  induction cs generalizing b with
  | nil => exact .refl
  | cons c cs ih =>
    have hfirst := Collects.of_checkMove (h c List.mem_cons_self)
    exact .head hfirst (ih (List.nodup_cons.1 hn).2 (checkMove_tail hn h))

/-- A deduction collects the coins of a canonical fee one by one, or else changes nothing. -/
theorem collects_deduct {fee : Coins} (hfee : fee.check = .ok ()) :
    Within (Collects collector) (deduct payer collector fee) := by
  intro b
  cases h : deduct payer collector fee b with
  | ok _ b' =>
    obtain ⟨hchecks, rfl⟩ := deduct_eq_ok_iff.1 h
    rw [after_of_ok h]
    exact collects_foldl_move (Coins.check_eq_ok_iff.1 hfee).nodup_denoms
      fun c hc => checkMove_of_forM hchecks hc
  | error e b' =>
    rw [after_of_error h, atomic_deduct payer collector fee b e b' h]

end Tollgate.Bank
