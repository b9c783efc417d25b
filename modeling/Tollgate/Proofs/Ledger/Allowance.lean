import Tollgate.Ledger.Allowances
import Tollgate.Proofs.Coin.Canonical
import Tollgate.Proofs.Ledger.Outcome
/-! Allowances after a fee was taken off: the limit is lower by the fee in every denom, what is used
up is removed, and no other allowance changes. -/
namespace Tollgate

namespace Allowance

variable {limit fee : Coins}

theorem checkCoins_eq_ok_iff {cs : List Coin} :
    checkCoins limit cs = .ok () ↔ ∀ c ∈ cs, c.amount ≤ limit.amountOf c.denom := by
  induction cs with
  | nil => simp [checkCoins]
  | cons c cs ih =>
    simp only [checkCoins, List.mem_cons, forall_eq_or_imp]
    by_cases h : limit.amountOf c.denom < c.amount
    · have hn : ¬c.amount ≤ limit.amountOf c.denom := Nat.not_le.2 h
      simp [h, hn]
    · have hle : c.amount ≤ limit.amountOf c.denom := Nat.le_of_not_lt h
      simp [h, hle, ih]

/-- A limit that covers every coin of a fee covers it in every denom. -/
theorem amountOf_le_of_check (h : check ⟨some limit⟩ fee = .ok ()) (denom : String) :
    (fee.amountOf denom).toNat ≤ (limit.amountOf denom).toNat := by
  rcases fee.amountOf_eq_zero_or denom with hzero | ⟨c, hc, rfl, hamount⟩
  · simp [hzero]
  · rw [hamount]
    exact checkCoins_eq_ok_iff.1 h c hc

theorem remainder_cons {c : Coin} {cs : List Coin} : remainder ⟨c :: cs⟩ fee =
    if c.amount.toNat - (fee.amountOf c.denom).toNat = 0 then remainder ⟨cs⟩ fee
    else ⟨c.denom, c.amount.subSat (fee.amountOf c.denom)⟩ :: remainder ⟨cs⟩ fee := by
  unfold remainder Coin.isZero Amount.isZero
  rw [List.map_cons, List.filter_cons]
  by_cases h : c.amount.toNat - (fee.amountOf c.denom).toNat = 0 <;> simp [h]

theorem denom_of_mem_remainder {c : Coin} {cs : List Coin} (h : c ∈ remainder ⟨cs⟩ fee) :
    ∃ d ∈ cs, d.denom = c.denom := by
  obtain ⟨d, hd, rfl⟩ := List.mem_map.1 (List.mem_filter.1 h).1
  exact ⟨d, hd, rfl⟩

theorem canonical_remainder (h : Coins.Canonical limit.toList) :
    Coins.Canonical (remainder limit fee) := by
  constructor
  · intro c hc
    obtain ⟨d, hd, he⟩ := denom_of_mem_remainder hc
    exact he ▸ h.valid d hd
  · intro c hc
    have hpos := (List.mem_filter.1 hc).2
    unfold Coin.isZero Amount.isZero at hpos
    simp at hpos
    omega
  · refine List.Pairwise.filter _ ?_
    rw [List.pairwise_map]
    exact h.ascending

theorem amountOf_remainder {cs : List Coin} (h : (cs.map Coin.denom).Nodup) (denom : String) :
    ((⟨remainder ⟨cs⟩ fee⟩ : Coins).amountOf denom).toNat =
      ((⟨cs⟩ : Coins).amountOf denom).toNat - (fee.amountOf denom).toNat := by
  induction cs with
  | nil => simp [remainder, Coins.amountOf]
  | cons c cs ih =>
    rw [List.map_cons, List.nodup_cons] at h
    rw [remainder_cons, Coins.amountOf_cons]
    by_cases hd : c.denom = denom
    · subst hd
      by_cases hused : c.amount.toNat - (fee.amountOf c.denom).toNat = 0
      · have hzero : (⟨remainder ⟨cs⟩ fee⟩ : Coins).amountOf c.denom = .zero := by
          refine Coins.amountOf_eq_zero fun x hx he => h.1 ?_
          obtain ⟨d, hd, hx⟩ := denom_of_mem_remainder hx
          rw [← he, ← hx]
          exact List.mem_map_of_mem hd
        simp [hused, hzero]
      · simp [hused, Coins.amountOf_cons]
    · by_cases hused : c.amount.toNat - (fee.amountOf c.denom).toNat = 0 <;>
        simp [hused, hd, Coins.amountOf_cons, ih h.2]

end Allowance

namespace Allowances

variable {g g' : Allowances} {granter grantee : Address} {fee : Coins}

/-- Every limit is a canonical coin set. -/
def Sound (g : Allowances) : Prop :=
  ∀ granter grantee limit, g.find? granter grantee = some ⟨some limit⟩ → limit.check = .ok ()

theorem find?_put (x y : Address) (left : Option Allowance) :
    (g.put granter grantee left).find? x y =
      if granter = x ∧ grantee = y then left else g.find? x y := by
  cases left <;> simp [put, revoke, find?, Table.find?_insert, Table.find?_erase]

theorem sound_new : Sound new := fun _ _ _ h => nomatch h

theorem Sound.grant (hg : g.Sound) {limit? : Option Coins}
    (hl : ∀ limit ∈ limit?, limit.check = .ok ()) : (g.grant granter grantee limit?).Sound := by
  intro x y limit hfind
  rw [find?, Allowances.grant, Table.find?_insert] at hfind
  by_cases hxy : (granter, grantee) = (x, y)
  · rw [if_pos hxy, Option.some.injEq, Allowance.mk.injEq] at hfind
    exact hl limit hfind
  · rw [if_neg hxy] at hfind
    exact hg x y limit hfind

theorem check_eq_ok_iff : check granter grantee fee g = .ok () g' ↔
    (∃ a, g.find? granter grantee = some a ∧ a.check fee = .ok ()) ∧ g = g' := by
  unfold check
  cases g.find? granter grantee with
  | none => simp
  | some a => cases ha : a.check fee <;> simp [ha]

theorem spend_eq_ok_iff : spend granter grantee fee g = .ok () g' ↔
    ∃ a left, g.find? granter grantee = some a ∧ a.check fee = .ok () ∧ a.spend fee = .ok left ∧
      g' = g.put granter grantee left := by
  unfold spend
  cases g.find? granter grantee with
  | none => simp
  | some a =>
    cases ha : a.check fee with
    | error e => simp [ha]
    | ok u => cases hs : a.spend fee <;> simp [ha, hs, eq_comm]

/-- An allowance that does not cover the fee is left as it is. -/
theorem atomic_spend (granter grantee : Address) (fee : Coins) :
    Call.Atomic (spend granter grantee fee) := by
  intro g e t h
  unfold spend at h
  cases hfind : g.find? granter grantee with
  | none =>
    rw [hfind] at h
    exact (EStateM.Result.error.inj h).2.symm
  | some a =>
    rw [hfind] at h
    dsimp only at h
    split at h
    · exact (EStateM.Result.error.inj h).2.symm
    · exact (EStateM.Result.error.inj h).2.symm
    · cases h

/-- Who may spend an allowance would have passed the check for it. -/
theorem check_of_spend (h : spend granter grantee fee g = .ok () g') :
    check granter grantee fee g = .ok () g := by
  obtain ⟨a, left, ha, hcheck, -⟩ := spend_eq_ok_iff.1 h
  exact check_eq_ok_iff.2 ⟨⟨a, ha, hcheck⟩, rfl⟩

/-- The allowance of one pair was charged a fee: it has no limit, or the limit is lower by the fee
and the allowance is gone if nothing is left. -/
structure Charged (g g' : Allowances) (granter grantee : Address) (fee : Coins) : Prop where
  other : ∀ x y, ¬(granter = x ∧ grantee = y) → g'.find? x y = g.find? x y
  own : (g.find? granter grantee = some ⟨none⟩ ∧ g'.find? granter grantee = some ⟨none⟩) ∨
    ∃ limit left, g.find? granter grantee = some ⟨some limit⟩ ∧ left.check = .ok () ∧
      (∀ denom, (left.amountOf denom).toNat + (fee.amountOf denom).toNat =
        (limit.amountOf denom).toNat) ∧
      g'.find? granter grantee = if left.isEmpty then none else some ⟨some left⟩

/-- Spending charges the allowance, if its limit is a canonical coin set. -/
theorem charged_of_spend (hown : ∀ limit, g.find? granter grantee = some ⟨some limit⟩ →
    limit.check = .ok ()) (h : spend granter grantee fee g = .ok () g') :
    g.Charged g' granter grantee fee := by
  obtain ⟨⟨limit?⟩, left, hfind, hcheck, hspend, rfl⟩ := spend_eq_ok_iff.1 h
  have hput : (g.put granter grantee left).find? granter grantee = left := by simp [find?_put]
  refine ⟨fun x y hxy => by rw [find?_put, if_neg hxy], ?_⟩
  rw [hput]
  cases limit? with
  | none =>
    obtain rfl := Except.ok.inj hspend
    exact .inl ⟨hfind, rfl⟩
  | some limit =>
    have hlimit := Coins.check_eq_ok_iff.1 (hown limit hfind)
    have hrest : Coins.Canonical (Allowance.remainder limit fee) :=
      Allowance.canonical_remainder hlimit
    simp only [Allowance.spend, Coins.ofList_of_canonical hrest] at hspend
    refine .inr ⟨limit, ⟨Allowance.remainder limit fee⟩, hfind, Coins.check_eq_ok_iff.2 hrest,
      fun denom => ?_, (Except.ok.inj hspend).symm⟩
    have hcovers := Allowance.amountOf_le_of_check hcheck denom
    have hamount : ((⟨Allowance.remainder limit fee⟩ : Coins).amountOf denom).toNat =
        (limit.amountOf denom).toNat - (fee.amountOf denom).toNat :=
      Allowance.amountOf_remainder hlimit.nodup_denoms denom
    omega

theorem Sound.charged_of_spend (hg : g.Sound) (h : spend granter grantee fee g = .ok () g') :
    g.Charged g' granter grantee fee := Allowances.charged_of_spend (hg granter grantee) h

/-- So much of every denom was used of an allowance with this limit: the rest of it is a canonical coin
set, and the allowance is gone if nothing is left. -/
def Left (g : Allowances) (granter grantee : Address) (limit : Coins) (used : String → Nat) :
    Prop :=
  ∃ left : Coins, left.check = .ok () ∧
    (∀ denom, (left.amountOf denom).toNat + used denom = (limit.amountOf denom).toNat) ∧
    g.find? granter grantee = if left.isEmpty then none else some ⟨some left⟩

namespace Left

variable {limit : Coins} {used : String → Nat}

theorem start (hlimit : limit.check = .ok ()) (hempty : limit.isEmpty = false)
    (h : g.find? granter grantee = some ⟨some limit⟩) :
    g.Left granter grantee limit fun _ => 0 := by
  refine ⟨limit, hlimit, fun _ => rfl, ?_⟩
  rw [hempty]
  exact h

theorem used_le (h : g.Left granter grantee limit used) (denom : String) :
    used denom ≤ (limit.amountOf denom).toNat := by
  obtain ⟨left, -, hsum, -⟩ := h
  exact (hsum denom) ▸ Nat.le_add_left _ _

theorem congr (h : g.Left granter grantee limit used)
    (hfind : g'.find? granter grantee = g.find? granter grantee) :
    g'.Left granter grantee limit used := by
  obtain ⟨left, hcheck, hsum, hleft⟩ := h
  exact ⟨left, hcheck, hsum, hfind.trans hleft⟩

/-- A fee that is spent is used. -/
theorem spend (h : g.Left granter grantee limit used)
    (hspend : spend granter grantee fee g = .ok () g') :
    g'.Left granter grantee limit fun denom => used denom + (fee.amountOf denom).toNat := by
  obtain ⟨left, hcheck, hsum, hfind⟩ := h
  obtain ⟨a, -, ha, -⟩ := spend_eq_ok_iff.1 hspend
  have hown : g.find? granter grantee = some ⟨some left⟩ := by
    split at hfind
    · rw [hfind] at ha
      cases ha
    · exact hfind
  have hcharged := charged_of_spend (g := g) (fun limit' hlimit' => ?_) hspend
  · rcases hcharged.own with ⟨hnone, -⟩ | ⟨limit', rest, hlimit', hrest, hlower, hleft⟩
    · rw [hown] at hnone
      cases hnone
    · rw [hown] at hlimit'
      obtain rfl := Option.some.inj (Allowance.mk.inj (Option.some.inj hlimit'))
      refine ⟨rest, hrest, fun denom => ?_, hleft⟩
      have hbefore := hsum denom
      have hafter := hlower denom
      dsimp only
      omega
  · rw [hown] at hlimit'
    obtain rfl := Option.some.inj (Allowance.mk.inj (Option.some.inj hlimit'))
    exact hcheck

end Left

end Allowances
end Tollgate
