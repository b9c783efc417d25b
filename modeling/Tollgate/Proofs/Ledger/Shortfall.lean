import Tollgate.Proofs.Ledger.Memory
import Tollgate.Proofs.Ledger.Transfer
/-! The look at the funds and the moving of a fee go over the coins separately. Unless the collector has
no room, both stop at the same coin for the same reason, and what the first look accepts is moved
exactly. -/
namespace Tollgate

namespace Bank

variable {b : Bank} {payer collector : Address} {fee : Coins} {cs : List Coin}

/-- Why an account cannot pay some coins: the first of them that it does not hold. -/
def shortfall? (b : Bank) (payer : Address) (cs : List Coin) : Option FeeLedgerError :=
  (cs.find? fun c => b.balance payer c.denom < c.amount).map fun c =>
    .insufficientFunds c.denom c.amount (b.balance payer c.denom)

theorem shortfall?_cons (c : Coin) (cs : List Coin) :
    b.shortfall? payer (c :: cs) = if b.balance payer c.denom < c.amount then
      some (.insufficientFunds c.denom c.amount (b.balance payer c.denom))
    else b.shortfall? payer cs := by
  unfold shortfall?
  by_cases h : b.balance payer c.denom < c.amount <;> simp [h]

theorem shortfall?_eq_none (h : ∀ c ∈ cs, c.amount ≤ b.balance payer c.denom) :
    b.shortfall? payer cs = none := by
  have hheld : ∀ c ∈ cs, ¬decide (b.balance payer c.denom < c.amount) = true := by
    intro c hc
    rw [decide_eq_true_eq]
    exact Nat.not_lt.2 (h c hc)
  unfold shortfall?
  rw [List.find?_eq_none.2 hheld, Option.map_none]

theorem shortfall?_congr {b' : Bank}
    (h : ∀ denom, b.balance payer denom = b'.balance payer denom) (cs : List Coin) :
    b.shortfall? payer cs = b'.shortfall? payer cs := by
  unfold shortfall?
  simp only [h]

/-- What the collector holds after a fee stays an amount. -/
def HasRoom (collector : Address) (fee : Coins) (b : Bank) : Prop :=
  ∀ denom, (b.balance collector denom).toNat + (fee.amountOf denom).toNat < 2 ^ 128

/-- With room at the collector, only the payer can be in the way. -/
theorem checkMove_of_room {x : Coin}
    (h : (b.balance collector x.denom).toNat + x.amount.toNat < 2 ^ 128) :
    b.checkMove payer collector x = if b.balance payer x.denom < x.amount then
      .error (.insufficientFunds x.denom x.amount (b.balance payer x.denom)) else .ok () := by
  unfold checkMove Amount.add? Amount.ofNat?
  rw [dif_pos h]
  rfl

theorem HasRoom.of_mem (h : b.HasRoom collector fee) (hfee : fee.check = .ok ()) {c : Coin}
    (hc : c ∈ fee.toList) : (b.balance collector c.denom).toNat + c.amount.toNat < 2 ^ 128 := by
  have hroom := h c.denom
  rwa [Coins.amountOf_of_mem (Coins.check_eq_ok_iff.1 hfee).nodup_denoms hc] at hroom

/-- With room at the collector, the checks before the first move find the first shortfall. -/
theorem forM_checkMove_of_room
    (h : ∀ c ∈ cs, (b.balance collector c.denom).toNat + c.amount.toNat < 2 ^ 128) :
    cs.forM (b.checkMove payer collector) =
      match b.shortfall? payer cs with
      | some e => .error e
      | none => .ok () := by
  induction cs with
  | nil => rfl
  | cons c cs ih =>
    obtain ⟨hc, hcs⟩ := List.forall_mem_cons.1 h
    rw [List.forM_eq_forM, List.forM_cons, checkMove_of_room hc, shortfall?_cons]
    by_cases hshort : b.balance payer c.denom < c.amount
    · rw [if_pos hshort, if_pos hshort]
      rfl
    · rw [if_neg hshort, if_neg hshort]
      exact ih hcs

theorem deduct_of_room (hfee : fee.check = .ok ()) (h : b.HasRoom collector fee) :
    deduct payer collector fee b =
      match b.shortfall? payer fee.toList with
      | some e => .error e b
      | none => .ok () (fee.toList.foldl (fun b c => b.move payer collector c) b) := by
  unfold deduct
  rw [forM_checkMove_of_room fun c hc => h.of_mem hfee hc]
  cases b.shortfall? payer fee.toList <;> rfl

theorem hasRoom_of_deduct {b' : Bank} (h : deduct payer collector fee b = .ok () b') :
    b.HasRoom collector fee := by
  have hchecks := (deduct_eq_ok_iff.1 h).1
  intro denom
  rcases fee.amountOf_eq_zero_or denom with hzero | ⟨c, hc, rfl, hamount⟩
  · rw [hzero]
    exact (b.balance collector denom).toNat_lt
  · rw [hamount]
    exact (checkMove_eq_ok_iff.1 (checkMove_of_forM hchecks hc)).2

theorem exists_deduct_iff (hfee : fee.check = .ok ()) :
    (∃ b', deduct payer collector fee b = .ok () b') ↔
      b.shortfall? payer fee.toList = none ∧ b.HasRoom collector fee := by
  constructor
  · rintro ⟨b', h⟩
    have hroom := hasRoom_of_deduct h
    rw [deduct_of_room hfee hroom] at h
    cases hshort : b.shortfall? payer fee.toList with
    | none => exact ⟨rfl, hroom⟩
    | some e =>
      rw [hshort] at h
      cases h
  · rintro ⟨hheld, hroom⟩
    rw [deduct_of_room hfee hroom, hheld]
    exact ⟨_, rfl⟩

end Bank

namespace Memory

variable {s : Memory} {payer collector : Address} {fee : Coins}

/-- The look at the funds finds the first shortfall. -/
theorem ensureSpendableCoins_eq (s : Memory) (payer : Address) (cs : List Coin) :
    feeLedger.ensureSpendableCoins payer cs s =
      match s.bank.shortfall? payer cs with
      | some e => .error e s
      | none => .ok () s := by
  induction cs with
  | nil => rfl
  | cons c cs ih =>
    have hlook : (feeLedger.spendable payer c.denom).mapError
        (fun e => FeeLedgerError.store e.message) s = .ok (s.bank.balance payer c.denom) s := rfl
    rw [FeeLedger.ensureSpendableCoins, Call.bind_of_ok hlook, Bank.shortfall?_cons]
    by_cases hshort : s.bank.balance payer c.denom < c.amount
    · rw [if_pos hshort, if_pos hshort]
      rfl
    · rw [if_neg hshort, if_neg hshort]
      exact ih

/-- Who can be charged a fee could pay it. -/
theorem ensureSpendable_of_deduct {s : Memory} {payer collector : Address} {fee : Coins} {b : Bank}
    (h : Bank.deduct payer collector fee s.bank = .ok () b) :
    feeLedger.ensureSpendable payer fee s = .ok () s := by
  have hchecks := (Bank.deduct_eq_ok_iff.1 h).1
  unfold FeeLedger.ensureSpendable
  rw [ensureSpendableCoins_eq, Bank.shortfall?_eq_none fun c hc =>
    (Bank.checkMove_eq_ok_iff.1 (Bank.checkMove_of_forM hchecks hc)).1]

/-- A fee can be moved exactly if the payer could pay it and the collector has room for it; with room,
a payer who could not is refused for the first coin of the look. A refusal moves nothing. A success
takes the fee of every denom from the payer to the collector, which is nothing at all if they are one,
and leaves all other balances. -/
theorem deduct_follows_spendable (hfee : fee.check = .ok ()) (s : Memory)
    (payer collector : Address) :
    ((∃ t, feeLedger.deduct payer collector fee s = .ok () t) ↔
      feeLedger.ensureSpendable payer fee s = .ok () s ∧ s.bank.HasRoom collector fee) ∧
    (s.bank.HasRoom collector fee → ∀ e t, feeLedger.ensureSpendable payer fee s = .error e t →
      s.bank.shortfall? payer fee.toList = some e ∧
      feeLedger.deduct payer collector fee s = .error e s) ∧
    (∀ e t, feeLedger.deduct payer collector fee s = .error e t → t = s) ∧
    ∀ t, feeLedger.deduct payer collector fee s = .ok () t →
      (payer ≠ collector → ∀ denom,
        (t.bank.balance payer denom).toNat + (fee.amountOf denom).toNat =
          (s.bank.balance payer denom).toNat ∧
        (t.bank.balance collector denom).toNat =
          (s.bank.balance collector denom).toNat + (fee.amountOf denom).toNat ∧
        ∀ a, a ≠ payer → a ≠ collector → t.bank.balance a denom = s.bank.balance a denom) ∧
      (payer = collector → ∀ a denom, t.bank.balance a denom = s.bank.balance a denom) := by
  have hspend : feeLedger.ensureSpendable payer fee s = _ := ensureSpendableCoins_eq s payer fee.toList
  refine ⟨?_, fun hroom e t he => ?_, atomic_onBank (Bank.atomic_deduct payer collector fee) s,
    fun t ht => ?_⟩
  · rw [hspend]
    constructor
    · rintro ⟨t, ht⟩
      obtain ⟨b, hb, -⟩ := onBank_eq_ok_iff.1 ht
      obtain ⟨hheld, hroom⟩ := (Bank.exists_deduct_iff hfee).1 ⟨b, hb⟩
      rw [hheld]
      exact ⟨rfl, hroom⟩
    · rintro ⟨hheld, hroom⟩
      cases hshort : s.bank.shortfall? payer fee.toList with
      | some e =>
        rw [hshort] at hheld
        cases hheld
      | none =>
        obtain ⟨b, hb⟩ := (Bank.exists_deduct_iff hfee).2 ⟨hshort, hroom⟩
        exact ⟨_, onBank_eq_ok_iff.2 ⟨b, hb, rfl⟩⟩
  · rw [hspend] at he
    cases hshort : s.bank.shortfall? payer fee.toList with
    | none =>
      rw [hshort] at he
      cases he
    | some x =>
      rw [hshort] at he
      obtain ⟨rfl, rfl⟩ := EStateM.Result.error.inj he
      have hstop : Bank.deduct payer collector fee s.bank = _ := Bank.deduct_of_room hfee hroom
      rw [hshort] at hstop
      exact ⟨rfl, onBank_eq_error_iff.2 ⟨s.bank, hstop, rfl⟩⟩
  · obtain ⟨b, hb, rfl⟩ := onBank_eq_ok_iff.1 ht
    have hmoved : s.bank.Transfers payer collector fee b := Bank.balance_deduct hfee hb
    refine ⟨fun hne denom => ⟨hmoved.balance_source hne denom, hmoved.balance_collector hne denom,
      fun a hp hc => hmoved.balance_of_ne hp.symm hc.symm denom⟩, ?_⟩
    rintro rfl
    exact hmoved.balance_self

/-- A payer with 100 atom and 5 stake: 10 stake are refused before the 50 atom are taken, 3 stake are
paid. -/
theorem deduct_refused_for_stake :
    let payer : Address := .replicate 20 1
    let collector : Address := .replicate 20 2
    let s : Memory := { new .default with
      bank := (Bank.new.setBalance payer "atom" (.clamp 100)).setBalance payer "stake" (.clamp 5) }
    let fee (stake : Nat) : Coins := ⟨[⟨"atom", .clamp 50⟩, ⟨"stake", .clamp stake⟩]⟩
    feeLedger.deduct payer collector (fee 10) s =
        .error (.insufficientFunds "stake" (.clamp 10) (.clamp 5)) s ∧
      ∃ t, feeLedger.deduct payer collector (fee 3) s = .ok () t ∧
        (t.bank.balance payer "stake").toNat + 3 = 5 := by
  intro payer collector s fee
  have hne : payer ≠ collector := by decide
  have hempty (denom : String) : s.bank.balance collector denom = .zero := by
    have hstake := Bank.balance_setBalance (Bank.new.setBalance payer "atom" (.clamp 100)) payer
      collector ⟨"stake", .zero⟩ denom (.clamp 5)
    have hatom := Bank.balance_setBalance .new payer collector ⟨"atom", .zero⟩ denom (.clamp 100)
    rw [if_neg fun h => hne h.1] at hstake hatom
    exact hstake.trans hatom
  have hroom (stake : Nat) : s.bank.HasRoom collector (fee stake) := by
    intro denom
    rw [hempty, Amount.toNat_zero, Nat.zero_add]
    exact Amount.toNat_lt _
  have hten : (fee 10).check = .ok () := rfl
  have hthree : (fee 3).check = .ok () := rfl
  have hrefused := deduct_follows_spendable hten s payer collector
  have hpaid := deduct_follows_spendable hthree s payer collector
  refine ⟨(hrefused.2.1 (hroom 10) _ _ rfl).2, ?_⟩
  obtain ⟨t, ht⟩ := hpaid.1.2 ⟨rfl, hroom 3⟩
  exact ⟨t, ht, ((hpaid.2.2.2 t ht).1 hne "stake").1⟩

end Memory
end Tollgate
