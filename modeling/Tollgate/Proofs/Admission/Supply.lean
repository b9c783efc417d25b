import Tollgate.Proofs.Admission.AroundBank
import Tollgate.Proofs.Admission.Charge
import Tollgate.Proofs.Admission.Replay
import Tollgate.Proofs.Ledger.Supply
/-! Runs of many calls over one bank. Whatever the orders, contexts and outcomes of the calls, all that
happens to the balances is that coins are collected. -/
namespace Tollgate

open Call Relation

variable {σ : Type} {bank : σ → Bank} {collector : Address}

theorem Change.collects {w : Wiring σ} {tx : Transaction} {simulate : Bool} {s : Stage}
    {r t : Run σ} (hw : w.KeepsBank bank) (hrule : w.checkFee = .standard)
    (hcollector : w.accounts.moduleAddress w.feeCollector = collector)
    (hfee : tx.fee.check = .ok ()) (h : Change w tx simulate s r t) :
    ReflTransGen (Bank.Collects collector) (bank r.services) (bank t.services) := by
  rcases h.bank_cases hw with h | ⟨-, -, payer, fee, ⟨c, n, hfound⟩, h⟩
  · rw [h]
  · rw [hrule] at hfound
    obtain ⟨-, rfl, -⟩ := Gate.standard_eq_ok_iff.1 hfound
    rw [h, hcollector]
    exact Bank.collects_deduct hfee _

namespace Attempt

variable {q : Attempt σ} {qs : List (Attempt σ)}

/-- The call charges a canonical fee, as the transaction states it, for this collector and over a bank
in memory. -/
structure ChargesFor (collector : Address) (bank : σ → Bank) (q : Attempt σ) : Prop where
  keepsBank : q.handler.wiring.KeepsBank bank
  rule : q.handler.wiring.checkFee = .standard
  collector : q.handler.wiring.accounts.moduleAddress q.handler.wiring.feeCollector = collector
  fee : q.tx.fee.check = .ok ()

theorem collects (hq : q.ChargesFor collector bank) (s : σ) :
    ReflTransGen (Bank.Collects collector) (bank s) (bank (q.leaves s)) := by
  refine Stage.of_reached
    (P := fun x => ReflTransGen (Bank.Collects collector) (bank s) (bank x.services)) ?_
    (q.reached s) .refl
  intro stage _ x y hc hx
  exact hx.trans (hc.collects hq.keepsBank hq.rule hq.collector hq.fee)

theorem collects_all (hqs : ∀ q ∈ qs, q.ChargesFor collector bank) (s : σ) :
    ReflTransGen (Bank.Collects collector) (bank s) (bank (leavesAll qs s)) := by
  induction qs generalizing s with
  | nil => exact .refl
  | cons q qs ih =>
    have hq := collects (hqs q List.mem_cons_self) s
    exact hq.trans (ih (fun p hp => hqs p (List.mem_cons_of_mem q hp)) (q.leaves s))

/-- The supply over whole runs. Whatever stands beside the bank, and whatever the orders, contexts,
modes and outcomes of the calls, between any two points of a run the balances change by coins that go to
the collector in exact arithmetic. So the supply of every denom stays, and no other address gains. -/
theorem supply_conserved {τ : Type} {qs : List (Attempt (Bank × τ))}
    (hqs : ∀ q ∈ qs, q.tx.fee.check = .ok () ∧
      q.handler.wiring.accounts.moduleAddress q.handler.wiring.feeCollector = collector ∧
      ∃ (o : Options τ) (order : List Stage), o.feeChecker = none ∧
        o.aroundBank.build order = .ok q.handler)
    (s : Bank × τ) : ∀ ps ms rs, qs = ps ++ ms ++ rs →
      (∀ denom, (leavesAll (ps ++ ms) s).1.supply denom = (leavesAll ps s).1.supply denom) ∧
      ReflTransGen (Bank.Collects collector) (leavesAll ps s).1 (leavesAll (ps ++ ms) s).1 ∧
      ∀ a denom, a ≠ collector →
        (leavesAll (ps ++ ms) s).1.balance a denom ≤ (leavesAll ps s).1.balance a denom := by
  intro ps ms rs hsplit
  have hcharges : ∀ q ∈ ms, q.ChargesFor collector Prod.fst := by
    intro q hq
    have hmem : q ∈ qs := by
      rw [hsplit]
      exact List.mem_append_left rs (List.mem_append_right ps hq)
    obtain ⟨hfee, hcollector, o, order, hrule, hb⟩ := hqs q hmem
    obtain ⟨hkeep, hchecker⟩ := Options.wiring?_aroundBank (Options.build_eq_ok hb).1
    rw [hrule, Option.getD_none] at hchecker
    exact ⟨hkeep, hchecker, hcollector, hfee⟩
  have hcollects := collects_all hcharges (leavesAll ps s)
  rw [← leavesAll_append] at hcollects
  exact ⟨Bank.supply_of_collects hcollects, hcollects,
    fun a denom ha => Bank.balance_le_of_collects hcollects ha denom⟩

end Attempt

/-- The stages in some order, over balances with other services in memory beside them. -/
def aroundUnitBank (order : List Stage) : Except BuildError (Handler (Bank × Memory)) :=
  (Options.inMemory ⟨none⟩ .default).aroundBank.build order

theorem charges_of_aroundUnitBank {order : List Stage} {h : Handler (Bank × Memory)}
    (hb : aroundUnitBank order = .ok h) :
    h.wiring.accounts.moduleAddress h.wiring.feeCollector = moduleAddress "fee_collector" ∧
    ∃ (o : Options Memory) (order : List Stage), o.feeChecker = none ∧
      o.aroundBank.build order = .ok h := by
  refine ⟨?_, .inMemory ⟨none⟩ .default, order, rfl, hb⟩
  rw [← Option.some.inj (Options.build_eq_ok hb).1]
  rfl

/-- The fee comes before anything that could refuse the transaction. -/
def feeFirst : List Stage := [.setup, .fee, .signatures]

/-- A transfer that is admitted, the same transfer again, whose fee is charged before its sequence is
refused, and a simulation. -/
def chargingAttempts (h k : Handler (Bank × Memory)) : List (Attempt (Bank × Memory)) :=
  [⟨h, .new "unit" 1 0, signedTransfer 0 none, false⟩,
   ⟨k, .new "unit" 1 0, signedTransfer 0 none, false⟩,
   ⟨h, { Context.new "unit" 2 0 with mode := .recheck }, signedTransfer 1 none, true⟩]

def unitBankServices : Bank × Memory := (unitMemory.bank, unitMemory)

/-- The collector ends with two fees. -/
theorem chargingAttempts_collected :
    ((aroundUnitBank Stage.canonical).toOption.any fun h =>
      (aroundUnitBank feeFirst).toOption.any fun k =>
        decide (((Attempt.leavesAll (chargingAttempts h k) unitBankServices).1.balance
          (moduleAddress "fee_collector") "stake") = .clamp 20)) = true := by decide +kernel

theorem chargingAttempts_conserve : ∃ h k,
    aroundUnitBank Stage.canonical = .ok h ∧ aroundUnitBank feeFirst = .ok k ∧
    (Attempt.leavesAll (chargingAttempts h k) unitBankServices).1.balance
      (moduleAddress "fee_collector") "stake" = .clamp 20 ∧
    ∀ denom, (Attempt.leavesAll (chargingAttempts h k) unitBankServices).1.supply denom =
      unitMemory.bank.supply denom := by
  have hcollected := chargingAttempts_collected
  cases hh : aroundUnitBank Stage.canonical with
  | error e =>
    rw [hh] at hcollected
    cases hcollected
  | ok h =>
    cases hk : aroundUnitBank feeFirst with
    | error e =>
      rw [hh, hk] at hcollected
      cases hcollected
    | ok k =>
      rw [hh, hk] at hcollected
      have hfee (n : UInt64) : (signedTransfer n none).fee.check = .ok () := rfl
      have hqs : ∀ q ∈ chargingAttempts h k, q.tx.fee.check = .ok () ∧
          q.handler.wiring.accounts.moduleAddress q.handler.wiring.feeCollector =
            moduleAddress "fee_collector" ∧
          ∃ (o : Options Memory) (order : List Stage), o.feeChecker = none ∧
            o.aroundBank.build order = .ok q.handler := by
        intro q hq
        simp only [chargingAttempts, List.mem_cons, List.not_mem_nil, or_false] at hq
        rcases hq with rfl | rfl | rfl
        · exact ⟨hfee 0, charges_of_aroundUnitBank hh⟩
        · exact ⟨hfee 0, charges_of_aroundUnitBank hk⟩
        · exact ⟨hfee 1, charges_of_aroundUnitBank hh⟩
      have hrun := Attempt.supply_conserved hqs unitBankServices [] (chargingAttempts h k) []
        (List.append_nil _).symm
      exact ⟨h, k, rfl, rfl, of_decide_eq_true hcollected, hrun.1⟩

end Tollgate
