import Tollgate.Proofs.Admission.Arrival
import Tollgate.Proofs.Admission.Effect
import Tollgate.Proofs.Admission.Failure
import Tollgate.Proofs.Admission.Replay
/-! Runs of many calls that draw on one allowance. Every call that finds its charge uses the allowance
by its whole fee, whether the fee can be moved afterwards or not, and nothing else uses it. -/
namespace Tollgate

open Call Relation

theorem Transaction.feeGranter_of_feeSource_ne {tx : Transaction} {payer : Address}
    (h : tx.feeSource payer ≠ payer) : tx.feeGranter = some (tx.feeSource payer) := by
  unfold feeSource at h ⊢
  cases hg : tx.feeGranter with
  | none =>
    rw [hg] at h
    exact absurd rfl h
  | some granter => rfl

namespace Attempt

variable {σ : Type}

/-- The run with which the stage of the fee starts, if the call comes to it. -/
def atFee? (q : Attempt σ) (s : σ) : Option (Run σ) :=
  Stage.arrival? q.handler.wiring q.tx q.simulate .fee q.handler.order.stages ⟨q.context, s⟩

/-- The call finds whom to charge, with the allowance that this takes. -/
def draws (q : Attempt σ) (s : σ) : Bool :=
  (q.atFee? s).any fun u => succeeds (Gate.findCharge q.handler.wiring q.tx) u

/-- The call moves its fee. -/
def pays (q : Attempt σ) (s : σ) : Bool :=
  (q.atFee? s).any fun u => succeeds (Gate.chargeFee q.handler.wiring q.tx false) u

/-- The transaction names this granter and this payer. -/
def Names (q : Attempt σ) (granter grantee : Address) : Prop :=
  q.tx.feeGranter = some granter ∧ q.tx.feePayer = some grantee

instance (q : Attempt σ) (granter grantee : Address) : Decidable (q.Names granter grantee) :=
  inferInstanceAs (Decidable (_ ∧ _))

/-- What the call uses of an allowance. -/
def drawn (granter grantee : Address) (denom : String) (q : Attempt σ) (s : σ) : Nat :=
  if q.Names granter grantee ∧ q.draws s = true then (q.tx.fee.amountOf denom).toNat else 0

/-- What the call takes from the granter in the name of the grantee. -/
def debited (granter grantee : Address) (denom : String) (q : Attempt σ) (s : σ) : Nat :=
  if q.Names granter grantee ∧ q.pays s = true then (q.tx.fee.amountOf denom).toNat else 0

/-- A measure of single calls, summed over calls that come one after the other. -/
def total (f : Attempt σ → σ → Nat) : List (Attempt σ) → σ → Nat
  | [], _ => 0
  | q :: qs, s => f q s + total f qs (q.leaves s)

/-- The call works on services in memory, outside simulation, and charges a canonical fee as it is
stated. -/
structure Charges (tuning : Tuning) (q : Attempt Memory) : Prop where
  wiring : q.handler.wiring = tuning.wiring
  rule : tuning.feeChecker = none
  simulate : q.simulate = false
  fee : q.tx.fee.check = .ok ()

variable {tuning : Tuning} {q : Attempt Memory} {s : Memory} {granter grantee : Address}

/-- A call leaves balances and allowances, or uses an allowance for its charge and then moves the fee
if it can. -/
theorem purses_cases (hq : q.Charges tuning) (s : Memory) :
    (q.draws s = false ∧ q.pays s = false ∧ (q.leaves s).bank = s.bank ∧
      (q.leaves s).allowances = s.allowances) ∨
    (q.draws s = true ∧ ∃ u payer, u.services.bank = s.bank ∧
      u.services.allowances = s.allowances ∧
      tuning.Draws q.tx u payer (q.leaves s).allowances ∧
      ((q.pays s = false ∧ (q.leaves s).bank = s.bank) ∨ (q.pays s = true ∧
        tuning.Pays q.tx u.services payer (q.leaves s).allowances (q.leaves s).bank))) := by
  obtain ⟨⟨w, order⟩, context, tx, simulate⟩ := q
  obtain ⟨rfl, hrule, rfl, -⟩ := hq
  have hothers : .fee ∉ Stage.others .fee := fun hm => Stage.mem_others.1 hm rfl
  unfold draws pays leaves Handler.handle
  cases hfee : atFee? ⟨⟨tuning.wiring, order⟩, context, tx, false⟩ s with
  | none =>
    -- all that ran are other stages, and none of them touches a purse
    have hend := Stage.reached_of_arrival?_eq_none hfee
    exact .inl ⟨rfl, rfl, Stage.purses_of_reached hothers hend⟩
  | some u =>
    obtain ⟨hreached, -⟩ := Stage.of_arrival? hfee
    obtain ⟨hbank, hallowances⟩ := Stage.purses_of_reached hothers hreached
    rw [Option.any_some, Option.any_some]
    cases hcharge : Gate.chargeFee tuning.wiring tx false u with
    | error cause t =>
      have hend := Stage.runAll_of_arrival?_of_error hfee
        (Stage.proceeding_eq_error_iff.2 hcharge)
      rw [succeeds_of_error hcharge, after_of_error hend]
      rcases Gate.chargeFee_false_eq_error hrule hcharge with
        ⟨hfind, rfl⟩ | ⟨payer, g, hdraws, rfl⟩
      · exact .inl ⟨succeeds_of_error hfind, rfl, hbank, hallowances⟩
      · -- the allowance is used, and the account that is charged cannot pay
        have hfind := (Gate.findCharge_eq_ok_iff hrule).2 ⟨payer, g, hdraws, rfl, rfl⟩
        exact .inr ⟨succeeds_of_ok hfind, u, payer, hbank, hallowances, hdraws,
          .inl ⟨rfl, hbank⟩⟩
    | ok _ v =>
      have hend := Stage.reached_of_arrival?_of_ok order.nodup hfee
        (Stage.proceeding_eq_ok_iff.2 ⟨rfl, hcharge⟩)
      obtain ⟨hlaterBank, hlater⟩ := Stage.purses_of_reached hothers hend
      obtain ⟨hgas, hfloor, payer, g, b, hpays, rfl⟩ :=
        (Gate.chargeFee_false_eq_ok_iff hrule).1 hcharge
      have hdraws : tuning.Draws tx u payer g :=
        ⟨hgas, hfloor, hpays.collector, hpays.charged, hpays.granted⟩
      have hfind := (Gate.findCharge_eq_ok_iff hrule).2 ⟨payer, g, hdraws, rfl, rfl⟩
      rw [succeeds_of_ok hcharge, hlater, hlaterBank]
      exact .inr ⟨succeeds_of_ok hfind, u, payer, hbank, hallowances, hdraws, .inr ⟨rfl, hpays⟩⟩

/-- A call that does not find its charge leaves balances and allowances. -/
theorem purses_of_not_draws (hq : q.Charges tuning) (h : q.draws s = false) :
    q.pays s = false ∧ (q.leaves s).bank = s.bank ∧ (q.leaves s).allowances = s.allowances := by
  rcases purses_cases hq s with ⟨-, hpays, hbank, hallowances⟩ | ⟨hdraws, -⟩
  · exact ⟨hpays, hbank, hallowances⟩
  · rw [h] at hdraws
    cases hdraws

theorem debited_le_drawn (hq : q.Charges tuning) (denom : String) :
    q.debited granter grantee denom s ≤ q.drawn granter grantee denom s := by
  unfold debited drawn
  by_cases hdraws : q.draws s = true
  · split
    · next h => exact Nat.le_of_eq (if_pos ⟨h.1, hdraws⟩).symm
    · exact Nat.zero_le _
  · rw [(purses_of_not_draws hq (by simpa using hdraws)).1]
    simp

theorem feeSource_of_names {payer : Address} (hp : q.tx.feePayer = some payer)
    (h : q.Names granter grantee) : q.tx.feeSource payer = granter ∧ payer = grantee := by
  obtain ⟨hg, he⟩ := h
  rw [Transaction.feeSource, hg]
  exact ⟨rfl, Option.some.inj (hp.symm.trans he)⟩

/-- Who is charged for another payer has the allowance used. -/
theorem spend_of_draws (hq : q.Charges tuning) (hne : granter ≠ grantee)
    (hn : q.Names granter grantee) (h : q.draws s = true) :
    Allowances.spend granter grantee q.tx.fee s.allowances = .ok () (q.leaves s).allowances := by
  rcases purses_cases hq s with ⟨hnone, -⟩ | ⟨-, u, payer, -, hu, hdraws, -⟩
  · rw [h] at hnone
    cases hnone
  · obtain ⟨hsource, rfl⟩ := feeSource_of_names hdraws.charged hn
    rcases hdraws.granted with ⟨hown, -⟩ | ⟨-, -, hspend⟩
    · exact absurd (hsource.symm.trans hown) hne
    · rwa [hsource, hu] at hspend

/-- A call changes no allowance but the one between the granter and the payer it names. -/
theorem find?_of_not_names (hq : q.Charges tuning) (h : ¬q.Names granter grantee) :
    (q.leaves s).allowances.find? granter grantee = s.allowances.find? granter grantee := by
  rcases purses_cases hq s with ⟨-, -, -, hsame⟩ | ⟨-, u, payer, -, hu, hdraws, -⟩
  · rw [hsame]
  · rw [← hu]
    rcases hdraws.granted with ⟨-, hsame⟩ | ⟨hne, -, hspend⟩
    · rw [hsame]
    · have hother : ¬(q.tx.feeSource payer = granter ∧ payer = grantee) := by
        rintro ⟨rfl, rfl⟩
        exact h ⟨Transaction.feeGranter_of_feeSource_ne hne, hdraws.charged⟩
      obtain ⟨a, left, -, -, -, hput⟩ := Allowances.spend_eq_ok_iff.1 hspend
      rw [hput, Allowances.find?_put, if_neg hother]

/-- What is left of an allowance is lower by what the call uses of it. -/
theorem left_of_leaves (hq : q.Charges tuning) (hne : granter ≠ grantee) {limit : Coins}
    {used : String → Nat} (h : s.allowances.Left granter grantee limit used) :
    (q.leaves s).allowances.Left granter grantee limit
      fun denom => used denom + q.drawn granter grantee denom s := by
  by_cases hn : q.Names granter grantee
  · cases hdraws : q.draws s with
    | false =>
      simp only [drawn, hdraws, Bool.false_eq_true, and_false, if_false, Nat.add_zero]
      rw [(purses_of_not_draws hq hdraws).2.2]
      exact h
    | true =>
      simp only [drawn, hn, hdraws, and_self, if_true]
      exact h.spend (spend_of_draws hq hne hn hdraws)
  · simp only [drawn, hn, false_and, if_false, Nat.add_zero]
    exact h.congr (find?_of_not_names hq hn)

/-- The fee of a call that names the granter leaves the granter's account, as far as it is moved. -/
theorem balance_of_names (hq : q.Charges tuning) (hn : q.Names granter grantee) (denom : String) :
    ((q.leaves s).bank.balance granter denom).toNat + q.debited granter grantee denom s =
      (s.bank.balance granter denom).toNat +
        (if q.handler.wiring.accounts.moduleAddress q.handler.wiring.feeCollector = granter then
          q.debited granter grantee denom s else 0) := by
  have hunpaid (hpays : q.pays s = false) : q.debited granter grantee denom s = 0 := by
    simp [debited, hpays]
  rcases purses_cases hq s with ⟨-, hpays, hbank, -⟩ |
    ⟨-, u, payer, hu, -, hdraws, ⟨hpays, hbank⟩ | ⟨hpays, hpaid⟩⟩
  · rw [hbank, hunpaid hpays, ite_self]
  · rw [hbank, hunpaid hpays, ite_self]
  · obtain ⟨hsource, rfl⟩ := feeSource_of_names hdraws.charged hn
    have hmoved := hpaid.balance hq.fee granter denom
    rw [hu, hsource, if_pos rfl] at hmoved
    simp only [debited, hn, hpays, and_self, if_true, hq.wiring]
    exact hmoved

section Absent

variable (hq : q.Charges tuning) (hne : granter ≠ grantee)
  (h : s.allowances.find? granter grantee = none)

include hq hne h

theorem not_draws_of_absent (hn : q.Names granter grantee) : q.draws s = false := by
  refine Bool.eq_false_iff.2 fun hdraws => ?_
  obtain ⟨a, -, hfind, -⟩ := Allowances.spend_eq_ok_iff.1 (spend_of_draws hq hne hn hdraws)
  rw [h] at hfind
  cases hfind

theorem absent_of_leaves : (q.leaves s).allowances.find? granter grantee = none := by
  by_cases hn : q.Names granter grantee
  · rw [(purses_of_not_draws hq (not_draws_of_absent hq hne h hn)).2.2]
    exact h
  · rw [find?_of_not_names hq hn]
    exact h

end Absent

/-- The call uses no allowance and moves no fee. If it comes to the stage of the fee it fails there, for
the want of an allowance unless that stage already refuses the gas, the price or the collector. -/
structure Denied (granter grantee : Address) (q : Attempt Memory) (s : Memory) : Prop where
  draws : q.draws s = false
  pays : q.pays s = false
  refused : ∀ u, q.atFee? s = some u → ∃ cause t, q.result s = .error ⟨.fee, cause⟩ t ∧
    ((u.context.isGenesis = true ∨ q.tx.gasLimit ≠ 0) →
      FeeChecker.floor u.context q.tx = .ok () →
      (u.services.accounts.find? (q.handler.wiring.accounts.moduleAddress
        q.handler.wiring.feeCollector)).isSome = true →
      ∃ denial, cause = .feeGrantDenied granter grantee denial)

theorem denied_of_absent (hq : q.Charges tuning) (hne : granter ≠ grantee)
    (h : s.allowances.find? granter grantee = none) (hn : q.Names granter grantee) :
    q.Denied granter grantee s := by
  have hdraws := not_draws_of_absent hq hne h hn
  have hpays := (purses_of_not_draws hq hdraws).1
  refine ⟨hdraws, hpays, fun u hu => ?_⟩
  have hallowances : u.services.allowances = s.allowances := by
    have hreached := (Stage.of_arrival? hu).1
    rw [hq.wiring] at hreached
    exact (Stage.purses_of_reached (fun hm => Stage.mem_others.1 hm rfl) hreached).2
  obtain ⟨⟨w, order⟩, context, tx, simulate⟩ := q
  obtain ⟨rfl, hrule, rfl, -⟩ := hq
  have hcharge : succeeds (Gate.chargeFee tuning.wiring tx false) u = false := by
    simpa [pays, hu] using hpays
  have hfind : succeeds (Gate.findCharge tuning.wiring tx) u = false := by
    simpa [draws, hu] using hdraws
  cases hrun : Gate.chargeFee tuning.wiring tx false u with
  | ok x v =>
    rw [succeeds_of_ok hrun] at hcharge
    cases hcharge
  | error cause t =>
    refine ⟨cause, t, Stage.runAll_of_arrival?_of_error hu
      (Stage.proceeding_eq_error_iff.2 hrun), fun hgas hfloor hcollector => ?_⟩
    rcases Gate.chargeFee_false_eq_error hrule hrun with ⟨hcause, -⟩ | ⟨payer, g, hcharged, -⟩
    · have hsource : tx.feeSource grantee = granter := (feeSource_of_names hn.2 hn).1
      have hdenied := Gate.findCharge_of_absent hrule hgas hfloor hcollector hn.2
        (hsource ▸ hne) (by rw [hsource, hallowances, h])
      rw [hsource, hcause] at hdenied
      obtain ⟨denial, hdenied⟩ := hdenied
      exact ⟨denial, (EStateM.Result.error.inj hdenied).1⟩
    · rw [succeeds_of_ok ((Gate.findCharge_eq_ok_iff hrule).2 ⟨payer, g, hcharged, rfl, rfl⟩)]
        at hfind
      cases hfind

section Runs

variable {qs : List (Attempt Memory)} (hqs : ∀ q ∈ qs, ∃ tuning, q.Charges tuning)

include hqs

theorem left_of_leavesAll (hne : granter ≠ grantee) {limit : Coins} {used : String → Nat}
    (h : s.allowances.Left granter grantee limit used) :
    (leavesAll qs s).allowances.Left granter grantee limit
      fun denom => used denom + total (drawn granter grantee denom) qs s := by
  induction qs generalizing s used with
  | nil => exact h
  | cons q qs ih =>
    obtain ⟨tuning, hq⟩ := hqs q List.mem_cons_self
    have hrest := ih (fun p hp => hqs p (List.mem_cons_of_mem q hp)) (left_of_leaves hq hne h)
    simp only [Nat.add_assoc] at hrest
    exact hrest

theorem absent_of_leavesAll (hne : granter ≠ grantee)
    (h : s.allowances.find? granter grantee = none) :
    (leavesAll qs s).allowances.find? granter grantee = none := by
  induction qs generalizing s with
  | nil => exact h
  | cons q qs ih =>
    obtain ⟨tuning, hq⟩ := hqs q List.mem_cons_self
    exact ih (fun p hp => hqs p (List.mem_cons_of_mem q hp)) (absent_of_leaves hq hne h)

theorem total_debited_le (denom : String) :
    total (debited granter grantee denom) qs s ≤ total (drawn granter grantee denom) qs s := by
  induction qs generalizing s with
  | nil => exact Nat.le_refl _
  | cons q qs ih =>
    obtain ⟨tuning, hq⟩ := hqs q List.mem_cons_self
    exact Nat.add_le_add (debited_le_drawn hq denom)
      (ih fun p hp => hqs p (List.mem_cons_of_mem q hp))

end Runs

/-- The account of an allowance after some calls: what was taken from the granter in the name of the
grantee is within what was used, that is within the limit, and the rest of the limit is left. -/
structure Accounted (granter grantee : Address) (limit : Coins) (ps : List (Attempt Memory))
    (s : Memory) : Prop where
  debited_le : ∀ denom, total (debited granter grantee denom) ps s ≤
    total (drawn granter grantee denom) ps s
  drawn_le : ∀ denom, total (drawn granter grantee denom) ps s ≤ (limit.amountOf denom).toNat
  left : (leavesAll ps s).allowances.Left granter grantee limit
    fun denom => total (drawn granter grantee denom) ps s

/-- The call takes from the granter what it is said to take, and it changes no allowance that it does
not name. -/
structure Confined (granter grantee : Address) (q : Attempt Memory) (s : Memory) : Prop where
  balance : q.Names granter grantee → ∀ denom,
    ((q.leaves s).bank.balance granter denom).toNat + q.debited granter grantee denom s =
      (s.bank.balance granter denom).toNat +
        (if q.handler.wiring.accounts.moduleAddress q.handler.wiring.feeCollector = granter then
          q.debited granter grantee denom s else 0)
  others : ∀ x y, ¬q.Names x y →
    (q.leaves s).allowances.find? x y = s.allowances.find? x y

/-- An allowance is never overspent. It is accounted for at every point of a run. Once nothing is left
it is gone and stays away, and whoever names it is denied. -/
theorem allowance_not_overspent {qs : List (Attempt Memory)} {limit : Coins}
    (hqs : ∀ q ∈ qs, q.simulate = false ∧ q.tx.fee.check = .ok () ∧
      ∃ (tuning : Tuning) (order : List Stage), tuning.feeChecker = none ∧
        tuning.options.build order = .ok q.handler)
    (hne : granter ≠ grantee) (hlimit : limit.check = .ok ()) (hempty : limit.isEmpty = false)
    (hgrant : s.allowances.find? granter grantee = some ⟨some limit⟩) :
    ∀ ps rs, qs = ps ++ rs →
      Accounted granter grantee limit ps s ∧
      ((leavesAll ps s).allowances.find? granter grantee = none → ∀ ms q ns, rs = ms ++ q :: ns →
        (leavesAll (ps ++ ms) s).allowances.find? granter grantee = none ∧
        (q.Names granter grantee → q.Denied granter grantee (leavesAll (ps ++ ms) s))) ∧
      ∀ q ns, rs = q :: ns → q.Confined granter grantee (leavesAll ps s) := by
  have hcharges : ∀ q ∈ qs, ∃ tuning, q.Charges tuning := by
    intro q hq
    obtain ⟨hsimulate, hfee, tuning, order, hrule, hb⟩ := hqs q hq
    have hwiring : tuning.wiring = q.handler.wiring := Option.some.inj (Options.build_eq_ok hb).1
    exact ⟨tuning, hwiring.symm, hrule, hsimulate, hfee⟩
  rintro ps rs rfl
  have hps : ∀ q ∈ ps, ∃ tuning, q.Charges tuning :=
    fun q hq => hcharges q (List.mem_append_left rs hq)
  have hleft := left_of_leavesAll hps hne (.start hlimit hempty hgrant)
  simp only [Nat.zero_add] at hleft
  refine ⟨⟨total_debited_le hps, hleft.used_le, hleft⟩, ?_, ?_⟩
  · rintro habsent ms q ns rfl
    have hms : ∀ p ∈ ms, ∃ tuning, p.Charges tuning :=
      fun p hp => hcharges p (List.mem_append_right ps (List.mem_append_left _ hp))
    obtain ⟨tuning, hq⟩ := hcharges q (List.mem_append_right ps
      (List.mem_append_right ms List.mem_cons_self))
    have hlater := absent_of_leavesAll hms hne habsent
    rw [leavesAll_append]
    exact ⟨hlater, fun hn => denied_of_absent hq hne hlater hn⟩
  · rintro q ns rfl
    obtain ⟨tuning, hq⟩ := hcharges q (List.mem_append_right ps List.mem_cons_self)
    exact ⟨fun hn => balance_of_names hq hn, fun x y hn => find?_of_not_names hq hn⟩

end Attempt

/-- The bystander pays up to 20 stake for the account of the unit key, and has 10. -/
def thinMemory : Memory :=
  { unitMemory with
    allowances := Allowances.new.grant bystander unitKey.address
      (some ⟨[⟨"stake", .clamp 20⟩]⟩)
    bank := Bank.new.setBalance bystander "stake" (.clamp 10) }

def sponsoredAttempt : Attempt Memory :=
  ⟨Tuning.standard.handler, .new "unit" 1 0, sponsoredTransfer, false⟩

/-- The second of two calls uses what is left of the allowance, and the bystander cannot pay it. -/
theorem sponsoredAttempt_used :
    (Attempt.total (Attempt.debited bystander unitKey.address "stake")
      [sponsoredAttempt, sponsoredAttempt] thinMemory = 10 ∧
    Attempt.total (Attempt.drawn bystander unitKey.address "stake")
      [sponsoredAttempt, sponsoredAttempt] thinMemory = 20) ∧
    ((Attempt.leavesAll [sponsoredAttempt, sponsoredAttempt] thinMemory).allowances.find?
      bystander unitKey.address).isNone = true := by decide +kernel

theorem sponsoredAttempt_third_denied :
    Attempt.Accounted bystander unitKey.address ⟨[⟨"stake", .clamp 20⟩]⟩
      [sponsoredAttempt, sponsoredAttempt] thinMemory ∧
    sponsoredAttempt.Denied bystander unitKey.address
      (Attempt.leavesAll [sponsoredAttempt, sponsoredAttempt] thinMemory) := by
  have hqs : ∀ q ∈ [sponsoredAttempt, sponsoredAttempt, sponsoredAttempt],
      q.simulate = false ∧ q.tx.fee.check = .ok () ∧
      ∃ (tuning : Tuning) (order : List Stage), tuning.feeChecker = none ∧
        tuning.options.build order = .ok q.handler := by
    intro q hq
    obtain rfl : q = sponsoredAttempt := by simpa using hq
    exact ⟨rfl, rfl, .standard, Stage.canonical, rfl, Tuning.build_options _⟩
  have hne : bystander ≠ unitKey.address := by decide +kernel
  have hgrant : thinMemory.allowances.find? bystander unitKey.address =
      some ⟨some ⟨[⟨"stake", .clamp 20⟩]⟩⟩ := by
    rw [thinMemory, Allowances.find?, Allowances.grant, Table.find?_insert, if_pos rfl]
  obtain ⟨haccounted, hgone, -⟩ := Attempt.allowance_not_overspent hqs hne (by decide) rfl hgrant
    [sponsoredAttempt, sponsoredAttempt] [sponsoredAttempt] rfl
  have habsent := Option.isNone_iff_eq_none.1 sponsoredAttempt_used.2
  exact ⟨haccounted, (hgone habsent [] sponsoredAttempt [] rfl).2 ⟨rfl, rfl⟩⟩

end Tollgate
