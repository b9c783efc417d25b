import Tollgate.Proofs.Admission.Lookup
import Tollgate.Proofs.Admission.Tuning
import Tollgate.Proofs.Ledger.Allowance
import Tollgate.Proofs.Ledger.Shortfall
/-! When the stage of the fee succeeds over services in memory, and what it makes of them. Outside
simulation it has two parts, and each of them changes nothing when it fails: the charge is found, which
uses an allowance if there is one, and then the fee is moved. -/
namespace Tollgate

open Call

/-- The account a fee is taken from: the granter if there is one, else the payer. -/
def Transaction.feeSource (tx : Transaction) (payer : Address) : Address := tx.feeGranter.getD payer

/-- The services let the payer of a transaction pay its fee, and have these allowances and balances
afterwards. -/
structure Tuning.Pays (u : Tuning) (tx : Transaction) (s : Memory) (payer : Address)
    (allowances : Allowances) (bank : Bank) : Prop where
  charged : tx.feePayer = some payer
  collector : (s.accounts.find? (moduleAddress u.settings.feeCollector)).isSome = true
  source : (s.accounts.find? (tx.feeSource payer)).isSome = true
  granted : (tx.feeSource payer = payer ∧ allowances = s.allowances) ∨
    (tx.feeSource payer ≠ payer ∧ u.grants = true ∧
      Allowances.spend (tx.feeSource payer) payer tx.fee s.allowances = .ok () allowances)
  moved : (tx.fee.isZero = true ∧ bank = s.bank) ∨ (tx.fee.isZero = false ∧
    Bank.deduct (tx.feeSource payer) (moduleAddress u.settings.feeCollector) tx.fee s.bank =
      .ok () bank)

/-- A payment looks at accounts, allowances and balances only. -/
theorem Tuning.Pays.congr {u : Tuning} {tx : Transaction} {s t : Memory} {payer : Address}
    {allowances : Allowances} {bank : Bank} (h : u.Pays tx s payer allowances bank)
    (haccounts : t.accounts = s.accounts) (hallowances : t.allowances = s.allowances)
    (hbank : t.bank = s.bank) : u.Pays tx t payer allowances bank := by
  constructor
  · exact h.charged
  · rw [haccounts]
    exact h.collector
  · rw [haccounts]
    exact h.source
  · rw [hallowances]
    exact h.granted
  · rw [hbank]
    exact h.moved

/-- The same run with other allowances. -/
def Run.withAllowances (r : Run Memory) (g : Allowances) : Run Memory :=
  { r with services := { r.services with allowances := g } }

/-- The services let a transaction be charged in the name of this payer, whose allowance is used if
somebody else is charged. No money is looked at. -/
structure Tuning.Draws (u : Tuning) (tx : Transaction) (r : Run Memory) (payer : Address)
    (allowances : Allowances) : Prop where
  gas : r.context.isGenesis = true ∨ tx.gasLimit ≠ 0
  floor : FeeChecker.floor r.context tx = .ok ()
  collector : (r.services.accounts.find? (moduleAddress u.settings.feeCollector)).isSome = true
  charged : tx.feePayer = some payer
  granted : (tx.feeSource payer = payer ∧ allowances = r.services.allowances) ∨
    (tx.feeSource payer ≠ payer ∧ u.grants = true ∧
      Allowances.spend (tx.feeSource payer) payer tx.fee r.services.allowances = .ok () allowances)

namespace Gate

section Parts

variable {σ : Type}

/-- The first part of the stage of the fee: whom to charge, the fee and its priority. -/
def findCharge (w : Wiring σ) (tx : Transaction) : Gate σ (Address × Coins × Int64) := do
  let c ← context
  if !c.isGenesis && tx.gasLimit = 0 then throw .invalidGasLimit
  let (fee, priority) ← ofExcept (w.checkFee c tx)
  requireAccount w (w.accounts.moduleAddress w.feeCollector)
  let some payer := tx.feePayer | throw (.malformed .noFeePayer)
  let source ← payingAccount w payer fee tx false
  return (source, fee, priority)

/-- The second part: the fee goes to the collector. -/
def moveFee (w : Wiring σ) (source : Address) (fee : Coins) : Gate σ Unit := do
  requireAccount w source
  if fee.isZero then return
  call .ofFeeLedger (w.bank.deduct source (w.accounts.moduleAddress w.feeCollector) fee)

theorem chargeFee_false_eq (w : Wiring σ) (tx : Transaction) : chargeFee w tx false = (do
    let (source, fee, priority) ← findCharge w tx
    moveFee w source fee
    modifyContext fun c => { c with priority := priority }) := by
  unfold chargeFee findCharge payFee moveFee
  have hthrow {α β : Type} (e : AdmissionError) (f : α → Gate σ β) :
      (throw e >>= f : Gate σ β) = throw e := rfl
  simp only [Bool.not_false, Bool.true_and, Bool.false_eq_true, if_false, bind_assoc]
  refine bind_congr fun c => ?_
  split
  · simp only [hthrow]
  · cases tx.feePayer with
    | none => simp only [hthrow, bind_assoc]
    | some payer => simp only [bind_assoc, pure_bind]

end Parts

variable {tuning : Tuning} {tx : Transaction} {r t : Run Memory}

theorem after_requireAccount (a : Address) (r : Run Memory) :
    after (requireAccount tuning.wiring a) r = r := by
  have hlook : account tuning.wiring a r = .ok (r.services.accounts.find? a) r := rfl
  unfold requireAccount
  rw [after_bind_of_ok hlook]
  split <;> rfl

theorem requireAccount_eq_ok_iff {a : Address} : requireAccount tuning.wiring a r = .ok () t ↔
    (r.services.accounts.find? a).isSome = true ∧ r = t := by
  have hfound : account tuning.wiring a r = .ok (r.services.accounts.find? a) r := rfl
  unfold requireAccount
  rw [bind_eq_ok_iff]
  simp only [hfound, EStateM.Result.ok.injEq]
  constructor
  · rintro ⟨found, _, ⟨rfl, rfl⟩, h⟩
    cases hf : r.services.accounts.find? a with
    | none =>
      rw [hf] at h
      exact absurd h throw_ne_ok
    | some account =>
      rw [hf] at h
      exact ⟨rfl, (pure_eq_ok_iff.1 h).2⟩
  · rintro ⟨hsome, rfl⟩
    refine ⟨_, r, ⟨rfl, rfl⟩, ?_⟩
    rw [Option.isNone_eq_false_iff.2 hsome]
    rfl

theorem useAllowance_false_eq_ok_iff {granter grantee : Address} {fee : Coins} :
    useAllowance tuning.wiring granter grantee fee tx false r = .ok () t ↔
      tuning.grants = true ∧ ∃ g, Allowances.spend granter grantee fee r.services.allowances =
        .ok () g ∧ t = { r with services := { r.services with allowances := g } } := by
  unfold useAllowance
  rw [Tuning.wiring_allowances]
  cases tuning.grants with
  | false => simpa using throw_ne_ok
  | true =>
    simp only [if_true, Bool.false_eq_true, if_false, true_and]
    rw [call_eq_ok_iff]
    constructor
    · rintro ⟨s, hs, rfl⟩
      obtain ⟨g, hg, rfl⟩ := Memory.onAllowances_eq_ok_iff.1 hs
      exact ⟨g, hg, rfl⟩
    · rintro ⟨g, hg, rfl⟩
      exact ⟨_, Memory.onAllowances_eq_ok_iff.2 ⟨g, hg, rfl⟩, rfl⟩

theorem useAllowance_true_eq_ok {granter grantee : Address} {fee : Coins} {g : Allowances}
    (hgrants : tuning.grants = true)
    (h : Allowances.spend granter grantee fee r.services.allowances = .ok () g) :
    useAllowance tuning.wiring granter grantee fee tx true r = .ok () r := by
  unfold useAllowance
  rw [Tuning.wiring_allowances, hgrants]
  refine call_eq_ok_iff.2 ⟨r.services, Memory.onAllowances_eq_ok_iff.2 ?_, rfl⟩
  exact ⟨r.services.allowances, Allowances.check_of_spend h, rfl⟩

theorem atomic_useAllowance (granter grantee : Address) (fee : Coins) :
    Atomic (useAllowance tuning.wiring granter grantee fee tx false) := by
  unfold useAllowance
  split
  · exact .throw _
  · next registry hregistry =>
    obtain rfl := Tuning.allowances_eq hregistry
    exact atomic_call (Memory.atomic_onAllowances (Allowances.atomic_spend _ _ _))

theorem payingAccount_eq {σ : Type} (w : Wiring σ) (payer : Address) (fee : Coins) (simulate : Bool) :
    payingAccount w payer fee tx simulate =
      if tx.feeSource payer = payer then pure payer else do
        useAllowance w (tx.feeSource payer) payer fee tx simulate
        return tx.feeSource payer := by
  unfold payingAccount Transaction.feeSource
  cases tx.feeGranter with
  | none => simp
  | some granter => rfl

theorem payingAccount_false_eq_ok_iff {payer source : Address} {fee : Coins} :
    payingAccount tuning.wiring payer fee tx false r = .ok source t ↔
      source = tx.feeSource payer ∧ ∃ g, t = { r with services :=
          { r.services with allowances := g } } ∧
        ((tx.feeSource payer = payer ∧ g = r.services.allowances) ∨
          (tx.feeSource payer ≠ payer ∧ tuning.grants = true ∧
            Allowances.spend (tx.feeSource payer) payer fee r.services.allowances = .ok () g)) := by
  rw [payingAccount_eq]
  by_cases hp : tx.feeSource payer = payer
  · rw [if_pos hp, pure_eq_ok_iff, hp]
    constructor
    · rintro ⟨rfl, rfl⟩
      exact ⟨rfl, r.services.allowances, rfl, .inl ⟨rfl, rfl⟩⟩
    · rintro ⟨rfl, g, rfl, ⟨-, rfl⟩ | ⟨hne, -⟩⟩
      · exact ⟨rfl, rfl⟩
      · exact absurd rfl hne
  · rw [if_neg hp, bind_eq_ok_iff]
    constructor
    · rintro ⟨⟨⟩, u, huse, hpure⟩
      obtain ⟨rfl, rfl⟩ := pure_eq_ok_iff.1 hpure
      obtain ⟨hgrants, g, hspend, rfl⟩ := useAllowance_false_eq_ok_iff.1 huse
      exact ⟨rfl, g, rfl, .inr ⟨hp, hgrants, hspend⟩⟩
    · rintro ⟨rfl, g, rfl, ⟨he, -⟩ | ⟨-, hgrants, hspend⟩⟩
      · exact absurd he hp
      · exact ⟨(), _, useAllowance_false_eq_ok_iff.2 ⟨hgrants, g, hspend, rfl⟩, rfl⟩

theorem atomic_payingAccount (payer : Address) (fee : Coins) :
    Atomic (payingAccount tuning.wiring payer fee tx false) := by
  rw [payingAccount_eq]
  split
  · exact .pure _
  · exact (atomic_useAllowance _ _ _).bind_pure

theorem standard_eq_ok_iff {c : Context} {fee : Coins} {priority : Int64} :
    FeeChecker.standard c tx = .ok (fee, priority) ↔
      FeeChecker.floor c tx = .ok () ∧ fee = tx.fee ∧ priority = tx.fee.priority tx.gasLimit := by
  unfold FeeChecker.standard
  cases FeeChecker.floor c tx with
  | error e => simp [bind, Except.bind]
  | ok u => simp [bind, Except.bind, pure, Except.pure, eq_comm]

theorem checkFee_eq (hrule : tuning.feeChecker = none) : tuning.wiring.checkFee = .standard := by
  change tuning.feeChecker.getD .standard = _
  rw [hrule, Option.getD_none]

/-- With the gas, the price and the collector in order, what is left is to find who is charged. -/
theorem findCharge_eq (hrule : tuning.feeChecker = none)
    (hgas : r.context.isGenesis = true ∨ tx.gasLimit ≠ 0)
    (hfloor : FeeChecker.floor r.context tx = .ok ())
    (hcollector : (r.services.accounts.find?
      (moduleAddress tuning.settings.feeCollector)).isSome = true)
    {payer : Address} (hp : tx.feePayer = some payer) :
    findCharge tuning.wiring tx r = (do
      let source ← payingAccount tuning.wiring payer tx.fee tx false
      return (source, tx.fee, tx.fee.priority tx.gasLimit)) r := by
  have hpass : (!r.context.isGenesis && decide (tx.gasLimit = 0)) = false := by
    rcases hgas with hgas | hgas <;> simp [hgas]
  have hstandard := standard_eq_ok_iff.2 ⟨hfloor, rfl, rfl⟩
  have hfee : ofExcept (FeeChecker.standard r.context tx) r =
      .ok (tx.fee, tx.fee.priority tx.gasLimit) r := ofExcept_eq_ok_iff.2 ⟨hstandard, rfl⟩
  have hknown : requireAccount tuning.wiring
      (tuning.wiring.accounts.moduleAddress tuning.wiring.feeCollector) r = .ok () r :=
    requireAccount_eq_ok_iff.2 ⟨hcollector, rfl⟩
  unfold findCharge
  rw [context_bind, checkFee_eq hrule]
  simp only [hpass, Bool.false_eq_true, if_false, hp]
  rw [bind_of_ok hfee, bind_of_ok hknown]

theorem findCharge_eq_ok_iff (hrule : tuning.feeChecker = none)
    {x : Address × Coins × Int64} : findCharge tuning.wiring tx r = .ok x t ↔
      ∃ payer g, tuning.Draws tx r payer g ∧
        x = (tx.feeSource payer, tx.fee, tx.fee.priority tx.gasLimit) ∧
        t = r.withAllowances g := by
  constructor
  · intro h
    unfold findCharge at h
    rw [context_bind, checkFee_eq hrule] at h
    dsimp only at h
    split at h
    · obtain ⟨_, _, hthrow, -⟩ := bind_eq_ok_iff.1 h
      exact absurd hthrow throw_ne_ok
    · next hgas =>
      obtain ⟨⟨fee, priority⟩, _, hfee, h⟩ := bind_eq_ok_iff.1 h
      obtain ⟨hstandard, rfl⟩ := ofExcept_eq_ok_iff.1 hfee
      obtain ⟨hfloor, rfl, rfl⟩ := standard_eq_ok_iff.1 hstandard
      obtain ⟨⟨⟩, _, hrequire, h⟩ := bind_eq_ok_iff.1 h
      obtain ⟨hcollector, rfl⟩ := requireAccount_eq_ok_iff.1 hrequire
      cases hp : tx.feePayer with
      | none =>
        rw [hp] at h
        exact absurd h throw_ne_ok
      | some payer =>
        rw [hp] at h
        obtain ⟨source, _, hpaying, h⟩ := bind_eq_ok_iff.1 h
        obtain ⟨rfl, g, rfl, hgranted⟩ := payingAccount_false_eq_ok_iff.1 hpaying
        obtain ⟨rfl, rfl⟩ := pure_eq_ok_iff.1 h
        have hgas : r.context.isGenesis = true ∨ tx.gasLimit ≠ 0 := by
          simpa [imp_iff_not_or] using hgas
        exact ⟨payer, g, ⟨hgas, hfloor, hcollector, hp, hgranted⟩, rfl, rfl⟩
  · rintro ⟨payer, g, h, rfl, rfl⟩
    rw [findCharge_eq hrule h.gas h.floor h.collector h.charged]
    exact bind_eq_ok_iff.2 ⟨_, _, payingAccount_false_eq_ok_iff.2 ⟨rfl, g, rfl, h.granted⟩, rfl⟩

/-- Nobody is charged for somebody else without an allowance. -/
theorem findCharge_of_absent (hrule : tuning.feeChecker = none)
    (hgas : r.context.isGenesis = true ∨ tx.gasLimit ≠ 0)
    (hfloor : FeeChecker.floor r.context tx = .ok ())
    (hcollector : (r.services.accounts.find?
      (moduleAddress tuning.settings.feeCollector)).isSome = true)
    {payer : Address} (hp : tx.feePayer = some payer) (hne : tx.feeSource payer ≠ payer)
    (habsent : r.services.allowances.find? (tx.feeSource payer) payer = none) :
    ∃ denial, findCharge tuning.wiring tx r =
      .error (.feeGrantDenied (tx.feeSource payer) payer denial) r := by
  have huse : ∃ denial, useAllowance tuning.wiring (tx.feeSource payer) payer tx.fee tx false r =
      .error (.feeGrantDenied (tx.feeSource payer) payer denial) r := by
    unfold useAllowance
    rw [Tuning.wiring_allowances]
    cases tuning.grants with
    | false => exact ⟨.notEnabled, rfl⟩
    | true =>
      have hspend : Allowances.spend (tx.feeSource payer) payer tx.fee r.services.allowances =
          .error .absent r.services.allowances := by
        unfold Allowances.spend
        rw [habsent]
      exact ⟨.refused .absent, call_eq_error_iff.2
        ⟨.absent, _, Memory.onAllowances_eq_error_iff.2 ⟨_, hspend, rfl⟩, rfl, rfl⟩⟩
  obtain ⟨denial, huse⟩ := huse
  refine ⟨denial, ?_⟩
  rw [findCharge_eq hrule hgas hfloor hcollector hp, payingAccount_eq, if_neg hne]
  exact bind_eq_error_iff.2 (.inl (bind_eq_error_iff.2 (.inl huse)))

theorem atomic_findCharge : Atomic (findCharge tuning.wiring tx) := by
  refine .look_bind (fun _ => rfl) fun c => ?_
  have hrest : Atomic (do
      let (fee, priority) ← ofExcept (tuning.wiring.checkFee c tx)
      requireAccount tuning.wiring (tuning.wiring.accounts.moduleAddress tuning.wiring.feeCollector)
      let some payer := tx.feePayer | throw (.malformed .noFeePayer)
      let source ← payingAccount tuning.wiring payer fee tx false
      return (source, fee, priority)) := by
    refine .look_bind (after_ofExcept _) fun x => .look_bind (after_requireAccount _) fun _ => ?_
    cases tx.feePayer with
    | none => exact .throw _
    | some payer => exact (atomic_payingAccount payer x.1).bind_pure
  dsimp only
  split
  · exact .look_bind (fun _ => rfl) fun _ => hrest
  · exact hrest

theorem moveFee_eq_ok_iff {source : Address} {fee : Coins} :
    moveFee tuning.wiring source fee r = .ok () t ↔
      (r.services.accounts.find? source).isSome = true ∧
      ∃ b, ((fee.isZero = true ∧ b = r.services.bank) ∨ (fee.isZero = false ∧
          Bank.deduct source (moduleAddress tuning.settings.feeCollector) fee r.services.bank =
            .ok () b)) ∧
        t = { r with services := { r.services with bank := b } } := by
  unfold moveFee
  rw [bind_eq_ok_iff]
  constructor
  · rintro ⟨⟨⟩, _, hrequire, h⟩
    obtain ⟨hsource, rfl⟩ := requireAccount_eq_ok_iff.1 hrequire
    refine ⟨hsource, ?_⟩
    by_cases hzero : fee.isZero = true
    · rw [if_pos hzero] at h
      obtain ⟨-, rfl⟩ := pure_eq_ok_iff.1 h
      exact ⟨r.services.bank, .inl ⟨hzero, rfl⟩, rfl⟩
    · rw [if_neg hzero] at h
      obtain ⟨s, hs, rfl⟩ := call_eq_ok_iff.1 h
      obtain ⟨b, hb, rfl⟩ := Memory.onBank_eq_ok_iff.1 hs
      exact ⟨b, .inr ⟨by simpa using hzero, hb⟩, rfl⟩
  · rintro ⟨hsource, b, hmoved, rfl⟩
    refine ⟨(), r, requireAccount_eq_ok_iff.2 ⟨hsource, rfl⟩, ?_⟩
    rcases hmoved with ⟨hzero, rfl⟩ | ⟨hfee, hb⟩
    · rw [if_pos hzero]
      rfl
    · rw [hfee]
      exact call_eq_ok_iff.2 ⟨_, Memory.onBank_eq_ok_iff.2 ⟨b, hb, rfl⟩, rfl⟩

theorem atomic_moveFee (source : Address) (fee : Coins) :
    Atomic (moveFee tuning.wiring source fee) := by
  refine .look_bind (after_requireAccount _) fun _ => ?_
  split
  · exact .pure _
  · exact atomic_call (Memory.atomic_onBank (Bank.atomic_deduct _ _ _))

theorem chargeFee_false_eq_ok_iff (hrule : tuning.feeChecker = none) :
    chargeFee tuning.wiring tx false r = .ok () t ↔
      (r.context.isGenesis = true ∨ tx.gasLimit ≠ 0) ∧ FeeChecker.floor r.context tx = .ok () ∧
      ∃ payer allowances bank, tuning.Pays tx r.services payer allowances bank ∧
        t = ⟨{ r.context with priority := tx.fee.priority tx.gasLimit },
          { r.services with allowances := allowances, bank := bank }⟩ := by
  rw [chargeFee_false_eq, bind_eq_ok_iff]
  constructor
  · rintro ⟨_, _, hfind, h⟩
    obtain ⟨payer, g, hdraws, rfl, rfl⟩ := (findCharge_eq_ok_iff hrule).1 hfind
    obtain ⟨⟨⟩, _, hmove, h⟩ := bind_eq_ok_iff.1 h
    obtain ⟨hsource, b, hmoved, rfl⟩ := moveFee_eq_ok_iff.1 hmove
    exact ⟨hdraws.gas, hdraws.floor, payer, g, b,
      ⟨hdraws.charged, hdraws.collector, hsource, hdraws.granted, hmoved⟩,
      (modifyContext_eq_ok_iff.1 h).symm⟩
  · rintro ⟨hgas, hfloor, payer, g, b, h, rfl⟩
    refine ⟨_, _, (findCharge_eq_ok_iff hrule).2
      ⟨payer, g, ⟨hgas, hfloor, h.collector, h.charged, h.granted⟩, rfl, rfl⟩, ?_⟩
    exact bind_eq_ok_iff.2 ⟨(), _, moveFee_eq_ok_iff.2 ⟨h.source, b, h.moved, rfl⟩, rfl⟩

/-- A fee that is not charged was not moved. An allowance may have been used nevertheless, if the
charge was found and the account that is charged could not pay. -/
theorem chargeFee_false_eq_error (hrule : tuning.feeChecker = none) {cause : AdmissionError}
    (h : chargeFee tuning.wiring tx false r = .error cause t) :
    (findCharge tuning.wiring tx r = .error cause r ∧ t = r) ∨
      ∃ payer g, tuning.Draws tx r payer g ∧ t = r.withAllowances g := by
  rw [chargeFee_false_eq] at h
  rcases bind_eq_error_iff.1 h with h | ⟨_, _, hfind, h⟩
  · obtain rfl := atomic_findCharge r cause t h
    exact .inl ⟨h, rfl⟩
  · obtain ⟨payer, g, hdraws, rfl, rfl⟩ := (findCharge_eq_ok_iff hrule).1 hfind
    rcases bind_eq_error_iff.1 h with h | ⟨_, _, -, h⟩
    · exact .inr ⟨payer, g, hdraws, atomic_moveFee _ _ _ _ _ h⟩
    · cases h

/-- The stage in its parts, once the payer is known. -/
theorem payFee_eq {σ : Type} {payer : Address} (hp : tx.feePayer = some payer) (w : Wiring σ)
    (fee : Coins) (simulate : Bool) : payFee w tx fee simulate = (do
      let collector := w.accounts.moduleAddress w.feeCollector
      requireAccount w collector
      let source ← payingAccount w payer fee tx simulate
      requireAccount w source
      if fee.isZero then return
      if simulate then call .ofFeeLedger (w.bank.ensureSpendable source fee)
      else call .ofFeeLedger (w.bank.deduct source collector fee)) := by
  unfold payFee
  rw [hp]

/-- A simulation looks at everything a payment needs, and changes nothing. -/
theorem payFee_true_eq_ok {payer : Address} {allowances : Allowances} {bank : Bank}
    (h : tuning.Pays tx r.services payer allowances bank) :
    payFee tuning.wiring tx tx.fee true r = .ok () r := by
  rw [payFee_eq h.charged]
  refine bind_eq_ok_iff.2 ⟨(), r, requireAccount_eq_ok_iff.2 ⟨h.collector, rfl⟩, ?_⟩
  have hpaying : payingAccount tuning.wiring payer tx.fee tx true r =
      .ok (tx.feeSource payer) r := by
    rw [payingAccount_eq]
    rcases h.granted with ⟨hp, -⟩ | ⟨hp, hgrants, hspend⟩
    · rw [if_pos hp, hp]
      rfl
    · rw [if_neg hp]
      exact bind_eq_ok_iff.2 ⟨(), r, useAllowance_true_eq_ok hgrants hspend, rfl⟩
  refine bind_eq_ok_iff.2 ⟨_, r, hpaying, ?_⟩
  refine bind_eq_ok_iff.2 ⟨(), r, requireAccount_eq_ok_iff.2 ⟨h.source, rfl⟩, ?_⟩
  rcases h.moved with ⟨hzero, -⟩ | ⟨hfee, hmove⟩
  · rw [if_pos hzero]
    rfl
  · rw [hfee]
    exact call_eq_ok_iff.2 ⟨r.services, Memory.ensureSpendable_of_deduct hmove, rfl⟩

/-- A simulation neither asks for gas nor compares the fee with the prices of the node. -/
theorem chargeFee_true_eq_ok {payer : Address} {allowances : Allowances} {bank : Bank}
    (h : tuning.Pays tx r.services payer allowances bank) :
    chargeFee tuning.wiring tx true r =
      .ok () { r with context := { r.context with priority := 0 } } := by
  have hbody : chargeFee tuning.wiring tx true r = (do
      payFee tuning.wiring tx tx.fee true
      modifyContext fun c => { c with priority := 0 }) r := rfl
  rw [hbody]
  exact bind_eq_ok_iff.2 ⟨(), r, payFee_true_eq_ok h, rfl⟩

end Gate
end Tollgate
