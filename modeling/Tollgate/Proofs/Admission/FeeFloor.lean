import Mathlib.Data.Rat.Floor
import Tollgate.Admission.Fee
import Tollgate.Proofs.Coin.Sorting
/-! What a node asks of a fee in its pool. A price asks for what the gas costs at it, rounded up to a
whole amount; the 256 bits in which this is computed suffice. A fee is enough if it holds what one of
the prices asks for, in whatever order they are given. -/
namespace Tollgate

namespace GasPrice

/-- The least amount that pays for some gas, or the largest amount if that is less. -/
def least (p : GasPrice) (gas : UInt64) : Nat :=
  min ⌈(p.amount.raw.toNat * gas.toNat : ℚ) / 10 ^ 18⌉₊ (2 ^ 128 - 1)

theorem ceil_div_one (n : Nat) : ⌈(n : ℚ) / 10 ^ 18⌉₊ = (n + (Decimal.one - 1)) / Decimal.one := by
  refine eq_of_forall_ge_iff fun k => ?_
  have hone : (0 : ℚ) < 10 ^ 18 := by norm_num
  have hcast : (n : ℚ) ≤ k * 10 ^ 18 ↔ n ≤ k * 10 ^ 18 := by exact_mod_cast Iff.rfl
  rw [Nat.ceil_le, div_le_iff₀ hone, hcast]
  unfold Decimal.one Decimal.places
  omega

theorem toNat_total (p : GasPrice) (gas : UInt64) : (p.total gas).toNat = p.least gas := by
  unfold total least Amount.clamp
  rw [← ceil_div_one, Nat.cast_mul]

section Wide

variable (p : GasPrice) (gas : UInt64)

/-- The product of a price and some gas in 256 bits. -/
def wideProduct : BitVec 256 := .ofNat 256 p.amount.raw.toNat * .ofNat 256 gas.toNat

def wideOne : BitVec 256 := .ofNat 256 Decimal.one

/-- The total in 256 bits, cut to the lower half unless it is more than the largest amount. -/
def wideTotal : BitVec 128 :=
  let ceiled := (wideProduct p gas + wideOne - 1) / wideOne
  if .ofNat 256 (2 ^ 128 - 1) < ceiled then .allOnes 128 else ceiled.setWidth 128

theorem product_lt : p.amount.raw.toNat * gas.toNat < 2 ^ 192 :=
  calc p.amount.raw.toNat * gas.toNat
      ≤ 2 ^ 128 * gas.toNat := Nat.mul_le_mul_right _ p.amount.raw.toNat_lt.le
    _ < 2 ^ 128 * 2 ^ 64 := Nat.mul_lt_mul_of_pos_left gas.toNat_lt (by decide)

theorem toNat_wideProduct : (wideProduct p gas).toNat = p.amount.raw.toNat * gas.toNat := by
  have hraw : p.amount.raw.toNat < 2 ^ 256 := p.amount.raw.toNat_lt.trans (by decide)
  have hgas : gas.toNat < 2 ^ 256 := gas.toNat_lt.trans (by decide)
  have hproduct := (product_lt p gas).trans (by decide : 2 ^ 192 < 2 ^ 256)
  unfold wideProduct
  rw [BitVec.toNat_mul, BitVec.toNat_ofNat, BitVec.toNat_ofNat, Nat.mod_eq_of_lt hraw,
    Nat.mod_eq_of_lt hgas, Nat.mod_eq_of_lt hproduct]

theorem toNat_wideOne : wideOne.toNat = Decimal.one := by decide

theorem toNat_wideProduct_add :
    (wideProduct p gas + wideOne).toNat = p.amount.raw.toNat * gas.toNat + Decimal.one := by
  have hproduct := product_lt p gas
  have hone : Decimal.one < 2 ^ 192 := by decide
  rw [BitVec.toNat_add, toNat_wideProduct, toNat_wideOne, Nat.mod_eq_of_lt (by omega)]

theorem toNat_wideProduct_round : (wideProduct p gas + wideOne - 1).toNat =
    p.amount.raw.toNat * gas.toNat + (Decimal.one - 1) := by
  have hone : 1 ≤ Decimal.one := by decide
  have hle : 1 ≤ wideProduct p gas + wideOne := by
    rw [BitVec.le_def, toNat_wideProduct_add]
    exact hone.trans (Nat.le_add_left _ _)
  rw [BitVec.toNat_sub_of_le hle, toNat_wideProduct_add]
  exact Nat.add_sub_assoc hone _

/-- No step of the computation leaves the 256 bits. -/
theorem toNat_wideTotal : (wideTotal p gas).toNat = p.least gas := by
  have hceiled : ((wideProduct p gas + wideOne - 1) / wideOne).toNat =
      ⌈(p.amount.raw.toNat * gas.toNat : ℚ) / 10 ^ 18⌉₊ := by
    rw [BitVec.toNat_udiv, toNat_wideProduct_round, toNat_wideOne, ← ceil_div_one, Nat.cast_mul]
  unfold wideTotal least
  dsimp only
  rw [← hceiled]
  generalize (wideProduct p gas + wideOne - 1) / wideOne = ceiled
  by_cases hlt : BitVec.ofNat 256 (2 ^ 128 - 1) < ceiled
  · rw [if_pos hlt]
    have hlt' : 2 ^ 128 - 1 < ceiled.toNat := hlt
    rw [Nat.min_eq_right hlt'.le]
    rfl
  · rw [if_neg hlt, BitVec.toNat_setWidth]
    have hle : ceiled.toNat ≤ 2 ^ 128 - 1 := Nat.not_lt.1 hlt
    rw [Nat.min_eq_left hle, Nat.mod_eq_of_lt (by omega)]

end Wide

/-- The prices that ask for something. -/
def positive (prices : List GasPrice) : List GasPrice := prices.filter fun p => !p.amount.isZero

/-- Those that ask for something do so for different denoms, all of them well formed. -/
structure Consistent (prices : List GasPrice) : Prop where
  valid : ∀ p ∈ positive prices, Denom.isValid p.denom = true
  nodup : ((positive prices).map GasPrice.denom).Nodup

/-- No gas is to be paid for, no price asks for anything, or the fee holds what some price asks for. -/
def Met (prices : List GasPrice) (gas : UInt64) (fee : Coins) : Prop :=
  gas = 0 ∨ positive prices = [] ∨
    ∃ p ∈ positive prices, p.least gas ≤ (fee.amountOf p.denom).toNat

variable {prices prices' : List GasPrice} {gas : UInt64} {fee s : Coins}

theorem least_pos {p : GasPrice} (hp : p ∈ positive prices) (hgas : gas ≠ 0) : 0 < p.least gas := by
  have hraw : 0 < p.amount.raw.toNat := by
    simpa [Decimal.isZero, Amount.isZero, Nat.pos_iff_ne_zero] using (List.mem_filter.1 hp).2
  have hgas' : 0 < gas.toNat := by
    rw [Nat.pos_iff_ne_zero, Ne, ← UInt64.toNat_zero, UInt64.toNat_inj]
    exact hgas
  unfold least
  refine lt_min (Nat.ceil_pos.2 ?_) (by decide)
  positivity

theorem totals_zero (prices : List GasPrice) : totals prices 0 = [] := by
  refine List.filter_eq_nil_iff.2 fun c hc => ?_
  obtain ⟨p, -, rfl⟩ := List.mem_map.1 hc
  have hzero : (p.total 0).toNat = 0 := by simp [toNat_total, least]
  simp [Coin.isZero, Amount.isZero, hzero]

/-- With some gas, every price that asks for something asks for a positive amount. -/
theorem totals_eq_map (hgas : gas ≠ 0) :
    totals prices gas = (positive prices).map fun p => ⟨p.denom, p.total gas⟩ := by
  refine List.filter_eq_self.2 fun c hc => ?_
  obtain ⟨p, hp, rfl⟩ := List.mem_map.1 hc
  have hpos := least_pos hp hgas
  rw [← toNat_total] at hpos
  simpa [Coin.isZero, Amount.isZero] using hpos.ne'

theorem totals_perm (h : prices.Perm prices') : (totals prices gas).Perm (totals prices' gas) :=
  ((h.filter _).map _).filter _

theorem isZero_of_mem_totals {c : Coin} (hc : c ∈ totals prices gas) : c.isZero = false := by
  simpa using (List.mem_filter.1 hc).2

theorem required_perm (h : prices.Perm prices') : required prices gas = required prices' gas :=
  congrArg (Except.mapError _) (Coins.ofList_perm (totals_perm h) fun _ => isZero_of_mem_totals)

theorem required_eq_ok_iff :
    required prices gas = .ok s ↔ Coins.ofList (totals prices gas) = .ok s := by
  unfold required
  cases Coins.ofList (totals prices gas) <;> simp [Except.mapError]

theorem required_of_totals (h : totals prices gas = []) : required prices gas = .ok .empty := by
  rw [required_eq_ok_iff, h]
  exact Coins.ofList_of_canonical Coins.canonical_nil

/-- Something is asked for, or there is an error, as the prices are consistent or not. -/
theorem exists_required_iff (hgas : gas ≠ 0) :
    (∃ s, required prices gas = .ok s) ↔ Consistent prices := by
  have hdenoms : (totals prices gas).map Coin.denom = (positive prices).map GasPrice.denom := by
    rw [totals_eq_map hgas, List.map_map]
    rfl
  simp only [required_eq_ok_iff, Coins.exists_ofList_eq_ok_iff, hdenoms]
  constructor
  · rintro ⟨hvalid, -, hnodup⟩
    refine ⟨fun p hp => ?_, hnodup⟩
    obtain ⟨c, hc, he⟩ := List.mem_map.1 (hdenoms ▸ List.mem_map_of_mem hp)
    exact he ▸ hvalid c hc
  · rintro ⟨hvalid, hnodup⟩
    refine ⟨fun c hc => ?_, fun c hc => ?_, hnodup⟩
    · obtain ⟨p, hp, he⟩ := List.mem_map.1 (hdenoms ▸ List.mem_map_of_mem hc)
      exact he ▸ hvalid p hp
    · have hnonzero := isZero_of_mem_totals hc
      simpa [Coin.isZero, Amount.isZero, Nat.pos_iff_ne_zero] using hnonzero

theorem ascending_of_required (h : required prices gas = .ok s) :
    s.toList.Pairwise fun c d => utf8 c.denom < utf8 d.denom :=
  (Coins.ofList_eq_ok_iff.1 (required_eq_ok_iff.1 h)).1.ascending

theorem mem_required_iff (hgas : gas ≠ 0) (h : required prices gas = .ok s) {c : Coin} :
    c ∈ s.toList ↔ ∃ p ∈ positive prices, c.denom = p.denom ∧ c.amount.toNat = p.least gas := by
  rw [(Coins.ofList_eq_ok_iff.1 (required_eq_ok_iff.1 h)).2.mem_iff, totals_eq_map hgas,
    List.mem_map]
  refine exists_congr fun p => and_congr_right fun _ => ?_
  obtain ⟨denom, amount⟩ := c
  rw [Coin.mk.injEq, ← toNat_total, Amount.toNat_inj, eq_comm (a := p.denom),
    eq_comm (a := p.total gas)]

theorem isEmpty_of_required_iff (hgas : gas ≠ 0) (h : required prices gas = .ok s) :
    s.isEmpty = true ↔ positive prices = [] := by
  have hperm := (Coins.ofList_eq_ok_iff.1 (required_eq_ok_iff.1 h)).2
  rw [totals_eq_map hgas] at hperm
  rw [Coins.isEmpty, List.isEmpty_iff_length_eq_zero, hperm.length_eq, List.length_map,
    List.length_eq_zero_iff]

theorem coversAny_required_iff (hgas : gas ≠ 0) (h : required prices gas = .ok s) :
    fee.coversAny s = true ↔
      ∃ p ∈ positive prices, p.least gas ≤ (fee.amountOf p.denom).toNat := by
  unfold Coins.coversAny
  rw [List.any_eq_true]
  constructor
  · rintro ⟨c, hc, hle⟩
    obtain ⟨p, hp, hdenom, hamount⟩ := (mem_required_iff hgas h).1 hc
    refine ⟨p, hp, ?_⟩
    rw [← hdenom, ← hamount]
    exact of_decide_eq_true hle
  · rintro ⟨p, hp, hle⟩
    refine ⟨⟨p.denom, p.total gas⟩, ?_, decide_eq_true ?_⟩
    · exact (mem_required_iff hgas h).2 ⟨p, hp, rfl, toNat_total p gas⟩
    · rw [← toNat_total] at hle
      exact hle

theorem met_iff_of_required (h : required prices gas = .ok s) :
    Met prices gas fee ↔ s.isEmpty = true ∨ fee.coversAny s = true := by
  by_cases hgas : gas = 0
  · subst hgas
    obtain rfl := Except.ok.inj ((required_of_totals (totals_zero prices)).symm.trans h)
    exact iff_of_true (.inl rfl) (.inl rfl)
  · rw [isEmpty_of_required_iff hgas h, coversAny_required_iff hgas h]
    exact or_iff_right hgas

end GasPrice

namespace FeeChecker

variable {ctx : Context} {tx : Transaction} {s : Coins}

/-- Without any prices nothing is asked for, so in the pool there is no need to look for them first. -/
theorem floor_of_pool (hmode : ctx.mode ≠ .deliver) : floor ctx tx = (do
    let required ← GasPrice.required ctx.minGasPrices tx.gasLimit
    if !required.isEmpty && !tx.fee.coversAny required then
      throw (.insufficientFee tx.fee required)) := by
  have hcheck : ctx.isCheck = true := by
    cases hm : ctx.mode with
    | check => simp [Context.isCheck, hm]
    | recheck => simp [Context.isCheck, hm]
    | deliver => exact absurd hm hmode
  unfold floor
  rw [hcheck]
  cases ctx.minGasPrices with
  | nil =>
    have hnothing : GasPrice.required [] tx.gasLimit = .ok .empty := GasPrice.required_of_totals rfl
    rw [hnothing]
    rfl
  | cons p prices => rfl

theorem floor_of_required (hmode : ctx.mode ≠ .deliver)
    (h : GasPrice.required ctx.minGasPrices tx.gasLimit = .ok s) : floor ctx tx =
      if !s.isEmpty && !tx.fee.coversAny s then .error (.insufficientFee tx.fee s) else .ok () := by
  rw [floor_of_pool hmode, h]
  rfl

theorem standard_of_floor (h : floor ctx tx = .ok ()) :
    standard ctx tx = .ok (tx.fee, tx.fee.priority tx.gasLimit) := by
  unfold standard
  rw [h]
  rfl

theorem standard_of_floor_error {e : AdmissionError} (h : floor ctx tx = .error e) :
    standard ctx tx = .error e := by
  unfold standard
  rw [h]
  rfl

theorem standard_of_deliver (hmode : ctx.mode = .deliver) :
    standard ctx tx = .ok (tx.fee, tx.fee.priority tx.gasLimit) := by
  refine standard_of_floor ?_
  simp [floor, Context.isCheck, hmode]

theorem standard_of_met (hmode : ctx.mode ≠ .deliver)
    (h : GasPrice.required ctx.minGasPrices tx.gasLimit = .ok s)
    (hmet : GasPrice.Met ctx.minGasPrices tx.gasLimit tx.fee) :
    standard ctx tx = .ok (tx.fee, tx.fee.priority tx.gasLimit) := by
  refine standard_of_floor ?_
  rw [floor_of_required hmode h]
  rcases (GasPrice.met_iff_of_required h).1 hmet with hempty | hcovers
  · simp [hempty]
  · simp [hcovers]

theorem standard_of_not_met (hmode : ctx.mode ≠ .deliver)
    (h : GasPrice.required ctx.minGasPrices tx.gasLimit = .ok s)
    (hmet : ¬GasPrice.Met ctx.minGasPrices tx.gasLimit tx.fee) :
    standard ctx tx = .error (.insufficientFee tx.fee s) := by
  refine standard_of_floor_error ?_
  rw [GasPrice.met_iff_of_required h, not_or] at hmet
  rw [floor_of_required hmode h]
  simp [hmet.1, hmet.2]

/-- In the pool, prices that are not consistent are an error, if there is gas to pay for. -/
theorem standard_of_inconsistent (hmode : ctx.mode ≠ .deliver) (hgas : tx.gasLimit ≠ 0)
    (h : ¬GasPrice.Consistent ctx.minGasPrices) :
    ∃ e, standard ctx tx = .error (.invalidGasPrices e) := by
  rw [← GasPrice.exists_required_iff hgas] at h
  cases he : Coins.ofList (GasPrice.totals ctx.minGasPrices tx.gasLimit) with
  | ok s => exact absurd ⟨s, GasPrice.required_eq_ok_iff.2 he⟩ h
  | error e =>
    refine ⟨e, standard_of_floor_error ?_⟩
    rw [floor_of_pool hmode, GasPrice.required, he]
    rfl

theorem standard_perm {prices : List GasPrice} (h : prices.Perm ctx.minGasPrices) :
    standard { ctx with minGasPrices := prices } tx = standard ctx tx := by
  by_cases hmode : ctx.mode = .deliver
  · rw [standard_of_deliver hmode]
    exact standard_of_deliver (by exact hmode)
  · have hfloor : floor { ctx with minGasPrices := prices } tx = floor ctx tx := by
      rw [floor_of_pool hmode, floor_of_pool (by exact hmode), GasPrice.required_perm h]
    unfold standard
    rw [hfloor]

/-- In the pool, consistent prices admit a fee exactly if it holds what one of them asks for, and refuse
it for what all of them ask; inconsistent ones admit none, if there is gas to pay for. In a block no fee
is refused. The order of the prices does not matter, and 256 bits hold every number on the way to what
a price asks for. -/
theorem standard_decides_floor (ctx : Context) (tx : Transaction) :
    (ctx.mode = .deliver → standard ctx tx = .ok (tx.fee, tx.fee.priority tx.gasLimit)) ∧
    (ctx.mode ≠ .deliver → GasPrice.Consistent ctx.minGasPrices →
      (standard ctx tx = .ok (tx.fee, tx.fee.priority tx.gasLimit) ↔
        GasPrice.Met ctx.minGasPrices tx.gasLimit tx.fee) ∧
      (¬GasPrice.Met ctx.minGasPrices tx.gasLimit tx.fee → ∃ required,
        standard ctx tx = .error (.insufficientFee tx.fee required) ∧
        (required.toList.Pairwise fun c d => utf8 c.denom < utf8 d.denom) ∧
        ∀ c, c ∈ required.toList ↔ ∃ p ∈ GasPrice.positive ctx.minGasPrices,
          c.denom = p.denom ∧ c.amount.toNat = p.least tx.gasLimit)) ∧
    (ctx.mode ≠ .deliver → ¬GasPrice.Consistent ctx.minGasPrices → tx.gasLimit ≠ 0 →
      ∃ e, standard ctx tx = .error (.invalidGasPrices e) ∧
        (AdmissionError.invalidGasPrices e).kind = .ledger) ∧
    (∀ prices, prices.Perm ctx.minGasPrices →
      standard { ctx with minGasPrices := prices } tx = standard ctx tx) ∧
    ∀ (p : GasPrice) (gas : UInt64),
      (p.wideProduct gas).toNat = p.amount.raw.toNat * gas.toNat ∧
      (p.wideProduct gas + GasPrice.wideOne).toNat =
        p.amount.raw.toNat * gas.toNat + Decimal.one ∧
      (p.wideTotal gas).toNat = (p.total gas).toNat ∧ (p.total gas).toNat = p.least gas := by
  refine ⟨standard_of_deliver, fun hmode hconsistent => ?_, fun hmode hinconsistent hgas => ?_,
    fun prices => standard_perm, fun p gas => ?_⟩
  · by_cases hgas : tx.gasLimit = 0
    · have hmet : GasPrice.Met ctx.minGasPrices tx.gasLimit tx.fee := .inl hgas
      have hrequired : GasPrice.required ctx.minGasPrices tx.gasLimit = .ok .empty := by
        rw [hgas]
        exact GasPrice.required_of_totals (GasPrice.totals_zero _)
      exact ⟨iff_of_true (standard_of_met hmode hrequired hmet) hmet, fun h => absurd hmet h⟩
    · obtain ⟨required, hrequired⟩ := (GasPrice.exists_required_iff hgas).2 hconsistent
      refine ⟨⟨fun hok => ?_, standard_of_met hmode hrequired⟩, fun hmet => ⟨required,
        standard_of_not_met hmode hrequired hmet, GasPrice.ascending_of_required hrequired,
        fun c => GasPrice.mem_required_iff hgas hrequired⟩⟩
      by_contra hmet
      rw [standard_of_not_met hmode hrequired hmet] at hok
      cases hok
  · obtain ⟨e, he⟩ := standard_of_inconsistent hmode hgas hinconsistent
    exact ⟨e, he, rfl⟩
  · refine ⟨GasPrice.toNat_wideProduct p gas, GasPrice.toNat_wideProduct_add p gas, ?_,
      GasPrice.toNat_total p gas⟩
    rw [GasPrice.toNat_wideTotal, GasPrice.toNat_total]

end FeeChecker

/-- A price of 0.025 stake. -/
def stakePrice : GasPrice := ⟨"stake", ⟨.clamp (25 * 10 ^ 15)⟩⟩

/-- With a price of zero before it, for a denom that is not well formed. -/
def stakePrices : List GasPrice := [⟨"?", .zero⟩, stakePrice]

/-- The first check of a transaction, against some prices. -/
def pricedContext (prices : List GasPrice) : Context :=
  { Context.new "main" 5 0 with mode := .check, minGasPrices := prices }

/-- A fee of so much stake for 100001 units of gas. -/
def stakePayment (n : Nat) : Transaction where
  body := ⟨[], "", 0, [], []⟩
  authInfo := ⟨[], ⟨⟨[⟨"stake", .clamp n⟩]⟩, 100001, none, none⟩⟩
  signatures := []

theorem positive_stakePrices : GasPrice.positive stakePrices = [stakePrice] := by decide +kernel

/-- The exact price is 2500.025. -/
theorem least_stakePrice : stakePrice.least 100001 = 2501 := by
  rw [← GasPrice.toNat_total]
  decide +kernel

theorem stakePayment_met_iff (n : Nat) :
    GasPrice.Met stakePrices 100001 (stakePayment n).fee ↔ 2501 ≤ n := by
  have hamount : ((stakePayment n).fee.amountOf "stake").toNat = min n (2 ^ 128 - 1) := rfl
  unfold GasPrice.Met
  rw [positive_stakePrices]
  simp only [List.mem_singleton, exists_eq_left, least_stakePrice, reduceCtorEq, false_or]
  rw [show stakePrice.denom = "stake" from rfl, hamount]
  constructor
  · rintro (h | h)
    · exact absurd h (by decide)
    · omega
  · intro h
    right
    omega

theorem stakePrices_decided :
    FeeChecker.standard (pricedContext stakePrices) (stakePayment 2501) =
      .ok ((stakePayment 2501).fee, (stakePayment 2501).fee.priority 100001) ∧
    (∃ required, FeeChecker.standard (pricedContext stakePrices) (stakePayment 2500) =
        .error (.insufficientFee (stakePayment 2500).fee required) ∧
      ∃ c ∈ required.toList, c.denom = "stake" ∧ c.amount.toNat = 2501) ∧
    (∃ e, FeeChecker.standard (pricedContext (stakePrices ++ stakePrices)) (stakePayment 2501) =
      .error (.invalidGasPrices e)) ∧
    FeeChecker.standard (pricedContext stakePrices.reverse) (stakePayment 2500) =
      FeeChecker.standard (pricedContext stakePrices) (stakePayment 2500) ∧
    FeeChecker.standard { pricedContext stakePrices with mode := .deliver } (stakePayment 2500) =
      .ok ((stakePayment 2500).fee, (stakePayment 2500).fee.priority 100001) := by
  have hpool : (pricedContext stakePrices).mode ≠ .deliver := by decide
  have hconsistent : GasPrice.Consistent stakePrices := ⟨by decide +kernel, by decide +kernel⟩
  have hrepeated : ¬GasPrice.Consistent (stakePrices ++ stakePrices) :=
    fun h => absurd h.nodup (by decide +kernel)
  refine ⟨?_, ?_, ?_, ?_, ?_⟩
  · exact ((FeeChecker.standard_decides_floor (pricedContext stakePrices) (stakePayment 2501)).2.1
      hpool hconsistent).1.2 ((stakePayment_met_iff 2501).2 (by decide))
  · obtain ⟨required, herror, -, hmem⟩ := ((FeeChecker.standard_decides_floor
      (pricedContext stakePrices) (stakePayment 2500)).2.1 hpool hconsistent).2
      fun h => absurd ((stakePayment_met_iff 2500).1 h) (by decide)
    refine ⟨required, herror, ⟨"stake", .clamp 2501⟩, (hmem _).2 ⟨stakePrice, ?_, rfl, ?_⟩, rfl, rfl⟩
    · rw [show (pricedContext stakePrices).minGasPrices = stakePrices from rfl, positive_stakePrices]
      exact List.mem_singleton_self _
    · exact least_stakePrice.symm
  · obtain ⟨e, he, -⟩ := (FeeChecker.standard_decides_floor
      (pricedContext (stakePrices ++ stakePrices)) (stakePayment 2501)).2.2.1 (by decide) hrepeated
      (by decide)
    exact ⟨e, he⟩
  · exact (FeeChecker.standard_decides_floor (pricedContext stakePrices)
      (stakePayment 2500)).2.2.2.1 _ (List.reverse_perm _)
  · exact (FeeChecker.standard_decides_floor { pricedContext stakePrices with mode := .deliver }
      (stakePayment 2500)).1 rfl

end Tollgate
