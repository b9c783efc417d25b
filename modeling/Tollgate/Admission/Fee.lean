import Tollgate.Admission.Context
import Tollgate.Admission.Error
/-! The fee a node asks for, and the priority a fee buys. -/
namespace Tollgate

/-- Finds the fee to charge and the priority, or refuses the transaction. -/
abbrev FeeChecker := Context → Transaction → Except AdmissionError (Coins × Int64)

namespace GasPrice

/-- The price of some gas, rounded up; the largest amount if it does not fit. -/
def total (p : GasPrice) (gas : UInt64) : Amount :=
  .clamp ((p.amount.raw.toNat * gas.toNat + (Decimal.one - 1)) / Decimal.one)

/-- The coins that some gas costs; prices and totals of zero are left out. -/
def totals (prices : List GasPrice) (gas : UInt64) : List Coin :=
  ((prices.filter fun p => !p.amount.isZero).map fun p => ⟨p.denom, p.total gas⟩).filter
    fun c => !c.isZero

/-- What a node asks for some gas. -/
def required (prices : List GasPrice) (gas : UInt64) : Except AdmissionError Coins :=
  (Coins.ofList (totals prices gas)).mapError .invalidGasPrices

end GasPrice

namespace Coins

/-- The least fee for one unit of gas, over the coins of the fee. -/
def perGas? (fee : Coins) (gas : UInt64) : Option Nat :=
  (fee.toList.map fun c => c.amount.toNat / gas.toNat).min?

/-- The least fee for one unit of gas; zero without gas or coins. -/
def priority (fee : Coins) (gas : UInt64) : Int64 :=
  if gas = 0 then 0 else Int64.ofNat (min ((fee.perGas? gas).getD 0) (2 ^ 63 - 1))

end Coins

namespace FeeChecker

/-- In the pool, some coin of the fee must reach what the node asks for. -/
def floor (ctx : Context) (tx : Transaction) : Except AdmissionError Unit :=
  if ctx.isCheck && !ctx.minGasPrices.isEmpty then do
    let required ← GasPrice.required ctx.minGasPrices tx.gasLimit
    if !required.isEmpty && !tx.fee.coversAny required then
      throw (.insufficientFee tx.fee required)
  else .ok ()

/-- Charges the fee that the transaction states. -/
def standard : FeeChecker := fun ctx tx => do
  floor ctx tx
  return (tx.fee, tx.fee.priority tx.gasLimit)

end FeeChecker
end Tollgate
