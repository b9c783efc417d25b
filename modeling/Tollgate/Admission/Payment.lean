import Tollgate.Admission.Run
/-! The stage that charges the fee, to the payer or to a granter who pays for it. -/
namespace Tollgate.Gate

variable {σ : Type}

/-- Takes a fee off an allowance; a simulation only looks at it. -/
def useAllowance (w : Wiring σ) (granter grantee : Address) (fee : Coins) (tx : Transaction)
    (simulate : Bool) : Gate σ Unit :=
  match w.allowances with
  | none => throw (.feeGrantDenied granter grantee .notEnabled)
  | some registry =>
    let use := if simulate then registry.check else registry.spend
    call (.ofAllowance granter grantee) (use granter grantee fee tx.messages)

/-- The account that is charged: a granter other than the payer, if there is one, whose allowance is
used. -/
def payingAccount (w : Wiring σ) (payer : Address) (fee : Coins) (tx : Transaction)
    (simulate : Bool) : Gate σ Address :=
  match tx.feeGranter with
  | some granter =>
    if granter = payer then pure payer
    else do
      useAllowance w granter payer fee tx simulate
      return granter
  | none => pure payer

def requireAccount (w : Wiring σ) (a : Address) : Gate σ Unit := do
  if (← account w a).isNone then throw (.unknownAccount a)

/-- Moves a fee to the collector; a simulation only looks at the funds. -/
def payFee (w : Wiring σ) (tx : Transaction) (fee : Coins) (simulate : Bool) : Gate σ Unit := do
  let collector := w.accounts.moduleAddress w.feeCollector
  requireAccount w collector
  let some payer := tx.feePayer | throw (.malformed .noFeePayer)
  let source ← payingAccount w payer fee tx simulate
  requireAccount w source
  if fee.isZero then return
  if simulate then call .ofFeeLedger (w.bank.ensureSpendable source fee)
  else call .ofFeeLedger (w.bank.deduct source collector fee)

/-- Outside simulation the gas must be positive after the first block, and the fee is checked. -/
def chargeFee (w : Wiring σ) (tx : Transaction) (simulate : Bool) : Gate σ Unit := do
  let c ← context
  if !simulate && !c.isGenesis && tx.gasLimit = 0 then throw .invalidGasLimit
  let (fee, priority) ← if simulate then pure (tx.fee, 0) else ofExcept (w.checkFee c tx)
  payFee w tx fee simulate
  modifyContext fun c => { c with priority := priority }

end Tollgate.Gate
