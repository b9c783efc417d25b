import Tollgate.Coin.Basic
import Tollgate.Transaction.Json
/-! What can go wrong in the services that admission relies on. -/
namespace Tollgate

/-- Failures of the account ledger, the relay registry and the transaction counter. -/
inductive LedgerError where
  | accountNotFound (address : Address)
  | store (reason : String)
  deriving DecidableEq

def LedgerError.message : LedgerError → String
  | .accountNotFound a => s!"Account {a.hex} not found"
  | .store reason => s!"Store error: {reason}"

inductive FeeLedgerError where
  | insufficientFunds (denom : String) (required available : Amount)
  | store (reason : String)
  deriving DecidableEq

def FeeLedgerError.message : FeeLedgerError → String
  | .insufficientFunds denom required available =>
    s!"Insufficient funds in {denom}: required {required.text}, available {available.text}"
  | .store reason => s!"Store error: {reason}"

/-- Failures of a fee allowance. -/
inductive AllowanceError where
  | absent
  | exceeded (left requested : Coin)
  | expired
  | store (reason : String)
  deriving DecidableEq

def AllowanceError.message : AllowanceError → String
  | .absent => "No allowance"
  | .exceeded left requested => s!"Allowance exceeded: {left.text} left, {requested.text} requested"
  | .expired => "Allowance expired"
  | .store reason => s!"Store error: {reason}"

/-- Failures to make the bytes that a signer signs. -/
inductive SignModeError where
  | unsupported (mode : SignMode)
  | encoding (reason : String)
  deriving DecidableEq

def SignModeError.message : SignModeError → String
  | .unsupported mode => s!"Unsupported sign mode {mode.name}"
  | .encoding reason => s!"Cannot encode sign document: {reason}"

end Tollgate
