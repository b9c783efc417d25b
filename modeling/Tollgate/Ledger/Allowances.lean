import Tollgate.Ledger.Service
import Tollgate.Ledger.Table
/-! Fee allowances in memory: how much a granter still pays for a grantee. -/
namespace Tollgate

structure Allowance where
  /-- Absent for an allowance without a limit. -/
  limit : Option Coins
  deriving DecidableEq

namespace Allowance

/-- The limit covers every coin. -/
def checkCoins (limit : Coins) : List Coin → Except AllowanceError Unit
  | [] => .ok ()
  | c :: cs =>
    let left := limit.amountOf c.denom
    if left < c.amount then .error (.exceeded ⟨c.denom, left⟩ c) else checkCoins limit cs

def check (a : Allowance) (fee : Coins) : Except AllowanceError Unit :=
  match a.limit with
  | none => .ok ()
  | some limit => checkCoins limit fee.toList

/-- What a limit leaves after a fee; coins that are used up are dropped. -/
def remainder (limit fee : Coins) : List Coin :=
  (limit.toList.map fun c => { c with amount := c.amount.subSat (fee.amountOf c.denom) }).filter
    fun c => !c.isZero

/-- The allowance after a fee, or none when it is used up. -/
def spend (a : Allowance) (fee : Coins) : Except AllowanceError (Option Allowance) :=
  match a.limit with
  | none => .ok (some a)
  | some limit =>
    match Coins.ofList (remainder limit fee) with
    | .error e => .error (.store e.message)
    | .ok left => .ok (if left.isEmpty then none else some ⟨some left⟩)

end Allowance

structure Allowances where
  grants : Table (Address × Address) Allowance

namespace Allowances

def new : Allowances := ⟨.empty⟩

def find? (g : Allowances) (granter grantee : Address) : Option Allowance :=
  g.grants.find? (granter, grantee)

/-- Allows fees, up to a limit if there is one, in place of any earlier allowance. -/
def grant (g : Allowances) (granter grantee : Address) (limit : Option Coins) : Allowances :=
  ⟨g.grants.insert (granter, grantee) ⟨limit⟩⟩

def revoke (g : Allowances) (granter grantee : Address) : Allowances :=
  ⟨g.grants.erase (granter, grantee)⟩

/-- What is left of a limited allowance. -/
def remaining (g : Allowances) (granter grantee : Address) : Option Coins :=
  (g.find? granter grantee).bind Allowance.limit

/-- Keeps an allowance, or removes it when it is used up. -/
def put (g : Allowances) (granter grantee : Address) : Option Allowance → Allowances
  | some a => ⟨g.grants.insert (granter, grantee) a⟩
  | none => g.revoke granter grantee

def check (granter grantee : Address) (fee : Coins) : Call AllowanceError Allowances Unit :=
  fun g =>
    match g.find? granter grantee with
    | none => .error .absent g
    | some a =>
      match a.check fee with
      | .error e => .error e g
      | .ok _ => .ok () g

def spend (granter grantee : Address) (fee : Coins) : Call AllowanceError Allowances Unit :=
  fun g =>
    match g.find? granter grantee with
    | none => .error .absent g
    | some a =>
      match a.check fee, a.spend fee with
      | .error e, _ => .error e g
      | .ok _, .error e => .error e g
      | .ok _, .ok left => .ok () (g.put granter grantee left)

end Allowances
end Tollgate
