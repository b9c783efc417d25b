import Tollgate.Ledger.Service
import Tollgate.Ledger.Table
/-! Balances in memory. -/
namespace Tollgate

structure Bank where
  balances : Table (Address × String) Amount

namespace Bank

def new : Bank := ⟨.empty⟩

/-- What an account holds of a denom; nothing if it has no entry. -/
def balance (b : Bank) (a : Address) (denom : String) : Amount :=
  (b.balances.find? (a, denom)).getD .zero

def setBalance (b : Bank) (a : Address) (denom : String) (amount : Amount) : Bank :=
  ⟨b.balances.insert (a, denom) amount⟩

/-- A coin can be moved: the payer holds enough of it, and the collector's balance would not leave
the range of amounts. -/
def checkMove (b : Bank) (payer collector : Address) (c : Coin) : Except FeeLedgerError Unit :=
  let available := b.balance payer c.denom
  if available < c.amount then .error (.insufficientFunds c.denom c.amount available)
  else if ((b.balance collector c.denom).add? c.amount).isNone then
    .error (.store "collector balance overflow")
  else .ok ()

/-- Takes a coin off an entry, if there is one. An entry of less is emptied, where the subtraction of
machine words would wrap. Once every coin was checked, only a fee that names a denom twice can get
there, and no valid set of coins does. -/
def debit (b : Bank) (payer : Address) (c : Coin) : Bank :=
  match b.balances.find? (payer, c.denom) with
  | some held => b.setBalance payer c.denom (held.subSat c.amount)
  | none => b

/-- Adds a coin to a balance. It stops at the largest amount, where the addition of machine words would
wrap; this too takes a denom that is named twice. -/
def credit (b : Bank) (collector : Address) (c : Coin) : Bank :=
  b.setBalance collector c.denom (.clamp ((b.balance collector c.denom).toNat + c.amount.toNat))

def move (b : Bank) (payer collector : Address) (c : Coin) : Bank :=
  (b.debit payer c).credit collector c

/-- Every coin is checked before the first one is moved. -/
def deduct (payer collector : Address) (fee : Coins) : Call FeeLedgerError Bank Unit := fun b =>
  match fee.toList.forM (b.checkMove payer collector) with
  | .error e => .error e b
  | .ok _ => .ok () (fee.toList.foldl (fun b c => b.move payer collector c) b)

end Bank
end Tollgate
