import Tollgate.Word
import Tollgate.Ledger.Service
import Tollgate.Ledger.Table
/-! Accounts in memory. -/
namespace Tollgate

/-- The address of a module account is derived from its name alone. -/
def moduleAddress (name : String) : Address :=
  (Sha256.hash (utf8 ("module/" ++ name))).take 20 Address.length_le_digest

structure AccountBook where
  accounts : Table Address Account
  params : AuthParams
  /-- The number of the next account that is created. -/
  nextNumber : UInt64

namespace AccountBook

def new (params : AuthParams) : AccountBook := ⟨.empty, params, 0⟩

def find? (b : AccountBook) (a : Address) : Option Account := b.accounts.find? a

def size (b : AccountBook) : Nat := b.accounts.size

def setParams (b : AccountBook) (params : AuthParams) : AccountBook := { b with params := params }

/-- Replaces or adds an account as it is. -/
def insert (b : AccountBook) (account : Account) : AccountBook :=
  { b with accounts := b.accounts.insert account.address account }

/-- The account of an address, created with the next number if there is none. -/
def create (b : AccountBook) (a : Address) : Account × AccountBook :=
  match b.find? a with
  | some account => (account, b)
  | none =>
    let account := Account.new a b.nextNumber
    (account, { b.insert account with nextNumber := b.nextNumber + 1 })

def createModule (b : AccountBook) (name : String) : Address × AccountBook :=
  (moduleAddress name, (b.create (moduleAddress name)).2)

/-- Changes the account of an address, if there is one. -/
def modify (b : AccountBook) (a : Address) (f : Account → Account) : AccountBook :=
  match b.find? a with
  | some account => { b with accounts := b.accounts.insert a (f account) }
  | none => b

def setSequence (b : AccountBook) (a : Address) (sequence : UInt64) : AccountBook :=
  b.modify a fun account => { account with sequence := sequence }

def setKey (a : Address) (key : PublicKey) : Call LedgerError AccountBook Unit := fun b =>
  match b.find? a with
  | none => .error (.accountNotFound a) b
  | some _ => .ok () (b.modify a fun account => { account with key := some key })

def advanceSequence (a : Address) : Call LedgerError AccountBook UInt64 := fun b =>
  match b.find? a with
  | none => .error (.accountNotFound a) b
  | some account =>
    match Word.add? account.sequence 1 with
    | none => .error (.store "sequence overflow") b
    | some sequence => .ok sequence (b.setSequence a sequence)

end AccountBook
end Tollgate
