import Tollgate.Amount
import Tollgate.Bytes
import Tollgate.Coin.Error
/-! Coins and coin sets. A coin set is canonical when its denoms are well formed, its amounts
positive and its entries strictly ascending by the UTF-8 bytes of the denom. -/
namespace Tollgate

namespace Denom

/-- The characters a denom may have after its first one. -/
def isTailChar (c : Char) : Bool := c.isAlphanum || c ∈ ['/', ':', '.', '_', '-']

/-- A letter, then letters, digits and `/ : . _ -`: 3 to 128 characters, all of them ASCII. -/
def isValid (denom : String) : Bool :=
  match denom.toList with
  | [] => false
  | c :: cs => c.isAlpha && cs.all isTailChar && 2 ≤ cs.length && cs.length ≤ 127

def check (denom : String) : Except CoinError Unit :=
  if isValid denom then .ok () else .error (.invalidDenom denom)

end Denom

/-- An amount of one denomination. -/
structure Coin where
  denom : String
  amount : Amount
  deriving DecidableEq

namespace Coin

def text (c : Coin) : String := c.amount.text ++ c.denom

def isZero (c : Coin) : Bool := c.amount.isZero

/-- A single coin needs a well-formed denom; its amount may be zero. -/
def check (c : Coin) : Except CoinError Unit := Denom.check c.denom

/-- The order of coin sets: by the bytes of the denom. -/
def before (a b : Coin) : Bool := decide (utf8 a.denom ≤ utf8 b.denom)

end Coin

/-- A list of coins as it was received; it need not be canonical. -/
structure Coins where
  toList : List Coin
  deriving DecidableEq

namespace Coins

def empty : Coins := ⟨[]⟩

instance : Inhabited Coins := ⟨empty⟩

/-- An entry is compared with its predecessor only. -/
def checkOrder (previous : Option String) (denom : String) : Except CoinError Unit :=
  match previous with
  | none => .ok ()
  | some p =>
    if p = denom then .error (.duplicateDenom denom)
    else if utf8 denom < utf8 p then .error .unsorted
    else .ok ()

/-- Checks the entries in turn: denom, positive amount, then the order. -/
def checkFrom (previous : Option String) : List Coin → Except CoinError Unit
  | [] => .ok ()
  | c :: cs => do
    c.check
    if c.isZero then throw (.zeroAmount c.denom)
    checkOrder previous c.denom
    checkFrom (some c.denom) cs

/-- Accepts exactly the canonical sets. -/
def check (s : Coins) : Except CoinError Unit := checkFrom none s.toList

/-- The canonical set of some coins: sorted by denom, then checked. -/
def ofList (cs : List Coin) : Except CoinError Coins := do
  let sorted : Coins := ⟨cs.mergeSort Coin.before⟩
  sorted.check
  return sorted

def single (denom : String) (amount : Amount) : Except CoinError Coins := ofList [⟨denom, amount⟩]

/-- No entry has a positive amount. -/
def isZero (s : Coins) : Bool := s.toList.all Coin.isZero

def isEmpty (s : Coins) : Bool := s.toList.isEmpty

def size (s : Coins) : Nat := s.toList.length

/-- The amount of the first entry with this denom, or zero. -/
def amountOf (s : Coins) (denom : String) : Amount :=
  match s.toList.find? fun c => c.denom = denom with
  | some c => c.amount
  | none => .zero

/-- For some entry of `required` this set holds at least its amount. -/
def coversAny (s required : Coins) : Bool :=
  required.toList.any fun c => decide (c.amount ≤ s.amountOf c.denom)

def text (s : Coins) : String := ",".intercalate (s.toList.map Coin.text)

end Coins
end Tollgate
