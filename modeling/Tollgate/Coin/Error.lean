/-! What can be wrong with a coin, a coin set or a decimal number. -/
namespace Tollgate

inductive CoinError where
  | invalidDenom (denom : String)
  | zeroAmount (denom : String)
  | duplicateDenom (denom : String)
  | unsorted
  | invalidDecimal (text : String)
  deriving DecidableEq, Repr

namespace CoinError

def message : CoinError → String
  | .invalidDenom d => s!"Invalid denom: {d}"
  | .zeroAmount d => s!"Zero amount for denom {d}"
  | .duplicateDenom d => s!"Duplicate denom: {d}"
  | .unsorted => "Coins are not sorted by denom"
  | .invalidDecimal t => s!"Invalid decimal: {t}"

end CoinError
end Tollgate
