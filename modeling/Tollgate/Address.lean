import Tollgate.Bytes
/-! Account addresses. -/
namespace Tollgate

/-- An account address: the first twenty bytes of a SHA-256 digest. -/
abbrev Address := FixedBytes 20

namespace Address

theorem length_le_digest : 20 ≤ 32 := by decide

/-- The all-zero address stands for no account. -/
def zero : Address := .replicate 20 0

def hex (a : Address) : String := hexText a.toList

end Address
end Tollgate
