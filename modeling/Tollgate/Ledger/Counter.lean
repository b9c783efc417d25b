import Tollgate.Ledger.Service
import Tollgate.Ledger.Table
/-! The transaction counter of the current block, in memory. -/
namespace Tollgate

structure BlockCounter where
  height : UInt64
  count : UInt32
  /-- How many messages of each type were counted, by words that come round at 2^64. -/
  tallies : Table String UInt64

namespace BlockCounter

def new : BlockCounter := ⟨0, 0, .empty⟩

def typeCount (c : BlockCounter) (url : String) : UInt64 := (c.tallies.find? url).getD 0

def addTally (tallies : Table String UInt64) (url : String) : Table String UInt64 :=
  tallies.insert url ((tallies.find? url).getD 0 + 1)

/-- The counter as it stands for a block: another height starts from nothing. -/
def atHeight (c : BlockCounter) (height : UInt64) : BlockCounter :=
  if c.height = height then c else ⟨height, 0, .empty⟩

def increment (height : UInt64) (urls : List String) : Call LedgerError BlockCounter UInt32 :=
  fun c =>
    let c := c.atHeight height
    if c.count.toNat + 1 < 2 ^ 32 then
      .ok c.count { c with count := c.count + 1, tallies := urls.foldl addTally c.tallies }
    else .error (.store "tx counter overflow") c

end BlockCounter
end Tollgate
