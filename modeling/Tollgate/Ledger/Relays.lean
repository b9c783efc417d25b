import Tollgate.Ledger.Service
/-! The packet actions that were already applied, in memory. -/
namespace Tollgate

structure RelayLog where
  processed : List (RelayAction × PacketId)
  deriving DecidableEq

namespace RelayLog

def new : RelayLog := ⟨[]⟩

def isProcessed (r : RelayLog) (action : RelayAction) (packet : PacketId) : Bool :=
  (action, packet) ∈ r.processed

def markProcessed (r : RelayLog) (action : RelayAction) (packet : PacketId) : RelayLog :=
  if r.isProcessed action packet then r else ⟨(action, packet) :: r.processed⟩

end RelayLog
end Tollgate
