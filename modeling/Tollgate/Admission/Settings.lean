import Tollgate.Admission.Stage
import Tollgate.Transaction.Json
/-! Settings of admission, and their JSON form. -/
namespace Tollgate

open Json (Decoder)

structure Settings where
  /-- The module account that fees are paid to. -/
  feeCollector : String
  /-- The extension options that are accepted when no other rule is given. -/
  acceptedOptions : List String
  deriving DecidableEq

namespace Settings

def default : Settings := ⟨"fee_collector", []⟩

instance : Inhabited Settings := ⟨default⟩

def toJson (s : Settings) : Json := .record
  [("fee_collector", .string s.feeCollector),
   ("accepted_extension_options", .ofList .string s.acceptedOptions)]

/-- The accepted options may be left out. -/
def decode : Decoder Settings := fun levels j => do
  let fs ← Decoder.fields ["fee_collector", "accepted_extension_options"] levels j
  let [collector, options] := fs.values | none
  return ⟨← fs.required Decoder.string collector,
    ← fs.defaulting (Decoder.list Decoder.string) [] options⟩

end Settings

/-- How much gas a simulation may ask for. -/
structure SimulationCeiling where
  /-- Absent to take the gas of a whole block. -/
  limit : Option UInt64
  deriving DecidableEq, Repr

namespace SimulationCeiling

def toJson (c : SimulationCeiling) : Json := .record
  [("simulation_gas_limit", .ofOption (fun n => .nat n.toNat) c.limit)]

def decode : Decoder SimulationCeiling := fun levels j => do
  let fs ← Decoder.fields ["simulation_gas_limit"] levels j
  let [limit] := fs.values | none
  return ⟨← fs.optional Decoder.word64 limit⟩

end SimulationCeiling

namespace Stage

def toJson (s : Stage) : Json := .string s.tag

def decode : Decoder Stage := fun levels j => do
  let c ← Decoder.choice levels j
  c.unit (← ofTag? c.name)

end Stage
end Tollgate
