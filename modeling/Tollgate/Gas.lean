import Tollgate.Word
/-! Gas meters. A charge that fails is kept, so the gas consumed never decreases. -/
namespace Tollgate

inductive GasError where
  | outOfGas (descriptor : String) (limit consumed : UInt64)
  | overflow (descriptor : String)
  deriving DecidableEq, Repr

def GasError.message : GasError → String
  | .outOfGas d limit consumed => s!"Out of gas in {d}: limit {limit}, consumed {consumed}"
  | .overflow d => s!"Gas overflow in {d}"

structure GasMeter where
  /-- Absent for a meter that never runs out. -/
  limit : Option UInt64
  consumed : UInt64
  deriving DecidableEq, Repr

namespace GasMeter

def limited (limit : UInt64) : GasMeter := ⟨some limit, 0⟩

def infinite : GasMeter := ⟨none, 0⟩

/-- Another limit for what was already consumed. -/
def withLimit (m : GasMeter) (limit : UInt64) : GasMeter := { m with limit := some limit }

def isInfinite (m : GasMeter) : Bool := m.limit.isNone

def remaining (m : GasMeter) : Option UInt64 := m.limit.map fun l => Word.subSat l m.consumed

/-- Charges some gas. A sum that does not fit leaves the meter at the largest word. -/
def consume (amount : UInt64) (descriptor : String) : EStateM GasError GasMeter Unit := fun m =>
  match Word.add? m.consumed amount with
  | none => .error (.overflow descriptor) { m with consumed := Word.clamp (2 ^ 64) }
  | some total =>
    let charged := { m with consumed := total }
    match m.limit with
    | some limit =>
      if limit < total then .error (.outOfGas descriptor limit total) charged else .ok () charged
    | none => .ok () charged

end GasMeter
end Tollgate
