import Tollgate.Admission.Run
/-! The first stages of a run: a clean context, the limit of a simulation, the position in the block
and the extension options. -/
namespace Tollgate

/-- The meter of a run: simulations and the first block have no limit. -/
def Context.freshMeter (c : Context) (tx : Transaction) (simulate : Bool) : GasMeter :=
  if simulate || c.isGenesis then .infinite else .limited tx.gasLimit

/-- The gas a simulation may ask for: the limit that is set, else a positive limit of the block. -/
def SimulationCeiling.effective (c : SimulationCeiling) (ctx : Context) : Option UInt64 :=
  c.limit <|> ctx.maxBlockGas.filter (0 < ·)

/-- A node must understand every option that is critical. -/
def Transaction.checkOptions (rule : OptionRule) (tx : Transaction) : Except AdmissionError Unit :=
  match tx.body.extensionOptions.find? fun o => !rule o with
  | some o => .error (.malformed (.extensionOption o.typeUrl))
  | none => .ok ()

namespace Gate

variable {σ : Type}

def setup (tx : Transaction) (simulate : Bool) : Gate σ Unit :=
  modifyContext fun c => c.reset simulate (c.freshMeter tx simulate)

/-- Limits the meter of a simulation by the ceiling. -/
def capGas (w : Wiring σ) (tx : Transaction) (simulate : Bool) : Gate σ Unit := do
  if !simulate then return
  match w.ceiling.effective (← context) with
  | none => return
  | some ceiling =>
    if ceiling < tx.gasLimit then throw (.gasCeilingExceeded tx.gasLimit ceiling)
    modifyContext fun c => { c with meter := c.meter.withLimit ceiling }

/-- A simulation is not counted. -/
def countInBlock (w : Wiring σ) (tx : Transaction) (simulate : Bool) : Gate σ Unit := do
  if simulate then return
  let c ← context
  let index ← call .ofLedger (w.counter.increment c.height tx.typeUrls)
  modifyContext fun c => { c with txIndex := some index }

def checkOptions (w : Wiring σ) (tx : Transaction) : Gate σ Unit :=
  ofExcept (tx.checkOptions w.acceptsOption)

end Gate
end Tollgate
