import Tollgate.Admission.Form
import Tollgate.Admission.Intake
import Tollgate.Admission.Payment
import Tollgate.Admission.Relay
import Tollgate.Admission.Signers
/-! Handlers: stages run in order until one fails or halts. -/
namespace Tollgate

variable {σ : Type}

namespace Stage

def proceeding (g : Gate σ Unit) : Gate σ Flow := do
  g
  return .proceed

/-- One stage, run by itself. -/
def run (w : Wiring σ) (tx : Transaction) (simulate : Bool) : Stage → Gate σ Flow
  | .setup => proceeding (Gate.setup tx simulate)
  | .gasCeiling => proceeding (Gate.capGas w tx simulate)
  | .blockIndex => proceeding (Gate.countInBlock w tx simulate)
  | .options => proceeding (Gate.checkOptions w tx)
  | .form => proceeding (Gate.checkForm tx)
  | .timeout => proceeding (Gate.checkTimeout tx)
  | .memo => proceeding (Gate.checkMemo w tx)
  | .size => proceeding (Gate.chargeSize w tx simulate)
  | .fee => proceeding (Gate.chargeFee w tx simulate)
  | .keys => proceeding (Gate.resolveKeys w tx simulate)
  | .keyCount => proceeding (Gate.checkKeyCount w tx simulate)
  | .signatureGas => proceeding (Gate.chargeSignatures w tx simulate)
  | .signatures => proceeding (Gate.verifySignatures w tx simulate)
  | .sequences => proceeding (Gate.advanceSequences w tx simulate)
  | .relay => Gate.checkRelay w tx simulate

/-- Runs stages one after the other. -/
def runAll (w : Wiring σ) (tx : Transaction) (simulate : Bool) :
    List Stage → EStateM StageError (Run σ) Admission
  | [] => pure .accepted
  | s :: rest => fun r =>
    match s.run w tx simulate r with
    | .ok .proceed r => runAll w tx simulate rest r
    | .ok (.halt outcome) r => .ok outcome r
    | .error e r => .error ⟨s, e⟩ r

end Stage

/-- A fixed sequence of stages over some services. -/
structure Handler (σ : Type) where
  wiring : Wiring σ
  order : StageOrder

namespace Handler

/-- Runs the stages on a transaction. The context is left as the last stage wrote it. -/
def handle (h : Handler σ) (tx : Transaction) (simulate : Bool) :
    EStateM StageError (Run σ) Admission := Stage.runAll h.wiring tx simulate h.order.stages

def handleIn (h : Handler σ) (mode : ExecMode) (tx : Transaction) (simulate : Bool) :
    EStateM StageError (Run σ) Admission := fun r =>
  h.handle tx simulate { r with context := { r.context with mode := mode } }

/-- Before a transaction enters the pool. -/
def check (h : Handler σ) (tx : Transaction) : EStateM StageError (Run σ) Admission :=
  h.handleIn .check tx false

/-- Again for a transaction in the pool. -/
def recheck (h : Handler σ) (tx : Transaction) : EStateM StageError (Run σ) Admission :=
  h.handleIn .recheck tx false

/-- In a block. -/
def deliver (h : Handler σ) (tx : Transaction) : EStateM StageError (Run σ) Admission :=
  h.handleIn .deliver tx false

/-- A dry run to estimate gas; the rules of the pool do not apply. -/
def simulate (h : Handler σ) (tx : Transaction) : EStateM StageError (Run σ) Admission :=
  h.handleIn .deliver tx true

/-- The stages, for logs. -/
def describe (h : Handler σ) : String :=
  let stages := ", ".intercalate (h.order.stages.map Stage.tag)
  s!"AnteHandler \x7b stages: [{stages}] \x7d"

end Handler
end Tollgate
