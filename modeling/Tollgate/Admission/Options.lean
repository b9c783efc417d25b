import Tollgate.Admission.Handler
import Tollgate.Text.Quoted
/-! Options from which a handler is built. -/
namespace Tollgate

/-- The services and rules that a handler is to have. The first five services are needed; the rest
has a default. -/
structure Options (σ : Type) where
  accounts : Option (AccountLedger σ)
  bank : Option (FeeLedger σ)
  signModes : Option (SignModeHandler σ)
  ceiling : Option SimulationCeiling
  counter : Option (TxCounter σ)
  allowances : Option (AllowanceRegistry σ)
  relays : Option (RelayRegistry σ)
  /-- Replaces the price that a node asks for. -/
  feeChecker : Option FeeChecker
  /-- Replaces the accepted options of the settings. -/
  optionRule : Option OptionRule
  /-- Replaces the cost of single keys. -/
  signatureGas : Option SignatureGas
  checkSignature : SignatureChecker σ
  settings : Settings

namespace Options

variable {σ : Type}

/-- Every needed service with whether it is absent. -/
def absences (o : Options σ) : List (Capability × Bool) :=
  [(.accountLedger, o.accounts.isNone), (.feeLedger, o.bank.isNone),
   (.signModeHandler, o.signModes.isNone), (.simulationCeiling, o.ceiling.isNone),
   (.txCounter, o.counter.isNone)]

/-- The needed services that are absent. -/
def missing (o : Options σ) : List Capability := (o.absences.filter Prod.snd).map Prod.fst

/-- The wiring, when nothing is missing. -/
def wiring? (o : Options σ) : Option (Wiring σ) := do
  return {
    accounts := ← o.accounts
    bank := ← o.bank
    signModes := ← o.signModes
    ceiling := ← o.ceiling
    counter := ← o.counter
    allowances := o.allowances
    relays := o.relays
    checkFee := o.feeChecker.getD .standard
    acceptsOption := o.optionRule.getD (.acceptTypes o.settings.acceptedOptions)
    signatureGas := o.signatureGas.getD .standard
    checkSignature := o.checkSignature
    feeCollector := o.settings.feeCollector }

/-- Builds a handler for an order of stages. Missing services are reported before a wrong order. -/
def build (o : Options σ) (order : List Stage) : Except BuildError (Handler σ) :=
  match o.wiring? with
  | none => .error (.missing o.missing)
  | some w => (StageOrder.ofList order).map (⟨w, ·⟩) |>.mapError .order

/-- The options, for logs. -/
def describe (o : Options σ) : String :=
  let missing := ", ".intercalate (o.missing.map Capability.tag)
  let accepted := ", ".intercalate (o.settings.acceptedOptions.map Text.quoted)
  let collector := Text.quoted o.settings.feeCollector
  s!"PipelineOptions \x7b missing: [{missing}], fee_grants: {o.allowances.isSome}, " ++
  s!"relay_registry: {o.relays.isSome}, custom_fee_checker: {o.feeChecker.isSome}, " ++
  s!"config: AdmissionConfig \x7b fee_collector: {collector}, " ++
  s!"accepted_extension_options: [{accepted}] \x7d \x7d"

end Options
end Tollgate
