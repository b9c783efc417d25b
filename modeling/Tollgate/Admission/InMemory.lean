import Tollgate.Admission.Options
import Tollgate.Ledger.Memory
import Tollgate.Ledger.Outage
/-! Admission over services in memory, and over services that may fail. -/
namespace Tollgate

namespace Wiring

/-- Every service in memory, and the rules that hold unless others are given. -/
def inMemory (ceiling : SimulationCeiling) (settings : Settings) : Wiring Memory where
  accounts := Memory.accountLedger
  bank := Memory.feeLedger
  signModes := .standard Memory
  ceiling := ceiling
  counter := Memory.txCounter
  allowances := some Memory.allowanceRegistry
  relays := some Memory.relayRegistry
  checkFee := .standard
  acceptsOption := .acceptTypes settings.acceptedOptions
  signatureGas := .standard
  checkSignature := .standard Memory
  feeCollector := settings.feeCollector

end Wiring

namespace Options

/-- Every service in memory and no rule replaced. -/
def inMemory (ceiling : SimulationCeiling) (settings : Settings) : Options Memory where
  accounts := some Memory.accountLedger
  bank := some Memory.feeLedger
  signModes := some (.standard Memory)
  ceiling := some ceiling
  counter := some Memory.txCounter
  allowances := some Memory.allowanceRegistry
  relays := some Memory.relayRegistry
  feeChecker := none
  optionRule := none
  signatureGas := none
  checkSignature := .standard Memory
  settings := settings

/-- The same services, with outages. -/
def monitored {σ : Type} (o : Options σ) : Options (Monitored σ) where
  accounts := o.accounts.map AccountLedger.monitored
  bank := o.bank.map FeeLedger.monitored
  signModes := o.signModes.map SignModeHandler.monitored
  ceiling := o.ceiling
  counter := o.counter.map TxCounter.monitored
  allowances := o.allowances.map AllowanceRegistry.monitored
  relays := o.relays.map RelayRegistry.monitored
  feeChecker := o.feeChecker
  optionRule := o.optionRule
  signatureGas := o.signatureGas
  checkSignature := o.checkSignature.monitored
  settings := o.settings

end Options

namespace Handler

/-- All stages in the canonical order, over services in memory. -/
def inMemory (ceiling : SimulationCeiling) (settings : Settings) : Handler Memory :=
  ⟨.inMemory ceiling settings, .canonical⟩

end Handler
end Tollgate
