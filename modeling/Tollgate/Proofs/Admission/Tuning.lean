import Tollgate.Proofs.Admission.AroundBook
import Tollgate.Proofs.Ledger.Memory
/-! Handlers over services in memory, and what can be chosen for them. -/
namespace Tollgate

open Call

/-- What can be chosen for a handler over services in memory: the optional services and the rules
that replace the standard ones. -/
structure Tuning where
  ceiling : SimulationCeiling
  settings : Settings
  grants : Bool
  relays : Bool
  feeChecker : Option FeeChecker
  optionRule : Option OptionRule
  signatureGas : Option SignatureGas

namespace Tuning

/-- All services, and no rule replaced. -/
def standard : Tuning := ⟨⟨none⟩, .default, true, true, none, none, none⟩

def options (u : Tuning) : Options Memory :=
  { Options.inMemory u.ceiling u.settings with
    allowances := if u.grants then some Memory.allowanceRegistry else none
    relays := if u.relays then some Memory.relayRegistry else none
    feeChecker := u.feeChecker
    optionRule := u.optionRule
    signatureGas := u.signatureGas }

def wiring (u : Tuning) : Wiring Memory :=
  { Wiring.inMemory u.ceiling u.settings with
    allowances := if u.grants then some Memory.allowanceRegistry else none
    relays := if u.relays then some Memory.relayRegistry else none
    checkFee := u.feeChecker.getD .standard
    acceptsOption := u.optionRule.getD (.acceptTypes u.settings.acceptedOptions)
    signatureGas := u.signatureGas.getD .standard }

theorem wiring_allowances (u : Tuning) : u.wiring.allowances =
    if u.grants then some Memory.allowanceRegistry else none := rfl

theorem wiring_relays (u : Tuning) : u.wiring.relays =
    if u.relays then some Memory.relayRegistry else none := rfl

theorem allowances_eq {u : Tuning} {registry : AllowanceRegistry Memory}
    (h : u.wiring.allowances = some registry) : registry = Memory.allowanceRegistry := by
  rw [wiring_allowances] at h
  split at h
  · exact (Option.some.inj h).symm
  · cases h

theorem relays_eq {u : Tuning} {registry : RelayRegistry Memory}
    (h : u.wiring.relays = some registry) : registry = Memory.relayRegistry := by
  rw [wiring_relays] at h
  split at h
  · exact (Option.some.inj h).symm
  · cases h

theorem keepsBook (u : Tuning) : u.wiring.KeepsBook Memory.accounts where
  account _ _ := rfl
  setKey _ _ := Memory.mirrors_onAccounts _
  advance _ := Memory.mirrors_onAccounts _
  spendable _ _ := leaves_reading _ _
  deduct _ _ _ := Memory.leaves_accounts_onBank _
  checkAllowance _ hr _ _ _ _ := by
    obtain rfl := allowances_eq hr
    exact Memory.leaves_accounts_onAllowances _
  spendAllowance _ hr _ _ _ _ := by
    obtain rfl := allowances_eq hr
    exact Memory.leaves_accounts_onAllowances _
  signBytes _ _ _ := leaves_reading _ _
  checkSignature _ _ _ := leaves_ofExcept _ _
  isProcessed _ hr _ _ := by
    obtain rfl := relays_eq hr
    exact leaves_reading _ _
  increment _ _ := Memory.leaves_accounts_onCounter _

theorem checks (u : Tuning) : u.wiring.Checks SingleKey.verify := ⟨rfl, rfl⟩

/-- All stages in the canonical order. -/
def handler (u : Tuning) : Handler Memory := ⟨u.wiring, .canonical⟩

theorem build_options (u : Tuning) : u.options.build Stage.canonical = .ok u.handler := rfl

end Tuning
end Tollgate
