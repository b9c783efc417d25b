/-! The stages of admission and the orders in which they may run. -/
namespace Tollgate

inductive Stage where
  /-- A fresh gas meter and a clean context. -/
  | setup
  | gasCeiling
  /-- The position of the transaction in its block. -/
  | blockIndex
  | options
  /-- What can be checked without looking at any account. -/
  | form
  | timeout
  | memo
  | size
  | fee
  | keys
  | keyCount
  | signatureGas
  | signatures
  | sequences
  /-- Transactions that only deliver packets which were already applied. -/
  | relay
  deriving DecidableEq, Repr

namespace Stage

/-- All stages, in the order in which they run unless another order is given. -/
def canonical : List Stage :=
  [.setup, .gasCeiling, .blockIndex, .options, .form,
   .timeout, .memo, .size, .fee, .keys,
   .keyCount, .signatureGas, .signatures, .sequences, .relay]

/-- The place in the canonical order. -/
def position (s : Stage) : Nat := canonical.idxOf s

/-- The name in error messages. -/
def name : Stage → String
  | .setup => "set_up_context"
  | .gasCeiling => "limit_simulation_gas"
  | .blockIndex => "count_tx"
  | .options => "extension_options"
  | .form => "validate_basic"
  | .timeout => "tx_timeout_height"
  | .memo => "validate_memo"
  | .size => "consume_gas_for_tx_size"
  | .fee => "deduct_fee"
  | .keys => "set_pub_key"
  | .keyCount => "validate_sig_count"
  | .signatureGas => "sig_gas_consume"
  | .signatures => "sig_verification"
  | .sequences => "increment_sequence"
  | .relay => "redundant_relay"

/-- The name in documents. -/
def tag : Stage → String
  | .setup => "SetUpContext"
  | .gasCeiling => "LimitSimulationGas"
  | .blockIndex => "CountTx"
  | .options => "ExtensionOptions"
  | .form => "ValidateBasic"
  | .timeout => "TxTimeoutHeight"
  | .memo => "ValidateMemo"
  | .size => "ConsumeGasForTxSize"
  | .fee => "DeductFee"
  | .keys => "SetPubKey"
  | .keyCount => "ValidateSigCount"
  | .signatureGas => "SigGasConsume"
  | .signatures => "SigVerification"
  | .sequences => "IncrementSequence"
  | .relay => "RedundantRelay"

def ofTag? (t : String) : Option Stage := canonical.find? fun s => s.tag = t

theorem mem_canonical (s : Stage) : s ∈ canonical := by cases s <;> decide

theorem nodup_canonical : canonical.Nodup := by decide

end Stage

/-- Why stages cannot run in some order. -/
inductive OrderError where
  | empty
  | startsWith (first : Stage)
  | repeated (stage : Stage)
  deriving DecidableEq, Repr

def OrderError.message : OrderError → String
  | .empty => "stage order is empty"
  | .startsWith s => s!"first stage must be {Stage.setup.name}, got {s.name}"
  | .repeated s => s!"stage {s.name} appears more than once"

/-- An order in which stages may run: the context is set up first, and no stage runs twice. -/
structure StageOrder where
  stages : List Stage
  head_eq : stages.head? = some .setup
  nodup : stages.Nodup
  deriving DecidableEq

namespace StageOrder

def canonical : StageOrder := ⟨Stage.canonical, rfl, Stage.nodup_canonical⟩

/-- The first stage that already occurred. -/
def repeated? (seen : List Stage) : List Stage → Option Stage
  | [] => none
  | s :: ss => if s ∈ seen then some s else repeated? (s :: seen) ss

theorem repeated?_eq_none_iff {seen ss : List Stage} :
    repeated? seen ss = none ↔ ss.Nodup ∧ ∀ s ∈ ss, s ∉ seen := by
  induction ss generalizing seen with
  | nil => simp [repeated?]
  | cons s ss ih =>
    unfold repeated?
    split
    · next h => simp [h]
    · next h =>
      rw [ih]
      simp only [List.nodup_cons, List.mem_cons, not_or, forall_eq_or_imp]
      constructor
      · rintro ⟨hn, hs⟩
        exact ⟨⟨fun hm => (hs s hm).1 rfl, hn⟩, h, fun t ht => (hs t ht).2⟩
      · rintro ⟨⟨hm, hn⟩, _, hs⟩
        exact ⟨hn, fun t ht => ⟨fun e => hm (e ▸ ht), hs t ht⟩⟩

def ofList (ss : List Stage) : Except OrderError StageOrder :=
  match hh : ss.head? with
  | none => .error .empty
  | some first =>
    if hf : first = .setup then
      match hr : repeated? [] ss with
      | some s => .error (.repeated s)
      | none => .ok ⟨ss, hh.trans (congrArg some hf), (repeated?_eq_none_iff.1 hr).1⟩
    else .error (.startsWith first)

end StageOrder
end Tollgate
