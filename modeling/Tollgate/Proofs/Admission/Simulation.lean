import Tollgate.Proofs.Admission.Charge
/-! Simulations leave every service as it was, and depend on nothing that an earlier run left in the
context, so that a simulation can be repeated. -/
namespace Tollgate

open Call Relation

/-- The caller states the same about the block. What earlier runs left may differ. -/
structure Context.SameCaller (c d : Context) : Prop where
  chainId : c.chainId = d.chainId
  height : c.height = d.height
  time : c.time = d.time
  mode : c.mode = d.mode
  minGasPrices : c.minGasPrices = d.minGasPrices
  txBytes : c.txBytes = d.txBytes
  maxBlockGas : c.maxBlockGas = d.maxBlockGas

theorem Context.SameCaller.reset_eq {c d : Context} (h : c.SameCaller d) (simulate : Bool)
    (meter : GasMeter) : c.reset simulate meter = d.reset simulate meter := by
  simp [reset, h.chainId, h.height, h.time, h.mode, h.minGasPrices, h.txBytes, h.maxBlockGas]

theorem Context.sameCaller_of_reset_eq {c d : Context} {simulate : Bool} {meter : GasMeter}
    (h : c.reset simulate meter = d.reset simulate meter) : c.SameCaller d := by
  simp only [reset, Context.mk.injEq] at h
  obtain ⟨hchain, hheight, htime, hmode, hprices, hbytes, hgas, -⟩ := h
  exact ⟨hchain, hheight, htime, hmode, hprices, hbytes, hgas⟩

theorem Allowances.after_check (granter grantee : Address) (fee : Coins) (g : Allowances) :
    after (check granter grantee fee) g = g := by
  unfold after check
  cases g.find? granter grantee with
  | none => rfl
  | some allowance =>
    dsimp only
    cases allowance.check fee <;> rfl

/-- What the services are asked in a simulation changes none of them. -/
theorem Change.services_of_simulate {tuning : Tuning} {tx : Transaction} {s : Stage}
    {r t : Run Memory} (h : Change tuning.wiring tx true s r t) : t.services = r.services := by
  cases h with
  | count _ hs => cases hs
  | index _ _ hs => cases hs
  | deduct _ _ _ hs => cases hs
  | spendAllowance _ _ _ _ _ _ hs => cases hs
  | storeKey _ _ _ _ _ _ hs => cases hs
  | advance _ _ hs => cases hs
  | checkAllowance _ registry granter grantee fee hr =>
    obtain rfl := Tuning.allowances_eq hr
    have hcheck := Memory.after_onAllowances (Allowances.check granter grantee fee) r.services
    rw [Allowances.after_check] at hcheck
    exact hcheck
  | checkSignature => exact after_ofExcept _ _
  | isProcessed _ registry action packet hr =>
    obtain rfl := Tuning.relays_eq hr
    rfl
  | _ => rfl

namespace Handler

variable {h : Handler Memory} {tuning : Tuning}

theorem services_of_simulate (hw : h.wiring = tuning.wiring) (tx : Transaction) (r : Run Memory) :
    (after (h.handle tx true) r).services = r.services := by
  refine Stage.eq_of_reached (f := fun x => x.services) ?_ (Stage.within_runAll h.order.stages r)
  intro s _ x y hc
  rw [hw] at hc
  exact hc.services_of_simulate

theorem sameCaller_after_handle (tx : Transaction) (simulate : Bool) (r : Run Memory) :
    (after (h.handle tx simulate) r).context.SameCaller r.context :=
  Context.sameCaller_of_reset_eq
    (Stage.caller_of_reached (Stage.within_runAll h.order.stages r))

/-- The first stage forgets what an earlier run left. -/
theorem handle_eq_of_sameCaller {c d : Context} (hc : c.SameCaller d) (tx : Transaction)
    (s : Memory) : h.handle tx true ⟨c, s⟩ = h.handle tx true ⟨d, s⟩ := by
  have hhead := h.order.head_eq
  unfold handle
  cases hstages : h.order.stages with
  | nil =>
    rw [hstages] at hhead
    cases hhead
  | cons first rest =>
    rw [hstages] at hhead
    obtain rfl := Option.some.inj hhead
    have hsetup (e : Context) : Stage.runAll h.wiring tx true (.setup :: rest) ⟨e, s⟩ =
        Stage.runAll h.wiring tx true rest ⟨e.reset true .infinite, s⟩ := rfl
    rw [hsetup c, hsetup d, hc.reset_eq]

/-- A simulation is read-only and can be repeated: whatever the order of the stages, the optional
services and the rules, it leaves all services as they were, and its result and the context it leaves
depend on what the caller states about the block alone. So do those of a second simulation from the
context of the first one. -/
theorem simulation_repeatable {order : List Stage} (hb : tuning.options.build order = .ok h)
    (tx : Transaction) (r : Run Memory) :
    (after (h.handle tx true) r).services = r.services ∧
    (∀ c : Context, c.SameCaller r.context →
      h.handle tx true ⟨c, r.services⟩ = h.handle tx true r) ∧
    (after (h.handle tx true) r).context.SameCaller r.context ∧
    h.handle tx true (after (h.handle tx true) r) = h.handle tx true r := by
  have hw : h.wiring = tuning.wiring := (Option.some.inj (Options.build_eq_ok hb).1).symm
  have hservices := services_of_simulate hw tx r
  have hcaller := sameCaller_after_handle (h := h) tx true r
  refine ⟨hservices, fun c hc => handle_eq_of_sameCaller hc tx r.services, hcaller, ?_⟩
  have hagain := handle_eq_of_sameCaller (h := h) hcaller tx r.services
  rw [← hservices] at hagain
  exact hagain.trans (congrArg (fun s => h.handle tx true ⟨r.context, s⟩) hservices)

end Handler

/-- A transfer without its signature, as it is sent to learn what it costs. -/
def unsignedTransfer : Transaction := { transfer 0 none with signatures := [[]] }

/-- An order in which sequences, signatures and keys come before the fee. -/
def scrambled : List Stage :=
  [.setup, .sequences, .signatures, .relay, .keys, .fee, .size, .blockIndex, .gasCeiling]

/-- A context in which another run left its traces. -/
def tracedContext : Context :=
  { Context.new "unit" 1 0 with
    simulate := true
    meter := ⟨some 5, 9⟩
    priority := 7
    txIndex := some 3
    redundantPackets := some [] }

theorem scrambled_simulation_repeatable : ∃ h,
    Tuning.standard.options.build scrambled = .ok h ∧
    (after (h.handle unsignedTransfer true) unitMemoryRun).services = unitMemory ∧
    h.handle unsignedTransfer true ⟨tracedContext, unitMemory⟩ =
      h.handle unsignedTransfer true unitMemoryRun ∧
    h.handle unsignedTransfer true (after (h.handle unsignedTransfer true) unitMemoryRun) =
      h.handle unsignedTransfer true unitMemoryRun := by
  have hb : Tuning.standard.options.build scrambled =
      .ok ⟨Tuning.standard.wiring, ⟨scrambled, rfl, by decide⟩⟩ := rfl
  obtain ⟨hservices, hsame, -, hagain⟩ :=
    Handler.simulation_repeatable hb unsignedTransfer unitMemoryRun
  exact ⟨_, hb, hservices, hsame tracedContext ⟨rfl, rfl, rfl, rfl, rfl, rfl, rfl⟩, hagain⟩

end Tollgate
