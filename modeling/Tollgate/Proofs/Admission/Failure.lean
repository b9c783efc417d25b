import Tollgate.Proofs.Admission.Relay
import Tollgate.Proofs.Ledger.Signing
/-! Runs that fail: the stages before the one that fails were passed, and over services in memory it
is known which of them a stage can have touched. -/
namespace Tollgate

open Call Relation

namespace Stage

variable {σ : Type} {w : Wiring σ} {tx : Transaction} {simulate : Bool} {s : Stage}
  {cause : AdmissionError} {r t : Run σ}

theorem proceeding_eq_error_iff {g : Gate σ Unit} :
    proceeding g r = .error cause t ↔ g r = .error cause t := by
  unfold proceeding
  rw [bind_eq_error_iff]
  constructor
  · rintro (h | ⟨-, u, -, h⟩)
    · exact h
    · cases h
  · exact .inl

theorem passes_of_runAll_eq_error {ss : List Stage}
    (h : runAll w tx simulate ss r = .error ⟨s, cause⟩ t) :
    ∃ pre post u, ss = pre ++ s :: post ∧ Passes w tx simulate pre r u ∧
      s.run w tx simulate u = .error cause t := by
  induction ss generalizing r with
  | nil => cases h
  | cons x ss ih =>
    unfold runAll at h
    split at h
    · next u hx =>
      obtain ⟨pre, post, v, rfl, hpre, hs⟩ := ih h
      exact ⟨x :: pre, post, v, rfl, .cons hx hpre, hs⟩
    · cases h
    · next hx =>
      obtain ⟨he, rfl⟩ := EStateM.Result.error.inj h
      obtain ⟨rfl, rfl⟩ := StageError.mk.inj he
      exact ⟨[], ss, r, rfl, .nil r, hx⟩

theorem eq_take_position {pre post : List Stage} (h : canonical = pre ++ s :: post) :
    pre = canonical.take s.position := by
  have hn := nodup_canonical
  rw [h, List.nodup_append] at hn
  have hs : s ∉ pre := fun hm => hn.2.2 s hm s List.mem_cons_self rfl
  unfold position
  rw [h, List.idxOf_append_of_notMem hs, List.idxOf_cons_self, Nat.add_zero, List.take_left]

/-- When the canonical stages fail, all stages before the failing one were passed. -/
theorem passes_of_runAll_canonical_eq_error
    (h : runAll w tx simulate canonical r = .error ⟨s, cause⟩ t) :
    ∃ u, Passes w tx simulate (canonical.take s.position) r u ∧
      s.run w tx simulate u = .error cause t := by
  obtain ⟨pre, post, u, hsplit, hpre, hs⟩ := passes_of_runAll_eq_error h
  rw [eq_take_position hsplit] at hpre
  exact ⟨u, hpre, hs⟩

/-- A failing run moves within the changes of the stages it passed and of the one that fails. -/
theorem Passes.reached_of_run_eq_error {ss : List Stage} {u : Run σ}
    (hss : Passes w tx simulate ss r u) (h : s.run w tx simulate u = .error cause t) :
    ReflTransGen (Changes w tx simulate (s :: ss)) r t := by
  have hpassed := reflTransGen_changes_mono (List.subset_cons_self s ss) hss.reached
  have hfailed : ReflTransGen (Change w tx simulate s) u t :=
    after_of_error h ▸ within_run w tx simulate s u
  exact hpassed.trans (reflTransGen_changes_of_change List.mem_cons_self hfailed)

/-- The relay stage looks at the packets that were applied, and that cannot fail in memory. -/
theorem relay_run_ne_error {tuning : Tuning} {r t : Run Memory} :
    Stage.relay.run tuning.wiring tx simulate r ≠ .error cause t := by
  intro h
  have h : Gate.checkRelay tuning.wiring tx simulate r = .error cause t := h
  rw [Gate.checkRelay_eq] at h
  split at h
  · split at h <;> cases h
  · cases h

end Stage

section Touches

variable {tuning : Tuning} {tx : Transaction} {simulate : Bool} {s : Stage} {r t : Run Memory}

/-- Every stage touches one kind of service at most: the counter, the purses or the accounts. -/
theorem Change.touches (h : Change tuning.wiring tx simulate s r t) :
    t.services = r.services ∨
    (s = .blockIndex ∧ ∃ c, t.services = { r.services with counter := c }) ∨
    (s = .fee ∧ ∃ b g, t.services = { r.services with bank := b, allowances := g }) ∨
    ((s = .keys ∨ s = .sequences) ∧ ∃ b, t.services = { r.services with accounts := b }) := by
  cases h with
  | count _ hs => exact .inr (.inl ⟨rfl, _, Memory.after_onCounter _ _⟩)
  | deduct _ payer fee hs hfee =>
    exact .inr (.inr (.inl ⟨rfl, _, _, Memory.after_onBank _ _⟩))
  | checkAllowance _ registry granter grantee fee hr hs =>
    obtain rfl := Tuning.allowances_eq hr
    exact .inr (.inr (.inl ⟨rfl, _, _, Memory.after_onAllowances _ _⟩))
  | spendAllowance _ registry granter grantee fee hr hs =>
    obtain rfl := Tuning.allowances_eq hr
    exact .inr (.inr (.inl ⟨rfl, _, _, Memory.after_onAllowances _ _⟩))
  | storeKey _ a i key found u hs ha hkey hderives hfound hnone =>
    have hlook : Memory.accountLedger.account a r.services = .ok found u := hfound
    obtain ⟨-, rfl⟩ := EStateM.Result.ok.inj hlook
    exact .inr (.inr (.inr ⟨.inl rfl, _, Memory.after_onAccounts _ _⟩))
  | checkSignature _ key message signature => exact .inl (after_ofExcept _ _)
  | advance _ a hs ha => exact .inr (.inr (.inr ⟨.inr rfl, _, Memory.after_onAccounts _ _⟩))
  | isProcessed _ registry action packet hr =>
    obtain rfl := Tuning.relays_eq hr
    exact .inl rfl
  | _ => exact .inl rfl

theorem Change.keysAdded (h : Change tuning.wiring tx simulate s r t) (hs : s ≠ .sequences) :
    r.services.accounts.KeysAdded t.services.accounts tx.signers := by
  rcases h.book_cases tuning.keepsBook with h | ⟨-, -, a, ha, key, hkey, hnone, h⟩ | ⟨h, -⟩
  · rw [h]
    exact .refl _ _
  · rw [h]
    exact .of_setKey ha hkey hnone
  · exact absurd h hs

namespace Stage

variable {ss : List Stage}

/-- The stages that touch no service. -/
def isIdle (s : Stage) : Bool := s ∉ [.blockIndex, .fee, .keys, .sequences]

theorem services_of_reached (hss : ∀ s ∈ ss, s.isIdle = true)
    (h : ReflTransGen (Changes tuning.wiring tx simulate ss) r t) : t.services = r.services := by
  refine eq_of_reached (f := fun x => x.services) (fun s hs x y hc => ?_) h
  have hidle := hss s hs
  rcases hc.touches with h | ⟨rfl, -⟩ | ⟨rfl, -⟩ | ⟨rfl | rfl, -⟩
  · exact h
  all_goals cases hidle

/-- Only the stage of the fee touches balances and allowances. -/
theorem purses_of_reached (hss : .fee ∉ ss)
    (h : ReflTransGen (Changes tuning.wiring tx simulate ss) r t) :
    t.services.bank = r.services.bank ∧ t.services.allowances = r.services.allowances := by
  refine Prod.ext_iff.1
    (eq_of_reached (f := fun x => (x.services.bank, x.services.allowances)) ?_ h)
  intro s hs x y hc
  rcases hc.touches with h | ⟨-, c, h⟩ | ⟨rfl, -⟩ | ⟨-, b, h⟩
  · rw [h]
  · rw [h]
  · exact absurd hs hss
  · rw [h]

theorem counter_of_reached (hss : .blockIndex ∉ ss)
    (h : ReflTransGen (Changes tuning.wiring tx simulate ss) r t) :
    t.services.counter = r.services.counter := by
  refine eq_of_reached (f := fun x => x.services.counter) (fun s hs x y hc => ?_) h
  rcases hc.touches with h | ⟨rfl, -⟩ | ⟨-, b, g, h⟩ | ⟨-, b, h⟩
  · rw [h]
  · exact absurd hs hss
  · rw [h]
  · rw [h]

theorem relays_of_reached (h : ReflTransGen (Changes tuning.wiring tx simulate ss) r t) :
    t.services.relays = r.services.relays := by
  refine eq_of_reached (f := fun x => x.services.relays) (fun s hs x y hc => ?_) h
  rcases hc.touches with h | ⟨-, c, h⟩ | ⟨-, b, g, h⟩ | ⟨-, b, h⟩ <;> rw [h]

theorem keysAdded_of_reached (hss : .sequences ∉ ss)
    (h : ReflTransGen (Changes tuning.wiring tx simulate ss) r t) :
    r.services.accounts.KeysAdded t.services.accounts tx.signers := by
  refine of_reached
    (P := fun x => r.services.accounts.KeysAdded x.services.accounts tx.signers) ?_ h (.refl _ _)
  intro s hs x y hc hx
  exact hx.trans (hc.keysAdded fun he => hss (he ▸ hs))

end Stage
/-- Why a transaction is refused, with the sequence that an account has afterwards. -/
def Handler.refusal? (h : Handler Memory) (tx : Transaction) (r : Run Memory) (a : Address) :
    Option (StageError × Option UInt64) :=
  match h.handle tx false r with
  | .ok _ _ => none
  | .error e t => some (e, t.services.accounts.sequence? a)

theorem Handler.eq_error_of_refusal? {h : Handler Memory} {a : Address} {e : StageError}
    {n : Option UInt64} (hr : h.refusal? tx r a = some (e, n)) :
    ∃ t, h.handle tx false r = .error e t ∧ t.services.accounts.sequence? a = n := by
  unfold refusal? at hr
  split at hr
  · cases hr
  · next x t ht =>
    obtain ⟨rfl, hn⟩ := Prod.mk.inj (Option.some.inj hr)
    exact ⟨t, ht, hn⟩

end Touches
end Tollgate
