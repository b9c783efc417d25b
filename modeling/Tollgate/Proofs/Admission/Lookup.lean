import Tollgate.Proofs.Admission.Bookkeeping
/-! How signers are looked up outside simulation. Whatever the order of the stages, the signer that a
stage works with was made of the accounts of this very run. -/
namespace Tollgate

open Call Relation

variable {σ : Type}

namespace Gate

variable {ε α : Type} {r t : Run σ}

theorem context_eq_ok_iff {c : Context} : context r = .ok c t ↔ r.context = c ∧ r = t := by
  change EStateM.Result.ok r.context r = .ok c t ↔ _
  rw [EStateM.Result.ok.injEq]

theorem context_bind (f : Context → Gate σ α) (r : Run σ) :
    (context >>= f) r = f r.context r := rfl

theorem modifyContext_eq_ok_iff {f : Context → Context} :
    modifyContext f r = .ok () t ↔ { r with context := f r.context } = t := by
  change EStateM.Result.ok () _ = .ok () t ↔ _
  rw [EStateM.Result.ok.injEq, eq_self, true_and]

theorem ofExcept_eq_ok_iff {x : Except AdmissionError α} {a : α} :
    ofExcept x r = .ok a t ↔ x = .ok a ∧ r = t := by
  cases x <;> simp [ofExcept]

theorem call_eq_ok_iff {explain : ε → AdmissionError} {c : Call ε σ α} {a : α} :
    call explain c r = .ok a t ↔ ∃ u, c r.services = .ok a u ∧ t = { r with services := u } := by
  unfold call
  cases c r.services with
  | ok b u => simp [eq_comm]
  | error e u => simp

theorem call_eq_error_iff {explain : ε → AdmissionError} {c : Call ε σ α} {e : AdmissionError} :
    call explain c r = .error e t ↔
      ∃ x u, c r.services = .error x u ∧ e = explain x ∧ t = { r with services := u } := by
  unfold call
  cases c r.services with
  | ok b u => simp
  | error x u => simp [eq_comm]

theorem atomic_call {explain : ε → AdmissionError} {c : Call ε σ α} (h : Atomic c) :
    Atomic (call explain c) := by
  intro r e t ht
  obtain ⟨x, u, hu, -, rfl⟩ := call_eq_error_iff.1 ht
  rw [h _ _ _ hu]

theorem charge_eq_ok_iff {c : EStateM AdmissionError GasMeter Unit} :
    charge c r = .ok () t ↔ ∃ m, c r.context.meter = .ok () m ∧
      t = { r with context := { r.context with meter := m } } := by
  unfold charge
  cases c r.context.meter <;> simp [eq_comm]

theorem charge_eq_error_iff {c : EStateM AdmissionError GasMeter Unit} {e : AdmissionError} :
    charge c r = .error e t ↔ ∃ m, c r.context.meter = .error e m ∧
      t = { r with context := { r.context with meter := m } } := by
  unfold charge
  cases c r.context.meter <;> simp [eq_comm, and_assoc]

end Gate

theorem Context.address_of_signer? {c : Context} {a : Address} {s : Signer}
    (h : c.signer? a = some s) : s.address = a := by
  unfold Context.signer? at h
  simpa using List.find?_some h

/-- The signer is made of an account, with its key or else the provided one. -/
def Signer.FoundIn (s : Signer) (tx : Transaction) (a : Address) (i : Nat) (b : AccountBook) :
    Prop :=
  ∃ account key, b.find? a = some account ∧ (account.key <|> tx.providedKey? i) = some key ∧
    s = ⟨a, account.number, account.sequence, key, false⟩

namespace Signer.FoundIn

variable {s : Signer} {tx : Transaction} {a : Address} {i : Nat} {b : AccountBook}

theorem address (h : s.FoundIn tx a i b) : s.address = a := by
  obtain ⟨account, key, -, -, rfl⟩ := h
  rfl

theorem number (h : s.FoundIn tx a i b) : b.number? a = some s.accountNumber := by
  obtain ⟨account, key, ha, -, rfl⟩ := h
  rw [AccountBook.number?, ha, Option.map_some]

theorem sequence (h : s.FoundIn tx a i b) : b.sequence? a = some s.sequence := by
  obtain ⟨account, key, ha, -, rfl⟩ := h
  rw [AccountBook.sequence?, ha, Option.map_some]

theorem key (h : s.FoundIn tx a i b) (hb : b.KeysDerive) :
    s.key.address = a ∨ tx.providedKey? i = some s.key := by
  obtain ⟨account, key, ha, hkey, rfl⟩ := h
  cases hstored : account.key with
  | none =>
    rw [hstored] at hkey
    exact .inr hkey
  | some stored =>
    rw [hstored] at hkey
    exact .inl (hb a account key ha (hstored.trans hkey))

end Signer.FoundIn

section Lookup

variable {w : Wiring σ} {tx : Transaction} {book : σ → AccountBook} {r t u : Run σ}

namespace Gate

theorem foundIn_of_resolveSigner (hw : w.KeepsBook book) {a : Address} {i : Nat} {s : Signer}
    (h : resolveSigner w tx false a i r = .ok s t) : s.FoundIn tx a i (book r.services) := by
  obtain ⟨found, v, hfound, h⟩ := bind_eq_ok_iff.1 h
  obtain ⟨x, hx, -⟩ := call_eq_ok_iff.1 hfound
  have hx := (EStateM.Result.ok.inj ((hw.account a).ok hx)).1
  cases found with
  | none => cases h
  | some account =>
    dsimp only at h
    cases hkey : account.key <|> tx.providedKey? i with
    | none =>
      rw [hkey] at h
      cases h
    | some key =>
      rw [hkey] at h
      exact ⟨account, key, hx, hkey, (pure_eq_ok_iff.1 h).1.symm⟩

theorem signer_eq_ok (hw : w.KeepsBook book) {a : Address} {i : Nat} {s : Signer}
    (h : signer w tx false a i r = .ok s t) :
    r.context.signer? a = some s ∨ s.FoundIn tx a i (book r.services) := by
  obtain ⟨c, v, hc, h⟩ := bind_eq_ok_iff.1 h
  obtain ⟨rfl, rfl⟩ := context_eq_ok_iff.1 hc
  cases hs : r.context.signer? a with
  | none =>
    rw [hs] at h
    exact .inr (foundIn_of_resolveSigner hw h)
  | some found =>
    rw [hs] at h
    exact .inl (congrArg some (pure_eq_ok_iff.1 h).1)

theorem resolveKey_eq_ok {a : Address} {i : Nat} {s : Signer}
    (h : resolveKey w tx false a i r = .ok s t) :
    checkProvidedKey tx a i = .ok () ∧ ∃ v, resolveSigner w tx false a i r = .ok s v := by
  rw [resolveKey_false] at h
  obtain ⟨⟨⟩, v, hcheck, h⟩ := bind_eq_ok_iff.1 h
  obtain ⟨hok, rfl⟩ := ofExcept_eq_ok_iff.1 hcheck
  obtain ⟨s', x, hs, h⟩ := bind_eq_ok_iff.1 h
  obtain ⟨-, y, -, h⟩ := bind_eq_ok_iff.1 h
  obtain ⟨rfl, -⟩ := pure_eq_ok_iff.1 h
  exact ⟨hok, x, hs⟩

/-- Every provided key was accepted, and every signer in the cache was found on the way. -/
theorem resolveKeys_eq_ok (hw : w.KeepsBook book) (h : resolveKeys w tx false r = .ok () t) :
    (∀ x ∈ tx.signers.zipIdx, checkProvidedKey tx x.1 x.2 = .ok ()) ∧
    ∀ s ∈ t.context.signers, ∃ x ∈ tx.signers.zipIdx, ∃ v,
      ReflTransGen (Change w tx false .keys) r v ∧ s.FoundIn tx x.1 x.2 (book v.services) := by
  obtain ⟨ss, v, hss, h⟩ := bind_eq_ok_iff.1 h
  obtain rfl := modifyContext_eq_ok_iff.1 h
  have hall := mapM_eq_ok (R := Change w tx false .keys)
    (fun x hx => within_resolveKey w tx false hx) hss
  constructor
  · intro x hx
    obtain ⟨s, -, y, z, -, hs, -⟩ := exists_right_of_forall₂ hall hx
    exact (resolveKey_eq_ok hs).1
  · intro s hs
    obtain ⟨x, hx, y, z, hy, hs, -⟩ := exists_left_of_forall₂ hall hs
    obtain ⟨-, _, hs⟩ := resolveKey_eq_ok hs
    exact ⟨x, hx, y, hy, foundIn_of_resolveSigner hw hs⟩

end Gate

namespace Stage

/-- A signer in the cache was there before, or was found on the way. -/
theorem Passes.cached_or_found (hw : w.KeepsBook book) {ss : List Stage}
    (h : Passes w tx false ss r u) {a : Address} {s : Signer}
    (hs : u.context.signer? a = some s) :
    (.setup ∉ ss ∧ r.context.signer? a = some s) ∨ ∃ i v, (a, i) ∈ tx.signers.zipIdx ∧
      ReflTransGen (Changes w tx false ss) r v ∧ s.FoundIn tx a i (book v.services) := by
  induction h with
  | nil r => exact .inl ⟨List.not_mem_nil, hs⟩
  | @cons x ss r t u hx hss ih =>
    have hxt := (within_run_of_mem (List.mem_singleton_self x)).reached hx
    have hmem : x ∈ x :: ss := List.mem_cons_self
    rcases ih hs with ⟨hsetup, hs⟩ | ⟨i, v, hi, hv, hs⟩
    · by_cases hk : x = .keys
      · subst hk
        -- the stage of keys fills the cache anew
        have hfill := (Gate.resolveKeys_eq_ok hw (proceeding_eq_ok_iff.1 hx).2).2 s
          (List.mem_of_find?_eq_some hs)
        obtain ⟨⟨b, i⟩, hi, v, hv, hfound⟩ := hfill
        have hab : a = b := (Context.address_of_signer? hs).symm.trans hfound.address
        subst hab
        exact .inr ⟨i, v, hi, reflTransGen_changes_of_change hmem hv, hfound⟩
      · by_cases hset : x = .setup
        · subst hset
          obtain ⟨-, hx⟩ := proceeding_eq_ok_iff.1 hx
          obtain rfl := Gate.modifyContext_eq_ok_iff.1 hx
          exact nomatch hs
        · have hcache : t.context.signers = r.context.signers :=
            cached_of_reached (by simpa using Ne.symm hset) (by simpa using Ne.symm hk) hxt
          rw [Context.signer?, hcache] at hs
          refine .inl ⟨fun hm => ?_, hs⟩
          exact (List.mem_cons.1 hm).elim (fun he => hset he.symm) hsetup
    · have hrv := (reflTransGen_changes_mono (by simp) hxt).trans
        (reflTransGen_changes_mono (List.subset_cons_self x ss) hv)
      exact .inr ⟨i, v, hi, hrv, hs⟩

end Stage
end Lookup
end Tollgate
