import Tollgate.Proofs.Admission.Overflow
import Tollgate.Proofs.Admission.Residue
import Tollgate.Proofs.Admission.Simulation
/-! What a stage writes when it is the one that fails. Most stages write nothing then, but nothing is
undone either: an allowance is used before the money is looked at, and keys are stored signer by
signer. -/
namespace Tollgate

open Call Relation

variable {tuning : Tuning} {tx : Transaction} {simulate : Bool} {cause : AdmissionError}
  {r t : Run Memory} {a : Address} {i : Nat}

/-- The account but for its sequence. -/
def Account.unsequenced (account : Account) : Account := { account with sequence := 0 }

namespace AccountBook

variable {b c : AccountBook} {as : List Address}

theorem unsequenced_setSequence (b : AccountBook) (a x : Address) (n : UInt64) :
    ((b.setSequence a n).find? x).map Account.unsequenced =
      (b.find? x).map Account.unsequenced := by
  rw [setSequence, find?_modify]
  split
  · rw [Option.map_map]
    rfl
  · rfl

/-- The advancing of sequences changes nothing but sequences. -/
theorem unsequenced_advanceAll (h : advanceAll as b = .ok () c) (x : Address) :
    (c.find? x).map Account.unsequenced = (b.find? x).map Account.unsequenced := by
  induction as generalizing b with
  | nil =>
    obtain ⟨-, rfl⟩ := pure_eq_ok_iff.1 h
    rfl
  | cons a as ih =>
    obtain ⟨account, n, -, -, hrest⟩ := advanceAll_cons_eq_ok_iff.1 h
    rw [ih hrest, unsequenced_setSequence]

end AccountBook

namespace Transaction

theorem keysAdded_keepKey {b : AccountBook} {s : Signer} {as : List Address} (ha : a ∈ as)
    (hcheck : Gate.checkProvidedKey tx a i = .ok ()) (hfound : s.FoundIn tx a i b) :
    b.KeysAdded (b.keepKey s) as := by
  obtain ⟨account, key, haccount, hkey, rfl⟩ := hfound
  unfold AccountBook.keepKey
  cases hstored : account.key with
  | some stored =>
    have hsome : ((b.find? a).bind Account.key).isNone = false := by
      rw [haccount, Option.bind_some, hstored, Option.isNone_some]
    rw [hsome]
    exact .refl _ _
  | none =>
    have hnone : (b.find? a).bind Account.key = none := by
      rw [haccount, Option.bind_some, hstored]
    have hprovided : tx.providedKey? i = some key := by simpa [hstored] using hkey
    have hderives := Gate.address_of_checkProvidedKey tx hprovided hcheck
    rw [hnone, ← AccountBook.after_setKey]
    exact .of_setKey ha hderives hnone

/-- The keys of signers that were found are stored only where there was none, and each in the account
of the address it derives. -/
theorem FindsAt.keysAdded {b : AccountBook} {xs : List (Address × Nat)} {ss : List Signer}
    {as : List Address} (hn : (xs.map Prod.fst).Nodup) (has : ∀ x ∈ xs, x.1 ∈ as)
    (h : tx.FindsAt b xs ss) : b.KeysAdded (b.keepKeys ss) as := by
  induction xs generalizing b ss with
  | nil =>
    cases h
    exact .refl _ _
  | cons x xs ih =>
    cases h with
    | @cons _ s _ ss hx hrest =>
      obtain ⟨hcheck, hfound⟩ := hx
      rw [List.map_cons, List.nodup_cons] at hn
      have hkeeps : ∀ y ∈ xs, (b.keepKey s).find? y.1 = b.find? y.1 := by
        intro y hy
        apply AccountBook.find?_keepKey_of_ne
        intro he
        rw [hfound.address] at he
        exact hn.1 (he ▸ List.mem_map_of_mem hy)
      have hrest := ih hn.2 (fun y hy => has y (List.mem_cons_of_mem x hy))
        (FindsAt.congr hkeeps hrest)
      refine AccountBook.KeysAdded.trans ?_ hrest
      exact keysAdded_keepKey (has x List.mem_cons_self) hcheck hfound

end Transaction

/-- The stage of the fee has used an allowance for a fee that its source cannot pay. -/
structure Tuning.Forfeits (u : Tuning) (tx : Transaction) (r : Run Memory) (payer : Address)
    (fee : Coins) (allowances : Allowances) : Prop where
  charged : tx.feePayer = some payer
  sponsored : tx.feeSource payer ≠ payer
  checked : ∃ priority, u.wiring.checkFee r.context tx = .ok (fee, priority)
  granted : Allowances.spend (tx.feeSource payer) payer fee r.services.allowances =
    .ok () allowances
  unpaid : r.services.accounts.find? (tx.feeSource payer) = none ∨ ∃ e,
    Bank.deduct (tx.feeSource payer) (moduleAddress u.settings.feeCollector) fee r.services.bank =
      .error e r.services.bank

namespace Gate

/-- Whatever rule checks the fee, a charge that is found has used the allowance of its payer at most. -/
theorem findCharge_eq_ok {source : Address} {fee : Coins} {priority : Int64}
    (h : findCharge tuning.wiring tx r = .ok (source, fee, priority) t) :
    tuning.wiring.checkFee r.context tx = .ok (fee, priority) ∧ ∃ payer g,
      tx.feePayer = some payer ∧ source = tx.feeSource payer ∧ t = r.withAllowances g ∧
      ((tx.feeSource payer = payer ∧ g = r.services.allowances) ∨
        (tx.feeSource payer ≠ payer ∧ tuning.grants = true ∧
          Allowances.spend (tx.feeSource payer) payer fee r.services.allowances = .ok () g)) := by
  unfold findCharge at h
  rw [context_bind] at h
  dsimp only at h
  split at h
  · obtain ⟨_, _, hthrow, -⟩ := bind_eq_ok_iff.1 h
    exact absurd hthrow throw_ne_ok
  · obtain ⟨⟨fee, priority⟩, _, hfee, h⟩ := bind_eq_ok_iff.1 h
    obtain ⟨hchecked, rfl⟩ := ofExcept_eq_ok_iff.1 hfee
    obtain ⟨⟨⟩, _, hrequire, h⟩ := bind_eq_ok_iff.1 h
    obtain ⟨-, rfl⟩ := requireAccount_eq_ok_iff.1 hrequire
    cases hp : tx.feePayer with
    | none =>
      rw [hp] at h
      exact absurd h throw_ne_ok
    | some payer =>
      rw [hp] at h
      obtain ⟨source, _, hpaying, h⟩ := bind_eq_ok_iff.1 h
      obtain ⟨rfl, g, rfl, hgranted⟩ := payingAccount_false_eq_ok_iff.1 hpaying
      obtain ⟨hsame, rfl⟩ := pure_eq_ok_iff.1 h
      obtain ⟨rfl, rfl, rfl⟩ : tx.feeSource payer = _ ∧ fee = _ ∧ priority = _ := by
        simpa using hsame
      exact ⟨hchecked, payer, g, rfl, rfl, rfl, hgranted⟩

/-- A fee is not moved if its source has no account or cannot pay it. -/
theorem moveFee_eq_error {source : Address} {fee : Coins}
    (h : moveFee tuning.wiring source fee r = .error cause t) :
    r.services.accounts.find? source = none ∨ ∃ e,
      Bank.deduct source (moduleAddress tuning.settings.feeCollector) fee r.services.bank =
        .error e r.services.bank := by
  unfold moveFee at h
  rcases bind_eq_error_iff.1 h with h | ⟨⟨⟩, u, hu, h⟩
  · cases hfind : r.services.accounts.find? source with
    | none => exact .inl rfl
    | some account =>
      have hok : requireAccount tuning.wiring source r = .ok () r :=
        requireAccount_eq_ok_iff.2 ⟨by rw [hfind, Option.isSome_some], rfl⟩
      rw [hok] at h
      cases h
  · obtain ⟨-, rfl⟩ := requireAccount_eq_ok_iff.1 hu
    split at h
    · cases h
    · obtain ⟨e, s, hs, -, -⟩ := call_eq_error_iff.1 h
      obtain ⟨b, hb, -⟩ := Memory.onBank_eq_error_iff.1 hs
      obtain rfl := Bank.atomic_deduct _ _ _ _ _ _ hb
      exact .inr ⟨e, hb⟩

/-- A fee that is not charged leaves the services alone, but for an allowance that was forfeited. -/
theorem services_of_chargeFee_eq_error (h : chargeFee tuning.wiring tx false r = .error cause t) :
    t.services = r.services ∨ ∃ payer fee allowances,
      tuning.Forfeits tx r payer fee allowances ∧
      t.services = { r.services with allowances := allowances } := by
  rw [chargeFee_false_eq] at h
  rcases bind_eq_error_iff.1 h with h | ⟨⟨source, fee, priority⟩, _, hfind, h⟩
  · rw [atomic_findCharge r cause t h]
    exact .inl rfl
  · obtain ⟨hchecked, payer, g, hp, rfl, rfl, hgranted⟩ := findCharge_eq_ok hfind
    rcases bind_eq_error_iff.1 h with h | ⟨_, _, -, h⟩
    · obtain rfl := atomic_moveFee _ _ _ _ _ h
      rcases hgranted with ⟨-, rfl⟩ | ⟨hne, -, hspend⟩
      · exact .inl rfl
      · have hunpaid := moveFee_eq_error h
        exact .inr ⟨payer, fee, g, ⟨hp, hne, ⟨priority, hchecked⟩, hspend, hunpaid⟩, rfl⟩
    · cases h

theorem after_resolveSigner (r : Run Memory) :
    after (resolveSigner tuning.wiring tx simulate a i) r = r := by
  have hlook : account tuning.wiring a r = .ok (r.services.accounts.find? a) r := rfl
  unfold resolveSigner
  rw [after_bind_of_ok hlook]
  cases r.services.accounts.find? a with
  | none => rfl
  | some account =>
    dsimp only
    split
    · rfl
    · split <;> rfl

/-- One signer whose key is not resolved leaves everything as it was. -/
theorem atomic_resolveKey (a : Address) (i : Nat) :
    Atomic (resolveKey tuning.wiring tx false a i) := by
  rw [resolveKey_false]
  refine .look_bind (after_ofExcept _) fun _ => ?_
  intro r e t h
  rcases bind_eq_error_iff.1 h with h | ⟨s, u, hs, h⟩
  · rw [← after_of_error h, after_resolveSigner]
  · -- a signer that was found is never refused when its key is stored
    obtain ⟨hfound, rfl⟩ := resolveSigner_false_eq_ok_iff.1 hs
    rw [bind_of_ok (storeProvidedKey_of_foundIn hfound)] at h
    cases h

/-- The keys before the one that cannot be resolved are stored. -/
theorem services_of_resolveKeys_eq_error
    (h : resolveKeys tuning.wiring tx false r = .error cause t) :
    ∃ done x rest signers, tx.signers.zipIdx = done ++ x :: rest ∧
      tx.FindsAt r.services.accounts done signers ∧
      (∀ s, ¬tx.FindsAt r.services.accounts [x] [s]) ∧
      t = r.withAccounts (r.services.accounts.keepKeys signers) := by
  have hn : (tx.signers.zipIdx.map Prod.fst).Nodup := by
    rw [List.zipIdx_map_fst]
    exact tx.nodup_signers
  rcases bind_eq_error_iff.1 h with h | ⟨_, _, -, h⟩
  · obtain ⟨done, x, rest, signers, u, hsplit, hdone, hx⟩ := mapM_eq_error h
    rw [hsplit, List.map_append, List.map_cons, List.nodup_append] at hn
    have hnew : x.1 ∉ done.map Prod.fst := fun hm => hn.2.2 _ hm _ List.mem_cons_self rfl
    obtain ⟨hfinds, rfl⟩ := (mapM_resolveKey_eq_ok_iff hn.1).1 hdone
    obtain rfl := atomic_resolveKey x.1 x.2 _ _ _ hx
    refine ⟨done, x, rest, signers, hsplit, hfinds, fun s hs => ?_, rfl⟩
    have hkept : ∀ y ∈ [x], (r.services.accounts.keepKeys signers).find? y.1 =
        r.services.accounts.find? y.1 := by
      rintro _ hy
      obtain rfl := List.mem_singleton.1 hy
      exact AccountBook.find?_keepKeys_of_not_mem (hfinds.addresses ▸ hnew)
    cases Transaction.FindsAt.congr hkept hs with
    | cons hlater _ =>
      have hok : resolveKey tuning.wiring tx false x.1 x.2
          (r.withAccounts (r.services.accounts.keepKeys signers)) = .ok s _ :=
        resolveKey_false_eq_ok_iff.2 ⟨hlater, rfl⟩
      cases hok.symm.trans hx
  · cases h

end Gate

namespace Stage

variable {s : Stage}

/-- Why a stage fails, with what a view shows of the services afterwards. -/
def failure? {α : Type} (s : Stage) (tx : Transaction) (view : Memory → α) (r : Run Memory) :
    Option (AdmissionError × α) :=
  match s.run Tuning.standard.wiring tx false r with
  | .ok _ _ => none
  | .error e t => some (e, view t.services)

theorem eq_error_of_failure? {α : Type} {view : Memory → α} {x : α}
    (h : s.failure? tx view r = some (cause, x)) :
    ∃ t, s.run Tuning.standard.wiring tx false r = .error cause t ∧ view t.services = x := by
  unfold failure? at h
  split at h
  · cases h
  · next e t ht =>
    obtain ⟨rfl, rfl⟩ := Prod.mk.inj (Option.some.inj h)
    exact ⟨t, ht, rfl⟩

theorem services_of_run_true (h : s.run tuning.wiring tx true r = .error cause t) :
    t.services = r.services := by
  rw [← after_of_error h]
  exact eq_of_run (f := fun x => x.services) (fun _ _ hc => hc.services_of_simulate) r

/-- The stages that write at most one thing leave it unwritten when they fail. -/
theorem services_of_run_false (hs : s ∉ [.fee, .keys, .sequences])
    (h : s.run tuning.wiring tx false r = .error cause t) : t.services = r.services := by
  by_cases hcount : s = .blockIndex
  · subst hcount
    rw [Gate.atomic_countInBlock r cause t (proceeding_eq_error_iff.1 h)]
  · rw [← after_of_error h]
    refine eq_of_run (f := fun x => x.services) (fun _ _ hc => ?_) r
    rcases hc.touches with hsame | ⟨hindex, -⟩ | ⟨rfl, -⟩ | ⟨rfl | rfl, -⟩
    · exact hsame
    · exact absurd hindex hcount
    · exact absurd (by decide) hs
    · exact absurd (by decide) hs
    · exact absurd (by decide) hs

/-- What a stage that fails has written itself: nothing in a simulation, and nothing at any stage but
three. The stage of the fee may have used an allowance for a fee that could not be moved, the stage of
the keys has stored those of the signers before the one that cannot be resolved, and the advancing of
the sequences has touched nothing but sequences of signers. -/
theorem services_of_run_eq_error (h : s.run tuning.wiring tx simulate r = .error cause t) :
    (simulate = true ∨ s ∉ [.fee, .keys, .sequences] → t.services = r.services) ∧
    (s = .fee → t.services = r.services ∨ ∃ payer fee allowances,
      tuning.Forfeits tx r payer fee allowances ∧
      t.services = { r.services with allowances := allowances }) ∧
    (s = .keys → simulate = true ∨ ∃ done x rest signers,
      tx.signers.zipIdx = done ++ x :: rest ∧ tx.FindsAt r.services.accounts done signers ∧
      (∀ s, ¬tx.FindsAt r.services.accounts [x] [s]) ∧
      t.services = { r.services with accounts := r.services.accounts.keepKeys signers } ∧
      r.services.accounts.KeysAdded t.services.accounts (done.map Prod.fst)) ∧
    (s = .sequences → ∃ accounts, t.services = { r.services with accounts := accounts } ∧
      accounts.header = r.services.accounts.header ∧
      (∀ a, (accounts.find? a).map Account.unsequenced =
        (r.services.accounts.find? a).map Account.unsequenced) ∧
      ∀ a ∉ tx.signers, accounts.find? a = r.services.accounts.find? a) := by
  cases simulate with
  | true =>
    have hsame := services_of_run_true h
    exact ⟨fun _ => hsame, fun _ => .inl hsame, fun _ => .inl rfl,
      fun _ => ⟨r.services.accounts, hsame, rfl, fun _ => rfl, fun _ _ => rfl⟩⟩
  | false =>
    refine ⟨fun hs => services_of_run_false (hs.resolve_left Bool.false_ne_true) h, ?_, ?_, ?_⟩
    · rintro rfl
      exact Gate.services_of_chargeFee_eq_error (proceeding_eq_error_iff.1 h)
    · rintro rfl
      obtain ⟨done, x, rest, signers, hsplit, hfinds, hx, rfl⟩ :=
        Gate.services_of_resolveKeys_eq_error (proceeding_eq_error_iff.1 h)
      have hn : (done.map Prod.fst).Nodup := by
        have hall := tx.nodup_signers
        rw [← List.zipIdx_map_fst 0 tx.signers, hsplit, List.map_append] at hall
        exact (List.nodup_append.1 hall).1
      exact .inr ⟨done, x, rest, signers, hsplit, hfinds, hx, rfl,
        hfinds.keysAdded hn fun y hy => List.mem_map_of_mem hy⟩
    · rintro rfl
      obtain ⟨-, done, a, rest, b, x, hsplit, hdone, -, -, rfl⟩ :=
        Gate.advanceSequences_eq_error (proceeding_eq_error_iff.1 h)
      refine ⟨b, rfl, AccountBook.header_advanceAll hdone,
        AccountBook.unsequenced_advanceAll hdone, fun c hc => ?_⟩
      have hnew : c ∉ done := fun hd => hc (hsplit ▸ List.mem_append_left _ hd)
      exact AccountBook.find?_advanceAll_of_not_mem hdone hnew

end Stage

/-- The granter of the sponsored transfer has no money left. -/
def pennilessRun : Run Memory :=
  ⟨.new "unit" 1 0, { sponsoredMemory with
    bank := sponsoredMemory.bank.setBalance bystander "stake" .zero }⟩

theorem sponsoredTransfer_penniless : Stage.fee.failure? sponsoredTransfer
    (fun s => s.allowances.remaining bystander unitKey.address) pennilessRun =
      some (.insufficientFunds "stake" (.clamp 10) .zero, some ⟨[⟨"stake", .clamp 15⟩]⟩) := by
  decide +kernel

/-- The second signer of the joint transfer has no account. -/
theorem jointTransfer_unresolved : Stage.keys.failure? jointTransfer
    (fun s => (s.accounts.find? unitKey.address).bind Account.key) unitMemoryRun =
      some (.unknownSigner trusteeKey.address .noAccount, some unitKey) := by
  decide +kernel

/-- Stages that fail write: an allowance is lower by a fee that nobody paid, and a key is stored for a
transaction whose other signer is unknown. -/
theorem failing_stages_write :
    (∃ t, Stage.fee.run Tuning.standard.wiring sponsoredTransfer false pennilessRun =
        .error (.insufficientFunds "stake" (.clamp 10) .zero) t ∧
      pennilessRun.services.allowances.remaining bystander unitKey.address =
        some ⟨[⟨"stake", .clamp 25⟩]⟩ ∧
      t.services.allowances.remaining bystander unitKey.address =
        some ⟨[⟨"stake", .clamp 15⟩]⟩) ∧
    ∃ t, Stage.keys.run Tuning.standard.wiring jointTransfer false unitMemoryRun =
        .error (.unknownSigner trusteeKey.address .noAccount) t ∧
      (unitMemoryRun.services.accounts.find? unitKey.address).bind Account.key = none ∧
      (t.services.accounts.find? unitKey.address).bind Account.key = some unitKey := by
  obtain ⟨t, ht, hleft⟩ := Stage.eq_error_of_failure? sponsoredTransfer_penniless
  obtain ⟨u, hu, hkey⟩ := Stage.eq_error_of_failure? jointTransfer_unresolved
  exact ⟨⟨t, ht, by decide +kernel, hleft⟩, u, hu, by decide +kernel, hkey⟩

theorem jointTransfer_unresolved_keeps_key : ∃ t,
    Stage.keys.run Tuning.standard.wiring jointTransfer false unitMemoryRun =
      .error (.unknownSigner trusteeKey.address .noAccount) t ∧
    ∃ done x rest signers, jointTransfer.signers.zipIdx = done ++ x :: rest ∧
      jointTransfer.FindsAt unitMemory.accounts done signers ∧
      (∀ s, ¬jointTransfer.FindsAt unitMemory.accounts [x] [s]) ∧
      t.services = { unitMemory with accounts := unitMemory.accounts.keepKeys signers } ∧
      unitMemory.accounts.KeysAdded t.services.accounts (done.map Prod.fst) := by
  obtain ⟨t, ht, -⟩ := Stage.eq_error_of_failure? jointTransfer_unresolved
  exact ⟨t, ht, ((Stage.services_of_run_eq_error ht).2.2.1 rfl).resolve_left Bool.false_ne_true⟩

end Tollgate
