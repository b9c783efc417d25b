import Tollgate.Proofs.Admission.Overflow
import Tollgate.Proofs.Admission.Payment
import Tollgate.Proofs.Admission.Signatures
/-! Why the stages behind the check of form can fail. The form settles that the signers, their data and
their signatures are as many as each other, and the stage of the keys that every signer is known; so what
these stages still look out for cannot happen, and each of them fails for its own reasons only. -/
namespace Tollgate

open Call Relation

/-- There are signers, and data and signatures for exactly them. -/
structure Transaction.WellCounted (tx : Transaction) : Prop where
  messages : tx.messages ≠ []
  signatures : tx.signers.length = tx.signatures.length
  signerInfos : tx.signers.length = tx.authInfo.signerInfos.length

namespace Transaction

variable {tx : Transaction} {i : Nat} {a : Address}

theorem of_require {condition : Bool} {otherwise : Malformed}
    (h : require condition otherwise = .ok ()) : condition = true := by
  unfold require at h
  split at h
  · assumption
  · cases h

theorem wellCounted_of_checkForm (h : tx.checkForm = .ok ()) : tx.WellCounted := by
  obtain ⟨_, hmessages, h⟩ := except_bind_eq_ok_iff.1 h
  obtain ⟨_, -, h⟩ := except_bind_eq_ok_iff.1 h
  obtain ⟨_, -, h⟩ := except_bind_eq_ok_iff.1 h
  obtain ⟨_, -, h⟩ := except_bind_eq_ok_iff.1 h
  obtain ⟨_, hsignatures, h⟩ := except_bind_eq_ok_iff.1 h
  obtain ⟨_, hinfos, -⟩ := except_bind_eq_ok_iff.1 h
  constructor
  · simpa using of_require hmessages
  · exact of_decide_eq_true (of_require hsignatures)
  · exact of_decide_eq_true (of_require hinfos)

namespace WellCounted

/-- Somebody pays the fee. -/
theorem exists_feePayer (h : tx.WellCounted) : ∃ payer, tx.feePayer = some payer := by
  obtain ⟨m, ms, hm⟩ := List.exists_cons_of_ne_nil h.messages
  have hmem : m.signer ∈ tx.signers := mem_signers.2 ⟨m, by simp [hm], rfl⟩
  obtain ⟨a, as, ha⟩ := List.exists_cons_of_ne_nil (List.ne_nil_of_mem hmem)
  unfold feePayer
  rw [ha, List.head?_cons]
  cases tx.authInfo.fee.payer with
  | none => exact ⟨a, rfl⟩
  | some payer => exact ⟨payer, rfl⟩

theorem exists_signerInfo (h : tx.WellCounted) (hi : (a, i) ∈ tx.signers.zipIdx) :
    ∃ info, tx.signerInfo? i = some info := by
  obtain ⟨hlt, -⟩ := List.getElem?_eq_some_iff.1 (List.mem_zipIdx_iff_getElem?.1 hi)
  rw [h.signerInfos] at hlt
  exact ⟨_, List.getElem?_eq_getElem hlt⟩

end WellCounted

/-- With signer data at hand, a signature is unreadable or read. -/
theorem signatureData_false_eq_error {info : SignerInfo} {cause : AdmissionError}
    (hinfo : tx.signerInfo? i = some info) (h : tx.signatureData i a false = .error cause) :
    ∃ e, SignatureData.decode info.modeInfo (tx.signature i) = .error e ∧
      cause = .invalidSignature a e := by
  unfold signatureData at h
  rw [hinfo] at h
  cases hd : SignatureData.decode info.modeInfo (tx.signature i) with
  | ok data => simp [hd] at h
  | error e => exact ⟨e, rfl, by simpa [hd, eq_comm] using h⟩

end Transaction

section Sorts

variable {σ : Type} {w : Wiring σ} {tx : Transaction} {P : AdmissionError → Prop}

namespace Gate

variable {α ε : Type}

theorem failsWith_call {explain : ε → AdmissionError} {c : Call ε σ α} (h : ∀ e, P (explain e)) :
    FailsWith P (call explain c) := by
  intro r cause t hc
  obtain ⟨e, -, -, rfl, -⟩ := call_eq_error_iff.1 hc
  exact h e

theorem failsWith_context : FailsWith P (context : Gate σ Context) := by
  intro r e t h
  cases h

theorem failsWith_modifyContext (f : Context → Context) :
    FailsWith P (modifyContext f : Gate σ Unit) := by
  intro r e t h
  cases h

theorem failsWith_ofExcept {x : Except AdmissionError α} (h : ∀ e, x = .error e → P e) :
    FailsWith P (ofExcept x : Gate σ α) := by
  intro r cause t hx
  cases x with
  | ok a => cases hx
  | error e =>
    obtain ⟨rfl, -⟩ := EStateM.Result.error.inj hx
    exact h e rfl

/-- An error that does not blame the form of the transaction. -/
def SparesForm (e : AdmissionError) : Prop := e.kind ≠ .structuralInvalid

theorem sparesForm_ofLedger (e : LedgerError) : SparesForm (.ofLedger e) := by
  cases e <;> exact nofun

theorem sparesForm_ofFeeLedger (e : FeeLedgerError) : SparesForm (.ofFeeLedger e) := by
  cases e <;> exact nofun

theorem sparesForm_ofAllowance (granter grantee : Address) (e : AllowanceError) :
    SparesForm (.ofAllowance granter grantee e) := by
  cases e <;> exact nofun

theorem failsWith_requireAccount (a : Address) : FailsWith SparesForm (requireAccount w a) := by
  refine .bind (failsWith_call sparesForm_ofLedger) fun found => ?_
  split
  · exact .throw nofun
  · exact .pure _

theorem failsWith_payingAccount (payer : Address) (fee : Coins) :
    FailsWith SparesForm (payingAccount w payer fee tx false) := by
  rw [payingAccount_eq]
  split
  · exact .pure _
  · refine .bind ?_ fun _ => .pure _
    unfold useAllowance
    split
    · exact .throw nofun
    · exact failsWith_call (sparesForm_ofAllowance _ _)

theorem sparesForm_of_floor {c : Context} {e : AdmissionError}
    (h : FeeChecker.floor c tx = .error e) : SparesForm e := by
  unfold FeeChecker.floor at h
  split at h
  · unfold GasPrice.required at h
    cases hp : Coins.ofList (GasPrice.totals c.minGasPrices tx.gasLimit) with
    | error x =>
      rw [hp] at h
      obtain rfl := Except.error.inj h
      exact nofun
    | ok required =>
      rw [hp] at h
      change (if _ then _ else _) = _ at h
      split at h
      · obtain rfl := Except.error.inj h
        exact nofun
      · cases h
  · cases h

theorem failsWith_standard (c : Context) :
    FailsWith SparesForm (ofExcept (FeeChecker.standard c tx) : Gate σ (Coins × Int64)) := by
  refine failsWith_ofExcept fun e he => ?_
  unfold FeeChecker.standard at he
  cases hfloor : FeeChecker.floor c tx with
  | error x =>
    rw [hfloor] at he
    obtain rfl := Except.error.inj he
    exact sparesForm_of_floor hfloor
  | ok u =>
    rw [hfloor] at he
    cases he

theorem failsWith_payFee {payer : Address} (hp : tx.feePayer = some payer) (fee : Coins) :
    FailsWith SparesForm (payFee w tx fee false) := by
  rw [payFee_eq hp]
  refine .bind (failsWith_requireAccount _) fun _ => ?_
  refine .bind (failsWith_payingAccount payer fee) fun source => ?_
  refine .bind (failsWith_requireAccount source) fun _ => ?_
  split
  · exact .pure _
  · exact failsWith_call sparesForm_ofFeeLedger

/-- A fee is refused for its price, its payer or its collector, never for the form of the transaction. -/
theorem failsWith_chargeFee (hrule : w.checkFee = .standard) {payer : Address}
    (hp : tx.feePayer = some payer) : FailsWith SparesForm (chargeFee w tx false) := by
  rw [chargeFee_eq, hrule]
  refine .bind failsWith_context fun c => ?_
  split
  · exact .throw nofun
  · refine .bind (failsWith_standard c) fun x => ?_
    exact .bind (failsWith_payFee hp x.1) fun _ => failsWith_modifyContext _

end Gate
end Sorts

variable {tuning : Tuning} {tx : Transaction} {r t u : Run Memory} {cause : AdmissionError}

/-- The signer is found for an address in these accounts, and has signed as such. -/
def Transaction.SignsFor (tx : Transaction) (c : Context) (b : AccountBook) (i : Nat) (a : Address) :
    Prop :=
  ∃ s : Signer, s.FoundIn tx a i b ∧ tx.SignedAt SingleKey.verify i (Gate.signerData c s a)

/-- An account and a place have one signer only. -/
theorem Signer.FoundIn.unique {s s' : Signer} {a : Address} {i : Nat} {b : AccountBook}
    (h : s.FoundIn tx a i b) (h' : s'.FoundIn tx a i b) : s' = s := by
  obtain ⟨account, key, haccount, hkey, rfl⟩ := h
  obtain ⟨account', key', haccount', hkey', rfl⟩ := h'
  obtain rfl := Option.some.inj (haccount.symm.trans haccount')
  obtain rfl := Option.some.inj (hkey.symm.trans hkey')
  rfl

theorem Signer.FoundIn.signsFor_iff {s : Signer} {a : Address} {i : Nat} {b : AccountBook}
    {c : Context} (h : s.FoundIn tx a i b) :
    tx.SignsFor c b i a ↔ tx.SignedAt SingleKey.verify i (Gate.signerData c s a) := by
  constructor
  · rintro ⟨s', hfound, hsigned⟩
    rwa [h.unique hfound] at hsigned
  · intro hsigned
    exact ⟨s, h, hsigned⟩

theorem Transaction.Finds.foundIn {b : AccountBook} {ss : List Signer} (h : tx.Finds b ss) {i : Nat}
    {s : Signer} (hs : ss[i]? = some s) :
    tx.signers[i]? = some s.address ∧ s.FoundIn tx s.address i b := by
  have ha : tx.signers[i]? = some s.address := by
    rw [← h.addresses, List.getElem?_map, hs, Option.map_some]
  obtain ⟨s', hs', hfound⟩ := h.mem_zipIdx (List.mem_zipIdx_iff_getElem?.2 ha)
  obtain rfl := Option.some.inj (hs.symm.trans (List.mem_zipIdx_iff_getElem?.1 hs'))
  exact ⟨ha, hfound⟩

namespace Stage

theorem Passes.checkForm {σ : Type} {w : Wiring σ} {simulate : Bool} {ss : List Stage} {r t : Run σ}
    (h : Passes w tx simulate ss r t) (hform : .form ∈ ss) (hmode : r.context.mode ≠ .recheck) :
    tx.checkForm = .ok () := by
  obtain ⟨pre, post, u, v, -, hpre, hrun, -⟩ := h.at_stage hform
  obtain ⟨hchecked, -⟩ := Gate.checkForm_eq_ok_iff.1 (proceeding_eq_ok_iff.1 hrun).2
  refine hchecked.resolve_left fun hre => hmode ?_
  rw [Context.isRecheck_eq_of_caller (caller_of_reached hpre.reached)] at hre
  simpa [Context.isRecheck] using hre

/-- Behind the stage of the keys the cache holds the signers as the accounts know them at the start. -/
theorem Passes.finds {rest : List Stage} (hsetup : .setup ∉ rest) (hkeys : .keys ∉ rest)
    (h : Passes tuning.wiring tx false (canonical.take 9 ++ .keys :: rest) r u) :
    tx.Finds r.services.accounts u.context.signers := by
  obtain ⟨v, hbefore, h⟩ := h.split
  obtain ⟨x, hrun, hrest⟩ := passes_cons_iff.1 h
  obtain ⟨signers, hfound, rfl⟩ := Gate.resolveKeys_false_eq_ok_iff.1 (proceeding_eq_ok_iff.1 hrun).2
  rw [book_of_reached tuning.keepsBook (by decide) (by decide) hbefore.reached] at hfound
  rw [cached_of_reached hsetup hkeys hrest.reached]
  exact hfound

end Stage

namespace Gate

/-- Once the signers are in the cache, only their number can stop the count. -/
theorem countKeys_eq_error {σ : Type} {w : Wiring σ} {simulate : Bool} {limit count : UInt64}
    {xs : List (Signer × Nat)} {r t : Run σ}
    (hxs : ∀ x ∈ xs, r.context.signer? x.1.address = some x.1)
    (h : countKeys w tx simulate limit count (xs.map (Prod.map Signer.address id)) r =
      .error cause t) : ∃ n, cause = .tooManySignatures n limit ∧ limit < n := by
  induction xs generalizing count with
  | nil => cases h
  | cons x xs ih =>
    have hs : signer w tx simulate x.1.address x.2 r = .ok x.1 r :=
      signer_of_cached (hxs x List.mem_cons_self)
    simp only [List.map_cons, Prod.map_fst, Prod.map_snd, id_eq, countKeys] at h
    rw [bind_of_ok hs] at h
    by_cases hover : limit < Word.addSat count (Word.clamp x.1.key.leafCount)
    · simp only [hover, if_true] at h
      rcases bind_eq_error_iff.1 h with hthrow | ⟨_, _, hthrow, -⟩
      · obtain ⟨rfl, -⟩ := EStateM.Result.error.inj hthrow
        exact ⟨_, rfl, hover⟩
      · exact absurd hthrow throw_ne_ok
    · simp only [hover, if_false] at h
      exact ih (fun y hy => hxs y (List.mem_cons_of_mem x hy)) h

theorem checkKeyCount_eq_error {simulate : Bool} (hcached : r.context.Caches tx)
    (h : checkKeyCount tuning.wiring tx simulate r = .error cause t) :
    ∃ n, cause = .tooManySignatures n r.services.accounts.params.signatureLimit ∧
      r.services.accounts.params.signatureLimit < n := by
  have h : countKeys tuning.wiring tx simulate r.services.accounts.params.signatureLimit 0
      tx.signers.zipIdx r = .error cause t := h
  rw [hcached.zipIdx] at h
  exact countKeys_eq_error (fun x hx => hcached.signer? hx) h

/-- With signer data for every signer, a charge fails for an unreadable signature or for want of gas. -/
theorem chargeSignatures_eq_error (hgas : tuning.signatureGas = none) (hform : tx.WellCounted)
    (hcached : r.context.Caches tx)
    (h : chargeSignatures tuning.wiring tx false r = .error cause t) :
    (∃ e, cause = .outOfGas e) ∨ ∃ a ∈ tx.signers, ∃ e, cause = .invalidSignature a e := by
  rw [chargeSignatures_eq hcached, Tuning.signatureGas_eq hgas] at h
  obtain ⟨m, hmeter, -⟩ := charge_eq_error_iff.1 h
  obtain ⟨done, x, rest, n, hsplit, -, hx⟩ := forM_eq_error hmeter
  have hmem : (x.1.address, x.2) ∈ tx.signers.zipIdx := by
    rw [hcached.zipIdx, hsplit]
    exact List.mem_map.2 ⟨x, by simp, rfl⟩
  rcases bind_eq_error_iff.1 hx with hread | ⟨data, _, -, hcharge⟩
  · obtain ⟨info, hinfo⟩ := hform.exists_signerInfo hmem
    cases hdata : tx.signatureData x.2 x.1.address false with
    | ok data =>
      rw [hdata] at hread
      cases hread
    | error e =>
      rw [hdata] at hread
      obtain ⟨rfl, -⟩ := EStateM.Result.error.inj hread
      obtain ⟨reason, -, he⟩ := Transaction.signatureData_false_eq_error hinfo hdata
      exact .inr ⟨x.1.address, List.fst_mem_of_mem_zipIdx hmem, reason, he⟩
  · obtain ⟨e, -, rfl⟩ := mapError_eq_error_iff.1 hcharge
    exact .inl ⟨e, rfl⟩

section Signatures

variable {σ : Type} {w : Wiring σ} {r t : Run σ} {a : Address} {i : Nat} {s : Signer}
  {info : SignerInfo} {check : SingleKey → Bytes → Bytes → Except SignatureError Unit}

theorem verifySigner_of_ne {simulate : Bool} (hs : signer w tx simulate a i r = .ok s r)
    (hinfo : tx.signerInfo? i = some info) (hne : info.sequence ≠ s.sequence) :
    verifySigner w tx simulate a i r =
      .error (.sequenceMismatch a s.sequence info.sequence) r := by
  unfold verifySigner
  rw [bind_of_ok hs, hinfo]
  simp only [ne_eq, hne, not_false_eq_true, if_true]
  rfl

/-- With the right sequence, only the signature is left to fail. -/
theorem verifySigner_eq_error_of_eq (hs : signer w tx false a i r = .ok s r)
    (hinfo : tx.signerInfo? i = some info) (hseq : info.sequence = s.sequence)
    (h : verifySigner w tx false a i r = .error cause t) : ∃ e, cause = .invalidSignature a e := by
  unfold verifySigner at h
  rw [bind_of_ok hs, hinfo] at h
  simp only [hseq, ne_eq, not_true_eq_false, if_false, context_bind, Bool.false_or] at h
  split at h
  · cases h
  · rcases bind_eq_error_iff.1 h with hread | ⟨data, _, -, hcall⟩
    · cases hdata : tx.signatureData i a false with
      | ok data =>
        rw [hdata] at hread
        cases hread
      | error e =>
        rw [hdata] at hread
        obtain ⟨rfl, -⟩ := EStateM.Result.error.inj hread
        obtain ⟨reason, -, he⟩ := Transaction.signatureData_false_eq_error hinfo hdata
        exact ⟨reason, he⟩
    · obtain ⟨e, -, -, he, -⟩ := call_eq_error_iff.1 hcall
      exact ⟨e, he⟩

/-- Without signatures missing or too many, the stage stops at the first signer who has not signed. -/
theorem verifySignatures_eq_error_iff (hc : w.Checks check) (hcached : r.context.Caches tx)
    (hmode : r.context.isRecheck = false) (hform : tx.WellCounted) :
    verifySignatures w tx false r = .error cause t ↔ ∃ i s, r.context.signers[i]? = some s ∧
      (∀ j < i, ∀ s', r.context.signers[j]? = some s' →
        tx.SignedAt check j (signerData r.context s' s'.address)) ∧
      verifySigner w tx false s.address i r = .error cause t := by
  have hbody : verifySignatures w tx false r =
      (tx.signers.zipIdx.forM fun x => verifySigner w tx false x.1 x.2) r := by
    unfold verifySignatures
    simp only [hform.signatures, ne_eq, not_true_eq_false, if_false]
  rw [hbody, hcached.zipIdx, List.forM_eq_forM, List.forM_map]
  have hkeeps (x : Signer × Nat) (hx : x ∈ r.context.signers.zipIdx) (t : Run σ) :
      verifySigner w tx false x.1.address x.2 r = .ok () t ↔
        tx.SignedAt check x.2 (signerData r.context x.1 x.1.address) ∧ r = t := by
    rw [verifySigner_cached_eq_ok_iff hc hcached hform.signatures hx, hmode]
    simp only [Bool.false_eq_true, false_or]
    refine and_congr_left fun _ => and_iff_right_of_imp ?_
    rintro ⟨info, _, _, hinfo, -, hseq, -⟩
    exact ⟨info, hinfo, hseq⟩
  refine (forM_eq_error_iff_of_keeps hkeeps).trans ?_
  simp only [List.getElem?_zipIdx, Option.map_eq_some_iff, Nat.zero_add]
  constructor
  · rintro ⟨i, _, ⟨s, hs, rfl⟩, hbefore, herror⟩
    exact ⟨i, s, hs, fun j hj s' hs' => hbefore j hj (s', j) ⟨s', hs', rfl⟩, herror⟩
  · rintro ⟨i, s, hs, hbefore, herror⟩
    refine ⟨i, (s, i), ⟨s, hs, rfl⟩, ?_, herror⟩
    rintro j hj _ ⟨s', hs', rfl⟩
    exact hbefore j hj s' hs'

end Signatures

end Gate

/-- The signers before this one have signed, and this one states another sequence than the accounts
have. -/
def Transaction.FirstMismatch (tx : Transaction) (c : Context) (b : AccountBook) (a : Address)
    (expected got : UInt64) : Prop :=
  ∃ i, tx.signers[i]? = some a ∧
    (∀ j < i, ∀ x, tx.signers[j]? = some x → tx.SignsFor c b j x) ∧
    b.sequence? a = some expected ∧ tx.States i got ∧ got ≠ expected

namespace Stage

/-- What the stages before the signatures have settled when they are looked at. -/
structure Ready (tx : Transaction) (r u : Run Memory) : Prop where
  form : tx.WellCounted
  finds : tx.Finds r.services.accounts u.context.signers
  caller : u.context.reset false .infinite = r.context.reset false .infinite

theorem Passes.ready {s : Stage} (hs : s ∈ [.keyCount, .signatureGas, .signatures])
    (hmode : r.context.mode ≠ .recheck)
    (h : Passes tuning.wiring tx false (canonical.take s.position) r u) : Ready tx r u := by
  have hshape : ∀ s ∈ ([.keyCount, .signatureGas, .signatures] : List Stage),
      canonical.take s.position =
        canonical.take 9 ++ .keys :: (canonical.take s.position).drop 10 ∧
      .setup ∉ (canonical.take s.position).drop 10 ∧
      .keys ∉ (canonical.take s.position).drop 10 ∧ .form ∈ canonical.take s.position := by decide
  obtain ⟨hsplit, hsetup, hkeys, hform⟩ := hshape s hs
  constructor
  · exact Transaction.wellCounted_of_checkForm (h.checkForm hform hmode)
  · rw [hsplit] at h
    exact h.finds hsetup hkeys
  · exact caller_of_reached h.reached

namespace Ready

theorem cached (h : Ready tx r u) : u.context.Caches tx := h.finds.addresses

theorem isRecheck (h : Ready tx r u) (hmode : r.context.mode ≠ .recheck) :
    u.context.isRecheck = false := by
  rw [Context.isRecheck_eq_of_caller h.caller]
  exact decide_eq_false hmode

/-- A signer in the cache has signed exactly if the signer at this place has. -/
theorem signsFor_iff (h : Ready tx r u) {i : Nat} {s : Signer}
    (hs : u.context.signers[i]? = some s) :
    tx.SignsFor r.context r.services.accounts i s.address ↔
      tx.SignedAt SingleKey.verify i (Gate.signerData u.context s s.address) := by
  rw [(h.finds.foundIn hs).2.signsFor_iff, Context.signerData_eq_of_caller h.caller]

theorem exists_signerInfo (h : Ready tx r u) {i : Nat} {s : Signer}
    (hs : u.context.signers[i]? = some s) : ∃ info, tx.signerInfo? i = some info :=
  h.form.exists_signerInfo (List.mem_zipIdx_iff_getElem?.2 (h.finds.foundIn hs).1)

theorem signer_eq (h : Ready tx r u) {i : Nat} {s : Signer}
    (hs : u.context.signers[i]? = some s) :
    Gate.signer tuning.wiring tx false s.address i u = .ok s u :=
  Gate.signer_of_cached (h.cached.signer? (List.mem_zipIdx_iff_getElem?.2 hs : (s, i) ∈ _))

/-- The signatures fail for the first signer who has not signed. -/
theorem verifySignatures_eq_error_iff (h : Ready tx r u) (hmode : r.context.mode ≠ .recheck) :
    Gate.verifySignatures tuning.wiring tx false u = .error cause t ↔
      ∃ i s, u.context.signers[i]? = some s ∧
        (∀ j < i, ∀ x, tx.signers[j]? = some x →
          tx.SignsFor r.context r.services.accounts j x) ∧
        Gate.verifySigner tuning.wiring tx false s.address i u = .error cause t := by
  rw [Gate.verifySignatures_eq_error_iff tuning.checks h.cached (h.isRecheck hmode) h.form]
  refine exists_congr fun i => exists_congr fun s => and_congr_right fun _ => and_congr_left' ?_
  refine forall₂_congr fun j _ => ?_
  rw [← h.finds.addresses, List.getElem?_map]
  simp only [Option.map_eq_some_iff]
  constructor
  · rintro hall x ⟨s', hs', rfl⟩
    exact (h.signsFor_iff hs').2 (hall s' hs')
  · intro hall s' hs'
    exact (h.signsFor_iff hs').1 (hall s'.address ⟨s', hs', rfl⟩)

theorem kind_of_verifySignatures (h : Ready tx r u) (hmode : r.context.mode ≠ .recheck)
    (herror : Gate.verifySignatures tuning.wiring tx false u = .error cause t) :
    cause.kind = .sequenceMismatch ∨ cause.kind = .invalidSignature := by
  obtain ⟨i, s, hs, -, herror⟩ := (h.verifySignatures_eq_error_iff hmode).1 herror
  obtain ⟨info, hinfo⟩ := h.exists_signerInfo hs
  by_cases hseq : info.sequence = s.sequence
  · obtain ⟨e, rfl⟩ := Gate.verifySigner_eq_error_of_eq (h.signer_eq hs) hinfo hseq herror
    exact .inr rfl
  · rw [Gate.verifySigner_of_ne (h.signer_eq hs) hinfo hseq] at herror
    obtain ⟨rfl, -⟩ := EStateM.Result.error.inj herror
    exact .inl rfl

/-- A mismatch is reported exactly for the first signer who has not signed, if the sequence is wrong. -/
theorem sequenceMismatch_iff (h : Ready tx r u) (hmode : r.context.mode ≠ .recheck) {a : Address}
    {expected got : UInt64} :
    (∃ t, Gate.verifySignatures tuning.wiring tx false u =
        .error (.sequenceMismatch a expected got) t) ↔
      tx.FirstMismatch r.context r.services.accounts a expected got := by
  constructor
  · rintro ⟨t, herror⟩
    obtain ⟨i, s, hs, hbefore, herror⟩ := (h.verifySignatures_eq_error_iff hmode).1 herror
    obtain ⟨info, hinfo⟩ := h.exists_signerInfo hs
    obtain ⟨ha, hfound⟩ := h.finds.foundIn hs
    by_cases hseq : info.sequence = s.sequence
    · obtain ⟨e, he⟩ := Gate.verifySigner_eq_error_of_eq (h.signer_eq hs) hinfo hseq herror
      cases he
    · rw [Gate.verifySigner_of_ne (h.signer_eq hs) hinfo hseq] at herror
      obtain ⟨he, -⟩ := EStateM.Result.error.inj herror
      obtain ⟨rfl, rfl, rfl⟩ := AdmissionError.sequenceMismatch.inj he
      exact ⟨i, ha, hbefore, hfound.sequence, ⟨info, hinfo, rfl⟩, hseq⟩
  · rintro ⟨i, ha, hbefore, hledger, ⟨info, hinfo, rfl⟩, hne⟩
    rw [← h.finds.addresses, List.getElem?_map, Option.map_eq_some_iff] at ha
    obtain ⟨s, hs, rfl⟩ := ha
    have hsequence := (h.finds.foundIn hs).2.sequence
    obtain rfl := Option.some.inj (hledger.symm.trans hsequence)
    exact ⟨u, (h.verifySignatures_eq_error_iff hmode).2
      ⟨i, s, hs, hbefore, Gate.verifySigner_of_ne (h.signer_eq hs) hinfo hne⟩⟩

end Ready
end Stage

namespace Handler

/-- A run that has come to the signatures fails there exactly if they fail. -/
theorem eq_error_signatures_iff : (∃ t, tuning.handler.handle tx false r =
      .error ⟨.signatures, cause⟩ t) ↔
    ∃ u, Stage.Passes tuning.wiring tx false (Stage.canonical.take 12) r u ∧
      ∃ t, Gate.verifySignatures tuning.wiring tx false u = .error cause t := by
  constructor
  · rintro ⟨t, h⟩
    obtain ⟨u, hpass, hrun⟩ := Stage.passes_of_runAll_canonical_eq_error h
    exact ⟨u, hpass, t, Stage.proceeding_eq_error_iff.1 hrun⟩
  · rintro ⟨u, hpass, t, herror⟩
    have hrun : Stage.signatures.run tuning.wiring tx false u = .error cause t :=
      Stage.proceeding_eq_error_iff.2 herror
    have hrest : Stage.runAll tuning.wiring tx false [.signatures, .sequences, .relay] u =
        .error ⟨.signatures, cause⟩ t := by
      unfold Stage.runAll
      rw [hrun]
    exact ⟨t, (hpass.runAll_append [.signatures, .sequences, .relay]).trans hrest⟩

/-- The late stages fail for their own reasons only. Outside simulation and recheck, with the standard
rules for fees and gas, the fee never blames the form of the transaction, the count of keys finds too
many, the gas for the signatures runs out or a signature cannot be read, the signatures do not match or
do not hold, a sequence cannot be advanced in the ledger, and the relay stage never fails. A mismatch is
reported exactly when the run comes to the signatures and all signers before this one have signed, while
this one states another sequence than the ledger has. -/
theorem late_failures (hfee : tuning.feeChecker = none) (hgas : tuning.signatureGas = none)
    (hmode : r.context.mode ≠ .recheck) :
    (∀ e t, tuning.handler.handle tx false r = .error e t →
      (e.stage = .fee → e.kind ≠ .structuralInvalid) ∧
      (e.stage = .keyCount → e.kind = .tooManySignatures) ∧
      (e.stage = .signatureGas → e.kind = .outOfGas ∨ e.kind = .invalidSignature) ∧
      (e.stage = .signatures → e.kind = .sequenceMismatch ∨ e.kind = .invalidSignature) ∧
      (e.stage = .sequences → e.kind = .ledger) ∧
      e.stage ≠ .relay) ∧
    ∀ a expected got, (∃ t, tuning.handler.handle tx false r =
        .error ⟨.signatures, .sequenceMismatch a expected got⟩ t) ↔
      (∃ u, Stage.Passes tuning.wiring tx false (Stage.canonical.take 12) r u) ∧
        tx.FirstMismatch r.context r.services.accounts a expected got := by
  constructor
  · rintro ⟨s, cause⟩ t h
    obtain ⟨u, hpass, hrun⟩ := Stage.passes_of_runAll_canonical_eq_error h
    refine ⟨?_, ?_, ?_, ?_, ?_, ?_⟩ <;> rintro rfl
    · obtain ⟨payer, hp⟩ := (Transaction.wellCounted_of_checkForm
        (hpass.checkForm (by decide) hmode)).exists_feePayer
      exact Gate.failsWith_chargeFee (Gate.checkFee_eq hfee) hp u cause t
        (Stage.proceeding_eq_error_iff.1 hrun)
    · have hready := hpass.ready (by decide) hmode
      obtain ⟨n, rfl, -⟩ :=
        Gate.checkKeyCount_eq_error hready.cached (Stage.proceeding_eq_error_iff.1 hrun)
      rfl
    · have hready := hpass.ready (by decide) hmode
      rcases Gate.chargeSignatures_eq_error hgas hready.form hready.cached
        (Stage.proceeding_eq_error_iff.1 hrun) with ⟨e, rfl⟩ | ⟨a, -, e, rfl⟩
      · exact .inl rfl
      · exact .inr rfl
    · have hready := hpass.ready (by decide) hmode
      exact hready.kind_of_verifySignatures hmode (Stage.proceeding_eq_error_iff.1 hrun)
    · obtain ⟨-, rfl, -⟩ := advanced_of_failed h
      rfl
    · exact Stage.relay_run_ne_error hrun
  · intro a expected got
    have hready {u : Run Memory}
        (h : Stage.Passes tuning.wiring tx false (Stage.canonical.take 12) r u) :
        Stage.Ready tx r u := Stage.Passes.ready (s := .signatures) (by decide) hmode h
    rw [eq_error_signatures_iff]
    constructor
    · rintro ⟨u, hpass, herror⟩
      exact ⟨⟨u, hpass⟩, ((hready hpass).sequenceMismatch_iff hmode).1 herror⟩
    · rintro ⟨⟨u, hpass⟩, hfirst⟩
      exact ⟨u, hpass, ((hready hpass).sequenceMismatch_iff hmode).2 hfirst⟩

end Handler

/-- The account of the second signer has no transaction so far. -/
def freshJointRun : Run Memory :=
  ⟨.new "unit" 1 0, { unitMemory with
    accounts := (unitMemory.accounts.create trusteeKey.address).2 }⟩

theorem signedJointTransfer_mismatched : Tuning.standard.handler.refusal? signedJointTransfer
    freshJointRun trusteeKey.address =
      some (⟨.signatures, .sequenceMismatch trusteeKey.address 0 18446744073709551615⟩, some 0) := by
  decide +kernel

theorem signedJointTransfer_second_mismatched : ∃ t,
    Tuning.standard.handler.handle signedJointTransfer false freshJointRun =
      .error ⟨.signatures, .sequenceMismatch trusteeKey.address 0 18446744073709551615⟩ t ∧
    signedJointTransfer.FirstMismatch freshJointRun.context freshJointRun.services.accounts
      trusteeKey.address 0 18446744073709551615 := by
  obtain ⟨t, ht, -⟩ := Handler.eq_error_of_refusal? signedJointTransfer_mismatched
  have hfee : Tuning.standard.feeChecker = none := rfl
  have hgas : Tuning.standard.signatureGas = none := rfl
  have hmode : freshJointRun.context.mode ≠ .recheck := by decide
  exact ⟨t, ht, (((Handler.late_failures hfee hgas hmode).2 _ _ _).1 ⟨t, ht⟩).2⟩

end Tollgate
