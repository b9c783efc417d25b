import Tollgate.Admission.Handler
import Tollgate.Proofs.Signature.Verify
/-! What a stage can change, step by step. Every stage, whether it fails or not, moves within its
changes, so a property that the changes keep is kept by stages, handlers and runs. -/
namespace Tollgate

open Call Relation

variable {σ : Type}

/-- The single changes that a stage can make to a run. -/
inductive Change (w : Wiring σ) (tx : Transaction) (simulate : Bool) :
    Stage → Run σ → Run σ → Prop
  | reset (r : Run σ) : Change w tx simulate .setup r
      { r with context := r.context.reset simulate (r.context.freshMeter tx simulate) }
  | limit (r : Run σ) (ceiling : UInt64) (hs : simulate = true) : Change w tx simulate .gasCeiling r
      { r with context := { r.context with meter := r.context.meter.withLimit ceiling } }
  | count (r : Run σ) (hs : simulate = false) : Change w tx simulate .blockIndex r
      { r with services := after (w.counter.increment r.context.height tx.typeUrls) r.services }
  | index (r : Run σ) (i : UInt32) (hs : simulate = false) : Change w tx simulate .blockIndex r
      { r with context := { r.context with txIndex := some i } }
  | chargeBytes (r : Run σ) (amount : UInt64) : Change w tx simulate .size r
      { r with context := { r.context with
          meter := after (GasMeter.consume amount "txSize") r.context.meter } }
  | chargeSignature (r : Run σ) (p : AuthParams) (key : PublicKey) (data : SignatureData) :
      Change w tx simulate .signatureGas r
      { r with context := { r.context with
          meter := after (w.signatureGas p key data) r.context.meter } }
  /-- Any stage may look at accounts. -/
  | account (s : Stage) (r : Run σ) (a : Address) : Change w tx simulate s r
      { r with services := after (w.accounts.account a) r.services }
  | spendable (r : Run σ) (a : Address) (denom : String) (hs : simulate = true) :
      Change w tx simulate .fee r
      { r with services := after (w.bank.spendable a denom) r.services }
  /-- Only a fee that the checker found for this transaction is moved. -/
  | deduct (r : Run σ) (payer : Address) (fee : Coins) (hs : simulate = false)
      (hfee : ∃ c n, w.checkFee c tx = .ok (fee, n)) : Change w tx simulate .fee r
      { r with services :=
          after (w.bank.deduct payer (w.accounts.moduleAddress w.feeCollector) fee) r.services }
  | checkAllowance (r : Run σ) (registry : AllowanceRegistry σ) (granter grantee : Address)
      (fee : Coins) (hw : w.allowances = some registry) (hs : simulate = true) :
      Change w tx simulate .fee r
      { r with services := after (registry.check granter grantee fee tx.messages) r.services }
  | spendAllowance (r : Run σ) (registry : AllowanceRegistry σ) (granter grantee : Address)
      (fee : Coins) (hw : w.allowances = some registry) (hs : simulate = false) :
      Change w tx simulate .fee r
      { r with services := after (registry.spend granter grantee fee tx.messages) r.services }
  | priority (r : Run σ) (n : Int64) : Change w tx simulate .fee r
      { r with context := { r.context with priority := n } }
  /-- A key is stored only for the signer it belongs to, and only if none was found. -/
  | storeKey (r : Run σ) (a : Address) (i : Nat) (key : PublicKey) (found : Option Account) (u : σ)
      (hs : simulate = false) (ha : (a, i) ∈ tx.signers.zipIdx)
      (hkey : tx.providedKey? i = some key) (hderives : key.address = a)
      (hfound : w.accounts.account a r.services = .ok found u)
      (hnone : found.bind Account.key = none) : Change w tx simulate .keys r
      { r with services := after (w.accounts.setKey a key) u }
  | signers (r : Run σ) (ss : List Signer) : Change w tx simulate .keys r
      { r with context := { r.context with signers := ss } }
  | signBytes (r : Run σ) (mode : SignMode) (data : SignerData) : Change w tx simulate .signatures r
      { r with services := after (w.signModes.signBytes mode data tx) r.services }
  | checkSignature (r : Run σ) (key : SingleKey) (message signature : Bytes) :
      Change w tx simulate .signatures r
      { r with services := after (w.checkSignature key message signature) r.services }
  | advance (r : Run σ) (a : Address) (hs : simulate = false) (ha : a ∈ tx.signers) :
      Change w tx simulate .sequences r
      { r with services := after (w.accounts.advanceSequence a) r.services }
  | isProcessed (r : Run σ) (registry : RelayRegistry σ) (action : RelayAction) (packet : PacketId)
      (hw : w.relays = some registry) : Change w tx simulate .relay r
      { r with services := after (registry.isProcessed action packet) r.services }
  | packets (r : Run σ) (ps : List PacketId) : Change w tx simulate .relay r
      { r with context := { r.context with redundantPackets := some ps } }

namespace Gate

variable {ε α : Type} {R : Run σ → Run σ → Prop}

@[simp] theorem after_ofExcept (x : Except AdmissionError α) (r : Run σ) :
    after (ofExcept x) r = r := by cases x <;> rfl

@[simp] theorem after_call (explain : ε → AdmissionError) (c : Call ε σ α) (r : Run σ) :
    after (call explain c) r = { r with services := after c r.services } := by
  simp only [after, call]
  cases c r.services <;> rfl

@[simp] theorem after_charge (c : EStateM AdmissionError GasMeter α) (r : Run σ) :
    after (charge c) r =
      { r with context := { r.context with meter := after c r.context.meter } } := by
  simp only [after, charge]
  cases c r.context.meter <;> rfl

theorem within_context : Within R context := .of_after_eq fun _ => rfl

theorem within_context_bind {f : Context → Gate σ α}
    (h : ∀ r, ReflTransGen R r (after (f r.context) r)) : Within R (context >>= f) := h

theorem within_params (w : Wiring σ) : Within R (params w) := .of_after_eq fun _ => rfl

theorem within_ofExcept (x : Except AdmissionError α) : Within R (ofExcept x) :=
  .of_after_eq (after_ofExcept x)

theorem within_modifyContext {f : Context → Context}
    (h : ∀ r, R r { r with context := f r.context }) : Within R (modifyContext f) := .of_step h

/-- A call of the services moves the run as it moves the services. -/
theorem within_call {explain : ε → AdmissionError} {c : Call ε σ α} {S : σ → σ → Prop}
    (hc : Within S c) (h : ∀ x s t, S s t → R ⟨x, s⟩ ⟨x, t⟩) : Within R (call explain c) := by
  intro r
  rw [after_call]
  exact (hc r.services).lift (fun s => (⟨r.context, s⟩ : Run σ)) (h r.context)

theorem within_call_step {explain : ε → AdmissionError} {c : Call ε σ α}
    (h : ∀ r : Run σ, R r { r with services := after c r.services }) :
    Within R (call explain c) := .of_step fun r => by rw [after_call]; exact h r

variable (w : Wiring σ) (tx : Transaction) (simulate : Bool)

theorem within_account (s : Stage) (a : Address) :
    Within (Change w tx simulate s) (account w a) :=
  within_call_step fun r => .account s r a

theorem within_setup : Within (Change w tx simulate .setup) (setup tx simulate) :=
  within_modifyContext .reset

theorem within_capGas : Within (Change w tx simulate .gasCeiling) (capGas w tx simulate) := by
  unfold capGas
  split
  · exact .pure _
  · next hs =>
    refine within_context.bind fun c => ?_
    split
    · exact .pure _
    · next ceiling _ =>
      split
      · exact (Within.throw _).bind fun _ => within_modifyContext fun r =>
          .limit r ceiling (by simpa using hs)
      · exact within_modifyContext fun r => .limit r ceiling (by simpa using hs)

theorem within_countInBlock :
    Within (Change w tx simulate .blockIndex) (countInBlock w tx simulate) := by
  unfold countInBlock
  split
  · exact .pure _
  · next hs =>
    have hs : simulate = false := by simpa using hs
    -- the transaction is counted at the height of this very run
    refine within_context_bind fun r => after_bind_reached ?_ fun i _ _ => .single (.index _ i hs)
    rw [after_call]
    exact .single (.count r hs)

theorem within_checkOptions : Within R (checkOptions w tx) := within_ofExcept _

theorem within_checkForm : Within R (checkForm (σ := σ) tx) := by
  refine within_context.bind fun c => ?_
  split
  · exact .pure _
  · exact within_ofExcept _

theorem within_checkTimeout : Within R (checkTimeout (σ := σ) tx) :=
  within_context.bind fun _ => within_ofExcept _

theorem within_checkMemo : Within R (checkMemo w tx) :=
  (within_params w).bind fun _ => within_ofExcept _

theorem within_chargeBytes (p : AuthParams) (size : UInt64) :
    Within (Change w tx simulate .size) (chargeBytes (σ := σ) p size) := by
  refine .of_step fun r => ?_
  rw [chargeBytes, after_charge, after_mapError]
  exact .chargeBytes r _

theorem within_missingSignatures (limit total : UInt64) (xs : List (Address × Nat)) :
    Within (Change w tx simulate .size) (missingSignatures w tx limit total xs) := by
  induction xs generalizing total with
  | nil => exact .pure _
  | cons x xs ih =>
    obtain ⟨a, i⟩ := x
    unfold missingSignatures
    split
    · exact ih total
    · exact (within_account w tx simulate .size a).bind fun _ => ih _

theorem within_chargeSize : Within (Change w tx simulate .size) (chargeSize w tx simulate) := by
  refine (within_params w).bind fun p => within_context.bind fun c => ?_
  refine (within_chargeBytes w tx simulate p _).bind fun _ => ?_
  split
  · exact (within_missingSignatures w tx simulate _ _ _).bind fun _ =>
      within_chargeBytes w tx simulate p _
  · exact .pure _

theorem within_useAllowance (granter grantee : Address) (fee : Coins) :
    Within (Change w tx simulate .fee) (useAllowance w granter grantee fee tx simulate) := by
  unfold useAllowance
  split
  · exact .throw _
  · next registry hw =>
    cases simulate with
    | true => exact within_call_step fun r => .checkAllowance r registry granter grantee fee hw rfl
    | false => exact within_call_step fun r => .spendAllowance r registry granter grantee fee hw rfl

theorem within_payingAccount (payer : Address) (fee : Coins) :
    Within (Change w tx simulate .fee) (payingAccount w payer fee tx simulate) := by
  unfold payingAccount
  split
  · split
    · exact .pure _
    · exact (within_useAllowance w tx simulate _ _ _).bind fun _ => .pure _
  · exact .pure _

theorem within_requireAccount (s : Stage) (a : Address) :
    Within (Change w tx simulate s) (requireAccount w a) := by
  refine (within_account w tx simulate s a).bind fun found => ?_
  split
  · exact .throw _
  · exact .pure _

theorem within_ensureSpendableCoins (bank : FeeLedger σ) (payer : Address) (cs : List Coin) :
    Within (fun s t => ∃ denom, t = after (bank.spendable payer denom) s)
      (bank.ensureSpendableCoins payer cs) := by
  induction cs with
  | nil => exact .pure _
  | cons c cs ih =>
    unfold FeeLedger.ensureSpendableCoins
    refine Within.bind (.of_step fun s => ⟨c.denom, after_mapError _ _ s⟩) fun available => ?_
    split
    · exact (Within.throw _).bind fun _ => ih
    · exact ih

theorem within_payFee {fee : Coins}
    (hfee : simulate = false → ∃ c n, w.checkFee c tx = .ok (fee, n)) :
    Within (Change w tx simulate .fee) (payFee w tx fee simulate) := by
  refine (within_requireAccount w tx simulate .fee _).bind fun _ => ?_
  split
  · next payer _ =>
    refine (within_payingAccount w tx simulate payer fee).bind fun source => ?_
    refine (within_requireAccount w tx simulate .fee source).bind fun _ => ?_
    split
    · exact .pure _
    · cases simulate with
      | true =>
        refine within_call (within_ensureSpendableCoins w.bank source fee.toList) ?_
        rintro x s _ ⟨denom, rfl⟩
        exact .spendable ⟨x, s⟩ source denom rfl
      | false => exact within_call_step fun r => .deduct r source fee rfl (hfee rfl)
  · exact .throw _

theorem chargeFee_eq : chargeFee w tx simulate = (do
    let c ← context
    if !simulate && !c.isGenesis && tx.gasLimit = 0 then throw .invalidGasLimit
    else
      let x ← if simulate then pure (tx.fee, 0) else ofExcept (w.checkFee c tx)
      payFee w tx x.1 simulate
      modifyContext fun c => { c with priority := x.2 }) := by
  refine bind_congr fun c => ?_
  dsimp only
  split <;> rfl

theorem within_chargeFee : Within (Change w tx simulate .fee) (chargeFee w tx simulate) := by
  have hpay {fee : Coins} (n : Int64)
      (hfee : simulate = false → ∃ c n, w.checkFee c tx = .ok (fee, n)) :
      Within (Change w tx simulate .fee)
        (do payFee w tx fee simulate; modifyContext fun c => { c with priority := n }) :=
    (within_payFee w tx simulate hfee).bind fun _ => within_modifyContext fun r => .priority r n
  rw [chargeFee_eq]
  refine within_context.bind fun c => ?_
  split
  · exact .throw _
  · split
    · next hs => exact (Within.pure _).bind fun x => hpay x.2 fun h => nomatch h.symm.trans hs
    · cases hchecked : w.checkFee c tx with
      | ok x => exact hpay x.2 fun _ => ⟨c, x.2, hchecked⟩
      | error e => exact .of_after_eq fun _ => rfl

theorem within_resolveSigner (s : Stage) (a : Address) (i : Nat) :
    Within (Change w tx simulate s) (resolveSigner w tx simulate a i) := by
  refine (within_account w tx simulate s a).bind fun found => ?_
  split
  · split
    · exact .pure _
    · split
      · exact .pure _
      · exact .throw _
  · exact .throw _

theorem within_signer (s : Stage) (a : Address) (i : Nat) :
    Within (Change w tx simulate s) (signer w tx simulate a i) := by
  refine within_context.bind fun c => ?_
  split
  · exact .pure _
  · exact within_resolveSigner w tx simulate s a i

/-- Outside simulation a provided key is checked, and then stored if the account has none. -/
theorem resolveKey_false (a : Address) (i : Nat) : resolveKey w tx false a i = (do
    ofExcept (checkProvidedKey tx a i)
    let s ← resolveSigner w tx false a i
    storeProvidedKey w tx a i
    return s) := rfl

theorem resolveKey_true (a : Address) (i : Nat) :
    resolveKey w tx true a i = resolveSigner w tx true a i := bind_pure _

theorem address_of_checkProvidedKey {a : Address} {i : Nat} {key : PublicKey}
    (hkey : tx.providedKey? i = some key) (h : checkProvidedKey tx a i = .ok ()) :
    key.address = a := by
  simp only [checkProvidedKey, hkey] at h
  split at h
  · assumption
  · cases h

theorem within_storeProvidedKey {a : Address} {i : Nat} (ha : (a, i) ∈ tx.signers.zipIdx)
    (hc : checkProvidedKey tx a i = .ok ()) :
    Within (Change w tx false .keys) (storeProvidedKey w tx a i) := by
  unfold storeProvidedKey
  split
  · exact .pure _
  · next key hkey =>
    intro r
    -- the look-up and the storing are one change, which knows what was found
    change ReflTransGen _ r (after (account w a >>= _) r)
    cases hfound : w.accounts.account a r.services with
    | ok found u =>
      have hcall : account w a r = .ok found { r with services := u } := by
        simp only [account, call, hfound]
      rw [after_bind_of_ok hcall]
      dsimp only
      split
      · next hnone =>
        rw [after_call]
        exact .single (.storeKey r a i key found u rfl ha hkey
          (address_of_checkProvidedKey tx hkey hc) hfound (by simpa using hnone))
      · rw [← after_of_ok hcall]
        exact within_account w tx false .keys a r
    | error e u =>
      have hcall : account w a r = .error (.ofLedger e) { r with services := u } := by
        simp only [account, call, hfound]
      rw [after_bind_of_error hcall, ← after_of_error hcall]
      exact within_account w tx false .keys a r

theorem within_resolveKey {a : Address} {i : Nat} (ha : (a, i) ∈ tx.signers.zipIdx) :
    Within (Change w tx simulate .keys) (resolveKey w tx simulate a i) := by
  cases simulate with
  | true =>
    rw [resolveKey_true]
    exact within_resolveSigner w tx true .keys a i
  | false =>
    rw [resolveKey_false]
    refine (within_ofExcept _).bind_ok fun r _ t hc => ?_
    refine Within.bind (within_resolveSigner w tx false .keys a i) (fun s => ?_) t
    have hc : checkProvidedKey tx a i = .ok () := by
      cases h : checkProvidedKey tx a i with
      | ok => rfl
      | error e => simp [ofExcept, h] at hc
    exact (within_storeProvidedKey w tx ha hc).bind fun _ => .pure _

theorem within_resolveKeys : Within (Change w tx simulate .keys) (resolveKeys w tx simulate) := by
  refine Within.bind (.mapM ?_) fun ss => within_modifyContext fun r => .signers r ss
  rintro ⟨a, i⟩ ha
  exact within_resolveKey w tx simulate ha

theorem within_countKeys (limit count : UInt64) (xs : List (Address × Nat)) :
    Within (Change w tx simulate .keyCount) (countKeys w tx simulate limit count xs) := by
  induction xs generalizing count with
  | nil => exact .pure _
  | cons x xs ih =>
    obtain ⟨a, i⟩ := x
    refine (within_signer w tx simulate .keyCount a i).bind fun s => ?_
    dsimp only
    split
    · exact (Within.throw _).bind fun _ => ih _
    · exact ih _

theorem within_checkKeyCount :
    Within (Change w tx simulate .keyCount) (checkKeyCount w tx simulate) :=
  (within_params w).bind fun _ => within_countKeys w tx simulate _ _ _

theorem within_chargeSignatures :
    Within (Change w tx simulate .signatureGas) (chargeSignatures w tx simulate) := by
  refine (within_params w).bind fun p => .forM ?_
  rintro ⟨a, i⟩ -
  refine (within_signer w tx simulate .signatureGas a i).bind fun s => ?_
  refine (within_ofExcept _).bind fun data => .of_step fun r => ?_
  rw [after_charge]
  exact .chargeSignature r p s.key data

theorem within_appliedPackets {registry : RelayRegistry σ} (hw : w.relays = some registry)
    (ms : List Message) : Within (Change w tx simulate .relay) (appliedPackets registry ms) := by
  induction ms with
  | nil => exact .pure _
  | cons m ms ih =>
    unfold appliedPackets
    split
    · next action packet _ =>
      refine Within.bind ?_ fun _ => ih.bind fun _ => .pure _
      exact within_call_step fun r => .isProcessed r registry action packet hw
    · split
      · exact ih
      · exact .pure _

theorem within_checkRelay : Within (Change w tx simulate .relay) (checkRelay w tx simulate) := by
  refine within_context.bind fun c => ?_
  split
  · exact .pure _
  · split
    · next registry hw =>
      refine (within_appliedPackets w tx simulate hw tx.messages).bind fun found => ?_
      split
      · exact .pure _
      · next ps _ => exact (within_modifyContext fun r => .packets r ps).bind fun _ => .pure _
    · exact .pure _

theorem within_advanceSequences :
    Within (Change w tx simulate .sequences) (advanceSequences w tx simulate) := by
  unfold advanceSequences
  split
  · exact .pure _
  · next hs =>
    refine .forM fun a ha => Within.bind ?_ fun _ => .pure _
    exact within_call_step fun r => .advance r a (by simpa using hs) ha

theorem within_verifyTask (data : SignerData) (task : SignatureTask) :
    Within (fun s t => (∃ mode, t = after (w.signModes.signBytes mode data tx) s) ∨
        ∃ key message signature, t = after (w.checkSignature key message signature) s)
      (verifyTask w tx data task) := by
  refine Within.bind (.of_step fun s => .inl ⟨task.mode, after_mapError _ _ s⟩) fun message => ?_
  exact .of_step fun s => .inr ⟨task.key, message, task.signature, rfl⟩

theorem within_verifySigner (a : Address) (i : Nat) :
    Within (Change w tx simulate .signatures) (verifySigner w tx simulate a i) := by
  refine (within_signer w tx simulate .signatures a i).bind fun s => ?_
  have hverify (c : Context) : Within (Change w tx simulate .signatures) (do
      let data ← ofExcept (tx.signatureData i a false)
      call (.invalidSignature a) (s.key.verify (verifyTask w tx (signerData c s a)) data)) := by
    refine (within_ofExcept _).bind fun data => within_call
      (PublicKey.within_verify (within_verifyTask w tx (signerData c s a)) s.key data) ?_
    rintro x s _ (⟨mode, rfl⟩ | ⟨key, message, signature, rfl⟩)
    · exact .signBytes ⟨x, s⟩ mode _
    · exact .checkSignature ⟨x, s⟩ key message signature
  have hrest : Within (Change w tx simulate .signatures) (do
      let c ← context
      if simulate || c.isRecheck then return
      let data ← ofExcept (tx.signatureData i a false)
      call (.invalidSignature a) (s.key.verify (verifyTask w tx (signerData c s a)) data)) := by
    refine within_context.bind fun c => ?_
    split
    · exact .pure _
    · exact hverify c
  split
  · dsimp only
    split
    · exact (Within.throw _).bind fun _ => hrest
    · exact hrest
  · exact .throw _

theorem within_verifySignatures :
    Within (Change w tx simulate .signatures) (verifySignatures w tx simulate) := by
  have hall : Within (Change w tx simulate .signatures)
      (tx.signers.zipIdx.forM fun x => verifySigner w tx simulate x.1 x.2) :=
    .forM fun _ _ => within_verifySigner w tx simulate _ _
  unfold verifySignatures
  dsimp only
  split
  · exact (Within.throw _).bind fun _ => hall
  · exact hall

end Gate

namespace Stage

variable (w : Wiring σ) (tx : Transaction) (simulate : Bool)

theorem within_proceeding {R : Run σ → Run σ → Prop} {g : Gate σ Unit} (h : Within R g) :
    Within R (proceeding g) := h.bind fun _ => .pure _

/-- A stage that fails leaves what it changed before. -/
theorem within_run (s : Stage) : Within (Change w tx simulate s) (s.run w tx simulate) := by
  cases s with
  | setup => exact within_proceeding (Gate.within_setup w tx simulate)
  | gasCeiling => exact within_proceeding (Gate.within_capGas w tx simulate)
  | blockIndex => exact within_proceeding (Gate.within_countInBlock w tx simulate)
  | options => exact within_proceeding (Gate.within_checkOptions w tx)
  | form => exact within_proceeding (Gate.within_checkForm tx)
  | timeout => exact within_proceeding (Gate.within_checkTimeout tx)
  | memo => exact within_proceeding (Gate.within_checkMemo w tx)
  | size => exact within_proceeding (Gate.within_chargeSize w tx simulate)
  | fee => exact within_proceeding (Gate.within_chargeFee w tx simulate)
  | keys => exact within_proceeding (Gate.within_resolveKeys w tx simulate)
  | keyCount => exact within_proceeding (Gate.within_checkKeyCount w tx simulate)
  | signatureGas => exact within_proceeding (Gate.within_chargeSignatures w tx simulate)
  | signatures => exact within_proceeding (Gate.within_verifySignatures w tx simulate)
  | sequences => exact within_proceeding (Gate.within_advanceSequences w tx simulate)
  | relay => exact Gate.within_checkRelay w tx simulate

end Stage
end Tollgate
