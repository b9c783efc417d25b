import Tollgate.Proofs.Admission.Payment
import Tollgate.Proofs.Admission.Passage
/-! Two runs of one transaction outside simulation, over services of different kinds or in different
states. If every call that the transaction makes has the same outcome in both, then so has every stage,
and the contexts agree but for the position in the block. After the fee was moved, the states may be
related in another way than before. -/
namespace Tollgate

open Call

/-- The same context with another position in the block. -/
def Context.placed (c : Context) (i : Option UInt32) : Context := { c with txIndex := i }

namespace Context

variable (c : Context) (i : Option UInt32)

@[simp] theorem placed_isCheck : (c.placed i).isCheck = c.isCheck := rfl

@[simp] theorem placed_isRecheck : (c.placed i).isRecheck = c.isRecheck := rfl

@[simp] theorem placed_isGenesis : (c.placed i).isGenesis = c.isGenesis := rfl

@[simp] theorem placed_signer? (a : Address) : (c.placed i).signer? a = c.signer? a := rfl

@[simp] theorem signerData_placed (s : Signer) (a : Address) :
    Gate.signerData (c.placed i) s a = Gate.signerData c s a := rfl

end Context

variable {σ τ : Type} {S T : σ → τ → Prop} {w : Wiring σ} {v : Wiring τ} {tx : Transaction}
  {exact : Prop}

/-- The contexts agree, but for the position in the block if that is left open, and the states of the
services are related. -/
structure Run.Parallel (exact : Prop) (S : σ → τ → Prop) (r : Run σ) (s : Run τ) : Prop where
  context : ∃ i, s.context = r.context.placed i ∧ (exact → i = r.context.txIndex)
  services : S r.services s.services

/-- The transaction may be charged this fee in the name of this payer. -/
def Wiring.Charges (w : Wiring σ) (tx : Transaction) (payer : Address) (fee : Coins) : Prop :=
  tx.feePayer = some payer ∧ ∃ c n, w.checkFee c tx = .ok (fee, n)

/-- Every call that the transaction makes outside simulation has the same outcome over related states
of the services, but for the two that change what all transactions share: the count of the block and the
balance of the collector. -/
structure Wiring.Lockstep (S : σ → τ → Prop) (w : Wiring σ) (v : Wiring τ) (tx : Transaction) :
    Prop where
  params : ∀ s t, S s t → w.accounts.params s = v.accounts.params t
  moduleAddress : v.accounts.moduleAddress = w.accounts.moduleAddress
  feeCollector : v.feeCollector = w.feeCollector
  acceptsOption : v.acceptsOption = w.acceptsOption
  signatureGas : v.signatureGas = w.signatureGas
  /-- The rule for the fee does not look at the position in the block. -/
  checkFee : ∀ c i, v.checkFee (c.placed i) tx = w.checkFee c tx
  collector : Call.Lockstep S (w.accounts.account (w.accounts.moduleAddress w.feeCollector))
    (v.accounts.account (w.accounts.moduleAddress w.feeCollector))
  source : ∀ payer, tx.feePayer = some payer →
    Call.Lockstep S (w.accounts.account (tx.feeSource payer))
      (v.accounts.account (tx.feeSource payer))
  signer : ∀ a ∈ tx.signers, Call.Lockstep S (w.accounts.account a) (v.accounts.account a)
  setKey : ∀ a ∈ tx.signers, ∀ key,
    Call.Lockstep S (w.accounts.setKey a key) (v.accounts.setKey a key)
  advance : ∀ a ∈ tx.signers,
    Call.Lockstep S (w.accounts.advanceSequence a) (v.accounts.advanceSequence a)
  allowances : Option.Rel (fun x y => ∀ payer fee, w.Charges tx payer fee →
    Call.Lockstep S (x.spend (tx.feeSource payer) payer fee tx.messages)
      (y.spend (tx.feeSource payer) payer fee tx.messages)) w.allowances v.allowances
  signBytes : ∀ mode data,
    Call.Lockstep S (w.signModes.signBytes mode data tx) (v.signModes.signBytes mode data tx)
  checkSignature : ∀ key message signature, Call.Lockstep S
    (w.checkSignature key message signature) (v.checkSignature key message signature)
  relays : Option.Rel (fun x y => ∀ action packet,
    Call.Lockstep S (x.isProcessed action packet) (y.isProcessed action packet)) w.relays v.relays

/-- The count of the block has the same outcome over related states. -/
def Wiring.CountsAlike (S : σ → τ → Prop) (w : Wiring σ) (v : Wiring τ) (tx : Transaction) : Prop :=
  ∀ height, Call.Lockstep S (w.counter.increment height tx.typeUrls)
    (v.counter.increment height tx.typeUrls)

/-- So has the movement of the fee, with the states related in the second way afterwards. -/
def Wiring.DeductsAlike (S T : σ → τ → Prop) (w : Wiring σ) (v : Wiring τ) (tx : Transaction) :
    Prop :=
  ∀ payer fee, w.Charges tx payer fee → Leads S T
    (w.bank.deduct (tx.feeSource payer) (w.accounts.moduleAddress w.feeCollector) fee)
    (v.bank.deduct (tx.feeSource payer) (w.accounts.moduleAddress w.feeCollector) fee)

theorem Run.Parallel.mono {r : Run σ} {s : Run τ} (hST : ∀ x y, S x y → T x y)
    (h : Run.Parallel exact S r s) : Run.Parallel exact T r s := ⟨h.context, hST _ _ h.services⟩

namespace Gate

variable {α β ε : Type}

/-- What is done with the context must not depend on the position in the block. -/
theorem leads_context_bind {f : Context → Gate σ α} {g : Context → Gate τ α}
    (h : ∀ c i, Leads (Run.Parallel exact S) (Run.Parallel exact T) (f c) (g (c.placed i))) :
    Leads (Run.Parallel exact S) (Run.Parallel exact T) (context >>= f) (context >>= g) := by
  intro r s hrs
  obtain ⟨i, hi, -⟩ := hrs.context
  have hstep := h r.context i r s hrs
  rw [← hi] at hstep
  exact hstep

theorem lockstep_context_bind {f : Context → Gate σ α} {g : Context → Gate τ α}
    (h : ∀ c i, Lockstep (Run.Parallel exact S) (f c) (g (c.placed i))) :
    Lockstep (Run.Parallel exact S) (context >>= f) (context >>= g) := leads_context_bind h

theorem lockstep_modifyContext {f : Context → Context}
    (hf : ∀ c i, f (c.placed i) = (f c).placed i) :
    Lockstep (Run.Parallel exact S) (modifyContext f) (modifyContext f) := by
  intro r s hrs
  obtain ⟨⟨i, hi, hindex⟩, hservices⟩ := hrs
  have hkeeps : (f r.context).txIndex = r.context.txIndex := by
    have hsame := congrArg Context.txIndex (hf r.context r.context.txIndex)
    exact hsame
  refine .ok () ⟨⟨i, ?_, fun he => (hindex he).trans hkeeps.symm⟩, hservices⟩
  change f s.context = _
  rw [hi, hf]

theorem leads_call {c : Call ε σ α} {d : Call ε τ α} (explain : ε → AdmissionError)
    (h : Leads S T c d) :
    Leads (Run.Parallel exact S) (Run.Parallel exact T) (call explain c) (call explain d) := by
  intro r s hrs
  have hcd := h _ _ hrs.services
  unfold call
  revert hcd
  generalize c r.services = x, d s.services = y
  rintro (⟨a, hst⟩ | ⟨e, hst⟩)
  · exact .ok a ⟨hrs.context, hst⟩
  · exact .error (explain e) ⟨hrs.context, hst⟩

theorem lockstep_call {c : Call ε σ α} {d : Call ε τ α} (explain : ε → AdmissionError)
    (h : Lockstep S c d) :
    Lockstep (Run.Parallel exact S) (call explain c) (call explain d) := leads_call explain h

theorem lockstep_ofExcept (x : Except AdmissionError α) :
    Lockstep (Run.Parallel exact S) (ofExcept x) (ofExcept x) := by
  intro r s hrs
  cases x with
  | ok a => exact .ok a hrs
  | error e => exact .error e hrs

theorem lockstep_charge (c : EStateM AdmissionError GasMeter α) :
    Lockstep (Run.Parallel exact S) (charge c) (charge c) := by
  intro r s hrs
  obtain ⟨⟨i, hi, hindex⟩, hservices⟩ := hrs
  have hmeter : s.context.meter = r.context.meter := by
    rw [hi]
    rfl
  unfold charge
  rw [hmeter, hi]
  cases c r.context.meter with
  | ok a m => exact .ok a ⟨⟨i, rfl, hindex⟩, hservices⟩
  | error e m => exact .error e ⟨⟨i, rfl, hindex⟩, hservices⟩

theorem lockstep_setup :
    Lockstep (Run.Parallel exact S) (setup tx false) (setup tx false) := by
  intro r s hrs
  obtain ⟨⟨i, hi, -⟩, hservices⟩ := hrs
  refine .ok () ⟨⟨none, ?_, fun _ => rfl⟩, hservices⟩
  change s.context.reset false (s.context.freshMeter tx false) = _
  rw [hi]
  rfl

theorem lockstep_countInBlock (hcount : w.CountsAlike S v tx) :
    Lockstep (Run.Parallel exact S) (countInBlock w tx false) (countInBlock v tx false) := by
  refine lockstep_context_bind fun c i => (lockstep_call _ (hcount c.height)).bind fun index => ?_
  intro r s hrs
  obtain ⟨⟨i, hi, -⟩, hservices⟩ := hrs
  refine .ok () ⟨⟨some index, ?_, fun _ => rfl⟩, hservices⟩
  change ({ s.context with txIndex := some index } : Context) = _
  rw [hi]
  rfl

theorem lockstep_checkForm :
    Lockstep (Run.Parallel exact S) (checkForm (σ := σ) tx) (checkForm tx) := by
  refine lockstep_context_bind fun c i => ?_
  rw [Context.placed_isRecheck]
  split
  · exact .pure _
  · exact lockstep_ofExcept _

theorem lockstep_checkTimeout :
    Lockstep (Run.Parallel exact S) (checkTimeout (σ := σ) tx) (checkTimeout tx) :=
  lockstep_context_bind fun _ _ => lockstep_ofExcept _

section Stages

variable (h : w.Lockstep S v tx)

include h

theorem lockstep_checkOptions :
    Lockstep (Run.Parallel exact S) (checkOptions w tx) (checkOptions v tx) := by
  unfold checkOptions
  rw [h.acceptsOption]
  exact lockstep_ofExcept _

theorem lockstep_params : Lockstep (Run.Parallel exact S) (params w) (params v) := by
  intro r s hrs
  unfold params
  rw [h.params _ _ hrs.services]
  exact .ok _ hrs

theorem lockstep_checkMemo :
    Lockstep (Run.Parallel exact S) (checkMemo w tx) (checkMemo v tx) :=
  (lockstep_params h).bind fun _ => lockstep_ofExcept _

theorem lockstep_chargeSize :
    Lockstep (Run.Parallel exact S) (chargeSize w tx false) (chargeSize v tx false) := by
  refine (lockstep_params h).bind fun p => lockstep_context_bind fun c i => ?_
  exact (lockstep_charge _).bind fun _ => .pure _

omit h in
theorem lockstep_requireAccount {a : Address}
    (ha : Lockstep S (w.accounts.account a) (v.accounts.account a)) :
    Lockstep (Run.Parallel exact S) (requireAccount w a) (requireAccount v a) := by
  refine (lockstep_call _ ha).bind fun found => ?_
  split
  · exact .throw _
  · exact .pure _

theorem lockstep_useAllowance {payer : Address} {fee : Coins} (hcharges : w.Charges tx payer fee) :
    Lockstep (Run.Parallel exact S) (useAllowance w (tx.feeSource payer) payer fee tx false)
      (useAllowance v (tx.feeSource payer) payer fee tx false) := by
  have hallowances := h.allowances
  unfold useAllowance
  revert hallowances
  generalize w.allowances = x, v.allowances = y
  rintro (hspend | _)
  · exact lockstep_call _ (hspend payer fee hcharges)
  · exact .throw _

theorem leads_payFee (hST : ∀ x y, S x y → T x y) (hdeduct : w.DeductsAlike S T v tx) {fee : Coins}
    (hfee : ∃ c n, w.checkFee c tx = .ok (fee, n)) :
    Leads (Run.Parallel exact S) (Run.Parallel exact T) (payFee w tx fee false)
      (payFee v tx fee false) := by
  have hparallel (r : Run σ) (s : Run τ) :
      Run.Parallel exact S r s → Run.Parallel exact T r s := .mono hST
  unfold payFee
  rw [h.moduleAddress, h.feeCollector]
  refine Leads.bind (lockstep_requireAccount h.collector) (fun _ => ?_) hparallel
  cases hp : tx.feePayer with
  | none => exact Leads.mono hparallel (Lockstep.throw _)
  | some payer =>
    have hcharges : w.Charges tx payer fee := ⟨hp, hfee⟩
    have hmove : Leads (Run.Parallel exact S) (Run.Parallel exact T) (do
        requireAccount w (tx.feeSource payer)
        if fee.isZero then return
        call .ofFeeLedger (w.bank.deduct (tx.feeSource payer)
          (w.accounts.moduleAddress w.feeCollector) fee)) (do
        requireAccount v (tx.feeSource payer)
        if fee.isZero then return
        call .ofFeeLedger (v.bank.deduct (tx.feeSource payer)
          (w.accounts.moduleAddress w.feeCollector) fee)) := by
      refine Leads.bind (lockstep_requireAccount (h.source payer hp)) (fun _ => ?_) hparallel
      split
      · exact Leads.mono hparallel (Lockstep.pure _)
      · exact leads_call _ (hdeduct payer fee hcharges)
    dsimp only
    rw [payingAccount_eq, payingAccount_eq]
    by_cases hself : tx.feeSource payer = payer
    · rw [hself] at hmove
      rw [if_pos hself, if_pos hself, pure_bind, pure_bind]
      exact hmove
    · rw [if_neg hself, if_neg hself]
      simp only [bind_assoc, pure_bind]
      exact Leads.bind (lockstep_useAllowance h hcharges) (fun _ => hmove) hparallel

theorem leads_chargeFee (hST : ∀ x y, S x y → T x y) (hdeduct : w.DeductsAlike S T v tx) :
    Leads (Run.Parallel exact S) (Run.Parallel exact T) (chargeFee w tx false)
      (chargeFee v tx false) := by
  rw [chargeFee_eq, chargeFee_eq]
  refine leads_context_bind fun c i => ?_
  rw [Context.placed_isGenesis]
  simp only [Bool.false_eq_true, if_false]
  rw [h.checkFee c i]
  split
  · -- both runs stop here, whatever the payment would make of them
    exact Leads.mono (fun _ _ hrs => hrs.mono hST) (Lockstep.throw _)
  · cases hchecked : w.checkFee c tx with
    | error e => exact fun r s hrs => .error e (hrs.mono hST)
    | ok x =>
      have hpaid : Leads (Run.Parallel exact S) (Run.Parallel exact T) (payFee w tx x.1 false)
          (payFee v tx x.1 false) := leads_payFee h hST hdeduct ⟨c, x.2, hchecked⟩
      have hrest := hpaid.bind (fun _ => lockstep_modifyContext
        (f := fun c => { c with priority := x.2 }) fun _ _ => rfl) fun _ _ => id
      exact fun r s hrs => hrest r s hrs

theorem lockstep_resolveSigner {a : Address} (ha : a ∈ tx.signers) (i : Nat) :
    Lockstep (Run.Parallel exact S) (resolveSigner w tx false a i) (resolveSigner v tx false a i) := by
  refine (lockstep_call _ (h.signer a ha)).bind fun found => ?_
  cases found with
  | none => exact .throw _
  | some account =>
    dsimp only
    cases account.key <|> tx.providedKey? i with
    | none => exact .throw _
    | some key => exact .pure _

theorem lockstep_signer {a : Address} (ha : a ∈ tx.signers) (i : Nat) :
    Lockstep (Run.Parallel exact S) (signer w tx false a i) (signer v tx false a i) := by
  refine lockstep_context_bind fun c j => ?_
  rw [Context.placed_signer?]
  cases c.signer? a with
  | none => exact lockstep_resolveSigner h ha i
  | some s => exact .pure _

theorem lockstep_storeProvidedKey {a : Address} (ha : a ∈ tx.signers) (i : Nat) :
    Lockstep (Run.Parallel exact S) (storeProvidedKey w tx a i) (storeProvidedKey v tx a i) := by
  unfold storeProvidedKey
  cases tx.providedKey? i with
  | none => exact .pure _
  | some key =>
    refine (lockstep_call _ (h.signer a ha)).bind fun found => ?_
    dsimp only
    split
    · exact lockstep_call _ (h.setKey a ha key)
    · exact .pure _

theorem lockstep_resolveKeys :
    Lockstep (Run.Parallel exact S) (resolveKeys w tx false) (resolveKeys v tx false) := by
  refine (Lockstep.mapM fun x hx => ?_).bind fun ss => lockstep_modifyContext fun _ _ => rfl
  have ha : x.1 ∈ tx.signers := List.fst_mem_of_mem_zipIdx hx
  dsimp only
  rw [resolveKey_false, resolveKey_false]
  refine (lockstep_ofExcept _).bind fun _ => (lockstep_resolveSigner h ha _).bind fun s => ?_
  exact (lockstep_storeProvidedKey h ha _).bind fun _ => .pure _

theorem lockstep_countKeys (limit count : UInt64) {xs : List (Address × Nat)}
    (hxs : ∀ x ∈ xs, x.1 ∈ tx.signers) : Lockstep (Run.Parallel exact S)
      (countKeys w tx false limit count xs) (countKeys v tx false limit count xs) := by
  induction xs generalizing count with
  | nil => exact .pure _
  | cons x xs ih =>
    obtain ⟨ha, hxs⟩ := List.forall_mem_cons.1 hxs
    refine (lockstep_signer h ha _).bind fun s => ?_
    dsimp only
    split
    · exact (Lockstep.throw _).bind fun _ => ih _ hxs
    · exact ih _ hxs

theorem lockstep_checkKeyCount :
    Lockstep (Run.Parallel exact S) (checkKeyCount w tx false) (checkKeyCount v tx false) :=
  (lockstep_params h).bind fun _ =>
    lockstep_countKeys h _ _ fun _ hx => List.fst_mem_of_mem_zipIdx hx

theorem lockstep_chargeSignatures : Lockstep (Run.Parallel exact S)
    (chargeSignatures w tx false) (chargeSignatures v tx false) := by
  unfold chargeSignatures
  rw [h.signatureGas]
  refine (lockstep_params h).bind fun p => .forM fun x hx => ?_
  refine (lockstep_signer h (List.fst_mem_of_mem_zipIdx hx) _).bind fun s => ?_
  exact (lockstep_ofExcept _).bind fun data => lockstep_charge _

theorem lockstep_verifyTask (data : SignerData) (task : SignatureTask) :
    Lockstep S (verifyTask w tx data task) (verifyTask v tx data task) :=
  ((h.signBytes task.mode data).mapError _).bind fun message =>
    h.checkSignature task.key message task.signature

theorem lockstep_verifySigner {a : Address} (ha : a ∈ tx.signers) (i : Nat) :
    Lockstep (Run.Parallel exact S) (verifySigner w tx false a i) (verifySigner v tx false a i) := by
  refine (lockstep_signer h ha i).bind fun s => ?_
  cases tx.signerInfo? i with
  | none => exact .throw _
  | some info =>
    have hverify : Lockstep (Run.Parallel exact S) (do
        let c ← context
        if false || c.isRecheck then return
        let data ← ofExcept (tx.signatureData i a false)
        call (.invalidSignature a) (s.key.verify (verifyTask w tx (signerData c s a)) data)) (do
        let c ← context
        if false || c.isRecheck then return
        let data ← ofExcept (tx.signatureData i a false)
        call (.invalidSignature a) (s.key.verify (verifyTask v tx (signerData c s a)) data)) := by
      refine lockstep_context_bind fun c j => ?_
      rw [Context.placed_isRecheck, Context.signerData_placed]
      split
      · exact .pure _
      · refine (lockstep_ofExcept _).bind fun data => lockstep_call _ ?_
        exact PublicKey.lockstep_verify (lockstep_verifyTask h _) s.key data
    dsimp only
    split
    · exact (Lockstep.throw _).bind fun _ => hverify
    · exact hverify

theorem lockstep_verifySignatures : Lockstep (Run.Parallel exact S)
    (verifySignatures w tx false) (verifySignatures v tx false) := by
  have hall : Lockstep (Run.Parallel exact S)
      (tx.signers.zipIdx.forM fun x => verifySigner w tx false x.1 x.2)
      (tx.signers.zipIdx.forM fun x => verifySigner v tx false x.1 x.2) :=
    .forM fun x hx => lockstep_verifySigner h (List.fst_mem_of_mem_zipIdx hx) _
  unfold verifySignatures
  dsimp only
  split
  · exact (Lockstep.throw _).bind fun _ => hall
  · exact hall

theorem lockstep_advanceSequences : Lockstep (Run.Parallel exact S)
    (advanceSequences w tx false) (advanceSequences v tx false) :=
  .forM fun a ha => (lockstep_call _ (h.advance a ha)).bind fun _ => .pure _

omit h in
theorem lockstep_appliedPackets {x : RelayRegistry σ} {y : RelayRegistry τ}
    (hxy : ∀ action packet, Lockstep S (x.isProcessed action packet) (y.isProcessed action packet))
    (ms : List Message) :
    Lockstep (Run.Parallel exact S) (appliedPackets x ms) (appliedPackets y ms) := by
  induction ms with
  | nil => exact .pure _
  | cons m ms ih =>
    unfold appliedPackets
    cases m.relay? with
    | none =>
      dsimp only
      split
      · exact ih
      · exact .pure _
    | some found =>
      exact (lockstep_call _ (hxy found.1 found.2)).bind fun _ => ih.bind fun _ => .pure _

theorem lockstep_checkRelay :
    Lockstep (Run.Parallel exact S) (checkRelay w tx false) (checkRelay v tx false) := by
  refine lockstep_context_bind fun c i => ?_
  rw [Context.placed_isCheck]
  have hrelays := h.relays
  split
  · exact .pure _
  · revert hrelays
    generalize w.relays = x, v.relays = y
    rintro (hxy | _)
    · refine (lockstep_appliedPackets hxy tx.messages).bind fun found => ?_
      cases found.bind allApplied? with
      | none => exact .pure _
      | some packets =>
        exact (lockstep_modifyContext fun _ _ => rfl).bind fun _ => .pure _
    · exact .pure _

end Stages
end Gate

namespace Stage

theorem leads_proceeding {g : Gate σ Unit} {g' : Gate τ Unit}
    (h : Leads (Run.Parallel exact S) (Run.Parallel exact T) g g') :
    Leads (Run.Parallel exact S) (Run.Parallel exact T) (proceeding g) (proceeding g') :=
  h.bind (fun _ => Lockstep.pure _) fun _ _ => id

/-- A stage has the same outcome in both runs. -/
theorem lockstep_run (h : w.Lockstep S v tx) {s : Stage}
    (hcount : s = .blockIndex → w.CountsAlike S v tx)
    (hdeduct : s = .fee → w.DeductsAlike S S v tx) :
    Lockstep (Run.Parallel exact S) (s.run w tx false) (s.run v tx false) := by
  cases s with
  | setup => exact leads_proceeding Gate.lockstep_setup
  | gasCeiling => exact .pure _
  | blockIndex => exact leads_proceeding (Gate.lockstep_countInBlock (hcount rfl))
  | options => exact leads_proceeding (Gate.lockstep_checkOptions h)
  | form => exact leads_proceeding Gate.lockstep_checkForm
  | timeout => exact leads_proceeding Gate.lockstep_checkTimeout
  | memo => exact leads_proceeding (Gate.lockstep_checkMemo h)
  | size => exact leads_proceeding (Gate.lockstep_chargeSize h)
  | fee => exact leads_proceeding (Gate.leads_chargeFee h (fun _ _ => id) (hdeduct rfl))
  | keys => exact leads_proceeding (Gate.lockstep_resolveKeys h)
  | keyCount => exact leads_proceeding (Gate.lockstep_checkKeyCount h)
  | signatureGas => exact leads_proceeding (Gate.lockstep_chargeSignatures h)
  | signatures => exact leads_proceeding (Gate.lockstep_verifySignatures h)
  | sequences => exact leads_proceeding (Gate.lockstep_advanceSequences h)
  | relay => exact Gate.lockstep_checkRelay h

/-- Stages that are passed in the second run are passed in the first one. -/
theorem lockstep_passes (h : w.Lockstep S v tx) {ss : List Stage}
    (hcount : .blockIndex ∈ ss → w.CountsAlike S v tx)
    (hdeduct : .fee ∈ ss → w.DeductsAlike S S v tx)
    {r : Run σ} {s s' : Run τ} (hrs : Run.Parallel exact S r s) (hpass : Passes v tx false ss s s') :
    ∃ r', Passes w tx false ss r r' ∧ Run.Parallel exact S r' s' := by
  induction hpass generalizing r with
  | nil s => exact ⟨r, .nil r, hrs⟩
  | @cons x ss s t u hx _ ih =>
    have hrun : Agrees (Run.Parallel exact S) (x.run w tx false r) (x.run v tx false s) :=
      lockstep_run h (fun he => hcount (List.mem_cons.2 (.inl he.symm)))
        (fun he => hdeduct (List.mem_cons.2 (.inl he.symm))) r s hrs
    rw [hx] at hrun
    generalize hfirst : x.run w tx false r = y at hrun
    cases hrun with
    | ok _ hnext =>
      obtain ⟨r', hpass, hend⟩ := ih (fun hmem => hcount (List.mem_cons_of_mem x hmem))
        (fun hmem => hdeduct (List.mem_cons_of_mem x hmem)) hnext
      exact ⟨r', .cons hfirst hpass, hend⟩

/-- A run goes on from where its first stage leads. -/
theorem leads_runAll_cons {A B C : Run σ → Run τ → Prop} {s : Stage} {ss : List Stage}
    (hs : Leads A B (s.run w tx false) (s.run v tx false))
    (hss : Leads B C (runAll w tx false ss) (runAll v tx false ss)) (hBC : ∀ r t, B r t → C r t) :
    Leads A C (runAll w tx false (s :: ss)) (runAll v tx false (s :: ss)) := by
  intro r t hrt
  have hrun := hs r t hrt
  unfold runAll
  revert hrun
  generalize s.run w tx false r = x, s.run v tx false t = y
  rintro (⟨flow, hnext⟩ | ⟨e, hnext⟩)
  · cases flow with
    | proceed => exact hss _ _ hnext
    | halt outcome => exact .ok outcome (hBC _ _ hnext)
  · exact .error (StageError.mk s e) (hBC _ _ hnext)

/-- A run of several stages has the same outcome as well. -/
theorem lockstep_runAll (h : w.Lockstep S v tx) {ss : List Stage}
    (hcount : .blockIndex ∈ ss → w.CountsAlike S v tx)
    (hdeduct : .fee ∈ ss → w.DeductsAlike S S v tx) :
    Lockstep (Run.Parallel exact S) (runAll w tx false ss) (runAll v tx false ss) := by
  induction ss with
  | nil => exact .pure _
  | cons s ss ih =>
    refine leads_runAll_cons (lockstep_run h (fun he => hcount (List.mem_cons.2 (.inl he.symm)))
      fun he => hdeduct (List.mem_cons.2 (.inl he.symm))) (ih ?_ ?_) fun _ _ => id
    · exact fun hmem => hcount (List.mem_cons_of_mem s hmem)
    · exact fun hmem => hdeduct (List.mem_cons_of_mem s hmem)

/-- The states may be related in one way before the fee is moved, and in another way afterwards. -/
theorem leads_runAll_fee (hS : w.Lockstep S v tx) (hT : w.Lockstep T v tx)
    (hST : ∀ x y, S x y → T x y) (hdeduct : w.DeductsAlike S T v tx) {pre post : List Stage}
    (hpre : ∀ s ∈ pre, s ≠ .blockIndex ∧ s ≠ .fee) (hpost : ∀ s ∈ post, s ≠ .blockIndex ∧ s ≠ .fee) :
    Leads (Run.Parallel exact S) (Run.Parallel exact T) (runAll w tx false (pre ++ .fee :: post))
      (runAll v tx false (pre ++ .fee :: post)) := by
  induction pre with
  | nil =>
    refine leads_runAll_cons (leads_proceeding (Gate.leads_chargeFee hS hST hdeduct)) ?_
      fun _ _ => id
    exact lockstep_runAll hT (fun hmem => absurd rfl (hpost _ hmem).1)
      fun hmem => absurd rfl (hpost _ hmem).2
  | cons s pre ih =>
    obtain ⟨⟨hindex, hfee⟩, hpre⟩ := List.forall_mem_cons.1 hpre
    exact leads_runAll_cons (lockstep_run hS (fun he => absurd he hindex) fun he => absurd he hfee)
      (ih hpre) fun _ _ => .mono hST

end Stage
end Tollgate
