import Tollgate.Proofs.Admission.AroundBook
import Tollgate.Proofs.Admission.Lookup
/-! Authentication: every signer of an accepted transaction has signed it with a key of the signer's
address, in whatever order the stages ran. -/
namespace Tollgate

open Call Relation

/-- The signature at a position satisfies a key over the bytes of some signer data, as the signer
data of the transaction says that it is to be read. -/
def Transaction.SignedAt (tx : Transaction)
    (check : SingleKey → Bytes → Bytes → Except SignatureError Unit) (i : Nat)
    (data : SignerData) : Prop :=
  ∃ info raw signature, tx.signerInfo? i = some info ∧ tx.signatures[i]? = some raw ∧
    info.sequence = data.sequence ∧ SignatureData.decode info.modeInfo raw = .ok signature ∧
    data.key.verify (fun task => check task.key (data.signBytes tx task.mode) task.signature)
      signature = .ok ()

theorem Transaction.eq_of_mem_zipIdx_signers {tx : Transaction} {a : Address} {i j : Nat}
    (hi : (a, i) ∈ tx.signers.zipIdx) (hj : (a, j) ∈ tx.signers.zipIdx) : i = j := by
  rw [List.mem_zipIdx_iff_getElem?] at hi hj
  obtain ⟨h, -⟩ := List.getElem?_eq_some_iff.1 hi
  exact (List.getElem?_inj h tx.nodup_signers).1 (hi.trans hj.symm)

variable {σ : Type} {w : Wiring σ} {tx : Transaction} {book : σ → AccountBook}
  {check : SingleKey → Bytes → Bytes → Except SignatureError Unit} {r t : Run σ}

/-- Without services in the way, a task is the given check of the bytes of its mode. -/
theorem Wiring.Checks.verifyTask_eq (hc : w.Checks check) (data : SignerData) :
    Gate.verifyTask w tx data = fun task =>
      Call.ofExcept (check task.key (data.signBytes tx task.mode) task.signature) := by
  funext task
  unfold Gate.verifyTask
  rw [hc.signModes, hc.checkSignature]
  rfl

namespace Gate

theorem signatureData_false_eq_ok_iff {i : Nat} {a : Address} {signature : SignatureData}
    {info : SignerInfo} (hinfo : tx.signerInfo? i = some info) :
    tx.signatureData i a false = .ok signature ↔
      SignatureData.decode info.modeInfo (tx.signature i) = .ok signature := by
  unfold Transaction.signatureData
  rw [hinfo]
  cases hd : SignatureData.decode info.modeInfo (tx.signature i) <;> simp [hd]

/-- A signature is read as the signer data says, and must satisfy the key. -/
theorem readAndVerify_eq_ok_iff (hc : w.Checks check) {i : Nat} {a : Address} {info : SignerInfo}
    (hinfo : tx.signerInfo? i = some info) (data : SignerData) (key : PublicKey) :
    (do let signature ← ofExcept (tx.signatureData i a false)
        call (.invalidSignature a) (key.verify (verifyTask w tx data) signature)) r = .ok () t ↔
      (∃ signature, SignatureData.decode info.modeInfo (tx.signature i) = .ok signature ∧
        key.verify (fun task => check task.key (data.signBytes tx task.mode) task.signature)
          signature = .ok ()) ∧ r = t := by
  constructor
  · intro h
    obtain ⟨signature, _, hdata, h⟩ := bind_eq_ok_iff.1 h
    obtain ⟨hread, rfl⟩ := ofExcept_eq_ok_iff.1 hdata
    obtain ⟨x, hverify, rfl⟩ := call_eq_ok_iff.1 h
    rw [hc.verifyTask_eq, PublicKey.verify_ofExcept] at hverify
    obtain ⟨hholds, rfl⟩ := Call.ofExcept_eq_ok_iff.1 hverify
    exact ⟨⟨signature, (signatureData_false_eq_ok_iff hinfo).1 hread, hholds⟩, rfl⟩
  · rintro ⟨⟨signature, hdecode, hholds⟩, rfl⟩
    have hread : tx.signatureData i a false = .ok signature :=
      (signatureData_false_eq_ok_iff hinfo).2 hdecode
    refine bind_eq_ok_iff.2 ⟨signature, r, ofExcept_eq_ok_iff.2 ⟨hread, rfl⟩, ?_⟩
    refine call_eq_ok_iff.2 ⟨r.services, ?_, rfl⟩
    rw [hc.verifyTask_eq, PublicKey.verify_ofExcept]
    exact Call.ofExcept_eq_ok_iff.2 ⟨hholds, rfl⟩

/-- The stated sequence must be the signer's, and outside simulation and recheck the signature must
hold. -/
theorem verifySigner_eq_ok_iff (hc : w.Checks check) {simulate : Bool} {a : Address} {i : Nat}
    {s : Signer} {u : Run σ} (hs : signer w tx simulate a i r = .ok s u) :
    verifySigner w tx simulate a i r = .ok () t ↔ (∃ info, tx.signerInfo? i = some info ∧
      info.sequence = s.sequence ∧ (simulate = true ∨ u.context.isRecheck = true ∨
        ∃ signature, SignatureData.decode info.modeInfo (tx.signature i) = .ok signature ∧
          s.key.verify (fun task => check task.key
            ((signerData u.context s a).signBytes tx task.mode) task.signature) signature =
              .ok ())) ∧ u = t := by
  unfold verifySigner
  rw [bind_of_ok hs]
  cases hinfo : tx.signerInfo? i with
  | none => simpa using throw_ne_ok
  | some info =>
    by_cases hseq : info.sequence = s.sequence
    · simp only [hseq, ne_eq, not_true_eq_false, if_false, Option.some.injEq, exists_eq_left',
        true_and]
      rw [context_bind]
      by_cases hskip : simulate = true ∨ u.context.isRecheck = true
      · have hpass : (simulate || u.context.isRecheck) = true := by simpa using hskip
        simp only [hpass, if_true, ← or_assoc, hskip, true_or, true_and]
        exact pure_eq_ok_iff.trans (by simp)
      · have hstop : (simulate || u.context.isRecheck) = false := by simpa [not_or] using hskip
        simp only [hstop, Bool.false_eq_true, if_false, ← or_assoc, hskip, false_or]
        exact readAndVerify_eq_ok_iff hc hinfo _ s.key
    · simp only [hseq, ne_eq, not_false_eq_true, if_true, Option.some.injEq, exists_eq_left',
        false_and, iff_false]
      intro h
      obtain ⟨_, _, hthrow, -⟩ := bind_eq_ok_iff.1 h
      exact throw_ne_ok hthrow

/-- The signer's stated sequence was found, and outside the recheck the signature holds. -/
theorem verifySigner_eq_ok (hc : w.Checks check) {a : Address} {i : Nat}
    (h : verifySigner w tx false a i r = .ok () t) :
    ∃ s u info, signer w tx false a i r = .ok s u ∧ tx.signerInfo? i = some info ∧
      info.sequence = s.sequence ∧ (u.context.isRecheck = false →
        ∃ signature, SignatureData.decode info.modeInfo (tx.signature i) = .ok signature ∧
          s.key.verify (fun task => check task.key
            ((signerData u.context s a).signBytes tx task.mode) task.signature) signature =
              .ok ()) := by
  have hbind := h
  obtain ⟨s, u, hs, -⟩ := bind_eq_ok_iff.1 hbind
  obtain ⟨⟨info, hinfo, hseq, hverified⟩, -⟩ := (verifySigner_eq_ok_iff hc hs).1 h
  refine ⟨s, u, info, hs, hinfo, hseq, fun hm => ?_⟩
  rcases hverified with hsim | hre | hsigned
  · cases hsim
  · rw [hm] at hre
    cases hre
  · exact hsigned

theorem verifySignatures_eq_ok (h : verifySignatures w tx false r = .ok () t) :
    tx.signers.length = tx.signatures.length ∧ ∀ x ∈ tx.signers.zipIdx, ∃ u v,
      ReflTransGen (Change w tx false .signatures) r u ∧
      verifySigner w tx false x.1 x.2 u = .ok () v := by
  unfold verifySignatures at h
  dsimp only at h
  by_cases hlen : tx.signers.length = tx.signatures.length
  · rw [if_neg (not_not_intro hlen)] at h
    refine ⟨hlen, fun x hx => ?_⟩
    obtain ⟨u, v, hu, hv, -⟩ := forM_eq_ok (R := Change w tx false .signatures)
      (fun y _ => within_verifySigner w tx false y.1 y.2) h x hx
    exact ⟨u, v, hu, hv⟩
  · rw [if_pos hlen] at h
    obtain ⟨_, v, hthrow, -⟩ := bind_eq_ok_iff.1 h
    exact absurd hthrow throw_ne_ok

end Gate

theorem Context.signerData_eq_of_caller {c d : Context}
    (h : d.reset false .infinite = c.reset false .infinite) (s : Signer) (a : Address) :
    Gate.signerData d s a = Gate.signerData c s a := by
  have hchain : d.chainId = c.chainId := (congrArg Context.chainId h :)
  have hheight : d.height = c.height := (congrArg Context.height h :)
  unfold Gate.signerData Context.isGenesis
  rw [hchain, hheight]

theorem Context.isRecheck_eq_of_caller {c d : Context}
    (h : d.reset false .infinite = c.reset false .infinite) : d.isRecheck = c.isRecheck := by
  have hmode : d.mode = c.mode := (congrArg Context.mode h :)
  unfold Context.isRecheck
  rw [hmode]

namespace Stage

/-- Once the signatures were verified, every signer was made of the accounts of this run, with the
stated sequence, and outside the recheck has signed. -/
theorem Passes.signed (hw : w.KeepsBook book) (hc : w.Checks check) {pre post : List Stage}
    (hsetup : .setup ∈ pre) (h : Passes w tx false (pre ++ .signatures :: post) r t)
    {a : Address} {i : Nat} (hi : (a, i) ∈ tx.signers.zipIdx) :
    ∃ s v info, ReflTransGen (Changes w tx false (pre ++ [.signatures])) r v ∧
      s.FoundIn tx a i (book v.services) ∧ tx.signerInfo? i = some info ∧
      info.sequence = s.sequence ∧ (r.context.isRecheck = false →
        tx.SignedAt check i (Gate.signerData r.context s a)) := by
  obtain ⟨u, hpre, hpost⟩ := h.split
  cases hpost with
  | cons hrun hpost =>
    obtain ⟨hlen, hverify⟩ := Gate.verifySignatures_eq_ok (proceeding_eq_ok_iff.1 hrun).2
    obtain ⟨x, y, hux, hxy⟩ := hverify (a, i) hi
    obtain ⟨s, z, info, hs, hinfo, hseq, hsigned⟩ := Gate.verifySigner_eq_ok hc hxy
    have hru : ReflTransGen (Changes w tx false (pre ++ [.signatures])) r u :=
      reflTransGen_changes_mono (List.subset_append_left _ _) hpre.reached
    have hmem : Stage.signatures ∈ pre ++ [.signatures] := by simp
    have hxz := (Gate.within_signer w tx false .signatures a i).reached hs
    have hrx := hru.trans (reflTransGen_changes_of_change hmem hux)
    have hcaller := caller_of_reached (hrx.trans (reflTransGen_changes_of_change hmem hxz))
    have hsigned (hm : r.context.isRecheck = false) :
        tx.SignedAt check i (Gate.signerData r.context s a) := by
      obtain ⟨signature, hdecode, hholds⟩ :=
        hsigned ((Context.isRecheck_eq_of_caller hcaller).trans hm)
      rw [Context.signerData_eq_of_caller hcaller] at hholds
      obtain ⟨hlt, -⟩ := List.getElem?_eq_some_iff.1 (List.mem_zipIdx_iff_getElem?.1 hi)
      have hraw : tx.signatures[i]? = some (tx.signature i) := by
        rw [hlen] at hlt
        simp [Transaction.signature, hlt]
      exact ⟨info, tx.signature i, signature, hinfo, hraw, hseq, hdecode, hholds⟩
    rcases Gate.signer_eq_ok hw hs with hcached | hfound
    · -- the cache is as the stages before left it
      have hux : ReflTransGen (Changes w tx false [.signatures]) u x :=
        reflTransGen_changes_of_change (List.mem_singleton_self _) hux
      have hcache : x.context.signers = u.context.signers :=
        cached_of_reached (by decide) (by decide) hux
      rw [Context.signer?, hcache] at hcached
      rcases hpre.cached_or_found hw hcached with ⟨hn, -⟩ | ⟨j, v, hj, hv, hfound⟩
      · exact absurd hsetup hn
      · obtain rfl := Transaction.eq_of_mem_zipIdx_signers hi hj
        exact ⟨s, v, info, reflTransGen_changes_mono (List.subset_append_left _ _) hv, hfound,
          hinfo, hseq, hsigned⟩
    · exact ⟨s, x, info, hrx, hfound, hinfo, hseq, hsigned⟩

theorem Passes.signed_of_canonical (hw : w.KeepsBook book) (hc : w.Checks check)
    (h : Passes w tx false (canonical.take 14) r t) {a : Address} {i : Nat}
    (hi : (a, i) ∈ tx.signers.zipIdx) :
    ∃ s v info, ReflTransGen (Changes w tx false (canonical.take 13)) r v ∧
      s.FoundIn tx a i (book v.services) ∧ tx.signerInfo? i = some info ∧
      info.sequence = s.sequence ∧ (r.context.isRecheck = false →
        tx.SignedAt check i (Gate.signerData r.context s a)) := by
  have h : Passes w tx false (canonical.take 12 ++ .signatures :: [.sequences]) r t := h
  exact h.signed hw hc (by decide) hi

/-- Once the keys were looked up, every provided key belongs to its signer. -/
theorem Passes.provided (hw : w.KeepsBook book) {ss : List Stage} (hk : .keys ∈ ss)
    (h : Passes w tx false ss r t) {a : Address} {i : Nat} (hi : (a, i) ∈ tx.signers.zipIdx)
    {key : PublicKey} (hkey : tx.providedKey? i = some key) : key.address = a := by
  obtain ⟨pre, post, u, v, -, -, hrun, -⟩ := h.at_stage hk
  have hall := (Gate.resolveKeys_eq_ok hw (proceeding_eq_ok_iff.1 hrun).2).1 (a, i) hi
  exact Gate.address_of_checkProvidedKey tx hkey hall

end Stage

namespace Handler

variable {τ : Type}

/-- No acceptance without authentication: whatever services stand around the accounts and in whatever
order the stages run, every signer of an accepted transaction has signed it, with the stated sequence
and a key of the signer's address. -/
theorem signed_of_accepted {o : Options τ} {order : List Stage}
    {h : Handler (AccountBook × τ)} {r t : Run (AccountBook × τ)}
    (hb : (o.aroundBook check).build order = .ok h) (hkeys : .keys ∈ order)
    (hsignatures : .signatures ∈ order) (hbook : r.services.1.KeysDerive)
    (hmode : r.context.mode ≠ .recheck) (ht : h.handle tx false r = .ok .accepted t) :
    ∀ i a, tx.signers[i]? = some a → ∃ key number info, PublicKey.address key = a ∧
      r.services.1.number? a = some number ∧ tx.signerInfo? i = some info ∧
      tx.SignedAt check i ⟨a, r.context.chainId, if r.context.isGenesis then 0 else number,
        info.sequence, key⟩ := by
  intro i a ha
  obtain ⟨hw, rfl⟩ := Options.build_eq_ok hb
  obtain ⟨hkeep, hc⟩ := Options.wiring?_aroundBook hw
  have hi : (a, i) ∈ tx.signers.zipIdx := List.mem_zipIdx_iff_getElem?.2 ha
  have hpass := Stage.passes_of_runAll_accepted ht
  have hprovided {key : PublicKey} (hk : tx.providedKey? i = some key) : key.address = a :=
    hpass.provided hkeep hkeys hi hk
  obtain ⟨pre, post, hsplit⟩ := List.append_of_mem hsignatures
  have hsetup : .setup ∈ pre := by
    have hhead := h.order.head_eq
    rw [hsplit] at hhead
    cases pre with
    | nil => cases hhead
    | cons s pre =>
      obtain rfl := Option.some.inj hhead
      exact List.mem_cons_self
  rw [hsplit] at hpass
  obtain ⟨s, v, info, hv, hfound, hinfo, hseq, hsigned⟩ := hpass.signed hkeep hc hsetup hi
  have hnumber : r.services.1.number? a = some s.accountNumber := by
    rw [← Stage.numbers_of_reached hkeep hv a, hfound.number]
  have hkey : s.key.address = a :=
    (hfound.key (Stage.keysDerive_of_reached hkeep hv hbook)).elim id hprovided
  refine ⟨s.key, s.accountNumber, info, hkey, hnumber, hinfo, ?_⟩
  rw [hseq]
  exact hsigned (decide_eq_false hmode)

/-- Whether a transaction is accepted outside simulation. -/
def accepts {σ : Type} (h : Handler σ) (tx : Transaction) (r : Run σ) : Bool :=
  match h.handle tx false r with
  | .ok .accepted _ => true
  | _ => false

theorem eq_ok_of_accepts {σ : Type} {h : Handler σ} {r : Run σ} (ha : h.accepts tx r = true) :
    ∃ t, h.handle tx false r = .ok .accepted t := by
  unfold accepts at ha
  split at ha
  · next t ht => exact ⟨t, ht⟩
  · cases ha

end Handler

/-- The key whose secret is one. -/
def unitKey : PublicKey :=
  .single (.secp256k1 ⟨2 :: bigEndian 32 Curve.Secp256k1.Point.base.x, by simp [bigEndian]⟩)

/-- A signature for the secret one, made with the nonce one. -/
def unitSignature (message : Bytes) : Bytes :=
  let r := Curve.Secp256k1.Point.base.x % Curve.Secp256k1.n
  let s := (ofBigEndian (Sha256.hash message).toList + r) % Curve.Secp256k1.n
  bigEndian 32 r ++ bigEndian 32 (min s (Curve.Secp256k1.n - s))

/-- A transfer from the account of that key, not yet signed. -/
def transfer (sequence : UInt64) (payer : Option Address) : Transaction where
  body := ⟨[.send ⟨unitKey.address, .replicate 20 9, ⟨[⟨"stake", .clamp 5⟩]⟩⟩], "", 0, [], []⟩
  authInfo := ⟨[⟨some unitKey, .single .direct, sequence⟩],
    ⟨⟨[⟨"stake", .clamp 10⟩]⟩, 100000, payer, none⟩⟩
  signatures := []

def signedTransfer (sequence : UInt64) (payer : Option Address) : Transaction :=
  let tx := transfer sequence payer
  let signer : SignerData := ⟨unitKey.address, "unit", 0, sequence, unitKey⟩
  { tx with signatures := [unitSignature (signer.signBytes tx .direct)] }

def unitBook : AccountBook := ((AccountBook.new .default).create unitKey.address).2

def unitRun : Run (AccountBook × Memory) := ⟨.new "unit" 1 0, unitBook, .new .default⟩

/-- Signatures are verified before the provided keys are checked. -/
def signaturesFirst : Except BuildError (Handler (AccountBook × Memory)) :=
  ((Options.inMemory ⟨none⟩ .default).aroundBook SingleKey.verify).build
    [.setup, .signatures, .keys]

theorem signaturesFirst_accepts :
    signaturesFirst.toOption.any (fun h => h.accepts (signedTransfer 0 none) unitRun) = true := by
  decide +kernel

theorem signaturesFirst_authenticates : ∃ h t, signaturesFirst = .ok h ∧
    h.handle (signedTransfer 0 none) false unitRun = .ok .accepted t ∧
    ∀ i a, (signedTransfer 0 none).signers[i]? = some a → ∃ key number info,
      PublicKey.address key = a ∧ unitBook.number? a = some number ∧
      (signedTransfer 0 none).signerInfo? i = some info ∧
      (signedTransfer 0 none).SignedAt SingleKey.verify i ⟨a, "unit", number, info.sequence, key⟩ := by
  have haccepts := signaturesFirst_accepts
  cases hb : signaturesFirst with
  | error e =>
    rw [hb] at haccepts
    cases haccepts
  | ok h =>
    rw [hb] at haccepts
    obtain ⟨t, ht⟩ := Handler.eq_ok_of_accepts haccepts
    refine ⟨h, t, rfl, ht, ?_⟩
    exact Handler.signed_of_accepted hb (by decide) (by decide)
      ((AccountBook.keysDerive_new .default).create unitKey.address) (by decide) ht

end Tollgate
