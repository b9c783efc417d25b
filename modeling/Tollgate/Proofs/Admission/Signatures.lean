import Tollgate.Proofs.Admission.Authentication
import Tollgate.Proofs.Admission.Keys
import Tollgate.Proofs.Signature.Gas
/-! When the stages after the keys succeed, with all signers in the cache: the number of keys, the gas
for the signatures, the signatures and the sequences. -/
namespace Tollgate

open Call

/-- After a count of single keys, no signer raises it above the limit. -/
def Signer.KeysWithin (limit count : UInt64) : List Signer → Prop
  | [] => True
  | s :: ss => Word.addSat count (Word.clamp s.key.leafCount) ≤ limit ∧
    KeysWithin limit (Word.addSat count (Word.clamp s.key.leafCount)) ss

/-- Charges a meter for the signature of one signer. -/
def meterSignature (gas : SignatureGas) (params : AuthParams) (tx : Transaction) (simulate : Bool)
    (x : Signer × Nat) : Call AdmissionError GasMeter PUnit := do
  let data ← Call.ofExcept (tx.signatureData x.2 x.1.address simulate)
  gas params x.1.key data

def meterSignatures (gas : SignatureGas) (params : AuthParams) (tx : Transaction) (simulate : Bool)
    (xs : List (Signer × Nat)) : Call AdmissionError GasMeter PUnit :=
  xs.forM (meterSignature gas params tx simulate)

variable {tx : Transaction} {gas : SignatureGas} {params : AuthParams} {simulate : Bool}
  {xs : List (Signer × Nat)} {m n m' : GasMeter}

theorem meterSignature_eq_ok_iff {x : Signer × Nat} :
    meterSignature gas params tx simulate x m = .ok () n ↔ ∃ data,
      tx.signatureData x.2 x.1.address simulate = .ok data ∧ gas params x.1.key data m = .ok () n := by
  unfold meterSignature
  rw [bind_eq_ok_iff]
  constructor
  · rintro ⟨data, _, hread, hgas⟩
    obtain ⟨hdata, rfl⟩ := Call.ofExcept_eq_ok_iff.1 hread
    exact ⟨data, hdata, hgas⟩
  · rintro ⟨data, hdata, hgas⟩
    exact ⟨data, m, Call.ofExcept_eq_ok_iff.2 ⟨hdata, rfl⟩, hgas⟩

theorem meterSignatures_cons_eq_ok_iff {x : Signer × Nat} :
    meterSignatures gas params tx simulate (x :: xs) m = .ok () n ↔ ∃ k,
      meterSignature gas params tx simulate x m = .ok () k ∧
        meterSignatures gas params tx simulate xs k = .ok () n := by
  unfold meterSignatures
  rw [List.forM_eq_forM, List.forM_cons, bind_eq_ok_iff]
  constructor
  · rintro ⟨⟨⟩, k, hx, hxs⟩
    exact ⟨k, hx, hxs⟩
  · rintro ⟨k, hx, hxs⟩
    exact ⟨(), k, hx, hxs⟩

theorem Transaction.signatureData_true_of_false {i : Nat} {a : Address} {data : SignatureData}
    (h : tx.signatureData i a false = .ok data) : tx.signatureData i a true = .ok data := by
  unfold signatureData at h ⊢
  cases hinfo : tx.signerInfo? i with
  | none => simp [hinfo] at h
  | some info => cases hd : SignatureData.decode info.modeInfo (tx.signature i) <;> simp_all

/-- A simulation reads the same signatures and charges the same for them. -/
theorem meterSignatures_true (hm : m.Roomier n)
    (h : meterSignatures .standard params tx false xs m = .ok () m') :
    ∃ n', meterSignatures .standard params tx true xs n = .ok () n' ∧ m'.Roomier n' := by
  induction xs generalizing m n with
  | nil =>
    obtain ⟨-, rfl⟩ := pure_eq_ok_iff.1 h
    exact ⟨n, rfl, hm⟩
  | cons x xs ih =>
    obtain ⟨k, hx, hxs⟩ := meterSignatures_cons_eq_ok_iff.1 h
    obtain ⟨data, hdata, hgas⟩ := meterSignature_eq_ok_iff.1 hx
    have hregular : GasMeter.Regular (SignatureGas.standard params x.1.key data) :=
      (PublicKey.regular_consumeGas params x.1.key data).mapError _
    obtain ⟨k', hgas', hk⟩ := hregular m n k hm hgas
    obtain ⟨n', hrest, hn'⟩ := ih hk hxs
    have hx' := meterSignature_eq_ok_iff.2
      ⟨data, Transaction.signatureData_true_of_false hdata, hgas'⟩
    exact ⟨n', meterSignatures_cons_eq_ok_iff.2 ⟨k', hx', hrest⟩, hn'⟩

/-- The signer data at a position states this sequence. -/
def Transaction.States (tx : Transaction) (i : Nat) (sequence : UInt64) : Prop :=
  ∃ info, tx.signerInfo? i = some info ∧ info.sequence = sequence

theorem Transaction.signedAt_iff {check : SingleKey → Bytes → Bytes → Except SignatureError Unit}
    {i : Nat} {info : SignerInfo} (hinfo : tx.signerInfo? i = some info)
    (hi : i < tx.signatures.length) {data : SignerData} : tx.SignedAt check i data ↔
      info.sequence = data.sequence ∧ ∃ signature,
        SignatureData.decode info.modeInfo (tx.signature i) = .ok signature ∧
        data.key.verify (fun task => check task.key (data.signBytes tx task.mode) task.signature)
          signature = .ok () := by
  have hraw : tx.signatures[i]? = some (tx.signature i) := by simp [Transaction.signature, hi]
  unfold SignedAt
  simp only [hinfo, hraw, Option.some.injEq, exists_and_left, exists_eq_left']

/-- Nobody signs with an empty signature. -/
theorem Transaction.SignedAt.signature_ne_nil {i : Nat} {data : SignerData}
    (h : tx.SignedAt SingleKey.verify i data) : tx.signature i ≠ [] := by
  obtain ⟨info, raw, signature, -, hraw, -, hdecode, hverify⟩ := h
  intro hnil
  have hempty : raw = [] := by simpa [Transaction.signature, hraw] using hnil
  rw [hempty] at hdecode
  exact PublicKey.not_verify_of_decode_nil (fun mode => data.signBytes tx mode) hdecode hverify

/-- Among signers without repetition, each is the one that is found for its address. -/
theorem Signer.find?_of_mem {ss : List Signer} (hn : (ss.map Signer.address).Nodup) {s : Signer}
    (hs : s ∈ ss) : ss.find? (fun x => x.address = s.address) = some s := by
  induction ss with
  | nil => cases hs
  | cons x ss ih =>
    rw [List.map_cons, List.nodup_cons] at hn
    rcases List.mem_cons.1 hs with rfl | hs
    · simp
    · have hne : x.address ≠ s.address := fun he => hn.1 (he ▸ List.mem_map_of_mem hs)
      simp [hne, ih hn.2 hs]

theorem Transaction.zipIdx_signers {ss : List Signer} (h : ss.map Signer.address = tx.signers) :
    tx.signers.zipIdx = ss.zipIdx.map (Prod.map Signer.address id) := by
  rw [← h, List.zipIdx_map]

/-- The signer that was found for a place among the signers stands at that place. -/
theorem Transaction.Finds.mem_zipIdx {b : AccountBook} {ss : List Signer} (h : tx.Finds b ss)
    {a : Address} {i : Nat} (hi : (a, i) ∈ tx.signers.zipIdx) :
    ∃ s, (s, i) ∈ ss.zipIdx ∧ s.FoundIn tx a i b := by
  obtain ⟨s, hs, hfound⟩ := h.exists_of_mem hi
  obtain ⟨j, hj⟩ := List.getElem?_of_mem hs
  have hj : (s, j) ∈ ss.zipIdx := List.mem_zipIdx_iff_getElem?.2 hj
  have hja : (s.address, j) ∈ tx.signers.zipIdx := by
    rw [Transaction.zipIdx_signers h.addresses]
    exact List.mem_map.2 ⟨(s, j), hj, rfl⟩
  rw [hfound.address] at hja
  obtain rfl := Transaction.eq_of_mem_zipIdx_signers hi hja
  exact ⟨s, hj, hfound⟩

/-- The same run with another meter. -/
def Run.withMeter {σ : Type} (r : Run σ) (m : GasMeter) : Run σ :=
  { r with context := { r.context with meter := m } }

namespace Context

/-- The cache holds exactly the signers of the transaction, in their order. -/
def Caches (c : Context) (tx : Transaction) : Prop := c.signers.map Signer.address = tx.signers

variable {c : Context}

theorem Caches.zipIdx (h : c.Caches tx) :
    tx.signers.zipIdx = c.signers.zipIdx.map (Prod.map Signer.address id) :=
  Transaction.zipIdx_signers h

theorem Caches.signer? (h : c.Caches tx) {x : Signer × Nat} (hx : x ∈ c.signers.zipIdx) :
    c.signer? x.1.address = some x.1 := by
  have hn : (c.signers.map Signer.address).Nodup := by
    rw [h]
    exact tx.nodup_signers
  exact Signer.find?_of_mem hn (List.fst_mem_of_mem_zipIdx hx)

end Context

namespace Gate

variable {σ : Type} {w : Wiring σ} {r t : Run σ}

theorem signer_of_cached {a : Address} {i : Nat} {s : Signer}
    (h : r.context.signer? a = some s) : signer w tx simulate a i r = .ok s r := by
  unfold signer
  refine bind_eq_ok_iff.2 ⟨r.context, r, rfl, ?_⟩
  rw [h]
  rfl

theorem countKeys_eq_ok_iff {limit count : UInt64}
    (hxs : ∀ x ∈ xs, r.context.signer? x.1.address = some x.1) :
    countKeys w tx simulate limit count (xs.map (Prod.map Signer.address id)) r = .ok () t ↔
      Signer.KeysWithin limit count (xs.map Prod.fst) ∧ r = t := by
  induction xs generalizing count with
  | nil => exact pure_eq_ok_iff.trans (by simp [Signer.KeysWithin])
  | cons x xs ih =>
    have hs : signer w tx simulate x.1.address x.2 r = .ok x.1 r :=
      signer_of_cached (hxs x List.mem_cons_self)
    have hrest : ∀ y ∈ xs, r.context.signer? y.1.address = some y.1 :=
      fun y hy => hxs y (List.mem_cons_of_mem x hy)
    simp only [List.map_cons, Prod.map_fst, Prod.map_snd, id_eq, countKeys, Signer.KeysWithin]
    rw [bind_of_ok hs]
    by_cases hover : limit < Word.addSat count (Word.clamp x.1.key.leafCount)
    · have hn : ¬Word.addSat count (Word.clamp x.1.key.leafCount) ≤ limit := UInt64.not_le.2 hover
      simp only [hover, if_true, hn, false_and, iff_false]
      intro h
      obtain ⟨_, _, hthrow, -⟩ := bind_eq_ok_iff.1 h
      exact throw_ne_ok hthrow
    · simp only [hover, if_false, UInt64.not_lt.1 hover, true_and]
      exact ih hrest

theorem checkKeyCount_eq_ok_iff (h : r.context.Caches tx) :
    checkKeyCount w tx simulate r = .ok () t ↔
      Signer.KeysWithin (w.accounts.params r.services).signatureLimit 0 r.context.signers ∧ r = t := by
  have hbody : checkKeyCount w tx simulate r = countKeys w tx simulate
      (w.accounts.params r.services).signatureLimit 0 tx.signers.zipIdx r := rfl
  rw [hbody, h.zipIdx, countKeys_eq_ok_iff fun x hx => h.signer? hx, List.zipIdx_map_fst]

/-- A loop over steps that only charge is one charge. -/
theorem forM_eq_charge {α : Type} {f : α → Gate σ PUnit} {g : α → Call AdmissionError GasMeter PUnit}
    {xs : List α} (hf : ∀ a ∈ xs, ∀ m, f a (r.withMeter m) = charge (g a) (r.withMeter m)) :
    xs.forM f r = charge (xs.forM g) r := by
  rw [List.forM_eq_forM, List.forM_eq_forM]
  induction xs generalizing r with
  | nil => rfl
  | cons a xs ih =>
    have hhead : f a r = charge (g a) r := hf a List.mem_cons_self r.context.meter
    have htail (m : GasMeter) : forM xs f (r.withMeter m) = charge (forM xs g) (r.withMeter m) :=
      ih fun b hb => hf b (List.mem_cons_of_mem a hb)
    rw [List.forM_cons, List.forM_cons]
    change EStateM.bind _ _ r = charge (EStateM.bind _ _) r
    unfold charge at hhead
    cases hg : g a r.context.meter with
    | error e m =>
      rw [hg] at hhead
      simp only [EStateM.bind, hhead, charge, hg]
    | ok u m =>
      rw [hg] at hhead
      simp only [EStateM.bind, hhead]
      refine (htail m).trans ?_
      simp only [charge, EStateM.bind, hg, Run.withMeter]

theorem chargeSignatures_eq (h : r.context.Caches tx) : chargeSignatures w tx simulate r =
    charge (meterSignatures w.signatureGas (w.accounts.params r.services) tx simulate
      r.context.signers.zipIdx) r := by
  have hbody : chargeSignatures w tx simulate r = (tx.signers.zipIdx.forM fun x => do
      let s ← signer w tx simulate x.1 x.2
      let data ← ofExcept (tx.signatureData x.2 x.1 simulate)
      charge (w.signatureGas (w.accounts.params r.services) s.key data) : Gate σ PUnit) r := rfl
  rw [hbody, h.zipIdx, List.forM_eq_forM, List.forM_map]
  refine forM_eq_charge fun x hx m => ?_
  have hs : signer w tx simulate x.1.address x.2 (r.withMeter m) = .ok x.1 (r.withMeter m) :=
    signer_of_cached (h.signer? hx)
  rw [Prod.map_fst, Prod.map_snd, id_eq, bind_of_ok hs]
  cases hdata : tx.signatureData x.2 x.1.address simulate with
  | error e => simp [meterSignature, hdata, bind, EStateM.bind, ofExcept, Call.ofExcept, charge]
  | ok data => simp [meterSignature, hdata, bind, EStateM.bind, ofExcept, Call.ofExcept, charge]

theorem verifySigner_cached_eq_ok_iff
    {check : SingleKey → Bytes → Bytes → Except SignatureError Unit} (hc : w.Checks check)
    (h : r.context.Caches tx) (hlength : tx.signers.length = tx.signatures.length)
    {x : Signer × Nat} (hx : x ∈ r.context.signers.zipIdx) :
    verifySigner w tx simulate x.1.address x.2 r = .ok () t ↔
      (tx.States x.2 x.1.sequence ∧ (simulate = true ∨ r.context.isRecheck = true ∨
        tx.SignedAt check x.2 (signerData r.context x.1 x.1.address))) ∧ r = t := by
  have hlt : x.2 < tx.signatures.length := by
    rw [← hlength, ← h, List.length_map]
    exact List.snd_lt_of_mem_zipIdx hx
  rw [verifySigner_eq_ok_iff hc (signer_of_cached (h.signer? hx))]
  refine and_congr_left fun _ => ?_
  constructor
  · rintro ⟨info, hinfo, hseq, hverified⟩
    refine ⟨⟨info, hinfo, hseq⟩, hverified.imp_right (Or.imp_right fun hholds => ?_)⟩
    exact (Transaction.signedAt_iff hinfo hlt).2 ⟨hseq, hholds⟩
  · rintro ⟨⟨info, hinfo, hseq⟩, hverified⟩
    refine ⟨info, hinfo, hseq, hverified.imp_right (Or.imp_right fun hsigned => ?_)⟩
    exact ((Transaction.signedAt_iff hinfo hlt).1 hsigned).2

theorem verifySignatures_eq_ok_iff {check : SingleKey → Bytes → Bytes → Except SignatureError Unit}
    (hc : w.Checks check) (h : r.context.Caches tx) :
    verifySignatures w tx simulate r = .ok () t ↔ (tx.signers.length = tx.signatures.length ∧
      ∀ x ∈ r.context.signers.zipIdx, tx.States x.2 x.1.sequence ∧ (simulate = true ∨
        r.context.isRecheck = true ∨
          tx.SignedAt check x.2 (signerData r.context x.1 x.1.address))) ∧ r = t := by
  have hbody : verifySignatures w tx simulate r = (do
      if tx.signers.length ≠ tx.signatures.length then
        throw (AdmissionError.malformed (.signerCount tx.signers.length tx.signatures.length))
      tx.signers.zipIdx.forM fun x => verifySigner w tx simulate x.1 x.2 : Gate σ PUnit) r := rfl
  rw [hbody]
  by_cases hlength : tx.signers.length = tx.signatures.length
  · simp only [hlength, ne_eq, not_true_eq_false, if_false, true_and]
    change (tx.signers.zipIdx.forM fun x => verifySigner w tx simulate x.1 x.2) r = .ok () t ↔ _
    rw [h.zipIdx, List.forM_eq_forM, List.forM_map]
    exact forM_eq_ok_iff_of_keeps fun x hx t => verifySigner_cached_eq_ok_iff hc h hlength hx
  · simp only [hlength, ne_eq, not_false_eq_true, if_true, false_and, iff_false]
    intro hrun
    obtain ⟨_, _, hthrow, -⟩ := bind_eq_ok_iff.1 hrun
    exact throw_ne_ok hthrow

/-- The loop over the sequences works on the accounts alone. -/
theorem forM_advance_eq_ok_iff {tuning : Tuning} {as : List Address} {r t : Run Memory} :
    (as.forM fun a => do
        let _ ← call .ofLedger (tuning.wiring.accounts.advanceSequence a) : Gate Memory PUnit) r =
      .ok () t ↔
    ∃ b, AccountBook.advanceAll as r.services.accounts = .ok () b ∧ t = r.withAccounts b := by
  unfold AccountBook.advanceAll
  rw [List.forM_eq_forM, List.forM_eq_forM]
  induction as generalizing r with
  | nil =>
    simp only [List.forM_nil, pure_eq_ok_iff, true_and]
    constructor
    · rintro rfl
      exact ⟨r.services.accounts, rfl, rfl⟩
    · rintro ⟨b, rfl, rfl⟩
      rfl
  | cons a as ih =>
    simp only [List.forM_cons, bind_eq_ok_iff, pure_eq_ok_iff]
    constructor
    · rintro ⟨⟨⟩, u, ⟨n, v, hcall, -, rfl⟩, hrest⟩
      obtain ⟨s, hs, rfl⟩ := call_eq_ok_iff.1 hcall
      obtain ⟨c, hc, rfl⟩ := Memory.onAccounts_eq_ok_iff.1 hs
      obtain ⟨b, hb, rfl⟩ := ih.1 hrest
      exact ⟨b, ⟨(), c, ⟨n, c, hc, trivial, rfl⟩, hb⟩, rfl⟩
    · rintro ⟨b, ⟨⟨⟩, _, ⟨n, c, hc, -, rfl⟩, hb⟩, rfl⟩
      have hcall : call .ofLedger (Memory.accountLedger.advanceSequence a) r =
          .ok n (r.withAccounts c) :=
        call_eq_ok_iff.2 ⟨_, Memory.onAccounts_eq_ok_iff.2 ⟨c, hc, rfl⟩, rfl⟩
      exact ⟨(), _, ⟨n, _, hcall, trivial, rfl⟩, ih.2 ⟨b, hb, rfl⟩⟩

theorem advanceSequences_false_eq_ok_iff {tuning : Tuning} {r t : Run Memory} :
    advanceSequences tuning.wiring tx false r = .ok () t ↔ ∃ b,
      AccountBook.advanceAll tx.signers r.services.accounts = .ok () b ∧ t = r.withAccounts b :=
  forM_advance_eq_ok_iff

end Gate

/-- What the stages about signers look for in a context and in the accounts, on a meter, with the
signers, the meter and the accounts that they leave. -/
structure Tuning.Signs (u : Tuning) (tx : Transaction) (c : Context) (b : AccountBook)
    (sized : GasMeter) (signers : List Signer) (meter : GasMeter) (accounts : AccountBook) :
    Prop where
  found : tx.Finds b signers
  keyCount : Signer.KeysWithin b.params.signatureLimit 0 signers
  metered : meterSignatures u.wiring.signatureGas b.params tx false signers.zipIdx sized =
    .ok () meter
  lengths : tx.signers.length = tx.signatures.length
  verified : ∀ s ∈ signers.zipIdx, tx.States s.2 s.1.sequence ∧ (c.isRecheck = true ∨
    tx.SignedAt SingleKey.verify s.2 (Gate.signerData c s.1 s.1.address))
  advanced : AccountBook.advanceAll tx.signers (b.keepKeys signers) = .ok () accounts

/-- Once the signatures were verified, none of them is empty. -/
theorem Tuning.Signs.signature_ne_nil {u : Tuning} {c : Context} {b accounts : AccountBook}
    {sized meter : GasMeter} {signers : List Signer}
    (h : u.Signs tx c b sized signers meter accounts) (hmode : c.isRecheck = false) :
    ∀ x ∈ tx.signers.zipIdx, tx.signature x.2 ≠ [] := by
  intro x hx
  rw [Transaction.zipIdx_signers h.found.addresses] at hx
  obtain ⟨s, hs, rfl⟩ := List.mem_map.1 hx
  obtain ⟨-, hre | hsigned⟩ := h.verified s hs
  · rw [hmode] at hre
    cases hre
  · exact hsigned.signature_ne_nil

theorem Tuning.signatureGas_eq {u : Tuning} (hrule : u.signatureGas = none) :
    u.wiring.signatureGas = .standard := by
  change u.signatureGas.getD .standard = _
  rw [hrule, Option.getD_none]

namespace Stage

open Gate

/-- The stages after the fee, up to the last one. -/
def signing : List Stage := [.keys, .keyCount, .signatureGas, .signatures, .sequences]

variable {tuning : Tuning} {r t : Run Memory} {signers : List Signer} {meter : GasMeter}
  {accounts : AccountBook}

/-- Once the signers are in the cache, no account is looked up any more. -/
theorem passes_cached_iff {u : Run Memory} (hcached : u.context.Caches tx) :
    Passes tuning.wiring tx false [.keyCount, .signatureGas, .signatures, .sequences] u t ↔
      ∃ meter accounts,
        Signer.KeysWithin u.services.accounts.params.signatureLimit 0 u.context.signers ∧
        meterSignatures tuning.wiring.signatureGas u.services.accounts.params tx false
          u.context.signers.zipIdx u.context.meter = .ok () meter ∧
        tx.signers.length = tx.signatures.length ∧
        (∀ s ∈ u.context.signers.zipIdx, tx.States s.2 s.1.sequence ∧
          (u.context.isRecheck = true ∨
            tx.SignedAt SingleKey.verify s.2 (signerData u.context s.1 s.1.address))) ∧
        AccountBook.advanceAll tx.signers u.services.accounts = .ok () accounts ∧
        t = (u.withMeter meter).withAccounts accounts := by
  constructor
  · intro h
    obtain ⟨_, hrun, h⟩ := passes_cons_iff.1 h
    obtain ⟨hkeyCount, rfl⟩ :=
      (checkKeyCount_eq_ok_iff hcached).1 (proceeding_eq_ok_iff.1 hrun).2
    obtain ⟨_, hrun, h⟩ := passes_cons_iff.1 h
    have hcharge := (proceeding_eq_ok_iff.1 hrun).2
    rw [chargeSignatures_eq hcached] at hcharge
    obtain ⟨meter, hmetered, rfl⟩ := charge_eq_ok_iff.1 hcharge
    have hcached : (u.withMeter meter).context.Caches tx := hcached
    obtain ⟨_, hrun, h⟩ := passes_cons_iff.1 h
    obtain ⟨⟨hlengths, hverified⟩, rfl⟩ :=
      (verifySignatures_eq_ok_iff tuning.checks hcached).1 (proceeding_eq_ok_iff.1 hrun).2
    obtain ⟨_, hrun, h⟩ := passes_cons_iff.1 h
    obtain ⟨accounts, hadvanced, rfl⟩ :=
      advanceSequences_false_eq_ok_iff.1 (proceeding_eq_ok_iff.1 hrun).2
    cases h
    exact ⟨meter, accounts, hkeyCount, hmetered, hlengths,
      fun s hs => (hverified s hs).imp_right (Or.resolve_left · Bool.false_ne_true), hadvanced, rfl⟩
  · rintro ⟨meter, accounts, hkeyCount, hmetered, hlengths, hverified, hadvanced, rfl⟩
    refine .cons (proceeding_eq_ok_iff.2
      ⟨rfl, (checkKeyCount_eq_ok_iff hcached).2 ⟨hkeyCount, rfl⟩⟩) ?_
    refine .cons (t := u.withMeter meter) (proceeding_eq_ok_iff.2 ⟨rfl, ?_⟩) ?_
    · rw [chargeSignatures_eq hcached]
      exact charge_eq_ok_iff.2 ⟨meter, hmetered, rfl⟩
    have hcached : (u.withMeter meter).context.Caches tx := hcached
    refine .cons (proceeding_eq_ok_iff.2
      ⟨rfl, (verifySignatures_eq_ok_iff tuning.checks hcached).2 ⟨⟨hlengths, ?_⟩, rfl⟩⟩) ?_
    · exact fun s hs => (hverified s hs).imp_right .inr
    refine .cons (proceeding_eq_ok_iff.2
      ⟨rfl, advanceSequences_false_eq_ok_iff.2 ⟨accounts, hadvanced, rfl⟩⟩) ?_
    exact .nil _

theorem passes_signing_iff : Passes tuning.wiring tx false signing r t ↔
    ∃ signers meter accounts, tuning.Signs tx r.context r.services.accounts r.context.meter
      signers meter accounts ∧ t = ⟨{ r.context with signers := signers, meter := meter },
        { r.services with accounts := accounts }⟩ := by
  have hparams (ss : List Signer) := r.services.accounts.params_keepKeys ss
  constructor
  · intro h
    obtain ⟨u, hrun, h⟩ := passes_cons_iff.1 h
    obtain ⟨signers, hfound, rfl⟩ := resolveKeys_false_eq_ok_iff.1 (proceeding_eq_ok_iff.1 hrun).2
    have hcached : Context.Caches { r.context with signers := signers } tx := hfound.addresses
    obtain ⟨meter, accounts, hkeyCount, hmetered, hlengths, hverified, hadvanced, rfl⟩ :=
      (passes_cached_iff hcached).1 h
    rw [hparams] at hkeyCount hmetered
    exact ⟨signers, meter, accounts,
      ⟨hfound, hkeyCount, hmetered, hlengths, hverified, hadvanced⟩, rfl⟩
  · rintro ⟨signers, meter, accounts, h, rfl⟩
    have hcached : Context.Caches { r.context with signers := signers } tx := h.found.addresses
    have hkeyCount := h.keyCount
    have hmetered := h.metered
    rw [← hparams signers] at hkeyCount hmetered
    refine .cons (proceeding_eq_ok_iff.2
      ⟨rfl, resolveKeys_false_eq_ok_iff.2 ⟨signers, h.found, rfl⟩⟩) ?_
    exact (passes_cached_iff hcached).2
      ⟨meter, accounts, hkeyCount, hmetered, h.lengths, h.verified, h.advanced, rfl⟩

/-- A simulation on a roomier meter passes the same stages and finds the same signers. -/
theorem passes_signing_true (hrule : tuning.signatureGas = none) {c : Context} {sized : GasMeter}
    (h : tuning.Signs tx c r.services.accounts sized signers meter accounts)
    (hroom : sized.Roomier r.context.meter) :
    ∃ m, meter.Roomier m ∧ Passes tuning.wiring tx true signing r
      { r with context := { r.context with signers := signers, meter := m } } := by
  have hgas := Tuning.signatureGas_eq hrule
  have hmetered := h.metered
  rw [hgas] at hmetered
  obtain ⟨m, hm, hroom⟩ := meterSignatures_true hroom hmetered
  rw [← hgas] at hm
  have hcached : Context.Caches { r.context with signers := signers } tx := h.found.addresses
  have hcached' : Context.Caches { r.context with signers := signers, meter := m } tx := hcached
  refine ⟨m, hroom, ?_⟩
  refine .cons (proceeding_eq_ok_iff.2 ⟨rfl, resolveKeys_true_eq_ok h.found⟩) ?_
  refine .cons (proceeding_eq_ok_iff.2
    ⟨rfl, (checkKeyCount_eq_ok_iff hcached).2 ⟨h.keyCount, rfl⟩⟩) ?_
  refine .cons (t := { r with context := { r.context with signers := signers, meter := m } })
    (proceeding_eq_ok_iff.2 ⟨rfl, ?_⟩) ?_
  · rw [chargeSignatures_eq hcached]
    exact charge_eq_ok_iff.2 ⟨m, hm, rfl⟩
  refine .cons (proceeding_eq_ok_iff.2
    ⟨rfl, (verifySignatures_eq_ok_iff tuning.checks hcached').2 ⟨⟨h.lengths, ?_⟩, rfl⟩⟩) ?_
  · exact fun s hs => ⟨(h.verified s hs).1, .inl rfl⟩
  refine .cons (proceeding_eq_ok_iff.2 ⟨rfl, pure_eq_ok_iff.2 ⟨rfl, rfl⟩⟩) ?_
  exact .nil _

end Stage
end Tollgate
