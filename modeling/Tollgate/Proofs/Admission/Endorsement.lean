import Tollgate.Proofs.Admission.Charge
import Tollgate.Proofs.Signature.Vacuous
/-! Whether anybody has signed for the signers of a transaction. For every signer the key that was found
is satisfied, but a key that asks for nobody is satisfied by nobody. -/
namespace Tollgate

open Call Relation

variable {tuning : Tuning} {tx : Transaction} {r t : Run Memory} {outcome : Admission}

namespace Stage

/-- Behind all stages but the last one, every signer was found in the accounts as they were at the
start, and has met what the stages about signers ask of the context as it was. -/
theorem Passes.signs (h : Passes tuning.wiring tx false (canonical.take 14) r t) :
    ∃ sized signers meter accounts,
      tuning.Signs tx r.context r.services.accounts sized signers meter accounts := by
  have hsplit : canonical.take 14 = canonical.take 9 ++ signing := rfl
  rw [hsplit] at h
  obtain ⟨u, hbefore, hsigning⟩ := h.split
  obtain ⟨signers, meter, accounts, hsigns, -⟩ := passes_signing_iff.1 hsigning
  have hbook : u.services.accounts = r.services.accounts :=
    book_of_reached tuning.keepsBook (by decide) (by decide) hbefore.reached
  have hcaller := caller_of_reached hbefore.reached
  rw [hbook] at hsigns
  refine ⟨u.context.meter, signers, meter, accounts, { hsigns with verified := fun s hs => ?_ }⟩
  rw [← Context.isRecheck_eq_of_caller hcaller, ← Context.signerData_eq_of_caller hcaller]
  exact hsigns.verified s hs

end Stage

/-- Where no key is stored, the signer has the provided one. -/
theorem Signer.FoundIn.provided {s : Signer} {a : Address} {i : Nat} {b : AccountBook}
    (h : s.FoundIn tx a i b) (hnone : (b.find? a).bind Account.key = none) :
    tx.providedKey? i = some s.key := by
  obtain ⟨account, key, haccount, hkey, rfl⟩ := h
  rw [haccount, Option.bind_some] at hnone
  rwa [hnone] at hkey

/-- The check of a single signature over the bytes that a signer signs. -/
def SignerData.checks (signer : SignerData) (tx : Transaction) (task : SignatureTask) :
    Except SignatureError Unit :=
  SingleKey.verify task.key (signer.signBytes tx task.mode) task.signature

namespace Handler

/-- Somebody has signed for every signer whose key asks for somebody. When the canonical stages admit a
transaction outside simulation and recheck, a single key of the signer's key has passed its check of
the signed bytes, exactly if there is a single signature in the signer's data at all. That can be
missing for a vacuous key only, and every vacuous key is satisfied by data without any. -/
theorem hasSigned_of_admitted (hmode : r.context.mode ≠ .recheck)
    (h : tuning.handler.handle tx false r = .ok outcome t) {i : Nat} {a : Address}
    (ha : tx.signers[i]? = some a) :
    ∃ (s : Signer) (info : SignerInfo) (raw : Bytes) (data : SignatureData),
      s.FoundIn tx a i r.services.accounts ∧ tx.signerInfo? i = some info ∧
      tx.signatures[i]? = some raw ∧ SignatureData.decode info.modeInfo raw = .ok data ∧
      (s.key.HasSigned ((Gate.signerData r.context s a).checks tx) data ↔ data.singles ≠ []) ∧
      (s.key.vacuous = false → s.key.HasSigned ((Gate.signerData r.context s a).checks tx) data) ∧
      (s.key.vacuous = true → ∃ blank : SignatureData, blank.singles = [] ∧
        ∀ holds : SignatureTask → Except SignatureError Unit, s.key.verify holds blank = .ok ()) := by
  obtain ⟨u, hpass, -⟩ := Stage.passes_of_runAll_canonical h
  obtain ⟨sized, signers, meter, accounts, hsigns⟩ := hpass.signs
  obtain ⟨s, hs, hfound⟩ := hsigns.found.mem_zipIdx (List.mem_zipIdx_iff_getElem?.2 ha)
  obtain ⟨-, hre | hsigned⟩ := hsigns.verified (s, i) hs
  · exact absurd (by simpa [Context.isRecheck] using hre) hmode
  rw [hfound.address] at hsigned
  obtain ⟨info, raw, data, hinfo, hraw, -, hdecode, hverify⟩ := hsigned
  have hiff : s.key.HasSigned ((Gate.signerData r.context s a).checks tx) data ↔
      data.singles ≠ [] := PublicKey.hasSigned_iff_of_verify hdecode hverify
  refine ⟨s, info, raw, data, hfound, hinfo, hraw, hdecode, hiff, fun hsound => hiff.2 fun hnone => ?_,
    PublicKey.vacuous_iff.1⟩
  rw [PublicKey.vacuous_of_verify s.key data hnone hverify] at hsound
  cases hsound

end Handler

/-- A transfer, not signed yet, from the account of a key. -/
def transferOf (key : PublicKey) (info : ModeInfo) : Transaction where
  body := ⟨[.send ⟨key.address, .replicate 20 9, ⟨[⟨"stake", .clamp 5⟩]⟩⟩], "", 0, [], []⟩
  authInfo := ⟨[⟨some key, info, 0⟩], ⟨⟨[⟨"stake", .clamp 10⟩]⟩, 100000, none, none⟩⟩
  signatures := []

/-- The account of a key without any transaction so far. -/
def runOf (key : PublicKey) : Run Memory :=
  ⟨.new "unit" 1 0, { unitMemory with
    accounts := (unitMemory.accounts.create key.address).2
    bank := unitMemory.bank.setBalance key.address "stake" (.clamp 100) }⟩

/-- Two of two members, the first of which asks for nobody. -/
def guardedKey : PublicKey := .multisig 2 [.multisig 0 [], unitKey]

def guardedTransfer : Transaction :=
  let tx := transferOf guardedKey (.multi [true, true] [.multi [] [], .single .direct])
  let signer : SignerData := ⟨guardedKey.address, "unit", 3, 0, guardedKey⟩
  { tx with signatures := [SignatureData.encodeParts
      [SignatureData.encodeParts [], unitSignature (signer.signBytes tx .direct)]] }

theorem guardedTransfer_accepted :
    Tuning.standard.handler.accepts guardedTransfer (runOf guardedKey) = true := by decide +kernel

theorem guardedTransfer_signed : ∃ t,
    Tuning.standard.handler.handle guardedTransfer false (runOf guardedKey) = .ok .accepted t ∧
    ∃ (s : Signer) (data : SignatureData), s.key = guardedKey ∧
      s.key.HasSigned ((Gate.signerData (runOf guardedKey).context s
        guardedKey.address).checks guardedTransfer) data := by
  obtain ⟨t, ht⟩ := Handler.eq_ok_of_accepts guardedTransfer_accepted
  obtain ⟨s, info, raw, data, hfound, -, -, -, -, hsigned, -⟩ :=
    Handler.hasSigned_of_admitted (by decide) ht (i := 0) rfl
  have hprovided : some guardedKey = some s.key := hfound.provided (by decide +kernel)
  have hkey : s.key = guardedKey := (Option.some.inj hprovided).symm
  exact ⟨t, ht, s, data, hkey, hsigned (by rw [hkey]; rfl)⟩

/-- A key that asks for nobody. -/
def openKey : PublicKey := .multisig 0 []

def openTransfer : Transaction :=
  { transferOf openKey (.multi [] []) with signatures := [SignatureData.encodeParts []] }

theorem openTransfer_accepted :
    Tuning.standard.handler.accepts openTransfer (runOf openKey) = true := by decide +kernel

/-- A transaction for which nobody has signed is admitted. Whatever is found for its one signer, there is
no single key that could have signed. -/
theorem openTransfer_signed_by_nobody : ∃ t,
    Tuning.standard.handler.handle openTransfer false (runOf openKey) = .ok .accepted t ∧
    openTransfer.signers = [openKey.address] ∧
    ∀ s : Signer, s.FoundIn openTransfer openKey.address 0 (runOf openKey).services.accounts →
      s.key.leaves = [] ∧ ∀ holds data, ¬s.key.HasSigned holds data := by
  obtain ⟨t, ht⟩ := Handler.eq_ok_of_accepts openTransfer_accepted
  refine ⟨t, ht, rfl, fun s hfound => ?_⟩
  have hprovided : some openKey = some s.key := hfound.provided (by decide +kernel)
  have hleaves : s.key.leaves = [] := by
    rw [← Option.some.inj hprovided]
    rfl
  refine ⟨hleaves, ?_⟩
  rintro holds data ⟨leaf, hleaf, -⟩
  rw [hleaves] at hleaf
  cases hleaf

end Tollgate
