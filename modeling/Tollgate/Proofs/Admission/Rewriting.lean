import Tollgate.Proofs.Admission.Endorsement
import Tollgate.Proofs.Admission.Overflow
import Tollgate.Proofs.Signature.Encoding
/-! Signature entries that somebody rewrites so that the same signatures are read from them. Bytes behind
the parts of threshold signatures can be changed, and nothing else. -/
namespace Tollgate

open Call SignatureData

variable {tuning : Tuning} {tx : Transaction} {entries : List Bytes} {r t : Run Memory}
  {outcome : Admission}

/-- As many signature entries, from which the same signatures are read. -/
structure Transaction.Rereads (tx : Transaction) (entries : List Bytes) : Prop where
  length_eq : entries.length = tx.signatures.length
  reads : ∀ i a, ({ tx with signatures := entries } : Transaction).signatureData i a false =
    tx.signatureData i a false

/-- The bytes from which a signature is read are fixed, but for those behind the parts. -/
theorem SignatureData.decode_eq_ok_iff_sameButTrailing {info : ModeInfo} {raw raw' : Bytes}
    {data : SignatureData} (hraw : raw.length < 2 ^ 64) (hraw' : raw'.length < 2 ^ 64)
    (h : decode info raw = .ok data) : decode info raw' = .ok data ↔ SameButTrailing info raw raw' :=
  ⟨sameButTrailing_of_decode info h, decode_of_sameButTrailing info hraw hraw' h⟩

namespace Handler

/-- An admitted transaction has an entry for every signer, which is read as the signer's data says. -/
theorem entries_of_admitted (hmode : r.context.mode ≠ .recheck)
    (h : tuning.handler.handle tx false r = .ok outcome t) :
    tx.signers.length = tx.signatures.length ∧ ∀ i a, tx.signers[i]? = some a →
      ∃ info data, tx.signerInfo? i = some info ∧ decode info.modeInfo (tx.signature i) = .ok data := by
  obtain ⟨u, hpass, -⟩ := Stage.passes_of_runAll_canonical h
  obtain ⟨sized, signers, meter, accounts, hsigns⟩ := hpass.signs
  refine ⟨hsigns.lengths, fun i a ha => ?_⟩
  obtain ⟨s, hs, -⟩ := hsigns.found.mem_zipIdx (List.mem_zipIdx_iff_getElem?.2 ha)
  obtain ⟨-, hre | hsigned⟩ := hsigns.verified (s, i) hs
  · exact absurd (by simpa [Context.isRecheck] using hre) hmode
  obtain ⟨info, raw, data, hinfo, hraw, -, hdecode, -⟩ := hsigned
  have hentry : tx.signature i = raw := by
    rw [Transaction.signature, List.getD_eq_getElem?_getD, hraw, Option.getD_some]
  exact ⟨info, data, hinfo, hentry ▸ hdecode⟩

/-- An entry of an admitted transaction from which the same is read has changed behind the parts only. -/
theorem sameButTrailing_of_rereads (hmode : r.context.mode ≠ .recheck)
    (h : tuning.handler.handle tx false r = .ok outcome t) (hsame : tx.Rereads entries) {i : Nat}
    {a : Address} (ha : tx.signers[i]? = some a) : ∃ info, tx.signerInfo? i = some info ∧
      SameButTrailing info.modeInfo (tx.signature i) (entries.getD i []) := by
  obtain ⟨info, data, hinfo, hdecode⟩ := (entries_of_admitted hmode h).2 i a ha
  refine ⟨info, hinfo, sameButTrailing_of_decode info.modeInfo hdecode ?_⟩
  have hread := (Gate.signatureData_false_eq_ok_iff (a := a) hinfo).2 hdecode
  rw [← hsame.reads] at hread
  have hinfo' : ({ tx with signatures := entries } : Transaction).signerInfo? i = some info := hinfo
  exact (Gate.signatureData_false_eq_ok_iff hinfo').1 hread

/-- Without threshold signatures nothing can be changed. -/
theorem entries_eq_of_rereads (hmode : r.context.mode ≠ .recheck)
    (h : tuning.handler.handle tx false r = .ok outcome t) (hsame : tx.Rereads entries)
    (hsingle : ∀ info ∈ tx.authInfo.signerInfos, ∃ mode, info.modeInfo = .single mode) :
    entries = tx.signatures := by
  refine List.ext_getElem hsame.length_eq fun i hi hi' => ?_
  have hsigner : i < tx.signers.length := by
    rw [(entries_of_admitted hmode h).1]
    exact hi'
  obtain ⟨info, hinfo, hentry⟩ :=
    sameButTrailing_of_rereads hmode h hsame (List.getElem?_eq_getElem hsigner)
  obtain ⟨mode, hmode⟩ := hsingle info (List.mem_of_getElem? hinfo)
  rw [hmode] at hentry
  have he : tx.signature i = entries.getD i [] := hentry
  rw [Transaction.signature, List.getD_eq_getElem?_getD, List.getD_eq_getElem?_getD,
    List.getElem?_eq_getElem hi', List.getElem?_eq_getElem hi, Option.getD_some,
    Option.getD_some] at he
  exact he.symm

end Handler

/-- Raw signatures that are read as the same are the same but for bytes behind the parts of threshold
signatures, and any such bytes may stand there; without them they are the bytes of the signature itself,
the fewest it is read from. So in an admitted transaction the entries of the signers can be rewritten in
such bytes, and not at all when nobody signs with a threshold key. -/
theorem SignatureData.raw_fixed_but_trailing (info : ModeInfo) {raw raw' : Bytes}
    {data : SignatureData} (hraw : raw.length < 2 ^ 64) (hraw' : raw'.length < 2 ^ 64)
    (h : decode info raw = .ok data) :
    (decode info raw' = .ok data ↔ SameButTrailing info raw raw') ∧
    (raw = data.raw ∨ data.raw.length < raw.length) ∧
    ∀ (tuning : Tuning) (tx : Transaction) (entries : List Bytes) (r t : Run Memory)
      (outcome : Admission), r.context.mode ≠ .recheck →
        tuning.handler.handle tx false r = .ok outcome t → tx.Rereads entries →
          (∀ i a, tx.signers[i]? = some a → ∃ info, tx.signerInfo? i = some info ∧
            SameButTrailing info.modeInfo (tx.signature i) (entries.getD i [])) ∧
          ((∀ info ∈ tx.authInfo.signerInfos, ∃ mode, info.modeInfo = .single mode) →
            entries = tx.signatures) := by
  refine ⟨decode_eq_ok_iff_sameButTrailing hraw hraw' h, eq_raw_or_length_lt info h, ?_⟩
  intro tuning tx entries r t outcome hmode hhandle hsame
  exact ⟨fun i a ha => Handler.sameButTrailing_of_rereads hmode hhandle hsame ha,
    Handler.entries_eq_of_rereads hmode hhandle hsame⟩

/-- How the one signer of the transfers below signs. -/
def trusteeInfo : ModeInfo := .multi [true] [.single .direct]

/-- A transfer that the member of a threshold key has signed. -/
def trusteeTransfer : Transaction :=
  let tx := transferOf trusteeKey trusteeInfo
  let signer : SignerData := ⟨trusteeKey.address, "unit", 3, 0, trusteeKey⟩
  { tx with signatures := [encodeParts [unitSignature (signer.signBytes tx .direct)]] }

/-- Its entry with a byte behind the part. -/
def trailingEntry : Bytes := trusteeTransfer.signature 0 ++ [0]

/-- The transfer with that entry. -/
def trailingTransfer : Transaction := { trusteeTransfer with signatures := [trailingEntry] }

-- in one evaluation, so that the signature is made only once
theorem trailingTransfer_evaluated :
    (Tuning.standard.handler.accepts trusteeTransfer (runOf trusteeKey) &&
      Tuning.standard.handler.accepts trailingTransfer (runOf trusteeKey) &&
      decide (trailingTransfer.hash ≠ trusteeTransfer.hash)) = true := by decide +kernel

theorem trusteeTransfer_accepted :
    Tuning.standard.handler.accepts trusteeTransfer (runOf trusteeKey) = true :=
  (Bool.and_eq_true_iff.1 (Bool.and_eq_true_iff.1 trailingTransfer_evaluated).1).1

theorem trailingEntry_read : ∃ data, decode trusteeInfo (trusteeTransfer.signature 0) = .ok data ∧
    decode trusteeInfo trailingEntry = .ok data := by
  obtain ⟨t, ht⟩ := Handler.eq_ok_of_accepts trusteeTransfer_accepted
  obtain ⟨info, data, hinfo, hdecode⟩ := (Handler.entries_of_admitted (by decide) ht).2 0 _ rfl
  obtain rfl : _ = info := Option.some.inj hinfo
  refine ⟨data, hdecode, decode_of_sameButTrailing trusteeInfo (by decide +kernel) (by decide +kernel)
    hdecode ⟨_, _, [], [0], (List.append_nil _).symm, rfl, rfl, trivial⟩⟩

theorem trusteeTransfer_rereads : trusteeTransfer.Rereads [trailingEntry] where
  length_eq := rfl
  reads i a := by
    obtain ⟨data, hdecode, hdecode'⟩ := trailingEntry_read
    cases i with
    | zero =>
      have hread : trusteeTransfer.signatureData 0 a false = .ok data :=
        (Gate.signatureData_false_eq_ok_iff rfl).2 hdecode
      rw [hread]
      exact (Gate.signatureData_false_eq_ok_iff rfl).2 hdecode'
    | succ i => rfl

theorem trusteeTransfer_rewritten :
    decode nestedSignature.info (nestedSignature.raw ++ [7]) = .ok nestedSignature ∧
    ∃ t info, Tuning.standard.handler.handle trusteeTransfer false (runOf trusteeKey) =
        .ok .accepted t ∧
      trusteeTransfer.signerInfo? 0 = some info ∧
      SameButTrailing info.modeInfo (trusteeTransfer.signature 0) trailingEntry := by
  have hlength : nestedSignature.raw.length < 2 ^ 64 := by decide
  have hlength' : (nestedSignature.raw ++ [7]).length < 2 ^ 64 := by decide
  have hread : decode nestedSignature.info nestedSignature.raw = .ok nestedSignature := by decide
  obtain ⟨hiff, -, htransaction⟩ :=
    raw_fixed_but_trailing nestedSignature.info hlength hlength' hread
  obtain ⟨t, ht⟩ := Handler.eq_ok_of_accepts trusteeTransfer_accepted
  obtain ⟨info, hinfo, hsame⟩ := (htransaction Tuning.standard trusteeTransfer [trailingEntry]
    (runOf trusteeKey) t .accepted (by decide) ht trusteeTransfer_rereads).1 0 _ rfl
  refine ⟨hiff.2 ⟨_, _, [], [7], (List.append_nil _).symm, rfl, ?_⟩, t, info, ht, hinfo, hsame⟩
  exact ⟨rfl, ⟨_, _, [], [], (List.append_nil _).symm, (List.append_nil _).symm, rfl, trivial⟩,
    trivial⟩

/-- Two admitted transactions whose one signer has two raw signatures for the same signature. -/
theorem trailingTransfer_admitted : ∃ t t' data,
    Tuning.standard.handler.handle trusteeTransfer false (runOf trusteeKey) = .ok .accepted t ∧
    Tuning.standard.handler.handle trailingTransfer false (runOf trusteeKey) = .ok .accepted t' ∧
    decode trusteeInfo (trusteeTransfer.signature 0) = .ok data ∧
    decode trusteeInfo (trailingTransfer.signature 0) = .ok data ∧
    trailingTransfer.signature 0 ≠ trusteeTransfer.signature 0 ∧
    trailingTransfer.hash ≠ trusteeTransfer.hash := by
  obtain ⟨haccepts, hhash⟩ := Bool.and_eq_true_iff.1 trailingTransfer_evaluated
  obtain ⟨t, ht⟩ := Handler.eq_ok_of_accepts (Bool.and_eq_true_iff.1 haccepts).1
  obtain ⟨t', ht'⟩ := Handler.eq_ok_of_accepts (Bool.and_eq_true_iff.1 haccepts).2
  obtain ⟨data, hdecode, hdecode'⟩ := trailingEntry_read
  refine ⟨t, t', data, ht, ht', hdecode, hdecode', fun he => ?_, of_decide_eq_true hhash⟩
  have hlength : trailingEntry.length = (trusteeTransfer.signature 0).length := congrArg List.length he
  rw [trailingEntry, List.length_append] at hlength
  exact absurd hlength (Nat.ne_of_gt (Nat.lt_succ_self _))

end Tollgate
