import Tollgate.Proofs.Transaction.Json
import Tollgate.Proofs.Wire.Transaction
import Tollgate.Signature.Document
/-! What the bytes to be signed commit to. The binary document holds the whole body and signer data.
The JSON document is made field by field: it holds all the messages, but no extension options. -/
namespace Tollgate

open Json (Faithful FaithfulFields fieldMembers)

theorem hexDigit_inj : ∀ m < 16, ∀ n < 16, hexDigit m = hexDigit n → m = n := by decide

theorem hexText_injective : Function.Injective hexText := by
  intro bs cs h
  have hchars := String.ofList_injective h
  clear h
  induction bs generalizing cs with
  | nil =>
    cases cs with
    | nil => rfl
    | cons c cs => cases hchars
  | cons b bs ih =>
    cases cs with
    | nil => cases hchars
    | cons c cs =>
      simp only [List.flatMap_cons, List.cons_append, List.nil_append, List.cons.injEq] at hchars
      obtain ⟨hhigh, hlow, htail⟩ := hchars
      have hb := b.toNat_lt
      have hc := c.toNat_lt
      have hhigh := hexDigit_inj _ (by omega) _ (by omega) hhigh
      have hlow := hexDigit_inj _ (by omega) _ (by omega) hlow
      have hbc : b = c := UInt8.toNat_inj.1 (by omega)
      rw [hbc, ih htail]

theorem Address.hex_injective : Function.Injective hex :=
  fun _ _ h => FixedBytes.toList_inj.1 (hexText_injective h)

/-- A 64-bit number written as text. -/
theorem Json.Faithful.decimalWord :
    Faithful fun n : UInt64 => .string (Text.decimal n.toNat) :=
  Faithful.string.comp fun _ _ h => UInt64.toNat_inj.1 (Text.decimal_injective h)

namespace SignerData

/-- The fields of the fee, as they are written. -/
def feeFields (fee : Fee) : List (String × Json) :=
  [("amount", fee.amount.toJson), ("gas", .string (Text.decimal fee.gasLimit.toNat))] ++
    addressMember "granter" fee.granter ++ addressMember "payer" fee.payer

theorem mem_addressMember {name : String} {a? : Option Address} {f : String × Json} :
    f ∈ addressMember name a? ↔ ∃ a ∈ a?, f = (name, .string a.hex) := by
  cases a? <;> simp [addressMember]

theorem mem_feeMembers {fee : Fee} {name : String} {v : Json} :
    (JsonText.ofString name, v) ∈ fieldMembers (feeFields fee) ↔
      (name = "amount" ∧ v = fee.amount.toJson.sorted) ∨
      (name = "gas" ∧ v = .string (Text.decimal fee.gasLimit.toNat)) ∨
      (∃ a ∈ fee.granter, "granter" = name ∧ .string a.hex = v) ∨
      (∃ a ∈ fee.payer, "payer" = name ∧ .string a.hex = v) := by
  simp [fieldMembers, feeFields, mem_addressMember]

theorem faithful_feeDocument : Faithful feeDocument where
  plain fee := by
    refine Json.plain_record fun f hf => ?_
    simp only [List.mem_append, List.mem_cons, List.not_mem_nil, or_false, mem_addressMember] at hf
    rcases hf with ((rfl | rfl) | ⟨a, -, rfl⟩) | ⟨a, -, rfl⟩
    · exact Coins.faithful_toJson.plain _
    · exact Faithful.string.plain _
    · exact Faithful.string.plain _
    · exact Faithful.string.plain _
  sorted_inj {fee fee'} h := by
    have hmem (name : String) (v : Json) := (Json.perm_fieldMembers h).mem_iff
      (a := (JsonText.ofString name, v))
    change ∀ name v, _ ∈ fieldMembers (feeFields fee) ↔ _ ∈ fieldMembers (feeFields fee') at hmem
    simp only [mem_feeMembers] at hmem
    have hamount := hmem "amount" fee.amount.toJson.sorted
    have hgas := hmem "gas" (.string (Text.decimal fee.gasLimit.toNat))
    have hgranter (a : Address) := hmem "granter" (.string a.hex)
    have hpayer (a : Address) := hmem "payer" (.string a.hex)
    simp only [true_and, String.reduceEq, false_and, or_false, false_or, true_iff, and_false,
      exists_false, Json.string_inj, Address.hex_injective.eq_iff, exists_eq_right,
      Option.mem_def] at hamount hgas hgranter hpayer
    have hfields : fee.amount = fee'.amount ∧ fee.gasLimit = fee'.gasLimit ∧
        fee.payer = fee'.payer ∧ fee.granter = fee'.granter :=
      ⟨Coins.faithful_toJson.sorted_inj hamount,
        UInt64.toNat_inj.1 (Text.decimal_injective hgas), Option.ext hpayer, Option.ext hgranter⟩
    cases fee
    cases fee'
    simpa using hfields

theorem faithful_messageDocument : Faithful messageDocument :=
  (FaithfulFields.cons .string <| .cons Message.faithful_toJson .nil).record
    ["type", "value"]
    (fun m => (m.typeUrl, m, ()))
    (fun p => p.2.1)
    (by decide) (fun _ => rfl) (fun _ => rfl) fun _ => rfl

/-- What the JSON document is made of. -/
structure JsonPayload where
  accountNumber : UInt64
  chainId : String
  fee : Fee
  memo : String
  messages : List Message
  sequence : UInt64
  timeoutHeight : UInt64

def JsonPayload.toJson (p : JsonPayload) : Json := .record
  [("account_number", .string (Text.decimal p.accountNumber.toNat)),
   ("chain_id", .string p.chainId),
   ("fee", feeDocument p.fee),
   ("memo", .string p.memo),
   ("msgs", .ofList messageDocument p.messages),
   ("sequence", .string (Text.decimal p.sequence.toNat)),
   ("timeout_height", .string (Text.decimal p.timeoutHeight.toNat))]

theorem JsonPayload.faithful_toJson : Faithful toJson :=
  (FaithfulFields.cons .decimalWord <| .cons .string <| .cons faithful_feeDocument <|
    .cons .string <| .cons faithful_messageDocument.ofList <| .cons .decimalWord <|
    .cons .decimalWord .nil).record
    ["account_number", "chain_id", "fee", "memo", "msgs", "sequence", "timeout_height"]
    (fun p => (p.accountNumber, p.chainId, p.fee, p.memo, p.messages, p.sequence, p.timeoutHeight, ()))
    (fun (accountNumber, chainId, fee, memo, messages, sequence, timeoutHeight, _) =>
      ⟨accountNumber, chainId, fee, memo, messages, sequence, timeoutHeight⟩)
    (by decide) (fun _ => rfl) (fun _ => by simp only [toJson, List.zip_cons_cons, List.zip_nil_left])
    fun _ => rfl

def jsonPayload (signer : SignerData) (tx : Transaction) : JsonPayload :=
  ⟨signer.accountNumber, signer.chainId, tx.authInfo.fee, tx.memo, tx.messages, signer.sequence,
    tx.timeoutHeight⟩

/-- The JSON document depends on its payload alone, and tells it apart. -/
theorem aminoBytes_eq_iff {signer signer' : SignerData} {tx tx' : Transaction} :
    signer.aminoBytes tx = signer'.aminoBytes tx' ↔
      signer.jsonPayload tx = signer'.jsonPayload tx' := by
  have hbytes (signer : SignerData) (tx : Transaction) :
      signer.aminoBytes tx = (signer.jsonPayload tx).toJson.sorted.print := rfl
  rw [hbytes, hbytes]
  exact ⟨JsonPayload.faithful_toJson.print_sorted_inj, fun h => h ▸ rfl⟩

/-- The lengths of what the binary document is made of. -/
def directLengths (signer : SignerData) (tx : Transaction) : List Nat :=
  tx.body.lengths ++ tx.authInfo.lengths ++ [(utf8 signer.chainId).length]

theorem directBytes_eq_iff {signer signer' : SignerData} {tx tx' : Transaction}
    (h : LengthsFit (signer.directLengths tx)) (h' : LengthsFit (signer'.directLengths tx')) :
    signer.directBytes tx = signer'.directBytes tx' ↔ tx.body = tx'.body ∧
      tx.authInfo = tx'.authInfo ∧ signer.chainId = signer'.chainId ∧
      signer.accountNumber = signer'.accountNumber := by
  simp only [directLengths, LengthsFit.append_iff, LengthsFit.cons_iff] at h h'
  have hbytes (signer : SignerData) (tx : Transaction) : signer.directBytes tx =
      Format.bytes.write (TxBody.format.write tx.body) ++
        (Format.bytes.write (AuthInfo.format.write tx.authInfo) ++
          (Format.string.write signer.chainId ++
            (Format.word64.write signer.accountNumber ++ []))) := by
    rw [List.append_nil]
    rfl
  constructor
  · intro he
    rw [hbytes, hbytes] at he
    obtain ⟨hbody, he⟩ := TxBody.lawful_format.bytes_write_append_inj h.1.1 h'.1.1 he
    obtain ⟨hauth, he⟩ := AuthInfo.lawful_format.bytes_write_append_inj h.1.2 h'.1.2 he
    obtain ⟨hchain, he⟩ := Format.lawful_string.write_append_inj h.2.1 h'.2.1 he
    exact ⟨hbody, hauth, hchain, (Format.lawful_word64.write_append_inj trivial trivial he).1⟩
  · rintro ⟨hbody, hauth, hchain, hnumber⟩
    rw [hbytes, hbytes, hbody, hauth, hchain, hnumber]

/-- Equal bytes to be signed stand for one payload. In the binary document that is the whole body and
signer data, in the JSON document it is everything the document states. -/
theorem payload_of_signBytes {signer signer' : SignerData} {tx tx' : Transaction} :
    (LengthsFit (signer.directLengths tx) → LengthsFit (signer'.directLengths tx') →
      signer.signBytes tx .direct = signer'.signBytes tx' .direct →
        tx.body = tx'.body ∧ tx.authInfo = tx'.authInfo ∧ signer.chainId = signer'.chainId ∧
          signer.accountNumber = signer'.accountNumber) ∧
    (signer.signBytes tx .aminoJson = signer'.signBytes tx' .aminoJson →
      signer.accountNumber = signer'.accountNumber ∧ signer.chainId = signer'.chainId ∧
        signer.sequence = signer'.sequence ∧ tx.authInfo.fee = tx'.authInfo.fee ∧
        tx.memo = tx'.memo ∧ tx.messages = tx'.messages ∧ tx.timeoutHeight = tx'.timeoutHeight) := by
  refine ⟨fun h h' he => (directBytes_eq_iff h h').1 he, fun he => ?_⟩
  have hpayload := aminoBytes_eq_iff.1 he
  simp only [jsonPayload, JsonPayload.mk.injEq] at hpayload
  obtain ⟨hnumber, hchain, hfee, hmemo, hmessages, hsequence, htimeout⟩ := hpayload
  exact ⟨hnumber, hchain, hsequence, hfee, hmemo, hmessages, htimeout⟩

/-- A fee with a payer, a memo that must be escaped, and an option. -/
def quotedMemo (signatures : List Bytes) : Transaction where
  body := ⟨[.updateClient ⟨"client", [1], .zero⟩], "\"\\\n", 9, [], [⟨"/option", [1, 2]⟩]⟩
  authInfo := ⟨[⟨none, .single .aminoJson, 3⟩],
    ⟨⟨[⟨"stake", .clamp 5⟩]⟩, 100000, some .zero, none⟩⟩
  signatures := signatures

/-- The signer's address and key and the signatures are no part of the payload. -/
theorem quotedMemo_payload :
    let key (b : UInt8) : PublicKey := .single (.ed25519 (.replicate 32 b))
    let signer : SignerData := ⟨.zero, "unit", 4, 3, key 1⟩
    let signer' : SignerData := ⟨.replicate 20 1, "unit", 4, 3, key 2⟩
    LengthsFit (signer.directLengths (quotedMemo [])) ∧
    LengthsFit (signer'.directLengths (quotedMemo [[1]])) ∧
    signer.signBytes (quotedMemo []) .direct = signer'.signBytes (quotedMemo [[1]]) .direct ∧
    signer.signBytes (quotedMemo []) .aminoJson = signer'.signBytes (quotedMemo [[1]]) .aminoJson ∧
    (quotedMemo []).body = (quotedMemo [[1]]).body ∧
    (quotedMemo []).authInfo = (quotedMemo [[1]]).authInfo ∧ signer.sequence = signer'.sequence := by
  intro key signer signer'
  have hfit : LengthsFit (signer.directLengths (quotedMemo [])) := by decide +kernel
  have hfit' : LengthsFit (signer'.directLengths (quotedMemo [[1]])) := by decide +kernel
  have hdirect : signer.signBytes (quotedMemo []) .direct =
      signer'.signBytes (quotedMemo [[1]]) .direct := rfl
  have hjson : signer.signBytes (quotedMemo []) .aminoJson =
      signer'.signBytes (quotedMemo [[1]]) .aminoJson := rfl
  obtain ⟨hbody, hauth, -⟩ := payload_of_signBytes.1 hfit hfit' hdirect
  obtain ⟨-, -, hsequence, -⟩ := payload_of_signBytes.2 hjson
  exact ⟨hfit, hfit', hdirect, hjson, hbody, hauth, hsequence⟩

end SignerData
end Tollgate
