import Tollgate.Proofs.Json.Restored
import Tollgate.Proofs.Transaction.Json
/-! The JSON text of a transaction is read back as the transaction, whatever its messages, keys, modes and
texts are, unless it nests too deep to be read at all. -/
namespace Tollgate

open Json (Decoder Faithful Plain Restored bind_ite_none choice_bind_eq fields_bind_eq holding_eq plain_record)

namespace FixedBytes

theorem restored (n : Nat) : Restored (toJson (n := n)) (Decoder.fixedBytes n) :=
  Restored.fixedBytes n

theorem toJson_ne_null {n : Nat} (b : FixedBytes n) : b.toJson ≠ .null := nofun

end FixedBytes

theorem Message.restored_address : Restored FixedBytes.toJson decodeAddress :=
  FixedBytes.restored 20

theorem Coin.restored_amount : Restored (fun a : Amount => .string a.text) decodeAmount :=
  Restored.string.bind Amount.ofText?_text

theorem Coin.restored : Restored toJson decode :=
  .record ["denom", "amount"] (fun c => [.string c.denom, .string c.amount.text])
    (by decide) (fun _ => rfl) (fun _ => rfl) (fun _ _ => rfl) fun c l hl => by
      simp [bind_ite_none, ite_and, Restored.string.required hl, restored_amount.required hl]

theorem Coins.restored : Restored toJson decode := by
  intro s levels hlevels
  have hlist := Coin.restored.list s.toList levels hlevels
  change (Decoder.list Coin.decode levels (.ofList Coin.toJson s.toList)).map mk = _
  rw [hlist]
  split
  · next h => exact (if_pos h).symm
  · next h => exact (if_neg h).symm

theorem Packet.restored : Restored toJson decode :=
  .record ["sequence", "source_port", "source_channel", "destination_port", "destination_channel",
      "data", "timeout_height", "timeout_timestamp"]
    (fun p => [.nat p.sequence.toNat, .string p.sourcePort, .string p.sourceChannel,
      .string p.destinationPort, .string p.destinationChannel, .ofBytes p.data,
      .nat p.timeoutHeight.toNat, .nat p.timeoutTimestamp.toNat])
    (by decide) (fun _ => rfl) (fun _ => rfl) (fun _ _ => rfl) fun p l hl => by
      simp [bind_ite_none, ite_and, Restored.word64.required hl, Restored.string.required hl,
        Restored.bytes.required hl]

namespace Message

theorem Send.restored : Restored toJson decode :=
  .record ["from_address", "to_address", "amount"]
    (fun m => [m.sender.toJson, m.recipient.toJson, m.amount.toJson])
    (by decide) (fun _ => rfl) (fun _ => rfl) (fun _ _ => rfl) fun m l hl => by
      simp [bind_ite_none, ite_and, restored_address.required hl, Coins.restored.required hl]

theorem StoreCode.restored : Restored toJson decode :=
  .record ["sender", "wasm_byte_code"] (fun m => [m.sender.toJson, .ofBytes m.code])
    (by decide) (fun _ => rfl) (fun _ => rfl) (fun _ _ => rfl) fun m l hl => by
      simp [bind_ite_none, ite_and, restored_address.required hl, Restored.bytes.required hl]

theorem Instantiate.restored : Restored toJson decode :=
  .record ["sender", "admin", "code_id", "label", "msg", "funds"]
    (fun m => [m.sender.toJson, .ofOption FixedBytes.toJson m.administrator, .nat m.codeId.toNat,
      .string m.label, .ofBytes m.body, m.funds.toJson])
    (by decide) (fun _ => rfl) (fun _ => rfl) (fun _ _ => rfl) fun m l hl => by
      simp [bind_ite_none, ite_and, restored_address.required hl,
        restored_address.optional FixedBytes.toJson_ne_null hl, Restored.word64.required hl,
        Restored.string.required hl, Restored.bytes.required hl, Coins.restored.required hl]

theorem Execute.restored : Restored toJson decode :=
  .record ["sender", "contract", "msg", "funds"]
    (fun m => [m.sender.toJson, m.contract.toJson, .ofBytes m.body, m.funds.toJson])
    (by decide) (fun _ => rfl) (fun _ => rfl) (fun _ _ => rfl) fun m l hl => by
      simp [bind_ite_none, ite_and, restored_address.required hl, Restored.bytes.required hl,
        Coins.restored.required hl]

theorem ReceivePacket.restored : Restored toJson decode :=
  .record ["packet", "proof_commitment", "proof_height", "signer"]
    (fun m => [m.packet.toJson, .ofBytes m.commitmentProof, .nat m.proofHeight.toNat,
      m.signer.toJson])
    (by decide) (fun _ => rfl) (fun _ => rfl) (fun _ _ => rfl) fun m l hl => by
      simp [bind_ite_none, ite_and, Packet.restored.required hl, Restored.bytes.required hl,
        Restored.word64.required hl, restored_address.required hl]

theorem AcknowledgePacket.restored : Restored toJson decode :=
  .record ["packet", "acknowledgement", "proof_acked", "proof_height", "signer"]
    (fun m => [m.packet.toJson, .ofBytes m.acknowledgement, .ofBytes m.acknowledgedProof,
      .nat m.proofHeight.toNat, m.signer.toJson])
    (by decide) (fun _ => rfl) (fun _ => rfl) (fun _ _ => rfl) fun m l hl => by
      simp [bind_ite_none, ite_and, Packet.restored.required hl, Restored.bytes.required hl,
        Restored.word64.required hl, restored_address.required hl]

theorem TimeoutPacket.restored : Restored toJson decode :=
  .record ["packet", "proof_unreceived", "proof_height", "next_sequence_recv", "signer"]
    (fun m => [m.packet.toJson, .ofBytes m.unreceivedProof, .nat m.proofHeight.toNat,
      .nat m.nextSequence.toNat, m.signer.toJson])
    (by decide) (fun _ => rfl) (fun _ => rfl) (fun _ _ => rfl) fun m l hl => by
      simp [bind_ite_none, ite_and, Packet.restored.required hl, Restored.bytes.required hl,
        Restored.word64.required hl, restored_address.required hl]

theorem TimeoutOnClose.restored : Restored toJson decode :=
  .record ["packet", "proof_unreceived", "proof_close", "proof_height", "next_sequence_recv",
      "signer"]
    (fun m => [m.packet.toJson, .ofBytes m.unreceivedProof, .ofBytes m.closeProof,
      .nat m.proofHeight.toNat, .nat m.nextSequence.toNat, m.signer.toJson])
    (by decide) (fun _ => rfl) (fun _ => rfl) (fun _ _ => rfl) fun m l hl => by
      simp [bind_ite_none, ite_and, Packet.restored.required hl, Restored.bytes.required hl,
        Restored.word64.required hl, restored_address.required hl]

theorem UpdateClient.restored : Restored toJson decode :=
  .record ["client_id", "header", "signer"]
    (fun m => [.string m.client, .ofBytes m.header, m.signer.toJson])
    (by decide) (fun _ => rfl) (fun _ => rfl) (fun _ _ => rfl) fun m l hl => by
      simp [bind_ite_none, ite_and, Restored.string.required hl, Restored.bytes.required hl,
        restored_address.required hl]

theorem restored : Restored toJson decode := by
  intro m levels _
  cases m with
  | send m => exact choice_bind_eq fun _ hl _ => Send.restored.holding _ hl m
  | storeCode m => exact choice_bind_eq fun _ hl _ => StoreCode.restored.holding _ hl m
  | instantiate m => exact choice_bind_eq fun _ hl _ => Instantiate.restored.holding _ hl m
  | execute m => exact choice_bind_eq fun _ hl _ => Execute.restored.holding _ hl m
  | receivePacket m =>
    exact choice_bind_eq fun _ hl _ => ReceivePacket.restored.holding _ hl m
  | acknowledgePacket m =>
    exact choice_bind_eq fun _ hl _ => AcknowledgePacket.restored.holding _ hl m
  | timeoutPacket m =>
    exact choice_bind_eq fun _ hl _ => TimeoutPacket.restored.holding _ hl m
  | timeoutOnClose m =>
    exact choice_bind_eq fun _ hl _ => TimeoutOnClose.restored.holding _ hl m
  | updateClient m => exact choice_bind_eq fun _ hl _ => UpdateClient.restored.holding _ hl m

end Message

theorem ExtensionOption.restored : Restored toJson decode :=
  .record ["type_url", "value"] (fun o => [.string o.typeUrl, .ofBytes o.value])
    (by decide) (fun _ => rfl) (fun _ => rfl) (fun _ _ => rfl) fun o l hl => by
      simp [bind_ite_none, ite_and, Restored.string.required hl, Restored.bytes.required hl]

theorem TxBody.restored : Restored toJson decode :=
  .record ["messages", "memo", "timeout_height", "extension_options",
      "non_critical_extension_options"]
    (fun b => [.ofList Message.toJson b.messages, .string b.memo, .nat b.timeoutHeight.toNat,
      .ofList ExtensionOption.toJson b.extensionOptions,
      .ofList ExtensionOption.toJson b.nonCriticalOptions])
    (by decide) (fun _ => rfl) (fun _ => rfl) (fun _ _ => rfl) fun b l hl => by
      simp [bind_ite_none, ite_and, Message.restored.list.required hl, Restored.string.required hl,
        Restored.word64.required hl, ExtensionOption.restored.list.required hl]

theorem Fee.restored : Restored toJson decode :=
  .record ["amount", "gas_limit", "payer", "granter"]
    (fun f => [f.amount.toJson, .nat f.gasLimit.toNat, .ofOption FixedBytes.toJson f.payer,
      .ofOption FixedBytes.toJson f.granter])
    (by decide) (fun _ => rfl) (fun _ => rfl) (fun _ _ => rfl) fun f l hl => by
      simp [bind_ite_none, ite_and, Coins.restored.required hl, Restored.word64.required hl,
        Message.restored_address.optional FixedBytes.toJson_ne_null hl]

theorem SignMode.restored : Restored toJson decode :=
  .of_scalar (fun _ => rfl) fun m levels => by
    have hchoice : Decoder.choice levels m.toJson = some ⟨m.name, levels, none⟩ := by
      change (JsonText.ofString m.name).text?.map _ = _
      rw [JsonText.text?_ofString]
      rfl
    unfold decode
    rw [hchoice]
    cases m <;> rfl

namespace PublicKey

theorem toJsonList_eq_map (ks : List PublicKey) : toJsonList ks = ks.map toJson := by
  induction ks with
  | nil => rfl
  | cons k ks ih => rw [toJsonList, ih, List.map_cons]

theorem restored_point : Restored FixedBytes.toJson SingleKey.decodePoint :=
  FixedBytes.restored 33

/-- The bound on the depth is never reached, since every threshold key takes up levels. -/
theorem decodeWithin_toJson (depth : Nat) : ∀ (k : PublicKey) (levels : Nat), 0 < levels →
    levels ≤ depth →
    decodeWithin depth levels k.toJson = if k.toJson.depth < levels then some k else none := by
  induction depth with
  | zero => omega
  | succ depth ih =>
    intro k levels _ hdepth
    cases k with
    | single k =>
      cases k with
      | secp256k1 b => exact choice_bind_eq fun _ hl _ => restored_point.holding _ hl b
      | ed25519 b => exact choice_bind_eq fun _ hl _ => (FixedBytes.restored 32).holding _ hl b
    | multisig t ks =>
      rw [toJson, toJsonList_eq_map]
      refine choice_bind_eq fun l _ hl => holding_eq (a := (t, ks)) ?_ _
      refine fields_bind_eq ["threshold", "keys"] [.nat t.toNat, .ofList toJson ks] (by decide) rfl
        fun n hpos hn => ?_
      have hkeys : Decoder.list (decodeWithin depth) n (.ofList toJson ks) =
          if (Json.ofList toJson ks).depth < n then some ks else none :=
        Restored.list_eq fun k _ m hm _ => ih k m hm (by omega)
      have ht : Decoder.word32 n (.nat t.toNat) = _ := Restored.word32 t n hpos
      simp [bind_ite_none, ite_and, Decoder.Fields.required, ht, hkeys]

theorem restored : Restored toJson decode := fun k levels hlevels =>
  decodeWithin_toJson levels k levels hlevels (Nat.le_refl _)

theorem toJson_ne_null (k : PublicKey) : k.toJson ≠ .null := by
  cases k with
  | single k => cases k <;> exact nofun
  | multisig t ks => exact nofun

end PublicKey

namespace ModeInfo

theorem toJsonList_eq_map (ms : List ModeInfo) : toJsonList ms = ms.map toJson := by
  induction ms with
  | nil => rfl
  | cons m ms ih => rw [toJsonList, ih, List.map_cons]

/-- As with keys, levels run out before the bound on the depth. -/
theorem decodeWithin_toJson (depth : Nat) : ∀ (m : ModeInfo) (levels : Nat), 0 < levels →
    levels ≤ depth →
    decodeWithin depth levels m.toJson = if m.toJson.depth < levels then some m else none := by
  induction depth with
  | zero => omega
  | succ depth ih =>
    intro m levels _ hdepth
    cases m with
    | single mode =>
      refine choice_bind_eq fun l _ _ => holding_eq (a := mode) ?_ _
      refine fields_bind_eq ["mode"] [mode.toJson] (by decide) rfl fun n hpos _ => ?_
      simp [SignMode.restored.required hpos]
    | multi bits infos =>
      rw [toJson, toJsonList_eq_map]
      refine choice_bind_eq fun l _ hl => holding_eq (a := (bits, infos)) ?_ _
      refine fields_bind_eq ["bitarray", "mode_infos"] [.ofList .bool bits, .ofList toJson infos]
        (by decide) rfl fun n hpos hn => ?_
      have hinfos : Decoder.list (decodeWithin depth) n (.ofList toJson infos) =
          if (Json.ofList toJson infos).depth < n then some infos else none :=
        Restored.list_eq fun m _ l hm _ => ih m l hm (by omega)
      simp [bind_ite_none, ite_and, Decoder.Fields.required, Restored.bool.list bits n hpos, hinfos]

theorem restored : Restored toJson decode := fun m levels hlevels =>
  decodeWithin_toJson levels m levels hlevels (Nat.le_refl _)

end ModeInfo

theorem SignerInfo.restored : Restored toJson decode :=
  .record ["public_key", "mode_info", "sequence"]
    (fun s => [.ofOption PublicKey.toJson s.publicKey, s.modeInfo.toJson, .nat s.sequence.toNat])
    (by decide) (fun _ => rfl) (fun _ => rfl) (fun _ _ => rfl) fun s l hl => by
      simp [bind_ite_none, ite_and, PublicKey.restored.optional PublicKey.toJson_ne_null hl,
        ModeInfo.restored.required hl, Restored.word64.required hl]

theorem AuthInfo.restored : Restored toJson decode :=
  .record ["signer_infos", "fee"] (fun a => [.ofList SignerInfo.toJson a.signerInfos, a.fee.toJson])
    (by decide) (fun _ => rfl) (fun _ => rfl) (fun _ _ => rfl) fun a l hl => by
      simp [bind_ite_none, ite_and, SignerInfo.restored.list.required hl, Fee.restored.required hl]

theorem Transaction.restored : Restored toJson decode :=
  .record ["body", "auth_info", "signatures"]
    (fun tx => [tx.body.toJson, tx.authInfo.toJson, .ofList .ofBytes tx.signatures])
    (by decide) (fun _ => rfl) (fun _ => rfl) (fun _ _ => rfl) fun tx l hl => by
      simp [bind_ite_none, ite_and, TxBody.restored.required hl, AuthInfo.restored.required hl,
        Restored.bytes.list.required hl]

section Plain

mutual
theorem PublicKey.plain_toJson : (k : PublicKey) → Plain k.toJson
  | .single (.secp256k1 b) =>
    plain_record (List.forall_mem_singleton.2 (FixedBytes.faithful_toJson.plain b))
  | .single (.ed25519 b) =>
    plain_record (List.forall_mem_singleton.2 (FixedBytes.faithful_toJson.plain b))
  | .multisig t ks => by
    refine plain_record (List.forall_mem_singleton.2 (plain_record (List.forall_mem_cons.2 ⟨?_, ?_⟩)))
    · exact .number (Nat.lt_trans t.toNat_lt (by decide))
    · exact List.forall_mem_singleton.2 (.list (plain_toJsonList ks))
theorem PublicKey.plain_toJsonList : (ks : List PublicKey) → ∀ j ∈ toJsonList ks, Plain j
  | [] => nofun
  | k :: ks => List.forall_mem_cons.2 ⟨plain_toJson k, plain_toJsonList ks⟩
end

theorem SignMode.plain_toJson (m : SignMode) : Plain m.toJson := Faithful.string.plain m.name

mutual
theorem ModeInfo.plain_toJson : (m : ModeInfo) → Plain m.toJson
  | .single mode =>
    plain_record (List.forall_mem_singleton.2
      (plain_record (List.forall_mem_singleton.2 mode.plain_toJson)))
  | .multi bits infos => by
    refine plain_record (List.forall_mem_singleton.2 (plain_record (List.forall_mem_cons.2 ⟨?_, ?_⟩)))
    · exact .list (List.forall_mem_map.2 fun b _ => .bool b)
    · exact List.forall_mem_singleton.2 (.list (plain_toJsonList infos))
theorem ModeInfo.plain_toJsonList : (ms : List ModeInfo) → ∀ j ∈ toJsonList ms, Plain j
  | [] => nofun
  | m :: ms => List.forall_mem_cons.2 ⟨plain_toJson m, plain_toJsonList ms⟩
end

theorem SignerInfo.plain_toJson (s : SignerInfo) : Plain s.toJson := by
  have hkey : Plain (Json.ofOption PublicKey.toJson s.publicKey) := by
    cases s.publicKey with
    | none => exact .null
    | some k => exact k.plain_toJson
  refine plain_record ?_
  simp only [List.forall_mem_cons]
  exact ⟨hkey, s.modeInfo.plain_toJson, Faithful.word64.plain _, nofun⟩

theorem Fee.plain_toJson (f : Fee) : Plain f.toJson := by
  refine plain_record ?_
  simp only [List.forall_mem_cons]
  exact ⟨Coins.faithful_toJson.plain _, Faithful.word64.plain _, FixedBytes.faithful_option.plain _,
    FixedBytes.faithful_option.plain _, nofun⟩

theorem AuthInfo.plain_toJson (a : AuthInfo) : Plain a.toJson := by
  refine plain_record ?_
  simp only [List.forall_mem_cons]
  exact ⟨.list (List.forall_mem_map.2 fun s _ => s.plain_toJson), a.fee.plain_toJson, nofun⟩

theorem ExtensionOption.plain_toJson (o : ExtensionOption) : Plain o.toJson := by
  refine plain_record ?_
  simp only [List.forall_mem_cons]
  exact ⟨Faithful.string.plain _, Faithful.ofBytes.plain _, nofun⟩

theorem TxBody.plain_toJson (b : TxBody) : Plain b.toJson := by
  have hoptions (os : List ExtensionOption) : Plain (.ofList ExtensionOption.toJson os) :=
    .list (List.forall_mem_map.2 fun o _ => o.plain_toJson)
  refine plain_record ?_
  simp only [List.forall_mem_cons]
  exact ⟨Message.faithful_toJson.ofList.plain _, Faithful.string.plain _, Faithful.word64.plain _,
    hoptions _, hoptions _, nofun⟩

theorem Transaction.plain_toJson (tx : Transaction) : Plain tx.toJson := by
  refine plain_record ?_
  simp only [List.forall_mem_cons]
  exact ⟨tx.body.plain_toJson, tx.authInfo.plain_toJson, Faithful.ofBytes.ofList.plain _, nofun⟩

end Plain

/-- The JSON text of every transaction is read back as the transaction if it nests fewer than 128 levels
deep, and is refused if it nests deeper. -/
theorem Transaction.ofJsonText?_jsonText (tx : Transaction) :
    ofJsonText? tx.jsonText = if tx.toJson.depth < 128 then some tx else none := by
  have hread : Json.read true tx.toJson.print = .ok tx.toJson := Json.read_print tx.plain_toJson
  unfold ofJsonText? Json.decode? jsonText
  rw [hread]
  exact Transaction.restored tx 128 (by decide)

end Tollgate
