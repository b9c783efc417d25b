import Tollgate.Proofs.Json.Faithful
import Tollgate.Transaction.Json
/-! The JSON forms of coins, packets and messages tell them apart, whatever texts and bytes they hold. -/
namespace Tollgate

open Json (Faithful FaithfulFields)

theorem FixedBytes.faithful_toJson {n : Nat} : Faithful (FixedBytes.toJson (n := n)) :=
  Faithful.ofBytes.comp fun _ _ => toList_inj.1

theorem FixedBytes.faithful_option {n : Nat} :
    Faithful (Json.ofOption (FixedBytes.toJson (n := n))) := faithful_toJson.ofOption fun _ => nofun

theorem Text.decimal_injective : Function.Injective decimal := by
  intro m n h
  have hdigits : digits m = digits n := String.ofList_injective h
  have hread := ofDigits?_digits m
  rw [hdigits, ofDigits?_digits] at hread
  exact (Option.some.inj hread).symm

namespace Amount

theorem text_injective : Function.Injective text :=
  fun _ _ h => toNat_inj.1 (Text.decimal_injective h)

end Amount

theorem Coin.faithful_toJson : Faithful toJson :=
  (FaithfulFields.cons .string <| .cons (Faithful.string.comp Amount.text_injective) .nil).record
    ["denom", "amount"]
    (fun c => (c.denom, c.amount, ()))
    (fun (denom, amount, _) => ⟨denom, amount⟩)
    (by decide) (fun _ => rfl) (fun _ => rfl) fun _ => rfl

theorem Coins.faithful_toJson : Faithful toJson :=
  Coin.faithful_toJson.ofList.comp fun s t h => by
    cases s
    cases t
    exact congrArg mk h

theorem Packet.faithful_toJson : Faithful toJson :=
  (FaithfulFields.cons .word64 <| .cons .string <| .cons .string <| .cons .string <|
    .cons .string <| .cons .ofBytes <| .cons .word64 <| .cons .word64 .nil).record
    ["sequence", "source_port", "source_channel", "destination_port", "destination_channel",
      "data", "timeout_height", "timeout_timestamp"]
    (fun p => (p.sequence, p.sourcePort, p.sourceChannel, p.destinationPort, p.destinationChannel,
      p.data, p.timeoutHeight, p.timeoutTimestamp, ()))
    (fun (sequence, sourcePort, sourceChannel, destinationPort, destinationChannel, data,
      timeoutHeight, timeoutTimestamp, _) => ⟨sequence, sourcePort, sourceChannel, destinationPort,
      destinationChannel, data, timeoutHeight, timeoutTimestamp⟩)
    (by decide) (fun _ => rfl) (fun _ => rfl) fun _ => rfl

namespace Message

theorem Send.faithful_toJson : Faithful toJson :=
  (FaithfulFields.cons FixedBytes.faithful_toJson <| .cons FixedBytes.faithful_toJson <|
    .cons Coins.faithful_toJson .nil).record
    ["from_address", "to_address", "amount"]
    (fun m => (m.sender, m.recipient, m.amount, ()))
    (fun (sender, recipient, amount, _) => ⟨sender, recipient, amount⟩)
    (by decide) (fun _ => rfl) (fun _ => rfl) fun _ => rfl

theorem StoreCode.faithful_toJson : Faithful toJson :=
  (FaithfulFields.cons FixedBytes.faithful_toJson <| .cons .ofBytes .nil).record
    ["sender", "wasm_byte_code"]
    (fun m => (m.sender, m.code, ()))
    (fun (sender, code, _) => ⟨sender, code⟩)
    (by decide) (fun _ => rfl) (fun _ => rfl) fun _ => rfl

theorem Instantiate.faithful_toJson : Faithful toJson :=
  (FaithfulFields.cons FixedBytes.faithful_toJson <| .cons FixedBytes.faithful_option <|
    .cons .word64 <| .cons .string <| .cons .ofBytes <| .cons Coins.faithful_toJson .nil).record
    ["sender", "admin", "code_id", "label", "msg", "funds"]
    (fun m => (m.sender, m.administrator, m.codeId, m.label, m.body, m.funds, ()))
    (fun (sender, administrator, codeId, label, body, funds, _) => ⟨sender, administrator, codeId,
      label, body, funds⟩)
    (by decide) (fun _ => rfl) (fun _ => rfl) fun _ => rfl

theorem Execute.faithful_toJson : Faithful toJson :=
  (FaithfulFields.cons FixedBytes.faithful_toJson <| .cons FixedBytes.faithful_toJson <|
    .cons .ofBytes <| .cons Coins.faithful_toJson .nil).record
    ["sender", "contract", "msg", "funds"]
    (fun m => (m.sender, m.contract, m.body, m.funds, ()))
    (fun (sender, contract, body, funds, _) => ⟨sender, contract, body, funds⟩)
    (by decide) (fun _ => rfl) (fun _ => rfl) fun _ => rfl

theorem ReceivePacket.faithful_toJson : Faithful toJson :=
  (FaithfulFields.cons Packet.faithful_toJson <| .cons .ofBytes <| .cons .word64 <|
    .cons FixedBytes.faithful_toJson .nil).record
    ["packet", "proof_commitment", "proof_height", "signer"]
    (fun m => (m.packet, m.commitmentProof, m.proofHeight, m.signer, ()))
    (fun (packet, proof, height, signer, _) => ⟨packet, proof, height, signer⟩)
    (by decide) (fun _ => rfl) (fun _ => rfl) fun _ => rfl

theorem AcknowledgePacket.faithful_toJson : Faithful toJson :=
  (FaithfulFields.cons Packet.faithful_toJson <| .cons .ofBytes <| .cons .ofBytes <|
    .cons .word64 <| .cons FixedBytes.faithful_toJson .nil).record
    ["packet", "acknowledgement", "proof_acked", "proof_height", "signer"]
    (fun m => (m.packet, m.acknowledgement, m.acknowledgedProof, m.proofHeight, m.signer, ()))
    (fun (packet, acknowledgement, proof, height, signer, _) => ⟨packet, acknowledgement, proof,
      height, signer⟩)
    (by decide) (fun _ => rfl) (fun _ => rfl) fun _ => rfl

theorem TimeoutPacket.faithful_toJson : Faithful toJson :=
  (FaithfulFields.cons Packet.faithful_toJson <| .cons .ofBytes <| .cons .word64 <|
    .cons .word64 <| .cons FixedBytes.faithful_toJson .nil).record
    ["packet", "proof_unreceived", "proof_height", "next_sequence_recv", "signer"]
    (fun m => (m.packet, m.unreceivedProof, m.proofHeight, m.nextSequence, m.signer, ()))
    (fun (packet, proof, height, nextSequence, signer, _) => ⟨packet, proof, height, nextSequence,
      signer⟩)
    (by decide) (fun _ => rfl) (fun _ => rfl) fun _ => rfl

theorem TimeoutOnClose.faithful_toJson : Faithful toJson :=
  (FaithfulFields.cons Packet.faithful_toJson <| .cons .ofBytes <| .cons .ofBytes <|
    .cons .word64 <| .cons .word64 <| .cons FixedBytes.faithful_toJson .nil).record
    ["packet", "proof_unreceived", "proof_close", "proof_height", "next_sequence_recv", "signer"]
    (fun m => (m.packet, m.unreceivedProof, m.closeProof, m.proofHeight, m.nextSequence, m.signer,
      ()))
    (fun (packet, unreceived, close, height, nextSequence, signer, _) => ⟨packet, unreceived,
      close, height, nextSequence, signer⟩)
    (by decide) (fun _ => rfl) (fun _ => rfl) fun _ => rfl

theorem UpdateClient.faithful_toJson : Faithful toJson :=
  (FaithfulFields.cons .string <| .cons .ofBytes <| .cons FixedBytes.faithful_toJson .nil).record
    ["client_id", "header", "signer"]
    (fun m => (m.client, m.header, m.signer, ()))
    (fun (client, header, signer, _) => ⟨client, header, signer⟩)
    (by decide) (fun _ => rfl) (fun _ => rfl) fun _ => rfl

theorem faithful_toJson : Faithful toJson where
  plain m := by
    cases m with
    | send m => exact Json.plain_record (by simpa using Send.faithful_toJson.plain m)
    | storeCode m => exact Json.plain_record (by simpa using StoreCode.faithful_toJson.plain m)
    | instantiate m => exact Json.plain_record (by simpa using Instantiate.faithful_toJson.plain m)
    | execute m => exact Json.plain_record (by simpa using Execute.faithful_toJson.plain m)
    | receivePacket m =>
      exact Json.plain_record (by simpa using ReceivePacket.faithful_toJson.plain m)
    | acknowledgePacket m =>
      exact Json.plain_record (by simpa using AcknowledgePacket.faithful_toJson.plain m)
    | timeoutPacket m =>
      exact Json.plain_record (by simpa using TimeoutPacket.faithful_toJson.plain m)
    | timeoutOnClose m =>
      exact Json.plain_record (by simpa using TimeoutOnClose.faithful_toJson.plain m)
    | updateClient m => exact Json.plain_record (by simpa using UpdateClient.faithful_toJson.plain m)
  sorted_inj {m n} h := by
    -- only messages of one kind have one name
    cases m <;> cases n <;>
      simp only [toJson, Json.sorted_choice_inj, String.reduceEq, false_and, true_and] at h
    · rw [Send.faithful_toJson.sorted_inj h]
    · rw [StoreCode.faithful_toJson.sorted_inj h]
    · rw [Instantiate.faithful_toJson.sorted_inj h]
    · rw [Execute.faithful_toJson.sorted_inj h]
    · rw [ReceivePacket.faithful_toJson.sorted_inj h]
    · rw [AcknowledgePacket.faithful_toJson.sorted_inj h]
    · rw [TimeoutPacket.faithful_toJson.sorted_inj h]
    · rw [TimeoutOnClose.faithful_toJson.sorted_inj h]
    · rw [UpdateClient.faithful_toJson.sorted_inj h]

end Message
end Tollgate
