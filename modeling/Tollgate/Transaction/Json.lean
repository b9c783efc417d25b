import Tollgate.Coin.Json
import Tollgate.Transaction.Basic
/-! Transactions and their parts as JSON. -/
namespace Tollgate

open Json (Decoder)

namespace FixedBytes

def toJson {n : Nat} (b : FixedBytes n) : Json := .ofBytes b.toList

end FixedBytes

namespace SingleKey

def toJson : SingleKey → Json
  | .secp256k1 k => .record [("Secp256k1", k.toJson)]
  | .ed25519 k => .record [("Ed25519", k.toJson)]

/-- The bytes of a curve point may also come as the bytes of a string. -/
def decodePoint : Decoder (FixedBytes 33)
  | _, .text t => FixedBytes.ofList? 33 t.bytes
  | levels, j => Decoder.fixedBytes 33 levels j

end SingleKey

namespace PublicKey

mutual
def toJson : PublicKey → Json
  | .single k => k.toJson
  | .multisig t ks =>
    .record [("Multisig", .record [("threshold", .nat t.toNat), ("keys", .list (toJsonList ks))])]
def toJsonList : List PublicKey → List Json
  | [] => []
  | k :: ks => toJson k :: toJsonList ks
end

/-- Reads a key that nests threshold keys at most `depth` deep. -/
def decodeWithin : Nat → Decoder PublicKey
  | 0, _, _ => none
  | depth+1, levels, j => do
    let c ← Decoder.choice levels j
    match c.name with
    | "Secp256k1" => c.holding SingleKey.decodePoint fun k => .single (.secp256k1 k)
    | "Ed25519" => c.holding (Decoder.fixedBytes 32) fun k => .single (.ed25519 k)
    | "Multisig" => c.holding (fun levels j => do
        let fs ← Decoder.fields ["threshold", "keys"] levels j
        let [threshold, keys] := fs.values | none
        return (← fs.required Decoder.word32 threshold,
          ← fs.required (Decoder.list (decodeWithin depth)) keys)) fun p => .multisig p.1 p.2
    | _ => none

/-- Every threshold key takes up levels, so the levels left bound the depth. -/
def decode : Decoder PublicKey := fun levels => decodeWithin levels levels

end PublicKey

namespace Packet

def toJson (p : Packet) : Json := .record
  [("sequence", .nat p.sequence.toNat), ("source_port", .string p.sourcePort),
   ("source_channel", .string p.sourceChannel), ("destination_port", .string p.destinationPort),
   ("destination_channel", .string p.destinationChannel), ("data", .ofBytes p.data),
   ("timeout_height", .nat p.timeoutHeight.toNat),
   ("timeout_timestamp", .nat p.timeoutTimestamp.toNat)]

def decode : Decoder Packet := fun levels j => do
  let fs ← Decoder.fields ["sequence", "source_port", "source_channel", "destination_port",
    "destination_channel", "data", "timeout_height", "timeout_timestamp"] levels j
  let [sequence, sourcePort, sourceChannel, destinationPort, destinationChannel, data,
    timeoutHeight, timeoutTimestamp] := fs.values | none
  return ⟨← fs.required Decoder.word64 sequence, ← fs.required Decoder.string sourcePort,
    ← fs.required Decoder.string sourceChannel, ← fs.required Decoder.string destinationPort,
    ← fs.required Decoder.string destinationChannel, ← fs.required Decoder.bytes data,
    ← fs.required Decoder.word64 timeoutHeight, ← fs.required Decoder.word64 timeoutTimestamp⟩

end Packet

namespace PacketId

def toJson (p : PacketId) : Json := .record
  [("port_id", .string p.portId), ("channel_id", .string p.channelId),
   ("sequence", .nat p.sequence.toNat)]

def decode : Decoder PacketId := fun levels j => do
  let fs ← Decoder.fields ["port_id", "channel_id", "sequence"] levels j
  let [portId, channelId, sequence] := fs.values | none
  return ⟨← fs.required Decoder.string portId, ← fs.required Decoder.string channelId,
    ← fs.required Decoder.word64 sequence⟩

end PacketId

namespace RelayAction

def toJson : RelayAction → Json
  | .receive => .string "Receive"
  | .acknowledge => .string "Acknowledge"
  | .timeout => .string "Timeout"

def decode : Decoder RelayAction := fun levels j => do
  let c ← Decoder.choice levels j
  match c.name with
  | "Receive" => c.unit .receive
  | "Acknowledge" => c.unit .acknowledge
  | "Timeout" => c.unit .timeout
  | _ => none

end RelayAction

namespace Message

def decodeAddress : Decoder Address := Decoder.fixedBytes 20

namespace Send

def toJson (m : Send) : Json := .record
  [("from_address", m.sender.toJson), ("to_address", m.recipient.toJson),
   ("amount", m.amount.toJson)]

def decode : Decoder Send := fun levels j => do
  let fs ← Decoder.fields ["from_address", "to_address", "amount"] levels j
  let [sender, recipient, amount] := fs.values | none
  return ⟨← fs.required decodeAddress sender, ← fs.required decodeAddress recipient,
    ← fs.required Coins.decode amount⟩

end Send

namespace StoreCode

def toJson (m : StoreCode) : Json := .record
  [("sender", m.sender.toJson), ("wasm_byte_code", .ofBytes m.code)]

def decode : Decoder StoreCode := fun levels j => do
  let fs ← Decoder.fields ["sender", "wasm_byte_code"] levels j
  let [sender, code] := fs.values | none
  return ⟨← fs.required decodeAddress sender, ← fs.required Decoder.bytes code⟩

end StoreCode

namespace Instantiate

def toJson (m : Instantiate) : Json := .record
  [("sender", m.sender.toJson), ("admin", .ofOption FixedBytes.toJson m.administrator),
   ("code_id", .nat m.codeId.toNat), ("label", .string m.label), ("msg", .ofBytes m.body),
   ("funds", m.funds.toJson)]

def decode : Decoder Instantiate := fun levels j => do
  let fs ← Decoder.fields ["sender", "admin", "code_id", "label", "msg", "funds"] levels j
  let [sender, administrator, codeId, label, body, funds] := fs.values | none
  return ⟨← fs.required decodeAddress sender, ← fs.optional decodeAddress administrator,
    ← fs.required Decoder.word64 codeId, ← fs.required Decoder.string label,
    ← fs.required Decoder.bytes body, ← fs.required Coins.decode funds⟩

end Instantiate

namespace Execute

def toJson (m : Execute) : Json := .record
  [("sender", m.sender.toJson), ("contract", m.contract.toJson), ("msg", .ofBytes m.body),
   ("funds", m.funds.toJson)]

def decode : Decoder Execute := fun levels j => do
  let fs ← Decoder.fields ["sender", "contract", "msg", "funds"] levels j
  let [sender, contract, body, funds] := fs.values | none
  return ⟨← fs.required decodeAddress sender, ← fs.required decodeAddress contract,
    ← fs.required Decoder.bytes body, ← fs.required Coins.decode funds⟩

end Execute

namespace ReceivePacket

def toJson (m : ReceivePacket) : Json := .record
  [("packet", m.packet.toJson), ("proof_commitment", .ofBytes m.commitmentProof),
   ("proof_height", .nat m.proofHeight.toNat), ("signer", m.signer.toJson)]

def decode : Decoder ReceivePacket := fun levels j => do
  let fs ← Decoder.fields ["packet", "proof_commitment", "proof_height", "signer"] levels j
  let [packet, proof, height, signer] := fs.values | none
  return ⟨← fs.required Packet.decode packet, ← fs.required Decoder.bytes proof,
    ← fs.required Decoder.word64 height, ← fs.required decodeAddress signer⟩

end ReceivePacket

namespace AcknowledgePacket

def toJson (m : AcknowledgePacket) : Json := .record
  [("packet", m.packet.toJson), ("acknowledgement", .ofBytes m.acknowledgement),
   ("proof_acked", .ofBytes m.acknowledgedProof), ("proof_height", .nat m.proofHeight.toNat),
   ("signer", m.signer.toJson)]

def decode : Decoder AcknowledgePacket := fun levels j => do
  let fs ← Decoder.fields
    ["packet", "acknowledgement", "proof_acked", "proof_height", "signer"] levels j
  let [packet, acknowledgement, proof, height, signer] := fs.values | none
  return ⟨← fs.required Packet.decode packet, ← fs.required Decoder.bytes acknowledgement,
    ← fs.required Decoder.bytes proof, ← fs.required Decoder.word64 height,
    ← fs.required decodeAddress signer⟩

end AcknowledgePacket

namespace TimeoutPacket

def toJson (m : TimeoutPacket) : Json := .record
  [("packet", m.packet.toJson), ("proof_unreceived", .ofBytes m.unreceivedProof),
   ("proof_height", .nat m.proofHeight.toNat), ("next_sequence_recv", .nat m.nextSequence.toNat),
   ("signer", m.signer.toJson)]

def decode : Decoder TimeoutPacket := fun levels j => do
  let fs ← Decoder.fields
    ["packet", "proof_unreceived", "proof_height", "next_sequence_recv", "signer"] levels j
  let [packet, proof, height, nextSequence, signer] := fs.values | none
  return ⟨← fs.required Packet.decode packet, ← fs.required Decoder.bytes proof,
    ← fs.required Decoder.word64 height, ← fs.required Decoder.word64 nextSequence,
    ← fs.required decodeAddress signer⟩

end TimeoutPacket

namespace TimeoutOnClose

def toJson (m : TimeoutOnClose) : Json := .record
  [("packet", m.packet.toJson), ("proof_unreceived", .ofBytes m.unreceivedProof),
   ("proof_close", .ofBytes m.closeProof), ("proof_height", .nat m.proofHeight.toNat),
   ("next_sequence_recv", .nat m.nextSequence.toNat), ("signer", m.signer.toJson)]

def decode : Decoder TimeoutOnClose := fun levels j => do
  let fs ← Decoder.fields ["packet", "proof_unreceived", "proof_close", "proof_height",
    "next_sequence_recv", "signer"] levels j
  let [packet, unreceived, close, height, nextSequence, signer] := fs.values | none
  return ⟨← fs.required Packet.decode packet, ← fs.required Decoder.bytes unreceived,
    ← fs.required Decoder.bytes close, ← fs.required Decoder.word64 height,
    ← fs.required Decoder.word64 nextSequence, ← fs.required decodeAddress signer⟩

end TimeoutOnClose

namespace UpdateClient

def toJson (m : UpdateClient) : Json := .record
  [("client_id", .string m.client), ("header", .ofBytes m.header), ("signer", m.signer.toJson)]

def decode : Decoder UpdateClient := fun levels j => do
  let fs ← Decoder.fields ["client_id", "header", "signer"] levels j
  let [client, header, signer] := fs.values | none
  return ⟨← fs.required Decoder.string client, ← fs.required Decoder.bytes header,
    ← fs.required decodeAddress signer⟩

end UpdateClient

def toJson : Message → Json
  | .send m => .record [("Send", m.toJson)]
  | .storeCode m => .record [("StoreCode", m.toJson)]
  | .instantiate m => .record [("InstantiateContract", m.toJson)]
  | .execute m => .record [("ExecuteContract", m.toJson)]
  | .receivePacket m => .record [("RecvPacket", m.toJson)]
  | .acknowledgePacket m => .record [("Acknowledgement", m.toJson)]
  | .timeoutPacket m => .record [("Timeout", m.toJson)]
  | .timeoutOnClose m => .record [("TimeoutOnClose", m.toJson)]
  | .updateClient m => .record [("UpdateClient", m.toJson)]

def decode : Decoder Message := fun levels j => do
  let c ← Decoder.choice levels j
  match c.name with
  | "Send" => c.holding Send.decode .send
  | "StoreCode" => c.holding StoreCode.decode .storeCode
  | "InstantiateContract" => c.holding Instantiate.decode .instantiate
  | "ExecuteContract" => c.holding Execute.decode .execute
  | "RecvPacket" => c.holding ReceivePacket.decode .receivePacket
  | "Acknowledgement" => c.holding AcknowledgePacket.decode .acknowledgePacket
  | "Timeout" => c.holding TimeoutPacket.decode .timeoutPacket
  | "TimeoutOnClose" => c.holding TimeoutOnClose.decode .timeoutOnClose
  | "UpdateClient" => c.holding UpdateClient.decode .updateClient
  | _ => none

end Message

namespace ExtensionOption

def toJson (o : ExtensionOption) : Json := .record
  [("type_url", .string o.typeUrl), ("value", .ofBytes o.value)]

def decode : Decoder ExtensionOption := fun levels j => do
  let fs ← Decoder.fields ["type_url", "value"] levels j
  let [typeUrl, value] := fs.values | none
  return ⟨← fs.required Decoder.string typeUrl, ← fs.required Decoder.bytes value⟩

end ExtensionOption

namespace TxBody

def toJson (b : TxBody) : Json := .record
  [("messages", .ofList Message.toJson b.messages), ("memo", .string b.memo),
   ("timeout_height", .nat b.timeoutHeight.toNat),
   ("extension_options", .ofList ExtensionOption.toJson b.extensionOptions),
   ("non_critical_extension_options", .ofList ExtensionOption.toJson b.nonCriticalOptions)]

def decode : Decoder TxBody := fun levels j => do
  let fs ← Decoder.fields ["messages", "memo", "timeout_height", "extension_options",
    "non_critical_extension_options"] levels j
  let [messages, memo, timeoutHeight, critical, nonCritical] := fs.values | none
  return ⟨← fs.required (Decoder.list Message.decode) messages, ← fs.required Decoder.string memo,
    ← fs.required Decoder.word64 timeoutHeight,
    ← fs.required (Decoder.list ExtensionOption.decode) critical,
    ← fs.required (Decoder.list ExtensionOption.decode) nonCritical⟩

end TxBody

namespace Fee

def toJson (f : Fee) : Json := .record
  [("amount", f.amount.toJson), ("gas_limit", .nat f.gasLimit.toNat),
   ("payer", .ofOption FixedBytes.toJson f.payer),
   ("granter", .ofOption FixedBytes.toJson f.granter)]

def decode : Decoder Fee := fun levels j => do
  let fs ← Decoder.fields ["amount", "gas_limit", "payer", "granter"] levels j
  let [amount, gasLimit, payer, granter] := fs.values | none
  return ⟨← fs.required Coins.decode amount, ← fs.required Decoder.word64 gasLimit,
    ← fs.optional Message.decodeAddress payer, ← fs.optional Message.decodeAddress granter⟩

end Fee

namespace SignMode

def name : SignMode → String
  | .direct => "Direct"
  | .aminoJson => "LegacyAminoJson"

def toJson (m : SignMode) : Json := .string m.name

def decode : Decoder SignMode := fun levels j => do
  let c ← Decoder.choice levels j
  match c.name with
  | "Direct" => c.unit .direct
  | "LegacyAminoJson" => c.unit .aminoJson
  | _ => none

end SignMode

namespace ModeInfo

mutual
def toJson : ModeInfo → Json
  | .single m => .record [("Single", .record [("mode", m.toJson)])]
  | .multi bits infos =>
    .record [("Multi", .record
      [("bitarray", .ofList .bool bits), ("mode_infos", .list (toJsonList infos))])]
def toJsonList : List ModeInfo → List Json
  | [] => []
  | m :: ms => toJson m :: toJsonList ms
end

/-- Reads mode information that nests at most `depth` deep. -/
def decodeWithin : Nat → Decoder ModeInfo
  | 0, _, _ => none
  | depth+1, levels, j => do
    let c ← Decoder.choice levels j
    match c.name with
    | "Single" => c.holding (fun levels j => do
        let fs ← Decoder.fields ["mode"] levels j
        let [mode] := fs.values | none
        fs.required SignMode.decode mode) .single
    | "Multi" => c.holding (fun levels j => do
        let fs ← Decoder.fields ["bitarray", "mode_infos"] levels j
        let [bits, infos] := fs.values | none
        return (← fs.required (Decoder.list Decoder.bool) bits,
          ← fs.required (Decoder.list (decodeWithin depth)) infos)) fun p => .multi p.1 p.2
    | _ => none

/-- Every alternative takes up levels, so the levels left bound the depth. -/
def decode : Decoder ModeInfo := fun levels => decodeWithin levels levels

end ModeInfo

namespace SignerInfo

def toJson (s : SignerInfo) : Json := .record
  [("public_key", .ofOption PublicKey.toJson s.publicKey), ("mode_info", s.modeInfo.toJson),
   ("sequence", .nat s.sequence.toNat)]

def decode : Decoder SignerInfo := fun levels j => do
  let fs ← Decoder.fields ["public_key", "mode_info", "sequence"] levels j
  let [key, info, sequence] := fs.values | none
  return ⟨← fs.optional PublicKey.decode key, ← fs.required ModeInfo.decode info,
    ← fs.required Decoder.word64 sequence⟩

end SignerInfo

namespace AuthInfo

def toJson (a : AuthInfo) : Json := .record
  [("signer_infos", .ofList SignerInfo.toJson a.signerInfos), ("fee", a.fee.toJson)]

def decode : Decoder AuthInfo := fun levels j => do
  let fs ← Decoder.fields ["signer_infos", "fee"] levels j
  let [infos, fee] := fs.values | none
  return ⟨← fs.required (Decoder.list SignerInfo.decode) infos, ← fs.required Fee.decode fee⟩

end AuthInfo

namespace Transaction

def toJson (tx : Transaction) : Json := .record
  [("body", tx.body.toJson), ("auth_info", tx.authInfo.toJson),
   ("signatures", .ofList .ofBytes tx.signatures)]

def decode : Decoder Transaction := fun levels j => do
  let fs ← Decoder.fields ["body", "auth_info", "signatures"] levels j
  let [body, authInfo, signatures] := fs.values | none
  return ⟨← fs.required TxBody.decode body, ← fs.required AuthInfo.decode authInfo,
    ← fs.required (Decoder.list Decoder.bytes) signatures⟩

/-- The JSON text of a transaction. -/
def jsonText (tx : Transaction) : Bytes := tx.toJson.print

/-- Reads the JSON text of a transaction. -/
def ofJsonText? (bs : Bytes) : Option Transaction := Json.decode? decode bs

end Transaction
end Tollgate
