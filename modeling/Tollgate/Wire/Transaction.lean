import Tollgate.Transaction.Basic
import Tollgate.Wire.Format
/-! The binary form of transactions and their parts. -/
namespace Tollgate

open Format (Alternative)

namespace Amount

/-- An amount is written as its decimal text. -/
def format : Format Amount :=
  Format.string.refine
    (fun s => match ofText? s with | some a => .ok a | none => .error .rejected) text

end Amount

namespace Coin

def format : Format Coin :=
  (Format.string.pair Amount.format).convert (fun p => ⟨p.1, p.2⟩) fun c => (c.denom, c.amount)

end Coin

namespace Coins

def format : Format Coins := (Format.list Coin.format).convert mk toList

end Coins

namespace Address

def format : Format Address := Format.fixedBytes 20

end Address

namespace PublicKey

/-- A curve point is written with its length, unlike other keys. -/
def pointFormat : Format (FixedBytes 33) :=
  Format.bytes.refine
    (fun bs => match FixedBytes.ofList? 33 bs with | some b => .ok b | none => .error .rejected)
    FixedBytes.toList

/-- The format of a key, given the format of its members. -/
def nodeFormat (member : Format PublicKey) : Format PublicKey :=
  .alternatives [
    { Content := FixedBytes 33
      format := pointFormat
      make := fun k => .single (.secp256k1 k)
      content? := fun | .single (.secp256k1 k) => some k | _ => none },
    { Content := FixedBytes 32
      format := Format.fixedBytes 32
      make := fun k => .single (.ed25519 k)
      content? := fun | .single (.ed25519 k) => some k | _ => none },
    { Content := UInt32 × List PublicKey
      format := Format.word32.pair (Format.list member)
      make := fun p => .multisig p.1 p.2
      content? := fun | .multisig t ks => some (t, ks) | _ => none }]

/-- The format of keys that nest threshold keys less than `depth` deep. -/
def formatWithin : Nat → Format PublicKey
  | 0 => ⟨fun _ => [], fun _ => .error .endOfInput⟩
  | depth+1 =>
    ⟨fun k => (nodeFormat (formatWithin depth)).write k,
     fun bs => (nodeFormat (formatWithin depth)).read bs⟩

mutual
/-- How deep threshold keys are nested. -/
def depth : PublicKey → Nat
  | .single _ => 0
  | .multisig _ ks => 1 + depthOf ks
def depthOf : List PublicKey → Nat
  | [] => 0
  | k :: ks => max (depth k) (depthOf ks)
end

/-- Every level takes up bytes, so their number bounds the depth of what can be read. -/
def format : Format PublicKey :=
  ⟨fun k => (formatWithin (k.depth + 1)).write k, fun bs => (formatWithin (bs.length + 1)).read bs⟩

end PublicKey

namespace Packet

def format : Format Packet :=
  (Format.word64.pair <| Format.string.pair <| Format.string.pair <| Format.string.pair <|
    Format.string.pair <| Format.bytes.pair <| Format.word64.pair Format.word64).convert
    (fun (sequence, sourcePort, sourceChannel, destinationPort, destinationChannel, data,
        timeoutHeight, timeoutTimestamp) =>
      ⟨sequence, sourcePort, sourceChannel, destinationPort, destinationChannel, data,
        timeoutHeight, timeoutTimestamp⟩)
    fun p => (p.sequence, p.sourcePort, p.sourceChannel, p.destinationPort, p.destinationChannel,
      p.data, p.timeoutHeight, p.timeoutTimestamp)

end Packet

namespace Message

def Send.format : Format Send :=
  (Address.format.pair <| Address.format.pair Coins.format).convert
    (fun (sender, recipient, amount) => ⟨sender, recipient, amount⟩)
    fun m => (m.sender, m.recipient, m.amount)

def StoreCode.format : Format StoreCode :=
  (Address.format.pair Format.bytes).convert (fun (sender, code) => ⟨sender, code⟩)
    fun m => (m.sender, m.code)

def Instantiate.format : Format Instantiate :=
  (Address.format.pair <| Address.format.option.pair <| Format.word64.pair <| Format.string.pair <|
    Format.bytes.pair Coins.format).convert
    (fun (sender, administrator, codeId, label, body, funds) =>
      ⟨sender, administrator, codeId, label, body, funds⟩)
    fun m => (m.sender, m.administrator, m.codeId, m.label, m.body, m.funds)

def Execute.format : Format Execute :=
  (Address.format.pair <| Address.format.pair <| Format.bytes.pair Coins.format).convert
    (fun (sender, contract, body, funds) => ⟨sender, contract, body, funds⟩)
    fun m => (m.sender, m.contract, m.body, m.funds)

def ReceivePacket.format : Format ReceivePacket :=
  (Packet.format.pair <| Format.bytes.pair <| Format.word64.pair Address.format).convert
    (fun (packet, proof, height, signer) => ⟨packet, proof, height, signer⟩)
    fun m => (m.packet, m.commitmentProof, m.proofHeight, m.signer)

def AcknowledgePacket.format : Format AcknowledgePacket :=
  (Packet.format.pair <| Format.bytes.pair <| Format.bytes.pair <|
    Format.word64.pair Address.format).convert
    (fun (packet, acknowledgement, proof, height, signer) =>
      ⟨packet, acknowledgement, proof, height, signer⟩)
    fun m => (m.packet, m.acknowledgement, m.acknowledgedProof, m.proofHeight, m.signer)

def TimeoutPacket.format : Format TimeoutPacket :=
  (Packet.format.pair <| Format.bytes.pair <| Format.word64.pair <|
    Format.word64.pair Address.format).convert
    (fun (packet, proof, height, nextSequence, signer) =>
      ⟨packet, proof, height, nextSequence, signer⟩)
    fun m => (m.packet, m.unreceivedProof, m.proofHeight, m.nextSequence, m.signer)

def TimeoutOnClose.format : Format TimeoutOnClose :=
  (Packet.format.pair <| Format.bytes.pair <| Format.bytes.pair <| Format.word64.pair <|
    Format.word64.pair Address.format).convert
    (fun (packet, unreceived, close, height, nextSequence, signer) =>
      ⟨packet, unreceived, close, height, nextSequence, signer⟩)
    fun m => (m.packet, m.unreceivedProof, m.closeProof, m.proofHeight, m.nextSequence, m.signer)

def UpdateClient.format : Format UpdateClient :=
  (Format.string.pair <| Format.bytes.pair Address.format).convert
    (fun (client, header, signer) => ⟨client, header, signer⟩)
    fun m => (m.client, m.header, m.signer)

def format : Format Message :=
  .alternatives [
    ⟨Send, Send.format, .send, fun | .send m => some m | _ => none⟩,
    ⟨StoreCode, StoreCode.format, .storeCode, fun | .storeCode m => some m | _ => none⟩,
    ⟨Instantiate, Instantiate.format, .instantiate, fun | .instantiate m => some m | _ => none⟩,
    ⟨Execute, Execute.format, .execute, fun | .execute m => some m | _ => none⟩,
    ⟨ReceivePacket, ReceivePacket.format, .receivePacket,
      fun | .receivePacket m => some m | _ => none⟩,
    ⟨AcknowledgePacket, AcknowledgePacket.format, .acknowledgePacket,
      fun | .acknowledgePacket m => some m | _ => none⟩,
    ⟨TimeoutPacket, TimeoutPacket.format, .timeoutPacket,
      fun | .timeoutPacket m => some m | _ => none⟩,
    ⟨TimeoutOnClose, TimeoutOnClose.format, .timeoutOnClose,
      fun | .timeoutOnClose m => some m | _ => none⟩,
    ⟨UpdateClient, UpdateClient.format, .updateClient, fun | .updateClient m => some m | _ => none⟩]

end Message

namespace ExtensionOption

def format : Format ExtensionOption :=
  (Format.string.pair Format.bytes).convert (fun (typeUrl, value) => ⟨typeUrl, value⟩)
    fun o => (o.typeUrl, o.value)

end ExtensionOption

namespace TxBody

def format : Format TxBody :=
  ((Format.list Message.format).pair <| Format.string.pair <| Format.word64.pair <|
    (Format.list ExtensionOption.format).pair (Format.list ExtensionOption.format)).convert
    (fun (messages, memo, timeoutHeight, critical, nonCritical) =>
      ⟨messages, memo, timeoutHeight, critical, nonCritical⟩)
    fun b => (b.messages, b.memo, b.timeoutHeight, b.extensionOptions, b.nonCriticalOptions)

end TxBody

namespace Fee

def format : Format Fee :=
  (Coins.format.pair <| Format.word64.pair <|
    Address.format.option.pair Address.format.option).convert
    (fun (amount, gasLimit, payer, granter) => ⟨amount, gasLimit, payer, granter⟩)
    fun f => (f.amount, f.gasLimit, f.payer, f.granter)

end Fee

namespace SignMode

def format : Format SignMode := .alternatives [.unit .direct, .unit .aminoJson]

end SignMode

namespace ModeInfo

/-- The format of mode information, given the format of what it nests. -/
def nodeFormat (member : Format ModeInfo) : Format ModeInfo :=
  .alternatives [
    { Content := SignMode
      format := SignMode.format
      make := .single
      content? := fun | .single m => some m | _ => none },
    { Content := List Bool × List ModeInfo
      format := (Format.list Format.bool).pair (Format.list member)
      make := fun p => .multi p.1 p.2
      content? := fun | .multi bits infos => some (bits, infos) | _ => none }]

/-- The format of mode information nested less than `depth` deep. -/
def formatWithin : Nat → Format ModeInfo
  | 0 => ⟨fun _ => [], fun _ => .error .endOfInput⟩
  | depth+1 =>
    ⟨fun m => (nodeFormat (formatWithin depth)).write m,
     fun bs => (nodeFormat (formatWithin depth)).read bs⟩

mutual
/-- How deep it is nested. -/
def depth : ModeInfo → Nat
  | .single _ => 0
  | .multi _ infos => 1 + depthOf infos
def depthOf : List ModeInfo → Nat
  | [] => 0
  | m :: ms => max (depth m) (depthOf ms)
end

/-- Every level takes up bytes, so their number bounds the depth of what can be read. -/
def format : Format ModeInfo :=
  ⟨fun m => (formatWithin (m.depth + 1)).write m, fun bs => (formatWithin (bs.length + 1)).read bs⟩

end ModeInfo

namespace SignerInfo

def format : Format SignerInfo :=
  (PublicKey.format.option.pair <| ModeInfo.format.pair Format.word64).convert
    (fun (publicKey, modeInfo, sequence) => ⟨publicKey, modeInfo, sequence⟩)
    fun s => (s.publicKey, s.modeInfo, s.sequence)

end SignerInfo

namespace AuthInfo

def format : Format AuthInfo :=
  ((Format.list SignerInfo.format).pair Fee.format).convert (fun (infos, fee) => ⟨infos, fee⟩)
    fun a => (a.signerInfos, a.fee)

end AuthInfo

namespace Transaction

def format : Format Transaction :=
  (TxBody.format.pair <| AuthInfo.format.pair (Format.list Format.bytes)).convert
    (fun (body, authInfo, signatures) => ⟨body, authInfo, signatures⟩)
    fun tx => (tx.body, tx.authInfo, tx.signatures)

def encode (tx : Transaction) : Bytes := format.write tx

/-- Reads a transaction from the front of the bytes; what follows is ignored. -/
def decode? (bs : Bytes) : Except WireError Transaction := format.decode bs

/-- The digest of the binary form. -/
def hash (tx : Transaction) : FixedBytes 32 := Sha256.hash tx.encode

end Transaction
end Tollgate
