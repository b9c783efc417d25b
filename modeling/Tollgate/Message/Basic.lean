import Tollgate.Address
import Tollgate.Coin.Basic
/-! The messages a transaction carries: transfers, contract messages and the relay of cross-chain
packets. -/
namespace Tollgate

/-- One end of a packet within a channel. -/
structure PacketId where
  portId : String
  channelId : String
  sequence : UInt64
  deriving DecidableEq

structure Packet where
  sequence : UInt64
  sourcePort : String
  sourceChannel : String
  destinationPort : String
  destinationChannel : String
  data : Bytes
  timeoutHeight : UInt64
  timeoutTimestamp : UInt64
  deriving DecidableEq

namespace Packet

/-- The packet as the receiving chain knows it. -/
def destination (p : Packet) : PacketId := ⟨p.destinationPort, p.destinationChannel, p.sequence⟩

/-- The packet as the sending chain knows it. -/
def source (p : Packet) : PacketId := ⟨p.sourcePort, p.sourceChannel, p.sequence⟩

end Packet

/-- What a relay message does with its packet. -/
inductive RelayAction where
  | receive
  | acknowledge
  | timeout
  deriving DecidableEq, Repr

namespace Message

structure Send where
  sender : Address
  recipient : Address
  amount : Coins
  deriving DecidableEq

structure StoreCode where
  sender : Address
  code : Bytes
  deriving DecidableEq

structure Instantiate where
  sender : Address
  administrator : Option Address
  codeId : UInt64
  label : String
  /-- A JSON document for the contract. -/
  body : Bytes
  funds : Coins
  deriving DecidableEq

structure Execute where
  sender : Address
  contract : Address
  /-- A JSON document for the contract. -/
  body : Bytes
  funds : Coins
  deriving DecidableEq

structure ReceivePacket where
  packet : Packet
  commitmentProof : Bytes
  proofHeight : UInt64
  signer : Address
  deriving DecidableEq

structure AcknowledgePacket where
  packet : Packet
  acknowledgement : Bytes
  acknowledgedProof : Bytes
  proofHeight : UInt64
  signer : Address
  deriving DecidableEq

structure TimeoutPacket where
  packet : Packet
  unreceivedProof : Bytes
  proofHeight : UInt64
  nextSequence : UInt64
  signer : Address
  deriving DecidableEq

structure TimeoutOnClose where
  packet : Packet
  unreceivedProof : Bytes
  closeProof : Bytes
  proofHeight : UInt64
  nextSequence : UInt64
  signer : Address
  deriving DecidableEq

structure UpdateClient where
  client : String
  header : Bytes
  signer : Address
  deriving DecidableEq

end Message

inductive Message where
  | send (m : Message.Send)
  | storeCode (m : Message.StoreCode)
  | instantiate (m : Message.Instantiate)
  | execute (m : Message.Execute)
  | receivePacket (m : Message.ReceivePacket)
  | acknowledgePacket (m : Message.AcknowledgePacket)
  | timeoutPacket (m : Message.TimeoutPacket)
  | timeoutOnClose (m : Message.TimeoutOnClose)
  | updateClient (m : Message.UpdateClient)
  deriving DecidableEq

namespace Message

/-- The full name of the message type. -/
def typeUrl : Message → String
  | .send _ => "/bank.v1.MsgSend"
  | .storeCode _ => "/wasm.v1.MsgStoreCode"
  | .instantiate _ => "/wasm.v1.MsgInstantiateContract"
  | .execute _ => "/wasm.v1.MsgExecuteContract"
  | .receivePacket _ => "/relay.channel.v1.MsgRecvPacket"
  | .acknowledgePacket _ => "/relay.channel.v1.MsgAcknowledgement"
  | .timeoutPacket _ => "/relay.channel.v1.MsgTimeout"
  | .timeoutOnClose _ => "/relay.channel.v1.MsgTimeoutOnClose"
  | .updateClient _ => "/relay.client.v1.MsgUpdateClient"

/-- The address that must sign the message. -/
def signer : Message → Address
  | .send m => m.sender
  | .storeCode m => m.sender
  | .instantiate m => m.sender
  | .execute m => m.sender
  | .receivePacket m => m.signer
  | .acknowledgePacket m => m.signer
  | .timeoutPacket m => m.signer
  | .timeoutOnClose m => m.signer
  | .updateClient m => m.signer

/-- The action on a packet that the message delivers, and the packet on the chain it is delivered
to: its destination when it is received, its source when it is acknowledged or timed out. -/
def relay? : Message → Option (RelayAction × PacketId)
  | .receivePacket m => some (.receive, m.packet.destination)
  | .acknowledgePacket m => some (.acknowledge, m.packet.source)
  | .timeoutPacket m => some (.timeout, m.packet.source)
  | .timeoutOnClose m => some (.timeout, m.packet.source)
  | _ => none

/-- Packet messages and light-client updates. -/
def isRelay (m : Message) : Bool :=
  match m with
  | .updateClient _ => true
  | _ => m.relay?.isSome

end Message
end Tollgate
