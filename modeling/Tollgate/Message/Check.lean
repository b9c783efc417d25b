import Tollgate.Json.Reader
import Tollgate.Message.Basic
import Tollgate.Text.Space
/-! The rules a message must meet by itself, without looking at any account. -/
namespace Tollgate

inductive MessageError where
  | zeroAddress (field : String)
  | invalidCoins (field : String) (cause : CoinError)
  | empty (field : String)
  | tooLarge (field : String) (size max : Nat)
  | zero (field : String)
  | invalidIdentifier (field value : String)
  | invalidJson (field : String) (fault : Json.Fault)
  | missingPacketTimeout
  deriving DecidableEq, Repr

def MessageError.message : MessageError → String
  | .zeroAddress f => s!"Invalid {f} address"
  | .invalidCoins f e => s!"Invalid {f}: {e.message}"
  | .empty f => s!"Empty {f}"
  | .tooLarge f size max => s!"{f} too large: {size} > {max}"
  | .zero f => s!"{f} must be non-zero"
  | .invalidIdentifier f v => s!"Invalid {f} identifier: {v}"
  | .invalidJson f e => s!"Invalid JSON in {f}: {e.message}"
  | .missingPacketTimeout => "Packet timeout height and timestamp cannot both be zero"

namespace Check

/-- 800 KiB. -/
def maxCodeSize : Nat := 800 * 1024

def maxLabelSize : Nat := 128

def require (condition : Bool) (otherwise : MessageError) : Except MessageError Unit :=
  if condition then .ok () else .error otherwise

def address (field : String) (a : Address) : Except MessageError Unit :=
  require (a ≠ .zero) (.zeroAddress field)

def nonEmpty (field : String) (bs : Bytes) : Except MessageError Unit :=
  require (!bs.isEmpty) (.empty field)

def nonZero (field : String) (n : UInt64) : Except MessageError Unit :=
  require (n ≠ 0) (.zero field)

def coins (field : String) (s : Coins) : Except MessageError Unit :=
  s.check.mapError (.invalidCoins field)

def json (field : String) (bs : Bytes) : Except MessageError Unit := do
  nonEmpty field bs
  (Json.checkSyntax bs).mapError (.invalidJson field)

def isIdentifierChar (c : Char) : Bool :=
  c.isAlphanum || c ∈ ['.', '_', '+', '-', '#', '[', ']', '<', '>']

/-- Endpoints, channels and clients are named by 2 to 64 letters, digits and `. _ + - # [ ] < >`. -/
def identifier (field value : String) : Except MessageError Unit :=
  let size := value.utf8ByteSize
  require (2 ≤ size && size ≤ 64 && value.toList.all isIdentifierChar)
    (.invalidIdentifier field value)

end Check

open Check

def Packet.check (p : Packet) : Except MessageError Unit := do
  identifier "source port" p.sourcePort
  identifier "source channel" p.sourceChannel
  identifier "destination port" p.destinationPort
  identifier "destination channel" p.destinationChannel
  nonZero "packet sequence" p.sequence
  require (p.timeoutHeight ≠ 0 || p.timeoutTimestamp ≠ 0) .missingPacketTimeout
  nonEmpty "packet data" p.data

namespace Message

def Send.check (m : Send) : Except MessageError Unit := do
  address "from" m.sender
  address "to" m.recipient
  coins "amount" m.amount
  require (!m.amount.isEmpty) (.empty "amount")

def StoreCode.check (m : StoreCode) : Except MessageError Unit := do
  address "sender" m.sender
  nonEmpty "wasm byte code" m.code
  let size := m.code.length
  require (size ≤ maxCodeSize) (.tooLarge "wasm byte code" size maxCodeSize)

def Instantiate.check (m : Instantiate) : Except MessageError Unit := do
  address "sender" m.sender
  m.administrator.forM (address "admin")
  nonZero "code id" m.codeId
  require (!Text.isBlank m.label) (.empty "label")
  let size := m.label.utf8ByteSize
  require (size ≤ maxLabelSize) (.tooLarge "label" size maxLabelSize)
  coins "funds" m.funds
  json "msg" m.body

def Execute.check (m : Execute) : Except MessageError Unit := do
  address "sender" m.sender
  address "contract" m.contract
  coins "funds" m.funds
  json "msg" m.body

def ReceivePacket.check (m : ReceivePacket) : Except MessageError Unit := do
  nonEmpty "commitment proof" m.commitmentProof
  address "signer" m.signer
  m.packet.check

def AcknowledgePacket.check (m : AcknowledgePacket) : Except MessageError Unit := do
  nonEmpty "acknowledgement proof" m.acknowledgedProof
  nonEmpty "acknowledgement" m.acknowledgement
  address "signer" m.signer
  m.packet.check

def TimeoutPacket.check (m : TimeoutPacket) : Except MessageError Unit := do
  nonEmpty "unreceived proof" m.unreceivedProof
  nonZero "next sequence recv" m.nextSequence
  address "signer" m.signer
  m.packet.check

def TimeoutOnClose.check (m : TimeoutOnClose) : Except MessageError Unit := do
  nonEmpty "unreceived proof" m.unreceivedProof
  nonEmpty "close proof" m.closeProof
  nonZero "next sequence recv" m.nextSequence
  address "signer" m.signer
  m.packet.check

def UpdateClient.check (m : UpdateClient) : Except MessageError Unit := do
  identifier "client" m.client
  nonEmpty "client header" m.header
  address "signer" m.signer

def check : Message → Except MessageError Unit
  | .send m => m.check
  | .storeCode m => m.check
  | .instantiate m => m.check
  | .execute m => m.check
  | .receivePacket m => m.check
  | .acknowledgePacket m => m.check
  | .timeoutPacket m => m.check
  | .timeoutOnClose m => m.check
  | .updateClient m => m.check

end Message
end Tollgate
