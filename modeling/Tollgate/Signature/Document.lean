import Tollgate.Transaction.Json
import Tollgate.Wire.Transaction
/-! The bytes that a signer signs: a binary document, or a JSON document with sorted keys. -/
namespace Tollgate

/-- What a signature commits to besides the transaction. -/
structure SignerData where
  address : Address
  chainId : String
  accountNumber : UInt64
  sequence : UInt64
  key : PublicKey
  deriving DecidableEq

namespace SignerData

/-- The encoded body and signer data, the chain and the account number. The sequence is part of the
signer data. -/
def directFormat : Format (Bytes × Bytes × String × UInt64) :=
  Format.bytes.pair <| Format.bytes.pair <| Format.string.pair Format.word64

def directBytes (signer : SignerData) (tx : Transaction) : Bytes :=
  directFormat.write (TxBody.format.write tx.body, AuthInfo.format.write tx.authInfo,
    signer.chainId, signer.accountNumber)

/-- A member that is left out when there is no address. -/
def addressMember (name : String) : Option Address → List (String × Json)
  | none => []
  | some a => [(name, .string a.hex)]

def feeDocument (fee : Fee) : Json := .record
  ([("amount", fee.amount.toJson), ("gas", .string (Text.decimal fee.gasLimit.toNat))] ++
    addressMember "granter" fee.granter ++ addressMember "payer" fee.payer)

def messageDocument (m : Message) : Json := .record
  [("type", .string m.typeUrl), ("value", m.toJson)]

/-- Numbers are written as strings. -/
def document (signer : SignerData) (tx : Transaction) : Json := .record
  [("account_number", .string (Text.decimal signer.accountNumber.toNat)),
   ("chain_id", .string signer.chainId),
   ("fee", feeDocument tx.authInfo.fee),
   ("memo", .string tx.memo),
   ("msgs", .ofList messageDocument tx.messages),
   ("sequence", .string (Text.decimal signer.sequence.toNat)),
   ("timeout_height", .string (Text.decimal tx.timeoutHeight.toNat))]

def aminoBytes (signer : SignerData) (tx : Transaction) : Bytes := (document signer tx).sorted.print

/-- The bytes to be signed under a mode. -/
def signBytes (signer : SignerData) (tx : Transaction) : SignMode → Bytes
  | .direct => directBytes signer tx
  | .aminoJson => aminoBytes signer tx

end SignerData

namespace SignMode

/-- The mode of a signer who states none. -/
def default : SignMode := .direct

def supported : List SignMode := [.direct, .aminoJson]

end SignMode
end Tollgate
