import Tollgate.Key
import Tollgate.Message.Basic
/-! Transactions: a body of messages, the signers and the fee, and one signature for each signer. -/
namespace Tollgate

/-- Data that a node may have to understand before it accepts the transaction. -/
structure ExtensionOption where
  typeUrl : String
  value : Bytes
  deriving DecidableEq

structure TxBody where
  messages : List Message
  memo : String
  /-- The last block the transaction is valid in; zero for no limit. -/
  timeoutHeight : UInt64
  extensionOptions : List ExtensionOption
  /-- Options that a node may ignore. -/
  nonCriticalOptions : List ExtensionOption
  deriving DecidableEq

structure Fee where
  amount : Coins
  gasLimit : UInt64
  payer : Option Address
  /-- The account that pays through an allowance. -/
  granter : Option Address
  deriving DecidableEq

/-- What a signature covers. -/
inductive SignMode where
  /-- The encoded body and signer data. -/
  | direct
  /-- A JSON document with sorted keys. -/
  | aminoJson
  deriving DecidableEq, Repr

/-- How the signature bytes of one signer are to be read. -/
inductive ModeInfo where
  | single (mode : SignMode)
  /-- One bit for every member of a threshold key, and one entry for every bit that is set. -/
  | multi (bits : List Bool) (infos : List ModeInfo)

namespace ModeInfo

mutual
def decEq : (a b : ModeInfo) → Decidable (a = b)
  | .single m, .single n =>
    if h : m = n then isTrue (h ▸ rfl) else isFalse fun e => h (ModeInfo.single.inj e)
  | .multi as xs, .multi bs ys =>
    if h : as = bs then
      match decEqList xs ys with
      | isTrue e => isTrue (h ▸ e ▸ rfl)
      | isFalse e => isFalse fun q => e (ModeInfo.multi.inj q).2
    else isFalse fun q => h (ModeInfo.multi.inj q).1
  | .single _, .multi _ _ => isFalse nofun
  | .multi _ _, .single _ => isFalse nofun
def decEqList : (as bs : List ModeInfo) → Decidable (as = bs)
  | [], [] => isTrue rfl
  | a :: as, b :: bs =>
    match decEq a b with
    | isTrue h =>
      match decEqList as bs with
      | isTrue e => isTrue (h ▸ e ▸ rfl)
      | isFalse e => isFalse fun q => e (List.cons.inj q).2
    | isFalse h => isFalse fun q => h (List.cons.inj q).1
  | [], _ :: _ => isFalse nofun
  | _ :: _, [] => isFalse nofun
end

instance : DecidableEq ModeInfo := decEq

end ModeInfo

structure SignerInfo where
  /-- Left out once the account stores the key. -/
  publicKey : Option PublicKey
  modeInfo : ModeInfo
  sequence : UInt64
  deriving DecidableEq

structure AuthInfo where
  signerInfos : List SignerInfo
  fee : Fee
  deriving DecidableEq

structure Transaction where
  body : TxBody
  authInfo : AuthInfo
  signatures : List Bytes
  deriving DecidableEq

namespace Transaction

def messages (tx : Transaction) : List Message := tx.body.messages

def typeUrls (tx : Transaction) : List String := tx.messages.map Message.typeUrl

/-- Appends an address that is not yet in the list. -/
def addSigner (signers : List Address) (a : Address) : List Address :=
  if a ∈ signers then signers else signers ++ [a]

/-- The signers of the messages in order, each address once. -/
def signers (tx : Transaction) : List Address :=
  (tx.messages.map Message.signer).foldl addSigner []

def gasLimit (tx : Transaction) : UInt64 := tx.authInfo.fee.gasLimit

def fee (tx : Transaction) : Coins := tx.authInfo.fee.amount

/-- The account the fee is charged to: the named payer, else the first signer. -/
def feePayer (tx : Transaction) : Option Address := tx.authInfo.fee.payer <|> tx.signers.head?

def feeGranter (tx : Transaction) : Option Address := tx.authInfo.fee.granter

def memo (tx : Transaction) : String := tx.body.memo

def timeoutHeight (tx : Transaction) : UInt64 := tx.body.timeoutHeight

/-- The entry of a list for the signer at a position, when there is one. -/
def signerInfo? (tx : Transaction) (index : Nat) : Option SignerInfo :=
  tx.authInfo.signerInfos[index]?

/-- The key that the transaction provides for a signer. -/
def providedKey? (tx : Transaction) (index : Nat) : Option PublicKey :=
  (tx.signerInfo? index).bind SignerInfo.publicKey

/-- The signature of a signer; no bytes when the entry is missing. -/
def signature (tx : Transaction) (index : Nat) : Bytes := tx.signatures.getD index []

theorem mem_addSigner {signers : List Address} {a b : Address} :
    b ∈ addSigner signers a ↔ b ∈ signers ∨ b = a := by
  unfold addSigner
  split
  · next h => exact ⟨Or.inl, fun h' => h'.elim id fun e => e ▸ h⟩
  · simp

theorem mem_foldl_addSigner {as signers : List Address} {b : Address} :
    b ∈ as.foldl addSigner signers ↔ b ∈ signers ∨ b ∈ as := by
  induction as generalizing signers with
  | nil => simp
  | cons a as ih => simp [ih, mem_addSigner, or_assoc]

theorem nodup_foldl_addSigner {as signers : List Address} (h : signers.Nodup) :
    (as.foldl addSigner signers).Nodup := by
  induction as generalizing signers with
  | nil => exact h
  | cons a as ih =>
    apply ih
    unfold addSigner
    split
    · exact h
    · next ha =>
      rw [List.nodup_append]
      exact ⟨h, by simp, fun x hx y hy e => ha (by simp at hy; rwa [← hy, ← e])⟩

/-- An address signs exactly if it signs some message. -/
theorem mem_signers {tx : Transaction} {a : Address} :
    a ∈ tx.signers ↔ ∃ m ∈ tx.messages, m.signer = a := by
  simp [signers, mem_foldl_addSigner]

theorem nodup_signers (tx : Transaction) : tx.signers.Nodup := nodup_foldl_addSigner List.nodup_nil

end Transaction
end Tollgate
