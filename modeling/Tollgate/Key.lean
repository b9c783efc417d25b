import Tollgate.Address
import Tollgate.Hash.Sha256
/-! Public keys: single keys of two signature schemes and threshold keys over a list of keys. An
address is the truncated SHA-256 digest of the canonical bytes of a key. -/
namespace Tollgate

/-- A key that checks one signature. -/
inductive SingleKey where
  /-- A compressed curve point. -/
  | secp256k1 (bytes : FixedBytes 33)
  | ed25519 (bytes : FixedBytes 32)
  deriving DecidableEq

namespace SingleKey

def bytes : SingleKey → Bytes
  | .secp256k1 k => k.toList
  | .ed25519 k => k.toList

def typeName : SingleKey → String
  | .secp256k1 _ => "secp256k1"
  | .ed25519 _ => "ed25519"

/-- The byte that announces a key of this scheme inside a threshold key. -/
def tag : SingleKey → UInt8
  | .secp256k1 _ => 1
  | .ed25519 _ => 2

end SingleKey

/-- A signer's key. -/
inductive PublicKey where
  | single (key : SingleKey)
  /-- At least `threshold` of the keys must sign. -/
  | multisig (threshold : UInt32) (keys : List PublicKey)

namespace PublicKey

def typeName : PublicKey → String
  | .single k => k.typeName
  | .multisig _ _ => "multisig"

def tag : PublicKey → UInt8
  | .single k => k.tag
  | .multisig _ _ => 3

mutual
/-- What is hashed for the address. A threshold key writes its name, its threshold in big-endian
order and every tagged member. -/
def canonical : PublicKey → Bytes
  | .single k => k.bytes
  | .multisig t ks => utf8 "multisig" ++ bigEndian 4 t.toNat ++ canonicalMembers ks
def canonicalMembers : List PublicKey → Bytes
  | [] => []
  | k :: ks => k.tag :: (canonical k ++ canonicalMembers ks)
end

def address (k : PublicKey) : Address := (Sha256.hash k.canonical).take 20 Address.length_le_digest

mutual
/-- The single keys of a key, from left to right. -/
def leaves : PublicKey → List SingleKey
  | .single k => [k]
  | .multisig _ ks => leavesOf ks
def leavesOf : List PublicKey → List SingleKey
  | [] => []
  | k :: ks => leaves k ++ leavesOf ks
end

/-- The number of single keys. -/
def leafCount (k : PublicKey) : Nat := k.leaves.length

mutual
/-- The size of the key material: a threshold takes four bytes and a member one more than itself. -/
def encodedLength : PublicKey → Nat
  | .single k => k.bytes.length
  | .multisig _ ks => 4 + encodedLengthOf ks
def encodedLengthOf : List PublicKey → Nat
  | [] => 0
  | k :: ks => 1 + encodedLength k + encodedLengthOf ks
end

mutual
def decEq : (a b : PublicKey) → Decidable (a = b)
  | .single j, .single k =>
    if h : j = k then isTrue (h ▸ rfl) else isFalse fun e => h (PublicKey.single.inj e)
  | .multisig s js, .multisig t ks =>
    if h : s = t then
      match decEqList js ks with
      | isTrue e => isTrue (h ▸ e ▸ rfl)
      | isFalse e => isFalse fun q => e (PublicKey.multisig.inj q).2
    else isFalse fun q => h (PublicKey.multisig.inj q).1
  | .single _, .multisig _ _ => isFalse nofun
  | .multisig _ _, .single _ => isFalse nofun
def decEqList : (as bs : List PublicKey) → Decidable (as = bs)
  | [], [] => isTrue rfl
  | a :: as, b :: bs =>
    match decEq a b with
    | isTrue h =>
      match decEqList as bs with
      | isTrue e => isTrue (h ▸ e ▸ rfl)
      | isFalse e => isFalse fun q => e (List.cons.inj q).2
    | isFalse h => isFalse fun q => h (List.cons.inj q).1
  | [], _ :: _ => isFalse nofun
  | _ :: _, [] => isFalse nofun
end

instance : DecidableEq PublicKey := decEq

end PublicKey
end Tollgate
