import Tollgate.Curve.Ed25519
import Tollgate.Curve.Secp256k1
import Tollgate.Key
import Tollgate.Wire.Transaction
/-! Signatures of one signer: how they are read from a transaction, and when they satisfy a key. -/
namespace Tollgate

inductive SignatureError where
  | invalidFormat
  | malleable
  | verificationFailed
  | invalidPublicKey
  /-- The signature has not the shape of a key of this type. -/
  | keyMismatch (keyType : String)
  | thresholdNotMet (valid : Nat) (threshold : UInt32)
  /-- The bytes to be signed could not be made. -/
  | signBytes (reason : String)
  deriving DecidableEq, Repr

def SignatureError.message : SignatureError → String
  | .invalidFormat => "Invalid signature format"
  | .malleable => "Malleable signature (high S value)"
  | .verificationFailed => "Signature verification failed"
  | .invalidPublicKey => "Invalid public key"
  | .keyMismatch t => s!"Signature data does not match {t} key"
  | .thresholdNotMet valid threshold => s!"Multisig threshold not met: {valid} of {threshold}"
  | .signBytes reason => s!"Sign bytes unavailable: {reason}"

/-- The signature of one signer. -/
inductive SignatureData where
  | single (mode : SignMode) (signature : Bytes)
  /-- One bit for every member of a threshold key, and one signature for every bit that is set. -/
  | multi (bits : List Bool) (signatures : List SignatureData)

namespace SignatureData

mutual
def decEq : (a b : SignatureData) → Decidable (a = b)
  | .single m s, .single n t =>
    if h : m = n ∧ s = t then isTrue (h.1 ▸ h.2 ▸ rfl)
    else isFalse fun e => h (SignatureData.single.inj e)
  | .multi as xs, .multi bs ys =>
    if h : as = bs then
      match decEqList xs ys with
      | isTrue e => isTrue (h ▸ e ▸ rfl)
      | isFalse e => isFalse fun q => e (SignatureData.multi.inj q).2
    else isFalse fun q => h (SignatureData.multi.inj q).1
  | .single _ _, .multi _ _ => isFalse nofun
  | .multi _ _, .single _ _ => isFalse nofun
def decEqList : (as bs : List SignatureData) → Decidable (as = bs)
  | [], [] => isTrue rfl
  | a :: as, b :: bs =>
    match decEq a b with
    | isTrue h =>
      match decEqList as bs with
      | isTrue e => isTrue (h ▸ e ▸ rfl)
      | isFalse e => isFalse fun q => e (List.cons.inj q).2
    | isFalse h => isFalse fun q => h (List.cons.inj q).1
  | [], _ :: _ => isFalse nofun
  | _ :: _, [] => isFalse nofun
end

instance : DecidableEq SignatureData := decEq

/-- The raw signatures of the members of a threshold key, as one byte string. -/
def partsFormat : Format (List Bytes) := Format.list Format.bytes

/-- Joins the raw signatures of the members that signed. -/
def encodeParts (parts : List Bytes) : Bytes := partsFormat.write parts

mutual
/-- Reads raw bytes as the mode information says. The parts of a threshold signature must be as many
as the modes and as the bits that are set. -/
def decode : ModeInfo → Bytes → Except SignatureError SignatureData
  | .single mode, raw => .ok (.single mode raw)
  | .multi bits infos, raw =>
    match partsFormat.decode raw with
    | .error _ => .error .invalidFormat
    | .ok parts =>
      if parts.length ≠ infos.length ∨ parts.length ≠ bits.count true then .error .invalidFormat
      else do
        let signatures ← decodeParts infos parts
        return .multi bits signatures
def decodeParts : List ModeInfo → List Bytes → Except SignatureError (List SignatureData)
  | info :: infos, part :: parts => do
    let s ← decode info part
    let rest ← decodeParts infos parts
    return s :: rest
  | _, _ => .ok []
end

end SignatureData

/-- One signature to be checked: the bytes signed for a mode must satisfy a single key. -/
structure SignatureTask where
  key : SingleKey
  mode : SignMode
  signature : Bytes
  deriving DecidableEq

mutual
/-- Walks over the single keys that signed, from left to right, and runs every check. A threshold
key needs one bit for every member, and as many checks as its threshold; the first failure ends the
walk. -/
def PublicKey.verify {m : Type → Type} [Monad m] [MonadExceptOf SignatureError m]
    (check : SignatureTask → m Unit) : PublicKey → SignatureData → m Unit
  | .single key, .single mode signature => check ⟨key, mode, signature⟩
  | .multisig threshold keys, .multi bits signatures => do
    if bits.length ≠ keys.length then throw SignatureError.invalidFormat
    let valid ← verifyMembers check keys bits signatures
    if valid < threshold.toNat then throw (SignatureError.thresholdNotMet valid threshold)
  | key, _ => throw (SignatureError.keyMismatch key.typeName)
/-- Pairs the signatures with the members whose bit is set, and counts the pairs. -/
def PublicKey.verifyMembers {m : Type → Type} [Monad m] [MonadExceptOf SignatureError m]
    (check : SignatureTask → m Unit) :
    List PublicKey → List Bool → List SignatureData → m Nat
  | key :: keys, true :: bits, signature :: signatures => do
    PublicKey.verify check key signature
    let rest ← verifyMembers check keys bits signatures
    return rest + 1
  | _ :: keys, false :: bits, signatures => verifyMembers check keys bits signatures
  | _, _, _ => pure 0
end

namespace SingleKey

/-- A 64-byte ECDSA signature over the SHA-256 digest of the message, in its one allowed form. -/
def verifySecp256k1 (key : FixedBytes 33) (message signature : Bytes) :
    Except SignatureError Unit :=
  match Curve.Secp256k1.scalars? signature with
  | none => .error .invalidFormat
  | some (r, s) =>
    if Curve.Secp256k1.isHigh s then .error .malleable
    else match Curve.Secp256k1.decompress? key with
      | none => .error .invalidPublicKey
      | some q =>
        if Curve.Secp256k1.equation q message r s then .ok () else .error .verificationFailed

/-- The key is looked at first, then the length of the signature. -/
def verifyEd25519 (key : FixedBytes 32) (message signature : Bytes) : Except SignatureError Unit :=
  match Curve.Ed25519.decompress? key.toList with
  | none => .error .invalidPublicKey
  | some a =>
    if signature.length ≠ 64 then .error .invalidFormat
    else if Curve.Ed25519.verifyStrict key.toList a message signature then .ok ()
    else .error .verificationFailed

/-- Checks one signature over a message. -/
def verify (key : SingleKey) (message signature : Bytes) : Except SignatureError Unit :=
  match key with
  | .secp256k1 k => verifySecp256k1 k message signature
  | .ed25519 k => verifyEd25519 k message signature

end SingleKey
end Tollgate
