import Mathlib.Algebra.GroupWithZero.Nat
import Tollgate.Wire.Transaction
/-! How many bytes values take. -/
namespace Tollgate

namespace Format

variable {α β : Type}

theorem length_write_pair (f : Format α) (g : Format β) (p : α × β) :
    ((f.pair g).write p).length = (f.write p.1).length + (g.write p.2).length := List.length_append

theorem length_write_bytes (bs : Bytes) : (bytes.write bs).length = 8 + bs.length := by
  change (littleEndian 8 bs.length ++ bs).length = _
  rw [List.length_append, length_littleEndian]

theorem length_write_list (f : Format α) (as : List α) :
    (f.list.write as).length = 8 + (as.map fun a => (f.write a).length).sum := by
  change (littleEndian 8 as.length ++ as.flatMap f.write).length = _
  rw [List.length_append, length_littleEndian, List.length_flatMap]

theorem length_write_option (f : Format α) (o : Option α) :
    (f.option.write o).length = 1 + o.elim 0 fun a => (f.write a).length := by
  cases o with
  | none => rfl
  | some a =>
    change (1 :: f.write a).length = 1 + (f.write a).length
    rw [List.length_cons, Nat.add_comm]

end Format

open Format

namespace SingleKey

/-- A key whose form in a transaction carries its length. -/
def isPoint : SingleKey → Bool
  | .secp256k1 _ => true
  | .ed25519 _ => false

/-- The bytes that a single key takes in a transaction. -/
def wireLength (k : SingleKey) : Nat := (PublicKey.format.write (.single k)).length

/-- The alternative takes four bytes, and the length of a curve point eight. -/
theorem wireLength_eq (k : SingleKey) : k.wireLength = if k.isPoint then 45 else 36 := by
  cases k with
  | secp256k1 k =>
    change (littleEndian 4 0 ++ Format.bytes.write k.toList).length = 45
    rw [List.length_append, length_littleEndian, length_write_bytes, k.length_eq]
  | ed25519 k =>
    change (littleEndian 4 1 ++ k.toList).length = 36
    rw [List.length_append, length_littleEndian, k.length_eq]

end SingleKey

theorem SignerInfo.length_write (info : SignerInfo) : (format.write info).length =
    1 + (info.publicKey.elim 0 fun key => (PublicKey.format.write key).length) +
      (ModeInfo.format.write info.modeInfo).length + (word64.write info.sequence).length := by
  change ((PublicKey.format.option.pair <| ModeInfo.format.pair word64).write
    (info.publicKey, info.modeInfo, info.sequence)).length = _
  rw [length_write_pair, length_write_pair, length_write_option]
  dsimp only
  omega

theorem Transaction.length_encode (tx : Transaction) : tx.encode.length =
    (TxBody.format.write tx.body).length + (Fee.format.write tx.authInfo.fee).length + 16 +
      (tx.authInfo.signerInfos.map fun info => (SignerInfo.format.write info).length).sum +
      (tx.signatures.map fun bs => 8 + bs.length).sum := by
  change ((TxBody.format.pair <|
    ((Format.list SignerInfo.format).pair Fee.format).pair (Format.list Format.bytes)).write
    (tx.body, (tx.authInfo.signerInfos, tx.authInfo.fee), tx.signatures)).length = _
  rw [length_write_pair, length_write_pair, length_write_pair, length_write_list, length_write_list]
  simp only [length_write_bytes]
  omega

end Tollgate
