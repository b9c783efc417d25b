import Tollgate.Admission.Size
import Tollgate.Ledger.Accounts
import Tollgate.Proofs.Wire.Length
/-! How the signers of a transaction complete it: each of them signs, and one whose key is named
neither by the account nor by the transaction adds the key. The bytes that this takes are compared
with those that a simulation sets aside for it. -/
namespace Tollgate

/-- The keys and the signatures of all addresses. -/
structure Signatory where
  key : Address → SingleKey
  signature : Address → FixedBytes PublicKey.signatureLength

/-- Changes the entries of the signers and keeps the entries that are left. -/
def changeEach {α β : Type} (f : α → β → β) : List α → List β → List β
  | a :: as, b :: bs => f a b :: changeEach f as bs
  | _, bs => bs

theorem sum_map_changeEach {α β : Type} (f : α → β → β) (size : β → Nat) (growth : α × β → Nat)
    {as : List α} {bs : List β} (h : ∀ p ∈ as.zip bs, size (f p.1 p.2) = size p.2 + growth p) :
    ((changeEach f as bs).map size).sum = (bs.map size).sum + ((as.zip bs).map growth).sum := by
  induction as generalizing bs with
  | nil => cases bs <;> simp [changeEach]
  | cons a as ih =>
    cases bs with
    | nil => simp [changeEach]
    | cons b bs =>
      rw [List.zip_cons_cons, List.forall_mem_cons] at h
      have hrest := ih h.2
      have hfirst : size (f a b) = size b + growth (a, b) := h.1
      rw [changeEach, List.zip_cons_cons]
      simp only [List.map_cons, List.sum_cons]
      omega

/-- What is left out adds nothing to a sum. -/
theorem sum_map_elim {α β : Type} (g : α → Option β) (size : β → Nat) (as : List α) :
    (as.map fun a => (g a).elim 0 size).sum = ((as.filterMap g).map size).sum := by
  induction as with
  | nil => rfl
  | cons a as ih =>
    rw [List.map_cons, List.sum_cons, ih]
    cases h : g a <;> simp [h]

namespace PublicKey

/-- The bytes that a simulation sets aside next to a missing signature: those of the stored key, or of
one that stands in for it, and of what surrounds it. -/
def reserve (stored : Option PublicKey) : Nat :=
  (stored.getD placeholder).encodedLength + signatureOverhead

@[simp] theorem reserve_none : reserve none = 39 := rfl

end PublicKey

namespace Signatory

variable (s : Signatory) (b : AccountBook)

/-- The key that a signer adds to an entry, if neither the account nor the entry names one. -/
def addedKey? (p : Address × SignerInfo) : Option SingleKey :=
  if ((b.find? p.1).bind Account.key).isNone && p.2.publicKey.isNone then some (s.key p.1) else none

/-- The entry of a signer with the key that is added. -/
def complete (a : Address) (info : SignerInfo) : SignerInfo :=
  { info with publicKey := info.publicKey.or ((s.addedKey? b (a, info)).map .single) }

variable {s b}

theorem of_addedKey? {p : Address × SignerInfo} {key : SingleKey}
    (h : s.addedKey? b p = some key) :
    (b.find? p.1).bind Account.key = none ∧ p.2.publicKey = none := by
  unfold addedKey? at h
  split at h
  · next hnone => simpa using hnone
  · cases h

theorem length_write_complete (p : Address × SignerInfo) :
    (SignerInfo.format.write (s.complete b p.1 p.2)).length =
      (SignerInfo.format.write p.2).length + (s.addedKey? b p).elim 0 SingleKey.wireLength := by
  rw [SignerInfo.length_write, SignerInfo.length_write, complete]
  cases hadded : s.addedKey? b p with
  | none =>
    rw [Option.map_none, Option.or_none]
    rfl
  | some key =>
    rw [(of_addedKey? hadded).2, Option.map_some, Option.none_or, Option.elim_some, Option.elim_some,
      Option.elim_none, SingleKey.wireLength]
    dsimp only
    omega

end Signatory

namespace Transaction

/-- Every signer has an entry for a signature, with nothing in it. -/
def Unsigned (tx : Transaction) : Prop := ∀ i < tx.signers.length, tx.signatures[i]? = some []

instance (tx : Transaction) : Decidable tx.Unsigned :=
  inferInstanceAs (Decidable (∀ i < tx.signers.length, tx.signatures[i]? = some []))

/-- No signer has stored a threshold key. -/
def SingleKeyed (tx : Transaction) (b : AccountBook) : Prop :=
  ∀ a ∈ tx.signers, ∀ key ∈ (b.find? a).bind Account.key, ∃ k, key = .single k

/-- The transaction with the signatures of its signers and the keys that nobody has named. -/
def complete (tx : Transaction) (b : AccountBook) (s : Signatory) : Transaction :=
  { tx with
    authInfo.signerInfos := changeEach (s.complete b) tx.signers tx.authInfo.signerInfos
    signatures := changeEach (fun a _ => (s.signature a).toList) tx.signers tx.signatures }

/-- The keys that the signers add. -/
def addedKeys (tx : Transaction) (b : AccountBook) (s : Signatory) : List SingleKey :=
  (tx.signers.zip tx.authInfo.signerInfos).filterMap (s.addedKey? b)

/-- The bytes of the keys that the signers add. -/
def addedBytes (tx : Transaction) (b : AccountBook) (s : Signatory) : Nat :=
  ((tx.addedKeys b s).map SingleKey.wireLength).sum

/-- The bytes that a simulation sets aside for all signers next to their signatures. -/
def keyReserve (tx : Transaction) (b : AccountBook) : Nat :=
  (tx.signers.map fun a => PublicKey.reserve ((b.find? a).bind Account.key)).sum

/-- The bytes that a simulation expects to be added to an unsigned transaction. -/
def estimate (tx : Transaction) (b : AccountBook) : Nat :=
  PublicKey.signatureLength * tx.signers.length + tx.keyReserve b

/-- What the added keys take beyond the bytes set aside for keys. -/
def excess (tx : Transaction) (b : AccountBook) (s : Signatory) : Nat :=
  tx.addedBytes b s - tx.keyReserve b

variable {tx : Transaction}

theorem Unsigned.signature (h : tx.Unsigned) {x : Address × Nat} (hx : x ∈ tx.signers.zipIdx) :
    tx.signature x.2 = [] := by
  have hi := (List.getElem?_eq_some_iff.1 (List.mem_zipIdx_iff_getElem?.1 hx)).1
  rw [Transaction.signature, List.getD_eq_getElem?_getD, h x.2 hi]
  rfl

/-- Every signer has a signature to fill in. -/
theorem Unsigned.sum_signatures (h : tx.Unsigned) (s : Signatory) :
    ((changeEach (fun a _ => (s.signature a).toList) tx.signers tx.signatures).map
      fun bs => 8 + bs.length).sum =
    (tx.signatures.map fun bs => 8 + bs.length).sum +
      PublicKey.signatureLength * tx.signers.length := by
  have hle : tx.signers.length ≤ tx.signatures.length := by
    refine Nat.le_of_not_lt fun hlt => ?_
    have hnone : tx.signatures[tx.signatures.length]? = none := List.getElem?_eq_none (Nat.le_refl _)
    cases hnone.symm.trans (h _ hlt)
  have hlength : (tx.signers.zip tx.signatures).length = tx.signers.length := by
    rw [List.length_zip, Nat.min_eq_left hle]
  rw [sum_map_changeEach _ _ (fun _ => PublicKey.signatureLength) fun p hp => ?_]
  · rw [List.map_const', List.sum_replicate_nat, hlength, Nat.mul_comm]
  · obtain ⟨i, hi⟩ := List.mem_iff_getElem?.1 hp
    obtain ⟨hsigner, hentry⟩ := List.getElem?_zip_eq_some.1 hi
    have hempty := h i (List.getElem?_eq_some_iff.1 hsigner).1
    rw [hentry] at hempty
    rw [Option.some.inj hempty, FixedBytes.length_toList]
    rfl

/-- A complete transaction is longer by the signatures and the keys that were added. -/
theorem Unsigned.length_complete (h : tx.Unsigned) (b : AccountBook) (s : Signatory) :
    (tx.complete b s).encode.length = tx.encode.length +
      PublicKey.signatureLength * tx.signers.length + tx.addedBytes b s := by
  have hinfos := sum_map_changeEach (s.complete b) (fun info => (SignerInfo.format.write info).length)
    (fun p => (s.addedKey? b p).elim 0 SingleKey.wireLength)
    fun p (_ : p ∈ tx.signers.zip tx.authInfo.signerInfos) => Signatory.length_write_complete p
  rw [sum_map_elim] at hinfos
  rw [length_encode, length_encode, complete, h.sum_signatures, hinfos, addedBytes, addedKeys]
  dsimp only
  omega

/-- The estimate and what the added keys take beyond it cover what a transaction grows by. -/
theorem Unsigned.length_complete_le (h : tx.Unsigned) (b : AccountBook) (s : Signatory) :
    (tx.complete b s).encode.length ≤ tx.encode.length + tx.estimate b + tx.excess b s := by
  rw [h.length_complete, estimate, excess]
  omega

/-- If the added keys take more than what is set aside, nothing is left over. -/
theorem Unsigned.length_complete_of_excess (h : tx.Unsigned) {b : AccountBook} {s : Signatory}
    (hexcess : 0 < tx.excess b s) :
    (tx.complete b s).encode.length = tx.encode.length + tx.estimate b + tx.excess b s := by
  rw [excess] at hexcess
  rw [h.length_complete, estimate, excess]
  omega

/-- An added key takes no more than what is set aside for its signer, but for six bytes of a curve
point. -/
theorem excess_le (tx : Transaction) (b : AccountBook) (s : Signatory) :
    tx.excess b s ≤ 6 * (tx.addedKeys b s).countP SingleKey.isPoint := by
  unfold excess addedBytes keyReserve addedKeys
  rw [Nat.sub_le_iff_le_add']
  generalize tx.signers = as, tx.authInfo.signerInfos = infos
  induction as generalizing infos with
  | nil => exact Nat.zero_le _
  | cons a as ih =>
    cases infos with
    | nil => exact Nat.zero_le _
    | cons info infos =>
      have hrest := ih infos
      rw [List.zip_cons_cons, List.map_cons, List.sum_cons]
      cases hadded : s.addedKey? b (a, info) with
      | none =>
        rw [List.filterMap_cons_none hadded]
        omega
      | some key =>
        have hreserve : PublicKey.reserve ((b.find? a).bind Account.key) = 39 := by
          rw [(Signatory.of_addedKey? hadded).1, PublicKey.reserve_none]
        rw [List.filterMap_cons_some hadded, List.map_cons, List.sum_cons, List.countP_cons,
          SingleKey.wireLength_eq]
        split <;> omega

end Transaction
end Tollgate
