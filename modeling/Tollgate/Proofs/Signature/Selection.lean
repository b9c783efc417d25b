import Mathlib.Algebra.GroupWithZero.Nat
import Tollgate.Proofs.Signature.Gas
import Tollgate.Proofs.Signature.Singles
import Tollgate.Proofs.Signature.Verify
/-! The single keys that a signature selects from a key. They are what is charged for, one after the
other, and what is tried when the signature is verified, up to the first that fails. -/
namespace Tollgate

open Call

namespace PublicKey

mutual
/-- The single keys that are charged for: a threshold signature selects by its bits, as long as there
are signatures for them, and a single signature selects all. -/
def selected : PublicKey → SignatureData → List SingleKey
  | .single key, _ => [key]
  | .multisig _ keys, .multi bits signatures => selectedOf keys bits signatures
  | .multisig _ keys, .single _ _ => leavesOf keys
def selectedOf : List PublicKey → List Bool → List SignatureData → List SingleKey
  | key :: keys, true :: bits, signature :: signatures =>
    selected key signature ++ selectedOf keys bits signatures
  | _ :: keys, false :: bits, signatures => selectedOf keys bits signatures
  | _, _, _ => []
end

mutual
theorem selected_sublist : (key : PublicKey) → (data : SignatureData) →
    (key.selected data).Sublist key.leaves
  | .single _, .single _ _ => .refl _
  | .single _, .multi _ _ => .refl _
  | .multisig _ keys, .multi bits signatures => selectedOf_sublist keys bits signatures
  | .multisig _ _, .single _ _ => .refl _
theorem selectedOf_sublist : (keys : List PublicKey) → (bits : List Bool) →
    (signatures : List SignatureData) → (selectedOf keys bits signatures).Sublist (leavesOf keys)
  | key :: keys, true :: bits, signature :: signatures => by
    unfold selectedOf leavesOf
    exact (selected_sublist key signature).append (selectedOf_sublist keys bits signatures)
  | key :: keys, false :: bits, signatures => by
    unfold selectedOf leavesOf
    exact (selectedOf_sublist keys bits signatures).trans (List.sublist_append_right _ _)
  | [], _, _ => List.nil_sublist _
  | _ :: _, [], _ => List.nil_sublist _
  | _ :: _, true :: _, [] => List.nil_sublist _
end

theorem length_selected_le (key : PublicKey) (data : SignatureData) :
    (key.selected data).length ≤ key.leafCount := (selected_sublist key data).length_le

mutual
/-- What verification tries are selected keys, from the first one on; if the signature has the right
shape, all of them. -/
theorem plan_selected : (key : PublicKey) → (data : SignatureData) →
    (key.plan data).1.map SignatureTask.key <+: key.selected data ∧
      ((key.plan data).2 = .ok () →
        (key.plan data).1.map SignatureTask.key = key.selected data)
  | .single _, .single _ _ => ⟨List.prefix_rfl, fun _ => rfl⟩
  | .multisig threshold keys, .multi bits signatures => by
    unfold plan selected
    split
    · exact ⟨List.nil_prefix, nofun⟩
    · obtain ⟨hstart, hall⟩ := planOf_selected keys bits signatures
      refine ⟨hstart, fun hok => ?_⟩
      obtain ⟨n, hn, -⟩ := except_bind_eq_ok_iff.1 hok
      exact hall n hn
  | .single _, .multi _ _ => ⟨List.nil_prefix, nofun⟩
  | .multisig _ _, .single _ _ => ⟨List.nil_prefix, nofun⟩
theorem planOf_selected : (keys : List PublicKey) → (bits : List Bool) →
    (signatures : List SignatureData) →
    (planOf keys bits signatures).1.map SignatureTask.key <+: selectedOf keys bits signatures ∧
      ∀ n, (planOf keys bits signatures).2 = .ok n →
        (planOf keys bits signatures).1.map SignatureTask.key = selectedOf keys bits signatures
  | key :: keys, true :: bits, signature :: signatures => by
    obtain ⟨hstart, hall⟩ := plan_selected key signature
    obtain ⟨hrest, hrestAll⟩ := planOf_selected keys bits signatures
    unfold planOf selectedOf
    cases hverdict : (plan key signature).2 with
    | error e => exact ⟨hstart.trans (List.prefix_append _ _), nofun⟩
    | ok _ =>
      dsimp only
      rw [List.map_append, hall hverdict]
      refine ⟨(List.prefix_append_right_inj _).2 hrest, fun n hn => ?_⟩
      cases hcount : (planOf keys bits signatures).2 with
      | error e => simp [hcount, Except.map] at hn
      | ok k => rw [hrestAll k hcount]
  | _ :: keys, false :: bits, signatures => by
    unfold planOf selectedOf
    exact planOf_selected keys bits signatures
  | [], _, _ => ⟨List.nil_prefix, fun _ _ => rfl⟩
  | _ :: _, [], _ => ⟨List.nil_prefix, fun _ _ => rfl⟩
  | _ :: _, true :: _, [] => ⟨List.nil_prefix, fun _ _ => rfl⟩
end

section Gas

variable (params : AuthParams)

/-- Charges for one single key. -/
def consumeKey (key : SingleKey) : EStateM GasError GasMeter PUnit :=
  GasMeter.consume (params.cost key) (gasDescriptor key)

mutual
/-- A single signature is charged for every single key there is. -/
theorem consumeGas_of_single (mode : SignMode) (signature : Bytes) : (key : PublicKey) →
    consumeGas params key (.single mode signature) = key.leaves.forM (consumeKey params)
  | .single key => (bind_pure (consumeKey params key)).symm
  | .multisig _ keys => consumeGasAll_eq mode signature keys
theorem consumeGasAll_eq (mode : SignMode) (signature : Bytes) : (keys : List PublicKey) →
    consumeGasAll params keys (.single mode signature) = (leavesOf keys).forM (consumeKey params)
  | [] => rfl
  | key :: keys => by
    unfold consumeGasAll leavesOf
    rw [consumeGas_of_single mode signature key, consumeGasAll_eq mode signature keys]
    exact List.forM_append.symm
end

mutual
/-- A signature is charged for the single keys it selects, one after the other. -/
theorem consumeGas_eq : (key : PublicKey) → (data : SignatureData) →
    consumeGas params key data = (key.selected data).forM (consumeKey params)
  | .single key, .single _ _ => (bind_pure (consumeKey params key)).symm
  | .single key, .multi _ _ => (bind_pure (consumeKey params key)).symm
  | .multisig _ keys, .multi bits signatures => consumeGasSigned_eq keys bits signatures
  | .multisig _ keys, .single mode signature => consumeGasAll_eq params mode signature keys
theorem consumeGasSigned_eq : (keys : List PublicKey) → (bits : List Bool) →
    (signatures : List SignatureData) → consumeGasSigned params keys bits signatures =
      (selectedOf keys bits signatures).forM (consumeKey params)
  | key :: keys, true :: bits, signature :: signatures => by
    unfold consumeGasSigned selectedOf
    rw [consumeGas_eq key signature, consumeGasSigned_eq keys bits signatures]
    exact List.forM_append.symm
  | _ :: keys, false :: bits, signatures => by
    unfold consumeGasSigned selectedOf
    exact consumeGasSigned_eq keys bits signatures
  | [], _, _ => rfl
  | _ :: _, [], _ => rfl
  | _ :: _, true :: _, [] => rfl
end

end Gas
end PublicKey

/-- The costs of some single keys together. -/
def AuthParams.total (params : AuthParams) (keys : List SingleKey) : Nat :=
  (keys.map fun key => (params.cost key).toNat).sum

theorem AuthParams.total_eq_sum (params : AuthParams) (keys : List SingleKey) :
    params.total keys = ((keys.map params.cost).map UInt64.toNat).sum := by
  rw [List.map_map]
  rfl

theorem AuthParams.total_append (params : AuthParams) (keys keys' : List SingleKey) :
    params.total (keys ++ keys') = params.total keys + params.total keys' := by
  simp [total]

theorem AuthParams.total_le_of_sublist (params : AuthParams) {keys keys' : List SingleKey}
    (h : keys.Sublist keys') : params.total keys ≤ params.total keys' := by
  induction h with
  | slnil => exact Nat.le_refl _
  | cons key _ ih => exact Nat.le_trans ih (Nat.le_add_left _ _)
  | cons_cons key _ ih => exact Nat.add_le_add_left ih _

namespace GasMeter

variable {params : AuthParams} {keys : List SingleKey} {m n : GasMeter} {amount : UInt64}
  {descriptor : String}

/-- The meter has not run out. -/
def InLimit (m : GasMeter) : Prop := ∀ limit ∈ m.limit, m.consumed ≤ limit

theorem consume_keeps (h : consume amount descriptor m = .ok () n) :
    n.limit = m.limit ∧ n.InLimit := by
  obtain ⟨hlimit, -, hle⟩ := consume_eq_ok_iff.1 h
  exact ⟨hlimit, fun limit hl => hle limit (hlimit ▸ hl)⟩

/-- Charges that all succeed are added up exactly. -/
theorem consumeKeys_eq_ok (h : keys.forM (PublicKey.consumeKey params) m = .ok () n) :
    n.limit = m.limit ∧ n.consumed.toNat = m.consumed.toNat + params.total keys ∧
      (m.InLimit → n.InLimit) := by
  induction keys generalizing m with
  | nil =>
    obtain ⟨-, rfl⟩ := pure_eq_ok_iff.1 h
    exact ⟨rfl, rfl, id⟩
  | cons key keys ih =>
    rw [List.forM_eq_forM, List.forM_cons, bind_eq_ok_iff] at h
    obtain ⟨⟨⟩, u, hkey, hrest⟩ := h
    obtain ⟨-, hcost, -⟩ := consume_eq_ok_iff.1 hkey
    obtain ⟨hlimit, hin⟩ := consume_keeps hkey
    obtain ⟨hlimit', hsum, hin'⟩ := ih hrest
    refine ⟨hlimit'.trans hlimit, ?_, fun _ => hin' hin⟩
    have htotal : params.total (key :: keys) = (params.cost key).toNat + params.total keys := rfl
    omega

/-- Without a limit, all charges succeed if their sum fits into a word. -/
theorem consumeKeys_of_limitless (hm : m.limit = none) :
    keys.forM (PublicKey.consumeKey params) m = .ok () n ↔
      n.limit = none ∧ n.consumed.toNat = m.consumed.toNat + params.total keys := by
  refine ⟨fun h => ?_, fun h => ?_⟩
  · obtain ⟨hlimit, hsum, -⟩ := consumeKeys_eq_ok h
    exact ⟨hlimit.trans hm, hsum⟩
  · obtain ⟨hlimit, hsum⟩ := h
    induction keys generalizing m with
    | nil =>
      have hconsumed : m.consumed = n.consumed := UInt64.toNat_inj.1 hsum.symm
      cases m
      cases n
      obtain rfl := hm
      obtain rfl := hlimit
      obtain rfl := hconsumed
      rfl
    | cons key keys ih =>
      have htotal : params.total (key :: keys) = (params.cost key).toNat + params.total keys := rfl
      -- the first sum fits because the last one does
      have hlast := n.consumed.toNat_lt
      have hfirst : (UInt64.ofNat (m.consumed.toNat + (params.cost key).toNat)).toNat =
          m.consumed.toNat + (params.cost key).toNat :=
        UInt64.toNat_ofNat_of_lt' (show _ < 2 ^ 64 by omega)
      rw [List.forM_eq_forM, List.forM_cons, bind_eq_ok_iff]
      have hrest := ih (m := ⟨none, .ofNat (m.consumed.toNat + (params.cost key).toNat)⟩) rfl
        (by rw [hsum, hfirst, htotal, Nat.add_assoc])
      refine ⟨(), _, consume_eq_ok_iff.2 ⟨hm.symm, hfirst, ?_⟩, hrest⟩
      rw [hm]
      exact nofun

end GasMeter

/-- What is charged without limit for a signature that selects all single keys covers every signature.
A single signature is charged with the sum of the costs of all leaves of the key, if this sum fits into
a word, and else its charge fails. Whenever it succeeds, the charge for any signature succeeds,
whatever its shape, and it is no higher. -/
theorem PublicKey.single_signature_dearest (params : AuthParams) (key : PublicKey)
    (data : SignatureData) (mode : SignMode) (signature : Bytes) :
    (∀ m, consumeGas params key (.single mode signature) .infinite = .ok () m ↔
      m.limit = none ∧
        m.consumed.toNat = (key.leaves.map fun leaf => (params.cost leaf).toNat).sum) ∧
    ∀ m, consumeGas params key (.single mode signature) .infinite = .ok () m →
      ∃ n, consumeGas params key data .infinite = .ok () n ∧ n.consumed ≤ m.consumed := by
  have hsingle (m : GasMeter) : consumeGas params key (.single mode signature) .infinite = .ok () m ↔
      m.limit = none ∧ m.consumed.toNat = params.total key.leaves := by
    rw [consumeGas_of_single, GasMeter.consumeKeys_of_limitless rfl]
    exact and_congr_right fun _ => by rw [show GasMeter.infinite.consumed.toNat = 0 from rfl, Nat.zero_add]
  refine ⟨hsingle, fun m hm => ?_⟩
  have hle := params.total_le_of_sublist (selected_sublist key data)
  have hsum := ((hsingle m).1 hm).2
  have hlt := m.consumed.toNat_lt
  have hfit : (UInt64.ofNat (params.total (key.selected data))).toNat =
      params.total (key.selected data) :=
    UInt64.toNat_ofNat_of_lt' (show _ < 2 ^ 64 by omega)
  refine ⟨⟨none, .ofNat (params.total (key.selected data))⟩, ?_, ?_⟩
  · rw [consumeGas_eq, GasMeter.consumeKeys_of_limitless rfl]
    exact ⟨rfl, by rw [hfit]; exact (Nat.zero_add _).symm⟩
  · rw [UInt64.le_iff_toNat_le, hfit, hsum]
    exact hle

/-- A key with a nested threshold key, and three leaves. -/
def councilKey : PublicKey :=
  .multisig 2 [.multisig 1 [.single (.secp256k1 (.replicate 33 2)), .single (.ed25519 (.replicate 32 1))],
    .single (.ed25519 (.replicate 32 2))]

/-- A signature with too many bits and a single signature for the nested key. -/
def councilSignature : SignatureData :=
  .multi [true, false, true] [.single .direct [], .single .aminoJson [7]]

/-- The empty signature is charged with 2180, the other one with 1590. -/
theorem councilSignature_covered :
    PublicKey.consumeGas .default councilKey (.single .direct []) .infinite = .ok () ⟨none, 2180⟩ ∧
    ∃ n, PublicKey.consumeGas .default councilKey councilSignature .infinite = .ok () n ∧
      n.consumed ≤ 2180 := by
  obtain ⟨hsum, hcovers⟩ :=
    PublicKey.single_signature_dearest .default councilKey councilSignature .direct []
  have hcharged := (hsum ⟨none, 2180⟩).2 ⟨rfl, rfl⟩
  exact ⟨hcharged, hcovers _ hcharged⟩

end Tollgate
