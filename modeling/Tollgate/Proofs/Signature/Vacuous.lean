import Tollgate.Proofs.Signature.Singles
/-! Threshold keys that ask for nobody. A key whose threshold is met by members that ask for nobody is
satisfied by a signature in which no single key has signed, and no other key is. -/
namespace Tollgate

open Call

namespace PublicKey

mutual
/-- The threshold is met by members that are vacuous themselves. A single key never is. -/
def vacuous : PublicKey → Bool
  | .single _ => false
  | .multisig threshold keys => threshold.toNat ≤ vacuousMembers keys
/-- The number of members that ask for nobody. -/
def vacuousMembers : List PublicKey → Nat
  | [] => 0
  | key :: keys => if vacuous key then vacuousMembers keys + 1 else vacuousMembers keys
end

mutual
/-- A signature for exactly the members that ask for nobody. -/
def blank : PublicKey → SignatureData
  | .single _ => .multi [] []
  | .multisig _ keys => .multi (keys.map vacuous) (blankMembers keys)
def blankMembers : List PublicKey → List SignatureData
  | [] => []
  | key :: keys => if vacuous key then blank key :: blankMembers keys else blankMembers keys
end

mutual
theorem singles_blank : (key : PublicKey) → key.blank.singles = []
  | .single _ => rfl
  | .multisig _ keys => singlesOf_blankMembers keys
theorem singlesOf_blankMembers : (keys : List PublicKey) →
    SignatureData.singlesOf (blankMembers keys) = []
  | [] => rfl
  | key :: keys => by
    unfold blankMembers
    split
    · rw [SignatureData.singlesOf, singles_blank key, List.nil_append]
      exact singlesOf_blankMembers keys
    · exact singlesOf_blankMembers keys
end

variable {holds : SignatureTask → Except SignatureError Unit}

theorem verify_multisig_eq_ok_iff {threshold : UInt32} {keys : List PublicKey} {bits : List Bool}
    {ss : List SignatureData} :
    (multisig threshold keys).verify holds (.multi bits ss) = .ok () ↔
      bits.length = keys.length ∧
        ∃ valid, verifyMembers holds keys bits ss = .ok valid ∧ threshold.toNat ≤ valid := by
  unfold PublicKey.verify
  constructor
  · intro h
    split at h
    · cases h
    · next hlength =>
      obtain ⟨valid, hmembers, h⟩ := except_bind_eq_ok_iff.1 h
      split at h
      · cases h
      · next hmet => exact ⟨not_not.1 hlength, valid, hmembers, Nat.not_lt.1 hmet⟩
  · rintro ⟨hlength, valid, hmembers, hmet⟩
    split
    · next hne => exact absurd hlength hne
    · refine except_bind_eq_ok_iff.2 ⟨valid, hmembers, ?_⟩
      rw [if_neg (Nat.not_lt.2 hmet)]
      rfl

mutual
theorem verify_blank : (key : PublicKey) → key.vacuous = true → key.verify holds key.blank = .ok ()
  | .single _, h => by cases h
  | .multisig threshold keys, h => by
    unfold vacuous at h
    exact verify_multisig_eq_ok_iff.2
      ⟨List.length_map _, _, verifyMembers_blank keys, of_decide_eq_true h⟩
theorem verifyMembers_blank : (keys : List PublicKey) →
    verifyMembers holds keys (keys.map vacuous) (blankMembers keys) = .ok (vacuousMembers keys)
  | [] => rfl
  | key :: keys => by
    rw [List.map_cons]
    unfold blankMembers vacuousMembers
    cases hkey : key.vacuous with
    | false =>
      unfold verifyMembers
      exact verifyMembers_blank keys
    | true =>
      unfold verifyMembers
      refine except_bind_eq_ok_iff.2 ⟨(), verify_blank key hkey, ?_⟩
      exact except_bind_eq_ok_iff.2 ⟨_, verifyMembers_blank keys, rfl⟩
end

mutual
/-- Only a vacuous key is satisfied without any single signature. -/
theorem vacuous_of_verify : (key : PublicKey) → (data : SignatureData) → data.singles = [] →
    key.verify holds data = .ok () → key.vacuous = true
  | .single _, .single _ _, hnone, _ => nomatch hnone
  | .single _, .multi _ _, _, h => by cases h
  | .multisig _ _, .single _ _, _, h => by cases h
  | .multisig threshold keys, .multi bits ss, hnone, h => by
    obtain ⟨-, valid, hmembers, hmet⟩ := verify_multisig_eq_ok_iff.1 h
    exact decide_eq_true (Nat.le_trans hmet (le_vacuousMembers keys bits ss hnone hmembers))
theorem le_vacuousMembers : (keys : List PublicKey) → (bits : List Bool) →
    (ss : List SignatureData) → SignatureData.singlesOf ss = [] → {valid : Nat} →
    verifyMembers holds keys bits ss = .ok valid → valid ≤ vacuousMembers keys
  | key :: keys, true :: bits, s :: ss, hnone, valid, h => by
    rw [SignatureData.singlesOf, List.append_eq_nil_iff] at hnone
    unfold verifyMembers at h
    obtain ⟨⟨⟩, hkey, h⟩ := except_bind_eq_ok_iff.1 h
    obtain ⟨rest, hrest, h⟩ := except_bind_eq_ok_iff.1 h
    obtain rfl := Except.ok.inj h
    unfold vacuousMembers
    rw [if_pos (vacuous_of_verify key s hnone.1 hkey)]
    exact Nat.succ_le_succ (le_vacuousMembers keys bits ss hnone.2 hrest)
  | key :: keys, false :: bits, ss, hnone, valid, h => by
    unfold verifyMembers at h
    have hle := le_vacuousMembers keys bits ss hnone h
    unfold vacuousMembers
    split
    · exact Nat.le_succ_of_le hle
    · exact hle
  | [], _, _, _, valid, h => by
    obtain rfl := Except.ok.inj h
    exact Nat.zero_le _
  | _ :: _, [], _, _, valid, h => by
    obtain rfl := Except.ok.inj h
    exact Nat.zero_le _
  | _ :: _, true :: _, [], _, valid, h => by
    obtain rfl := Except.ok.inj h
    exact Nat.zero_le _
end

/-- The vacuous keys are exactly those that are satisfied where no single key signs and every check of
one would fail. -/
theorem vacuous_iff {key : PublicKey} : key.vacuous = true ↔ ∃ data : SignatureData,
    data.singles = [] ∧ ∀ holds : SignatureTask → Except SignatureError Unit,
      key.verify holds data = .ok () := by
  constructor
  · intro h
    exact ⟨key.blank, key.singles_blank, fun _ => verify_blank key h⟩
  · rintro ⟨data, hnone, hverify⟩
    exact vacuous_of_verify key data hnone (hverify fun _ => .error .verificationFailed)

/-- One of the single keys of a key has made one of the single signatures. -/
def HasSigned (holds : SignatureTask → Except SignatureError Unit) (key : PublicKey)
    (data : SignatureData) : Prop :=
  ∃ leaf ∈ key.leaves, ∃ p ∈ data.singles, holds ⟨leaf, p.1, p.2⟩ = .ok ()

/-- If a signature satisfies a key, somebody has signed exactly when there is a single signature at all,
and so for every key that is not vacuous. -/
theorem hasSigned_iff_of_verify {info : ModeInfo} {raw : Bytes} {key : PublicKey}
    {data : SignatureData} (hdecode : SignatureData.decode info raw = .ok data)
    (h : key.verify holds data = .ok ()) : key.HasSigned holds data ↔ data.singles ≠ [] := by
  constructor
  · rintro ⟨-, -, p, hp, -⟩
    exact List.ne_nil_of_mem hp
  · intro hsome
    obtain ⟨p, hp⟩ := List.exists_mem_of_ne_nil _ hsome
    obtain ⟨leaf, hleaf, hholds⟩ := checked holds data info raw key hdecode h p hp
    exact ⟨leaf, hleaf, p, hp, hholds⟩

end PublicKey
end Tollgate
