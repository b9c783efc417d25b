import Tollgate.Proofs.Ledger.Outcome
import Tollgate.Signature.Basic
/-! The single signatures of a signer. A signature that was read from raw bytes satisfies a key only if
every single signature in it passed the check of one of its single keys; and it depends on these checks
alone. -/
namespace Tollgate

open Call

namespace SignatureData

mutual
/-- The single signatures with their modes, from left to right. -/
def singles : SignatureData → List (SignMode × Bytes)
  | .single mode signature => [(mode, signature)]
  | .multi _ signatures => singlesOf signatures
def singlesOf : List SignatureData → List (SignMode × Bytes)
  | [] => []
  | s :: ss => singles s ++ singlesOf ss
end

theorem singlesOf_eq_flatMap (ss : List SignatureData) : singlesOf ss = ss.flatMap singles := by
  induction ss with
  | nil => rfl
  | cons s ss ih => rw [singlesOf, ih, List.flatMap_cons]

theorem of_decodeParts {infos : List ModeInfo} {parts : List Bytes} {ss : List SignatureData}
    (hl : parts.length = infos.length) (h : decodeParts infos parts = .ok ss) :
    ss.length = parts.length ∧ ∀ s ∈ ss, ∃ info part, decode info part = .ok s := by
  induction infos generalizing parts ss with
  | nil =>
    obtain rfl := List.length_eq_zero_iff.1 hl
    obtain rfl := Except.ok.inj h
    exact ⟨rfl, nofun⟩
  | cons info infos ih =>
    cases parts with
    | nil => cases hl
    | cons part parts =>
      obtain ⟨s, hs, h⟩ := except_bind_eq_ok_iff.1 h
      obtain ⟨rest, hrest, h⟩ := except_bind_eq_ok_iff.1 h
      obtain rfl := Except.ok.inj h
      obtain ⟨hlength, hall⟩ := ih (Nat.succ.inj hl) hrest
      exact ⟨congrArg (· + 1) hlength, List.forall_mem_cons.2 ⟨⟨info, part, hs⟩, hall⟩⟩

/-- A threshold signature that was read has one signature for every bit that is set. -/
theorem of_decode_multi {info : ModeInfo} {raw : Bytes} {bits : List Bool}
    {ss : List SignatureData} (h : decode info raw = .ok (.multi bits ss)) :
    ss.length = bits.count true ∧ ∀ s ∈ ss, ∃ info part, decode info part = .ok s := by
  cases info with
  | single mode => cases h
  | multi bits' infos =>
    unfold decode at h
    split at h
    · cases h
    · next parts _ =>
      split at h
      · cases h
      · next hl =>
        rw [not_or, not_not, not_not] at hl
        obtain ⟨ss', hss, h⟩ := except_bind_eq_ok_iff.1 h
        obtain ⟨rfl, rfl⟩ := SignatureData.multi.inj (Except.ok.inj h)
        obtain ⟨hlength, hall⟩ := of_decodeParts hl.1 hss
        exact ⟨hlength.trans hl.2, hall⟩

end SignatureData

namespace PublicKey

variable {holds holds' : SignatureTask → Except SignatureError Unit}

/-- If every bit that is set has a signature, all of them were verified. -/
theorem of_verifyMembers {keys : List PublicKey} {bits : List Bool} {ss : List SignatureData}
    {n : Nat} (hbits : bits.length = keys.length) (hss : ss.length = bits.count true)
    (h : verifyMembers holds keys bits ss = .ok n) :
    ∀ s ∈ ss, ∃ key ∈ keys, key.verify holds s = .ok () := by
  induction keys generalizing bits ss n with
  | nil =>
    obtain rfl := List.length_eq_zero_iff.1 hbits
    obtain rfl := List.length_eq_zero_iff.1 hss
    exact nofun
  | cons key keys ih =>
    cases bits with
    | nil => cases hbits
    | cons bit bits =>
      have htail : bits.length = keys.length := Nat.succ.inj hbits
      cases bit with
      | false =>
        unfold verifyMembers at h
        intro s hs
        obtain ⟨k, hk, hv⟩ := ih htail (by simpa using hss) h s hs
        exact ⟨k, List.mem_cons_of_mem _ hk, hv⟩
      | true =>
        rw [List.count_cons_self] at hss
        cases ss with
        | nil => cases hss
        | cons s ss =>
          unfold verifyMembers at h
          obtain ⟨⟨⟩, hs, h⟩ := except_bind_eq_ok_iff.1 h
          obtain ⟨rest, hrest, -⟩ := except_bind_eq_ok_iff.1 h
          refine List.forall_mem_cons.2 ⟨⟨key, List.mem_cons_self, hs⟩, fun s' hs' => ?_⟩
          obtain ⟨k, hk, hv⟩ := ih htail (Nat.succ.inj hss) hrest s' hs'
          exact ⟨k, List.mem_cons_of_mem _ hk, hv⟩

theorem leavesOf_eq_flatMap (keys : List PublicKey) : leavesOf keys = keys.flatMap leaves := by
  induction keys with
  | nil => rfl
  | cons key keys ih => rw [leavesOf, ih, List.flatMap_cons]

/-- If the signature was read and satisfies some key, each single signature in it has passed the check of
one of the single keys. -/
def Checked (holds : SignatureTask → Except SignatureError Unit) (data : SignatureData) : Prop :=
  ∀ info raw (key : PublicKey), SignatureData.decode info raw = .ok data →
    key.verify holds data = .ok () →
      ∀ p ∈ data.singles, ∃ k ∈ key.leaves, holds ⟨k, p.1, p.2⟩ = .ok ()

mutual
theorem checked (holds : SignatureTask → Except SignatureError Unit) :
    (data : SignatureData) → Checked holds data
  | .single mode signature => by
    intro info raw key _ hv p hp
    obtain rfl := List.mem_singleton.1 hp
    cases key with
    | single k => exact ⟨k, List.mem_singleton_self k, hv⟩
    | multisig threshold keys => cases hv
  | .multi bits ss => by
    intro info raw key hd hv p hp
    obtain ⟨hss, hall⟩ := SignatureData.of_decode_multi hd
    rw [SignatureData.singles, SignatureData.singlesOf_eq_flatMap] at hp
    obtain ⟨s, hs, hp⟩ := List.mem_flatMap.1 hp
    obtain ⟨info', part, hdecode⟩ := hall s hs
    cases key with
    | single k => cases hv
    | multisig threshold keys =>
      unfold PublicKey.verify at hv
      split at hv
      · cases hv
      · next hbits =>
        obtain ⟨valid, hmembers, -⟩ := except_bind_eq_ok_iff.1 hv
        obtain ⟨key, hmem, hkey⟩ := of_verifyMembers (not_not.1 hbits) hss hmembers s hs
        obtain ⟨k, hk, hholds⟩ := checkedOf holds ss s hs info' part key hdecode hkey p hp
        refine ⟨k, ?_, hholds⟩
        rw [leaves, leavesOf_eq_flatMap]
        exact List.mem_flatMap.2 ⟨key, hmem, hk⟩
theorem checkedOf (holds : SignatureTask → Except SignatureError Unit) :
    (ss : List SignatureData) → ∀ s ∈ ss, Checked holds s
  | [] => nofun
  | s :: ss => List.forall_mem_cons.2 ⟨checked holds s, checkedOf holds ss⟩
end

mutual
/-- Only the checks of the single signatures matter. -/
theorem verify_congr : (key : PublicKey) → (data : SignatureData) →
    (∀ task, (task.mode, task.signature) ∈ data.singles → holds task = holds' task) →
      key.verify holds data = key.verify holds' data
  | .single key, .single mode signature, h => h ⟨key, mode, signature⟩ (List.mem_singleton_self _)
  | .multisig threshold keys, .multi bits ss, h => by
    unfold PublicKey.verify
    rw [verifyMembers_congr keys bits ss h]
  | .single _, .multi _ _, _ => rfl
  | .multisig _ _, .single _ _, _ => rfl
theorem verifyMembers_congr : (keys : List PublicKey) → (bits : List Bool) →
    (ss : List SignatureData) →
    (∀ task, (task.mode, task.signature) ∈ SignatureData.singlesOf ss → holds task = holds' task) →
      verifyMembers holds keys bits ss = verifyMembers holds' keys bits ss
  | key :: keys, true :: bits, s :: ss, h => by
    unfold verifyMembers
    rw [verify_congr key s fun task ht => h task (List.mem_append_left _ ht),
      verifyMembers_congr keys bits ss fun task ht => h task (List.mem_append_right _ ht)]
  | _ :: keys, false :: bits, ss, h => by
    unfold verifyMembers
    exact verifyMembers_congr keys bits ss h
  | [], _, _, _ => rfl
  | _ :: _, [], _, _ => rfl
  | _ :: _, true :: _, [], _ => rfl
end

end PublicKey
end Tollgate
