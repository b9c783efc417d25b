import Tollgate.Proofs.Ledger.Outcome
/-! Verification of a key over calls of services: the checks that it runs, what it moves within, and
that services which are not needed can be left out. No key is satisfied by an empty signature. -/
namespace Tollgate

open Call

namespace PublicKey

mutual
/-- The checks that verification runs, if none of them fails, and how it ends after them: a signature
of the wrong shape ends it where it is met. -/
def plan : PublicKey → SignatureData → List SignatureTask × Except SignatureError Unit
  | .single key, .single mode signature => ([⟨key, mode, signature⟩], .ok ())
  | .multisig threshold keys, .multi bits signatures =>
    if bits.length ≠ keys.length then ([], .error .invalidFormat)
    else
      let members := planOf keys bits signatures
      (members.1, members.2.bind fun valid =>
        if valid < threshold.toNat then .error (.thresholdNotMet valid threshold) else .ok ())
  | key, _ => ([], .error (.keyMismatch key.typeName))
def planOf : List PublicKey → List Bool → List SignatureData →
    List SignatureTask × Except SignatureError Nat
  | key :: keys, true :: bits, signature :: signatures =>
    match (plan key signature).2 with
    | .error e => ((plan key signature).1, .error e)
    | .ok _ =>
      let rest := planOf keys bits signatures
      ((plan key signature).1 ++ rest.1, rest.2.map (· + 1))
  | _ :: keys, false :: bits, signatures => planOf keys bits signatures
  | _, _, _ => ([], .ok 0)
end

variable {σ : Type} {check : SignatureTask → Call SignatureError σ PUnit}

mutual
/-- Verification runs the checks of its plan one after the other. -/
theorem verify_eq : (key : PublicKey) → (data : SignatureData) → key.verify check data = (do
    (key.plan data).1.forM check
    Call.ofExcept (key.plan data).2)
  | .single key, .single mode signature => by
    change check ⟨key, mode, signature⟩ = (do (do check ⟨key, mode, signature⟩; pure ()); pure ())
    simp
  | .multisig threshold keys, .multi bits signatures => by
    unfold PublicKey.verify plan
    by_cases hbits : bits.length ≠ keys.length
    · simp only [if_pos hbits]
      rfl
    · simp only [if_neg hbits]
      rw [verifyMembers_eq keys bits signatures]
      change _ = (do
        (planOf keys bits signatures).1.forM check
        Call.ofExcept ((planOf keys bits signatures).2 >>= _))
      rw [bind_assoc, ofExcept_bind]
      refine bind_congr fun _ => bind_congr fun valid => ?_
      split <;> rfl
  | .single _, .multi _ _ => rfl
  | .multisig _ _, .single _ _ => rfl
theorem verifyMembers_eq : (keys : List PublicKey) → (bits : List Bool) →
    (signatures : List SignatureData) → verifyMembers check keys bits signatures = (do
      (planOf keys bits signatures).1.forM check
      Call.ofExcept (planOf keys bits signatures).2)
  | key :: keys, true :: bits, signature :: signatures => by
    unfold verifyMembers planOf
    rw [verify_eq key signature, verifyMembers_eq keys bits signatures, bind_assoc]
    cases (plan key signature).2 with
    | error e => rfl
    | ok _ =>
      have happend : ((plan key signature).1 ++ (planOf keys bits signatures).1).forM check = (do
          (plan key signature).1.forM check
          (planOf keys bits signatures).1.forM check) := List.forM_append
      dsimp only
      rw [happend, bind_assoc, bind_assoc]
      refine bind_congr fun _ => ?_
      change (do (planOf keys bits signatures).1.forM check; _) = _
      refine bind_congr fun _ => ?_
      cases (planOf keys bits signatures).2 <;> rfl
  | _ :: keys, false :: bits, signatures => by
    unfold verifyMembers planOf
    exact verifyMembers_eq keys bits signatures
  | [], _, _ => rfl
  | _ :: _, [], _ => rfl
  | _ :: _, true :: _, [] => rfl
end

theorem within_verify {S : σ → σ → Prop} (hc : ∀ task, Within S (check task)) (key : PublicKey)
    (data : SignatureData) : Within S (key.verify check data) := by
  rw [verify_eq]
  exact (Within.forM fun task _ => hc task).bind fun _ => .of_after_eq (after_ofExcept _)

theorem lockstep_verify {τ : Type} {S : σ → τ → Prop}
    {check' : SignatureTask → Call SignatureError τ PUnit}
    (hc : ∀ task, Lockstep S (check task) (check' task)) (key : PublicKey) (data : SignatureData) :
    Lockstep S (key.verify check data) (key.verify check' data) := by
  rw [verify_eq, verify_eq]
  exact (Lockstep.forM fun task _ => hc task).bind fun _ => .ofExcept _

variable (holds : SignatureTask → Except SignatureError Unit)

mutual
/-- Checks that need no services verify as they do without any. -/
theorem verify_ofExcept : (key : PublicKey) → (data : SignatureData) →
    key.verify (fun task => (Call.ofExcept (holds task) : Call SignatureError σ Unit)) data =
      Call.ofExcept (key.verify holds data)
  | .single _, .single _ _ => rfl
  | .multisig threshold keys, .multi bits signatures => by
    unfold PublicKey.verify
    have hm := verifyMembers_ofExcept keys bits signatures
    split
    · rfl
    · change verifyMembers _ keys bits signatures >>= _ =
        Call.ofExcept (verifyMembers holds keys bits signatures >>= _)
      rw [hm, ofExcept_bind]
      refine congrArg _ (funext fun valid => ?_)
      split <;> rfl
  | .single _, .multi _ _ => rfl
  | .multisig _ _, .single _ _ => rfl
theorem verifyMembers_ofExcept : (keys : List PublicKey) → (bits : List Bool) →
    (signatures : List SignatureData) →
      verifyMembers (fun task => (Call.ofExcept (holds task) : Call SignatureError σ Unit))
        keys bits signatures = Call.ofExcept (verifyMembers holds keys bits signatures)
  | key :: keys, true :: bits, signature :: signatures => by
    unfold verifyMembers
    rw [verify_ofExcept key signature, verifyMembers_ofExcept keys bits signatures, ofExcept_bind]
    congr 1
    funext _
    rw [ofExcept_bind]
    rfl
  | _ :: keys, false :: bits, signatures => by
    unfold verifyMembers
    exact verifyMembers_ofExcept keys bits signatures
  | [], _, _ => rfl
  | _ :: _, [], _ => rfl
  | _ :: _, true :: _, [] => rfl
end

end PublicKey

namespace SingleKey

/-- The check as a function of all its arguments, since its values do not unfold well. -/
theorem verifyEd25519_eq : verifyEd25519 = fun key message signature =>
    match Curve.Ed25519.decompress? key.toList with
    | none => .error .invalidPublicKey
    | some a =>
      if signature.length ≠ 64 then .error .invalidFormat
      else if Curve.Ed25519.verifyStrict key.toList a message signature then .ok ()
      else .error .verificationFailed := rfl

variable {signature : Bytes}

/-- A signature of another length satisfies no key. -/
theorem length_of_verify {key : SingleKey} {message : Bytes}
    (h : key.verify message signature = .ok ()) : signature.length = 64 := by
  by_contra hlength
  cases key with
  | secp256k1 k =>
    have hscalars : Curve.Secp256k1.scalars? signature = none := by
      simp [Curve.Secp256k1.scalars?, hlength]
    change verifySecp256k1 k message signature = .ok () at h
    simp [verifySecp256k1, hscalars] at h
  | ed25519 k =>
    change verifyEd25519 k message signature = .ok () at h
    rw [verifyEd25519_eq] at h
    dsimp only at h
    split at h <;> simp [hlength] at h

end SingleKey

/-- Nothing but a single signature is read from no bytes. -/
theorem SignatureData.eq_single_of_decode_nil {info : ModeInfo} {data : SignatureData}
    (h : decode info [] = .ok data) : ∃ mode, data = .single mode [] := by
  cases info with
  | single mode =>
    unfold decode at h
    exact ⟨mode, (Except.ok.inj h).symm⟩
  | multi bits infos =>
    unfold decode at h
    cases h

theorem PublicKey.not_verify_of_decode_nil {key : PublicKey} {info : ModeInfo} {data : SignatureData}
    (message : SignMode → Bytes) (h : SignatureData.decode info [] = .ok data) :
    ¬key.verify (fun task => SingleKey.verify task.key (message task.mode) task.signature) data =
      .ok () := by
  intro hv
  obtain ⟨mode, rfl⟩ := SignatureData.eq_single_of_decode_nil h
  cases key with
  | single k => cases SingleKey.length_of_verify hv
  | multisig threshold keys => cases hv

end Tollgate
