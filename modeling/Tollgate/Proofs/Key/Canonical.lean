import Mathlib.Tactic.ByContra
import Tollgate.Proofs.Admission.Change
/-! What the canonical bytes of a key determine. They spell the outline of the key: its single keys
and the openings of its threshold keys, from left to right. Where a threshold key inside another one
ends is not written, so the bytes determine a key exactly when nothing can follow such an end. -/
namespace Tollgate

theorem bigEndian_word32_inj {s t : UInt32}
    (h : bigEndian 4 s.toNat = bigEndian 4 t.toNat) : s = t := by
  have hl := congrArg ofLittleEndian (List.reverse_inj.1 h)
  rw [ofLittleEndian_littleEndian, ofLittleEndian_littleEndian] at hl
  have hs := s.toNat_lt
  have ht := t.toNat_lt
  apply UInt32.toNat_inj.1
  omega

namespace SingleKey

theorem tag_ne_group (k : SingleKey) : k.tag ≠ 3 := by cases k <;> simp [tag]

/-- The tag tells how many bytes belong to a single key. -/
theorem bytes_append_inj {j k : SingleKey} {xs ys : Bytes} (ht : j.tag = k.tag)
    (h : j.bytes ++ xs = k.bytes ++ ys) : j = k ∧ xs = ys := by
  cases j with
  | secp256k1 a =>
    cases k with
    | secp256k1 b =>
      obtain ⟨hb, hr⟩ := List.append_inj h (by simp [bytes])
      exact ⟨congrArg _ (FixedBytes.toList_inj.1 hb), hr⟩
    | ed25519 b => simp [tag] at ht
  | ed25519 a =>
    cases k with
    | secp256k1 b => simp [tag] at ht
    | ed25519 b =>
      obtain ⟨hb, hr⟩ := List.append_inj h (by simp [bytes])
      exact ⟨congrArg _ (FixedBytes.toList_inj.1 hb), hr⟩

end SingleKey

namespace PublicKey

/-- One step of an outline: a single key, or the opening of a threshold key. -/
inductive Mark where
  | leaf (key : SingleKey)
  | group (threshold : UInt32)
  deriving DecidableEq

namespace Mark

/-- What a mark adds to the canonical bytes of the key around it. -/
def bytes : Mark → Bytes
  | .leaf k => k.tag :: k.bytes
  | .group t => 3 :: (utf8 "multisig" ++ bigEndian 4 t.toNat)

theorem bytes_ne_nil (m : Mark) : m.bytes ≠ [] := by cases m <;> simp [bytes]

theorem length_bytes_group (t : UInt32) : (group t).bytes.length = 13 := by
  have h : (utf8 "multisig").length = 8 := by decide +kernel
  simp [bytes, bigEndian, h]

theorem length_bytes_leaf (k : SingleKey) : 33 ≤ (leaf k).bytes.length := by
  cases k <;> simp [bytes, SingleKey.bytes]

/-- No mark begins another one. -/
theorem bytes_append_inj {m n : Mark} {xs ys : Bytes} (h : m.bytes ++ xs = n.bytes ++ ys) :
    m = n ∧ xs = ys := by
  cases m with
  | leaf j =>
    cases n with
    | leaf k =>
      obtain ⟨ht, hb⟩ := List.cons.inj h
      obtain ⟨rfl, hr⟩ := SingleKey.bytes_append_inj ht hb
      exact ⟨rfl, hr⟩
    | group t => exact absurd (List.cons.inj h).1 j.tag_ne_group
  | group s =>
    cases n with
    | leaf k => exact absurd (List.cons.inj h).1.symm k.tag_ne_group
    | group t =>
      obtain ⟨hb, hr⟩ := List.append_inj h (by rw [length_bytes_group, length_bytes_group])
      simp only [bytes, List.cons.injEq, List.append_cancel_left_eq, true_and] at hb
      exact ⟨congrArg group (bigEndian_word32_inj hb), hr⟩

end Mark

/-- The bytes of an outline. -/
def spell (ms : List Mark) : Bytes := ms.flatMap Mark.bytes

@[simp] theorem spell_nil : spell [] = [] := rfl

@[simp] theorem spell_cons (m : Mark) (ms : List Mark) : spell (m :: ms) = m.bytes ++ spell ms :=
  List.flatMap_cons

@[simp] theorem spell_append (ms ns : List Mark) : spell (ms ++ ns) = spell ms ++ spell ns :=
  List.flatMap_append

theorem spell_inj {ms ns : List Mark} (h : spell ms = spell ns) : ms = ns := by
  induction ms generalizing ns with
  | nil =>
    cases ns with
    | nil => rfl
    | cons n ns => exact absurd (List.append_eq_nil_iff.1 h.symm).1 n.bytes_ne_nil
  | cons m ms ih =>
    cases ns with
    | nil => exact absurd (List.append_eq_nil_iff.1 h).1 m.bytes_ne_nil
    | cons n ns =>
      rw [spell_cons, spell_cons] at h
      obtain ⟨rfl, hr⟩ := Mark.bytes_append_inj h
      rw [ih hr]

/-- No outline fills the gap between a lone opening and two marks. -/
theorem length_spell (ms : List Mark) :
    (spell ms).length = 0 ∨ (spell ms).length = 13 ∨ 26 ≤ (spell ms).length := by
  induction ms with
  | nil => exact .inl rfl
  | cons m ms ih =>
    rw [spell_cons, List.length_append]
    cases m with
    | leaf k =>
      have hk := Mark.length_bytes_leaf k
      omega
    | group t =>
      rw [Mark.length_bytes_group]
      omega

mutual
/-- The marks of a key, from left to right. -/
def outline : PublicKey → List Mark
  | .single k => [.leaf k]
  | .multisig t ks => .group t :: outlineOf ks
def outlineOf : List PublicKey → List Mark
  | [] => []
  | k :: ks => outline k ++ outlineOf ks
end

mutual
theorem tag_cons_canonical : (k : PublicKey) → k.tag :: k.canonical = spell k.outline
  | .single k => by simp [tag, canonical, outline, Mark.bytes]
  | .multisig t ks => by
    rw [canonical, canonicalMembers_eq ks, outline, spell_cons]
    rfl
theorem canonicalMembers_eq : (ks : List PublicKey) → canonicalMembers ks = spell (outlineOf ks)
  | [] => rfl
  | k :: ks => by
    rw [canonicalMembers, outlineOf, spell_append, ← tag_cons_canonical k,
      ← canonicalMembers_eq ks, List.cons_append]
end

theorem length_canonical_single (k : SingleKey) :
    (single k).canonical.length = 32 + (if k.tag = 1 then 1 else 0) := by
  cases k <;> simp [canonical, SingleKey.bytes, SingleKey.tag]

theorem length_canonical_multisig (t : UInt32) (ks : List PublicKey) :
    (multisig t ks).canonical.length < 32 ∨ 33 < (multisig t ks).canonical.length := by
  have hl := congrArg List.length (tag_cons_canonical (multisig t ks))
  rw [outline, spell_cons, List.length_append, List.length_cons, Mark.length_bytes_group] at hl
  have hs := length_spell (outlineOf ks)
  omega

/-- The length tells the two kinds of single keys and the threshold keys apart. -/
theorem tag_eq_of_canonical_eq {j k : PublicKey} (h : j.canonical = k.canonical) :
    j.tag = k.tag := by
  have hn := congrArg List.length h
  cases j with
  | single j =>
    rw [length_canonical_single] at hn
    cases k with
    | single k =>
      rw [length_canonical_single] at hn
      cases j <;> cases k <;> simp_all [SingleKey.tag, tag]
    | multisig t ks =>
      have hk := length_canonical_multisig t ks
      split at hn <;> omega
  | multisig s js =>
    cases k with
    | single k =>
      rw [length_canonical_single] at hn
      have hj := length_canonical_multisig s js
      split at hn <;> omega
    | multisig t ks => rfl

/-- Two keys have the same canonical bytes exactly if they have the same outline. -/
theorem canonical_eq_iff {j k : PublicKey} : j.canonical = k.canonical ↔ j.outline = k.outline := by
  constructor
  · intro h
    apply spell_inj
    rw [← tag_cons_canonical, ← tag_cons_canonical, tag_eq_of_canonical_eq h, h]
  · intro h
    have hs := congrArg spell h
    rw [← tag_cons_canonical, ← tag_cons_canonical] at hs
    exact (List.cons.inj hs).2

theorem outline_ne_nil (k : PublicKey) : k.outline ≠ [] := by cases k <;> simp [outline]

theorem outlineOf_append (js ks : List PublicKey) :
    outlineOf (js ++ ks) = outlineOf js ++ outlineOf ks := by
  induction js with
  | nil => rfl
  | cons j js ih => rw [List.cons_append, outlineOf, outlineOf, ih, List.append_assoc]

/-- Single keys, and perhaps an empty threshold key after all of them. -/
def plainMembers : List PublicKey → Bool
  | [] => true
  | .single _ :: ks => plainMembers ks
  | .multisig _ js :: ks => js.isEmpty && ks.isEmpty

/-- Nothing follows the opening of another threshold key inside this key. -/
def isPlain : PublicKey → Bool
  | .single _ => true
  | .multisig _ ks => plainMembers ks

theorem eq_of_outlineOf_eq {js ks : List PublicKey} (hk : plainMembers ks = true)
    (h : outlineOf js = outlineOf ks) : js = ks := by
  induction ks generalizing js with
  | nil =>
    cases js with
    | nil => rfl
    | cons j js => exact absurd (List.append_eq_nil_iff.1 h).1 j.outline_ne_nil
  | cons k ks ih =>
    cases js with
    | nil => exact absurd (List.append_eq_nil_iff.1 h.symm).1 k.outline_ne_nil
    | cons j js =>
      simp only [outlineOf] at h
      cases k with
      | single k =>
        cases j with
        | single j =>
          simp only [outline, List.cons_append, List.nil_append, List.cons.injEq,
            Mark.leaf.injEq] at h
          rw [h.1, ih hk h.2]
        | multisig s is => simp [outline] at h
      | multisig t ls =>
        simp only [plainMembers, Bool.and_eq_true, List.isEmpty_iff] at hk
        obtain ⟨rfl, rfl⟩ := hk
        cases j with
        | single j => simp [outline] at h
        | multisig s is =>
          simp only [outline, outlineOf, List.append_nil, List.cons_append, List.cons.injEq,
            Mark.group.injEq, List.append_eq_nil_iff] at h
          obtain ⟨rfl, hi, hj⟩ := h
          cases is with
          | cons i is => exact absurd (List.append_eq_nil_iff.1 hi).1 i.outline_ne_nil
          | nil =>
            cases js with
            | cons j js => exact absurd (List.append_eq_nil_iff.1 hj).1 j.outline_ne_nil
            | nil => rfl

theorem exists_outlineOf_eq {ks : List PublicKey} (hk : plainMembers ks = false) :
    ∃ js, js ≠ ks ∧ outlineOf js = outlineOf ks := by
  induction ks with
  | nil => simp [plainMembers] at hk
  | cons k ks ih =>
    cases k with
    | single k =>
      obtain ⟨js, hne, ho⟩ := ih hk
      refine ⟨single k :: js, fun h => hne (List.cons.inj h).2, ?_⟩
      rw [outlineOf, outlineOf, ho]
    | multisig t ls =>
      cases ls with
      | nil =>
        -- the members behind the empty threshold key move into it
        have hks : ks ≠ [] := by simpa [plainMembers] using hk
        refine ⟨[multisig t ks], fun h => hks ?_, ?_⟩
        · exact (PublicKey.multisig.inj (List.cons.inj h).1).2
        · simp [outlineOf, outline]
      | cons l ls =>
        -- the members of the threshold key move behind it
        refine ⟨multisig t [] :: (l :: ls ++ ks), fun h => ?_, ?_⟩
        · cases (PublicKey.multisig.inj (List.cons.inj h).1).2
        · rw [outlineOf, outlineOf_append]
          simp [outlineOf, outline]

theorem outline_determines_iff (k : PublicKey) :
    (∀ j : PublicKey, j.outline = k.outline → j = k) ↔ k.isPlain = true := by
  cases k with
  | single k =>
    refine ⟨fun _ => rfl, fun _ j h => ?_⟩
    cases j with
    | single j => simpa [outline] using h
    | multisig s js => simp [outline] at h
  | multisig t ks =>
    constructor
    · intro h
      by_contra hp
      obtain ⟨js, hne, ho⟩ := exists_outlineOf_eq (Bool.eq_false_iff.2 hp)
      have hj := h (multisig t js) (by rw [outline, outline, ho])
      exact hne (PublicKey.multisig.inj hj).2
    · intro hp j h
      cases j with
      | single j => simp [outline] at h
      | multisig s js =>
        simp only [outline, List.cons.injEq, Mark.group.injEq] at h
        rw [h.1, eq_of_outlineOf_eq hp h.2]

end PublicKey

/-- Two byte strings that would give the same address. -/
def AddressCollision (xs ys : Bytes) : Prop :=
  xs ≠ ys ∧ (Sha256.hash xs).take 20 Address.length_le_digest =
    (Sha256.hash ys).take 20 Address.length_le_digest

namespace PublicKey

theorem address_eq_iff {j k : PublicKey} :
    j.address = k.address ↔ j.canonical = k.canonical ∨ AddressCollision j.canonical k.canonical := by
  constructor
  · intro h
    by_cases hc : j.canonical = k.canonical
    · exact .inl hc
    · exact .inr ⟨hc, h⟩
  · rintro (h | h)
    · rw [address, address, h]
    · exact h.2

theorem address_determines_iff (k : PublicKey) :
    (∀ j : PublicKey, j.address = k.address →
      j = k ∨ AddressCollision j.canonical k.canonical) ↔ k.isPlain = true := by
  rw [← outline_determines_iff]
  constructor
  · intro h j hj
    have hc := canonical_eq_iff.2 hj
    exact (h j (address_eq_iff.2 (.inl hc))).elim id fun e => absurd hc e.1
  · intro h j hj
    exact (address_eq_iff.1 hj).imp (fun hc => h j (canonical_eq_iff.1 hc)) id

/-- Canonical bytes stand for one key, and an address for one key up to collisions of the truncated
digest, exactly for the plain keys; so it is for a provided key that was accepted for an address. -/
theorem canonical_and_address_determine_iff (k : PublicKey) :
    ((∀ j : PublicKey, j.canonical = k.canonical → j = k) ↔ k.isPlain = true) ∧
    ((∀ j : PublicKey, j.address = k.address →
      j = k ∨ AddressCollision j.canonical k.canonical) ↔ k.isPlain = true) ∧
    ∀ (tx : Transaction) (a : Address) (i : Nat), tx.providedKey? i = some k →
      Gate.checkProvidedKey tx a i = .ok () →
      ((∀ j : PublicKey, j.address = a →
        j = k ∨ AddressCollision j.canonical k.canonical) ↔ k.isPlain = true) := by
  refine ⟨?_, address_determines_iff k, fun tx a i hk hc => ?_⟩
  · simp only [canonical_eq_iff]
    exact outline_determines_iff k
  · rw [← Gate.address_of_checkProvidedKey tx hk hc]
    exact address_determines_iff k

/-- Two of three single keys. -/
def twoOfThree : PublicKey := .multisig 2
  [.single (.ed25519 (.replicate 32 1)), .single (.ed25519 (.replicate 32 2)),
   .single (.ed25519 (.replicate 32 3))]

/-- A message of the address of a key, with the key provided for it. -/
def providing (k : PublicKey) : Transaction where
  body := ⟨[.send ⟨k.address, .replicate 20 9, .empty⟩], "", 0, [], []⟩
  authInfo := ⟨[⟨some k, .single .direct, 0⟩], ⟨.empty, 1, none, none⟩⟩
  signatures := [[]]

theorem twoOfThree_address_determines :
    twoOfThree.isPlain = true ∧ (providing twoOfThree).providedKey? 0 = some twoOfThree ∧
    Gate.checkProvidedKey (providing twoOfThree) twoOfThree.address 0 = .ok () ∧
    ∀ j : PublicKey, j.address = twoOfThree.address →
      j = twoOfThree ∨ AddressCollision j.canonical twoOfThree.canonical := by
  have hk : (providing twoOfThree).providedKey? 0 = some twoOfThree := rfl
  have hc : Gate.checkProvidedKey (providing twoOfThree) twoOfThree.address 0 = .ok () := by
    simp [Gate.checkProvidedKey, hk]
  exact ⟨rfl, hk, hc, ((canonical_and_address_determine_iff twoOfThree).2.2 _ _ 0 hk hc).2 rfl⟩

/-- Of the first two keys one must sign, and the third one. -/
def oneAndThird : PublicKey := .multisig 2
  [.multisig 1 [.single (.ed25519 (.replicate 32 1)), .single (.ed25519 (.replicate 32 2))],
   .single (.ed25519 (.replicate 32 3))]

/-- Any two of the three keys, since the first one stands in a threshold key of its own. -/
def anyTwo : PublicKey := .multisig 2
  [.multisig 1 [.single (.ed25519 (.replicate 32 1))], .single (.ed25519 (.replicate 32 2)),
   .single (.ed25519 (.replicate 32 3))]

/-- The key of the second policy is accepted for the address of the first one. -/
theorem anyTwo_shares_canonical :
    anyTwo ≠ oneAndThird ∧ anyTwo.canonical = oneAndThird.canonical ∧
    anyTwo.address = oneAndThird.address ∧
    Gate.checkProvidedKey (providing anyTwo) oneAndThird.address 0 = .ok () := by
  have hc : anyTwo.canonical = oneAndThird.canonical := canonical_eq_iff.2 rfl
  have ha : anyTwo.address = oneAndThird.address := address_eq_iff.2 (.inl hc)
  have hk : (providing anyTwo).providedKey? 0 = some anyTwo := rfl
  refine ⟨by decide, hc, ha, ?_⟩
  simp [Gate.checkProvidedKey, hk, ha]

end PublicKey
end Tollgate
