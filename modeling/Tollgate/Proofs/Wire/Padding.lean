import Tollgate.Proofs.Text.Digits
import Tollgate.Wire.Transaction
/-! Amounts are the only values with several binary forms: a plus sign and zeros may stand before the
digits. Padding of this kind is what a binary form can hold beyond the one that is written. -/
namespace Tollgate

namespace Amount

/-- The decimal digits after some zeros and perhaps a plus sign. -/
def padded (a : Amount) (sign : Bool) (zeros : Nat) : String :=
  String.ofList ((if sign then ['+'] else []) ++ List.replicate zeros '0') ++ a.text

theorem toList_padded (a : Amount) (sign : Bool) (zeros : Nat) : (a.padded sign zeros).toList =
    (if sign then ['+'] else []) ++ (List.replicate zeros '0' ++ Text.digits a.toNat) := by
  simp [padded, text, Text.decimal]

theorem ofDigits?_eq_some_iff {cs : List Char} {a : Amount} : ofDigits? cs = some a ↔
    ∃ zeros, cs = List.replicate zeros '0' ++ Text.digits a.toNat := by
  rw [ofDigits?_eq, Option.bind_eq_some_iff]
  constructor
  · rintro ⟨n, hn, ha⟩
    obtain rfl := ofNat?_eq_some_iff.1 ha
    exact Text.ofDigits?_eq_some_iff.1 hn
  · intro h
    exact ⟨a.toNat, Text.ofDigits?_eq_some_iff.2 h, ofNat?_toNat a⟩

theorem dropPlus_zeros_append (zeros n : Nat) :
    Text.dropPlus (List.replicate zeros '0' ++ Text.digits n) =
      List.replicate zeros '0' ++ Text.digits n := by
  cases zeros with
  | zero => exact Text.dropPlus_digits n
  | succ zeros => simp [List.replicate_succ, Text.dropPlus]

/-- The texts that are read as an amount are its padded texts. -/
theorem ofText?_eq_some_iff {s : String} {a : Amount} :
    ofText? s = some a ↔ ∃ sign zeros, s = a.padded sign zeros := by
  simp only [← String.toList_inj, toList_padded, ofText?, ofDigits?_eq_some_iff]
  constructor
  · rintro ⟨zeros, h⟩
    unfold Text.dropPlus at h
    split at h
    · next cs hcs => exact ⟨true, zeros, by rw [hcs, h]; rfl⟩
    · exact ⟨false, zeros, h⟩
  · rintro ⟨sign, zeros, h⟩
    refine ⟨zeros, ?_⟩
    rw [h]
    cases sign with
    | false => exact dropPlus_zeros_append zeros a.toNat
    | true => rfl

theorem length_write_padded (a : Amount) (sign : Bool) (zeros : Nat) :
    (Format.string.write (a.padded sign zeros)).length = (Amount.format.write a).length +
      (utf8 (String.ofList ((if sign then ['+'] else []) ++ List.replicate zeros '0'))).length := by
  have hlength (s : String) : (Format.string.write s).length = 8 + (utf8 s).length := by
    change (littleEndian 8 _ ++ utf8 s).length = _
    simp
  change _ = (Format.string.write a.text).length + _
  rw [hlength, hlength, padded, utf8_append, List.length_append]
  omega

end Amount

/-- The second byte string spells the same as the first one, except that some amounts in it are
padded. -/
inductive Padded : Bytes → Bytes → Prop
  | same (bs : Bytes) : Padded bs bs
  | amount (a : Amount) (sign : Bool) (zeros : Nat) :
    Padded (Amount.format.write a) (Format.string.write (a.padded sign zeros))
  | append {ws us ws' us' : Bytes} (h : Padded ws us) (h' : Padded ws' us') :
    Padded (ws ++ ws') (us ++ us')

namespace Padded

variable {ws us : Bytes}

theorem length_le (h : Padded ws us) : ws.length ≤ us.length := by
  induction h with
  | same bs => exact Nat.le_refl _
  | amount a sign zeros =>
    rw [Amount.length_write_padded]
    exact Nat.le_add_right _ _
  | append _ _ ih ih' =>
    rw [List.length_append, List.length_append]
    exact Nat.add_le_add ih ih'

/-- Padding takes up bytes. -/
theorem eq_of_length_eq (h : Padded ws us) (hl : ws.length = us.length) : ws = us := by
  induction h with
  | same bs => rfl
  | amount a sign zeros =>
    rw [Amount.length_write_padded, Nat.left_eq_add, List.length_eq_zero_iff] at hl
    have hnone : String.ofList ((if sign then ['+'] else []) ++ List.replicate zeros '0') = "" :=
      utf8_inj.1 hl
    rw [Amount.padded, hnone, String.empty_append]
    rfl
  | append h h' ih ih' =>
    rw [List.length_append, List.length_append] at hl
    have hle := h.length_le
    have hle' := h'.length_le
    rw [ih (by omega), ih' (by omega)]

end Padded
end Tollgate
