import Mathlib.Data.List.Basic
import Mathlib.Data.List.Induction
import Tollgate.Bytes
import Tollgate.Text.Digits
/-! Decimal texts: a run of digits is the digits of its value after some zeros, and takes one byte for
each digit. -/
namespace Tollgate

theorem utf8_append (s t : String) : utf8 (s ++ t) = utf8 s ++ utf8 t := by
  simp [utf8, String.toByteArray_append]

theorem utf8_ofList (cs : List Char) : utf8 (String.ofList cs) = cs.flatMap String.utf8EncodeChar := by
  simp [utf8, String.toByteArray_ofList, List.utf8Encode]

namespace Text

theorem digitChar_eq_ofNat : ∀ n < 10, n.digitChar = Char.ofNat (48 + n) := by decide

/-- A digit is the character of its value. -/
theorem digitChar_of_isDigit {c : Char} (h : c.isDigit = true) :
    c.toNat - '0'.toNat < 10 ∧ (c.toNat - '0'.toNat).digitChar = c := by
  simp only [Char.isDigit, Bool.and_eq_true, decide_eq_true_eq, ge_iff_le,
    UInt32.le_iff_toNat_le] at h
  have hlow : 48 ≤ c.toNat := h.1
  have hhigh : c.toNat ≤ 57 := h.2
  have hzero : '0'.toNat = 48 := rfl
  have hlt : c.toNat - '0'.toNat < 10 := by omega
  refine ⟨hlt, ?_⟩
  rw [digitChar_eq_ofNat _ hlt, hzero, Nat.add_sub_cancel' hlow, Char.ofNat_toNat]

theorem digits_of_lt {n : Nat} (h : n < 10) : digits n = [n.digitChar] := by
  rw [digits, Nat.toDigits_eq_if (by decide), if_pos h]

theorem digits_ten_mul_add {m d : Nat} (hm : 0 < m) (hd : d < 10) :
    digits (10 * m + d) = digits m ++ [d.digitChar] := by
  have hq : (10 * m + d) / 10 = m := by omega
  have hr : (10 * m + d) % 10 = d := by omega
  rw [digits, Nat.toDigits_of_base_le (by decide) (by omega), hq, hr, digits]

/-- A run of digits is the digits of its value after some zeros. -/
theorem eq_zeros_append_digits {cs : List Char} (hne : cs ≠ []) (hd : cs.all Char.isDigit = true) :
    ∃ zeros, cs = List.replicate zeros '0' ++ digits (Nat.ofDigitChars 10 cs 0) := by
  induction cs using List.reverseRecOn with
  | nil => exact absurd rfl hne
  | append_singleton cs c ih =>
    simp only [List.all_append, List.all_cons, List.all_nil, Bool.and_true, Bool.and_eq_true] at hd
    obtain ⟨hlt, hc⟩ := digitChar_of_isDigit hd.2
    have hvalue : Nat.ofDigitChars 10 (cs ++ [c]) 0 =
        10 * Nat.ofDigitChars 10 cs 0 + (c.toNat - '0'.toNat) := by
      rw [Nat.ofDigitChars_append, Nat.ofDigitChars_cons, Nat.ofDigitChars_nil]
    rw [hvalue]
    by_cases hcs : cs = []
    · refine ⟨0, ?_⟩
      rw [hcs, Nat.ofDigitChars_nil, Nat.mul_zero, Nat.zero_add, digits_of_lt hlt, hc]
      rfl
    · obtain ⟨zeros, hz⟩ := ih hcs hd.1
      rcases Nat.eq_zero_or_pos (Nat.ofDigitChars 10 cs 0) with hv | hv
      · -- the digit zero of the empty value becomes one of the zeros
        refine ⟨zeros + 1, ?_⟩
        rw [hv] at hz ⊢
        rw [Nat.mul_zero, Nat.zero_add, digits_of_lt hlt, hc, hz, List.replicate_succ']
        rfl
      · refine ⟨zeros, ?_⟩
        rw [digits_ten_mul_add hv hlt, hc, ← List.append_assoc, ← hz]

theorem ofDigits?_eq_some_iff {cs : List Char} {n : Nat} :
    ofDigits? cs = some n ↔ ∃ zeros, cs = List.replicate zeros '0' ++ digits n := by
  constructor
  · intro h
    unfold ofDigits? at h
    split at h
    · next hcs =>
      obtain rfl := Option.some.inj h
      exact eq_zeros_append_digits hcs.1 hcs.2
    · cases h
  · rintro ⟨zeros, rfl⟩
    induction zeros with
    | zero => simp
    | succ zeros ih =>
      unfold ofDigits? at ih ⊢
      split at ih
      · next hcs =>
        rw [List.replicate_succ, List.cons_append, if_pos ⟨List.cons_ne_nil _ _, by simp [hcs.2]⟩,
          Nat.ofDigitChars_cons]
        exact ih
      · cases ih

theorem ofDigits?_eq_some_iff_value {cs : List Char} {n : Nat} : ofDigits? cs = some n ↔
    (cs ≠ [] ∧ cs.all Char.isDigit = true) ∧ n = Nat.ofDigitChars 10 cs 0 := by
  unfold ofDigits?
  rw [Option.ite_none_right_eq_some, Option.some.injEq, eq_comm (a := n)]

theorem ofDigitChars_lt {cs : List Char} (h : cs.all Char.isDigit = true) :
    Nat.ofDigitChars 10 cs 0 < 10 ^ cs.length := by
  by_cases hne : cs = []
  · rw [hne]
    decide
  · obtain ⟨zeros, hzeros⟩ := eq_zeros_append_digits hne h
    have hpos : 0 < cs.length := List.length_pos_iff.2 hne
    refine (Nat.length_toDigits_le_iff (by decide) hpos).1 ?_
    have hlength := congrArg List.length hzeros
    rw [List.length_append] at hlength
    unfold digits at hlength
    omega

theorem all_isDigit_digits (n : Nat) : (digits n).all Char.isDigit = true :=
  List.all_eq_true.2 fun _ hc => Nat.isDigit_of_mem_toDigits (by decide) (by decide) hc

theorem length_padLeft {cs : List Char} {width : Nat} (h : cs.length ≤ width) :
    (padLeft width cs).length = width := by
  rw [padLeft, List.length_append, List.length_replicate, Nat.sub_add_cancel h]

theorem all_isDigit_padLeft (width : Nat) {cs : List Char} (h : cs.all Char.isDigit = true) :
    (padLeft width cs).all Char.isDigit = true := by
  rw [padLeft, List.all_append, h, Bool.and_true, List.all_replicate]
  simp

theorem ofDigitChars_padLeft (width : Nat) (cs : List Char) :
    Nat.ofDigitChars 10 (padLeft width cs) 0 = Nat.ofDigitChars 10 cs 0 := by
  rw [padLeft, Nat.ofDigitChars_append, Nat.ofDigitChars_replicate_zero, Nat.mul_zero]

theorem utf8_decimal (n : Nat) :
    utf8 (decimal n) = (digits n).map fun c => UInt8.ofNat c.toNat := by
  have hdigit (c : Char) (hc : c ∈ digits n) : String.utf8EncodeChar c = [UInt8.ofNat c.toNat] := by
    have h := Nat.isDigit_of_mem_toDigits (by decide) (by decide) hc
    obtain ⟨hlt, -⟩ := digitChar_of_isDigit h
    have hzero : '0'.toNat = 48 := rfl
    rw [String.utf8EncodeChar.eq_1, if_pos (by change c.toNat ≤ 127; omega)]
    rfl
  rw [decimal, utf8_ofList, List.flatMap_congr hdigit, List.map_eq_flatMap]

theorem utf8_decimal_of_lt : ∀ n < 10, utf8 (decimal n) = [UInt8.ofNat (48 + n)] := by
  intro n hn
  have hchar : ∀ n < 10, (n.digitChar).toNat = 48 + n := by decide
  rw [utf8_decimal, digits_of_lt hn, List.map_singleton, hchar n hn]

theorem utf8_decimal_ten_mul_add {m d : Nat} (hm : 0 < m) (hd : d < 10) :
    utf8 (decimal (10 * m + d)) = utf8 (decimal m) ++ [UInt8.ofNat (48 + d)] := by
  rw [← utf8_decimal_of_lt d hd, utf8_decimal, utf8_decimal, utf8_decimal,
    digits_ten_mul_add hm hd, digits_of_lt hd, List.map_append]

theorem length_utf8_decimal (n : Nat) : (utf8 (decimal n)).length = (digits n).length := by
  rw [utf8_decimal, List.length_map]

end Text
end Tollgate
