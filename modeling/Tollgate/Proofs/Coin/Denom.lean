import Mathlib.Computability.RegularExpressions
import Tollgate.Coin.Basic
/-! Denoms as a regular language: a letter, then 2 to 127 letters, digits, slashes, colons, points,
underscores and hyphens. -/
namespace Tollgate.Denom

open RegularExpression

def letters : List Char := "abcdefghijklmnopqrstuvwxyzABCDEFGHIJKLMNOPQRSTUVWXYZ".toList

def digits : List Char := "0123456789".toList

def marks : List Char := "/:._-".toList

/-- Any one of some characters. -/
def anyOf (cs : List Char) : RegularExpression Char := cs.foldr (fun c p => char c + p) 0

/-- The pattern `[a-zA-Z][a-zA-Z0-9/:._-]{2,127}`. -/
def pattern : RegularExpression Char :=
  let tail := anyOf (letters ++ digits ++ marks)
  anyOf letters * (tail ^ 2 * (1 + tail) ^ 125)

variable {c : Char} {cs ds : List Char}

theorem mem_anyOf : ds ∈ (anyOf cs).matches' ↔ ∃ c ∈ cs, ds = [c] := by
  induction cs with
  | nil => simp [anyOf]
  | cons c cs ih =>
    rw [anyOf, List.foldr_cons, matches'_add, Language.mem_add]
    change ds ∈ (char c).matches' ∨ ds ∈ (anyOf cs).matches' ↔ _
    rw [ih, matches'_char, List.exists_mem_cons_iff]
    rfl

/-- Exactly `n` of the characters. -/
theorem mem_anyOf_pow {n : Nat} :
    ds ∈ (anyOf cs ^ n).matches' ↔ ds.length = n ∧ ∀ d ∈ ds, d ∈ cs := by
  induction n generalizing ds with
  | zero =>
    rw [matches'_pow, pow_zero, Language.mem_one, List.length_eq_zero_iff]
    exact ⟨fun h => ⟨h, by simp [h]⟩, And.left⟩
  | succ n ih =>
    rw [matches'_pow] at ih ⊢
    rw [pow_succ', Language.mem_mul]
    constructor
    · rintro ⟨as, hfirst, bs, hb, rfl⟩
      obtain ⟨a, ha, rfl⟩ := mem_anyOf.1 hfirst
      obtain ⟨hlength, hall⟩ := ih.1 hb
      exact ⟨by simp [hlength], List.forall_mem_cons.2 ⟨ha, hall⟩⟩
    · rintro ⟨hlength, hall⟩
      cases ds with
      | nil => cases hlength
      | cons d ds =>
        rw [List.forall_mem_cons] at hall
        exact ⟨[d], mem_anyOf.2 ⟨d, hall.1, rfl⟩, ds, ih.2 ⟨Nat.succ.inj hlength, hall.2⟩, rfl⟩

/-- At most `n` of the characters. -/
theorem mem_optional_pow {n : Nat} :
    ds ∈ ((1 + anyOf cs) ^ n).matches' ↔ ds.length ≤ n ∧ ∀ d ∈ ds, d ∈ cs := by
  induction n generalizing ds with
  | zero =>
    rw [matches'_pow, pow_zero, Language.mem_one, Nat.le_zero, List.length_eq_zero_iff]
    exact ⟨fun h => ⟨h, by simp [h]⟩, And.left⟩
  | succ n ih =>
    rw [matches'_pow] at ih ⊢
    rw [pow_succ', Language.mem_mul]
    constructor
    · rintro ⟨as, hfirst, bs, hb, rfl⟩
      obtain ⟨hlength, hall⟩ := ih.1 hb
      rcases (Language.mem_add _ _ as).1 hfirst with hnone | hone
      · obtain rfl := (Language.mem_one as).1 hnone
        exact ⟨Nat.le_succ_of_le hlength, hall⟩
      · obtain ⟨a, ha, rfl⟩ := mem_anyOf.1 hone
        exact ⟨Nat.succ_le_succ hlength, List.forall_mem_cons.2 ⟨ha, hall⟩⟩
    · rintro ⟨hlength, hall⟩
      cases ds with
      | nil => exact ⟨[], .inl rfl, [], ih.2 ⟨Nat.zero_le n, hall⟩, rfl⟩
      | cons d ds =>
        rw [List.forall_mem_cons] at hall
        exact ⟨[d], .inr (mem_anyOf.2 ⟨d, hall.1, rfl⟩), ds,
          ih.2 ⟨Nat.le_of_succ_le_succ hlength, hall.2⟩, rfl⟩

/-- Characters below 128 are looked up one by one. -/
theorem mem_of_ascii {p : Char → Bool} (h : ∀ n < 128, p (.ofNat n) = true → .ofNat n ∈ cs)
    (hc : c.toNat < 128) (hp : p c = true) : c ∈ cs := by
  rw [← Char.ofNat_toNat c] at hp ⊢
  exact h _ hc hp

theorem ascii_of_isAlphanum (h : c.isAlphanum = true) : c.toNat < 128 := by
  have below {d : Char} (hd : d.val.toNat < 128) (h : c.val ≤ d.val) : c.toNat < 128 :=
    Nat.lt_of_le_of_lt (UInt32.le_iff_toNat_le.1 h) hd
  rcases Bool.or_eq_true_iff.1 h with h | h
  · rcases Bool.or_eq_true_iff.1 h with h | h
    · exact below (by decide : 'Z'.val.toNat < 128) (of_decide_eq_true h).2
    · exact below (by decide : 'z'.val.toNat < 128) (of_decide_eq_true (Bool.and_eq_true_iff.1 h).2)
  · exact below (by decide : '9'.val.toNat < 128) (of_decide_eq_true (Bool.and_eq_true_iff.1 h).2)

theorem mem_letters_iff : c ∈ letters ↔ c.isAlpha = true := by
  refine ⟨fun h => ?_, fun h => mem_of_ascii (by decide) (ascii_of_isAlphanum ?_) h⟩
  · have hall : letters.all Char.isAlpha = true := by decide
    exact List.all_eq_true.1 hall c h
  · rw [Char.isAlphanum, h, Bool.true_or]

theorem mem_tail_iff : c ∈ letters ++ digits ++ marks ↔ isTailChar c = true := by
  refine ⟨fun h => ?_, fun h => mem_of_ascii (by decide +kernel) ?_ h⟩
  · have hall : (letters ++ digits ++ marks).all isTailChar = true := by decide
    exact List.all_eq_true.1 hall c h
  · rcases Bool.or_eq_true_iff.1 h with h | h
    · exact ascii_of_isAlphanum h
    · have hall : ['/', ':', '.', '_', '-'].all (fun c => c.toNat < 128) = true := by decide
      exact of_decide_eq_true (List.all_eq_true.1 hall c (of_decide_eq_true h))

theorem mem_pattern_iff : ds ∈ pattern.matches' ↔ ∃ c cs, ds = c :: cs ∧ c ∈ letters ∧
    (∀ d ∈ cs, d ∈ letters ++ digits ++ marks) ∧ 2 ≤ cs.length ∧ cs.length ≤ 127 := by
  rw [pattern, matches'_mul, matches'_mul, Language.mem_mul]
  simp only [Language.mem_mul, mem_anyOf, mem_anyOf_pow, mem_optional_pow]
  constructor
  · rintro ⟨_, ⟨c, hc, rfl⟩, _, ⟨as, ⟨hlength, ha⟩, bs, ⟨hle, hb⟩, rfl⟩, rfl⟩
    refine ⟨c, as ++ bs, rfl, hc, List.forall_mem_append.2 ⟨ha, hb⟩, ?_⟩
    rw [List.length_append]
    omega
  · rintro ⟨c, cs, rfl, hc, hall, htwo, hmany⟩
    refine ⟨[c], ⟨c, hc, rfl⟩, cs, ⟨cs.take 2, ⟨?_, fun d hd => hall d (List.mem_of_mem_take hd)⟩,
      cs.drop 2, ⟨?_, fun d hd => hall d (List.mem_of_mem_drop hd)⟩, List.take_append_drop 2 cs⟩,
      rfl⟩
    · rw [List.length_take]
      omega
    · rw [List.length_drop]
      omega

theorem isValid_iff_mem_pattern (denom : String) :
    isValid denom = true ↔ denom.toList ∈ pattern.matches' := by
  rw [mem_pattern_iff, isValid]
  cases denom.toList with
  | nil => simp
  | cons c cs =>
    simp only [Bool.and_eq_true, decide_eq_true_eq, List.all_eq_true, ← mem_letters_iff,
      ← mem_tail_iff]
    constructor
    · rintro ⟨⟨⟨hc, hall⟩, htwo⟩, hmany⟩
      exact ⟨c, cs, rfl, hc, hall, htwo, hmany⟩
    · rintro ⟨_, _, he, hc, hall, htwo, hmany⟩
      obtain ⟨rfl, rfl⟩ := List.cons.inj he
      exact ⟨⟨⟨hc, hall⟩, htwo⟩, hmany⟩

end Tollgate.Denom
