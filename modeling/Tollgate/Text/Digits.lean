/-! Decimal digits: how a natural number is written and read back. -/
namespace Tollgate.Text

/-- The decimal digits of a number, without leading zeros. -/
def digits (n : Nat) : List Char := Nat.toDigits 10 n

/-- The decimal digits of a number as text. -/
def decimal (n : Nat) : String := String.ofList (digits n)

/-- The number written by a non-empty run of ASCII digits. -/
def ofDigits? (cs : List Char) : Option Nat :=
  if cs ≠ [] ∧ cs.all Char.isDigit then some (Nat.ofDigitChars 10 cs 0) else none

/-- Reads more digits of a number below a bound, after digits with the value `n`. Reading ends with
the digit that leads beyond the bound. -/
def readBelow (bound n : Nat) : List Char → Option Nat
  | [] => some n
  | c :: cs =>
    let m := 10 * n + (c.toNat - '0'.toNat)
    if c.isDigit ∧ m < bound then readBelow bound m cs else none

/-- The number written by a non-empty run of ASCII digits, if it is below a bound. -/
def ofDigitsBelow? (bound : Nat) (cs : List Char) : Option Nat :=
  if cs = [] then none else readBelow bound 0 cs

/-- What follows at most one plus sign. -/
def dropPlus : List Char → List Char
  | '+' :: cs => cs
  | cs => cs

/-- Digits filled with zeros on the left up to a width. -/
def padLeft (width : Nat) (cs : List Char) : List Char :=
  List.replicate (width - cs.length) '0' ++ cs

@[simp] theorem ofDigits?_digits (n : Nat) : ofDigits? (digits n) = some n := by
  have h : (Nat.toDigits 10 n).all Char.isDigit = true :=
    List.all_eq_true.2 fun c hc => Nat.isDigit_of_mem_toDigits (by decide) (by decide) hc
  simp [ofDigits?, digits, h, Nat.toDigits_ne_nil,
    Nat.ofDigitChars_toDigits (b := 10) (n := n) (by decide) (by decide)]

theorem digits_ne_plus (n : Nat) (cs : List Char) : digits n ≠ '+' :: cs := by
  intro h
  have hd : '+'.isDigit = true :=
    Nat.isDigit_of_mem_toDigits (b := 10) (n := n) (by decide) (by decide)
      (by rw [← digits, h]; exact List.mem_cons_self)
  exact absurd hd (by decide)

@[simp] theorem dropPlus_digits (n : Nat) : dropPlus (digits n) = digits n := by
  unfold dropPlus
  split
  · next cs h => exact absurd h (digits_ne_plus n cs)
  · rfl

theorem le_ofDigitChars (n : Nat) (cs : List Char) : n ≤ Nat.ofDigitChars 10 cs n := by
  induction cs generalizing n with
  | nil => simp
  | cons c cs ih =>
    rw [Nat.ofDigitChars_cons]
    exact Nat.le_trans (by omega) (ih _)

theorem readBelow_eq {bound n : Nat} (h : n < bound) (cs : List Char) :
    readBelow bound n cs =
      if cs.all Char.isDigit ∧ Nat.ofDigitChars 10 cs n < bound then
        some (Nat.ofDigitChars 10 cs n)
      else none := by
  induction cs generalizing n with
  | nil => simp [readBelow, h]
  | cons c cs ih =>
    have hle := le_ofDigitChars (10 * n + (c.toNat - '0'.toNat)) cs
    simp only [readBelow, Nat.ofDigitChars_cons, List.all_cons, Bool.and_eq_true]
    by_cases hm : 10 * n + (c.toNat - '0'.toNat) < bound
    · by_cases hc : c.isDigit = true
      · rw [if_pos ⟨hc, hm⟩, ih hm]
        simp only [hc, true_and]
      · simp [hc]
    · rw [if_neg fun hh => hm hh.2, if_neg fun hh => hm (Nat.lt_of_le_of_lt hle hh.2)]

theorem ofDigitsBelow?_eq {bound : Nat} (h : 0 < bound) (cs : List Char) :
    ofDigitsBelow? bound cs = (ofDigits? cs).filter (· < bound) := by
  unfold ofDigitsBelow? ofDigits?
  by_cases hc : cs = []
  · simp [hc]
  · rw [if_neg hc, readBelow_eq h]
    by_cases hd : cs.all Char.isDigit = true <;> simp [hc, hd, Option.filter]

end Tollgate.Text
