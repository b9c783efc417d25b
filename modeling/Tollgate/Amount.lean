import Tollgate.Power
import Tollgate.Text.Digits
/-! Token amounts: natural numbers below 2^128, with arithmetic that reports or saturates. -/
namespace Tollgate

/-- A number of base units of one token. -/
structure Amount where
  toNat : Nat
  toNat_lt : toNat < 2 ^ 128
  deriving DecidableEq

namespace Amount

/-- The number as an amount, if it fits. -/
def ofNat? (n : Nat) : Option Amount := if h : n < 2 ^ 128 then some ⟨n, h⟩ else none

/-- The number as an amount, or the largest amount if it does not fit. -/
def clamp (n : Nat) : Amount := ⟨min n (2 ^ 128 - 1), by omega⟩

def zero : Amount := ⟨0, by decide⟩

/-- The sum, if it fits. -/
def add? (a b : Amount) : Option Amount := ofNat? (a.toNat + b.toNat)

/-- The difference, or zero if it would be negative. -/
def subSat (a b : Amount) : Amount := ⟨a.toNat - b.toNat, by have := a.toNat_lt; omega⟩

def isZero (a : Amount) : Bool := a.toNat == 0

instance : Inhabited Amount := ⟨zero⟩
instance : LE Amount := ⟨fun a b => a.toNat ≤ b.toNat⟩
instance : LT Amount := ⟨fun a b => a.toNat < b.toNat⟩
instance (a b : Amount) : Decidable (a ≤ b) := inferInstanceAs (Decidable (a.toNat ≤ b.toNat))
instance (a b : Amount) : Decidable (a < b) := inferInstanceAs (Decidable (a.toNat < b.toNat))

/-- Decimal digits without leading zeros. -/
def text (a : Amount) : String := Text.decimal a.toNat

/-- Reads a run of decimal digits; leading zeros are allowed. -/
def ofDigits? (cs : List Char) : Option Amount := (Text.ofDigitsBelow? (2 ^ 128) cs).bind ofNat?

/-- Reads decimal digits after at most one plus sign. -/
def ofText? (s : String) : Option Amount := ofDigits? (Text.dropPlus s.toList)

theorem toNat_inj {a b : Amount} : a.toNat = b.toNat ↔ a = b := by cases a; cases b; simp

@[simp] theorem toNat_zero : zero.toNat = 0 := rfl

theorem ofNat?_eq_some_iff {n : Nat} {a : Amount} : ofNat? n = some a ↔ a.toNat = n := by
  have ha := a.toNat_lt
  unfold ofNat?
  split
  · rw [Option.some.injEq, ← toNat_inj]; exact eq_comm
  · simp only [reduceCtorEq, false_iff]; omega

@[simp] theorem ofNat?_toNat (a : Amount) : ofNat? a.toNat = some a := ofNat?_eq_some_iff.2 rfl

@[simp] theorem toNat_subSat (a b : Amount) : (a.subSat b).toNat = a.toNat - b.toNat := rfl

theorem le_iff {a b : Amount} : a ≤ b ↔ a.toNat ≤ b.toNat := Iff.rfl

theorem lt_iff {a b : Amount} : a < b ↔ a.toNat < b.toNat := Iff.rfl

theorem ofDigits?_eq (cs : List Char) : ofDigits? cs = (Text.ofDigits? cs).bind ofNat? := by
  rw [ofDigits?, Text.ofDigitsBelow?_eq (by decide)]
  cases Text.ofDigits? cs with
  | none => rfl
  | some n =>
    simp only [Option.filter, decide_eq_true_eq]
    split
    · rfl
    · next h => exact (show ofNat? n = none from dif_neg h).symm

@[simp] theorem ofText?_text (a : Amount) : ofText? a.text = some a := by
  simp [ofText?, ofDigits?_eq, text, Text.decimal]

end Amount
end Tollgate
