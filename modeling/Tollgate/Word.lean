import Tollgate.Power
/-! Arithmetic on 64-bit words that reports or saturates where the machine operation would wrap. -/
namespace Tollgate.Word

/-- The sum, if it fits. -/
def add? (a b : UInt64) : Option UInt64 :=
  if a.toNat + b.toNat < 2 ^ 64 then some (a + b) else none

/-- The sum, or the largest word if it does not fit. -/
def addSat (a b : UInt64) : UInt64 := UInt64.ofNat (min (a.toNat + b.toNat) (2 ^ 64 - 1))

/-- The product, or the largest word if it does not fit. -/
def mulSat (a b : UInt64) : UInt64 := UInt64.ofNat (min (a.toNat * b.toNat) (2 ^ 64 - 1))

/-- The difference, or zero if it would be negative. -/
def subSat (a b : UInt64) : UInt64 := UInt64.ofNat (a.toNat - b.toNat)

/-- The number as a word, or the largest word if it does not fit. -/
def clamp (n : Nat) : UInt64 := UInt64.ofNat (min n (2 ^ 64 - 1))

theorem add?_eq_some_iff {a b c : UInt64} : add? a b = some c ↔ c.toNat = a.toNat + b.toNat := by
  have hc := c.toNat_lt
  unfold add?
  split
  · next h =>
    rw [Option.some.injEq, ← UInt64.toNat_inj, UInt64.toNat_add, Nat.mod_eq_of_lt h]
    exact eq_comm
  · next h => simp only [reduceCtorEq, false_iff]; omega

theorem add?_eq_none_iff {a b : UInt64} : add? a b = none ↔ 2 ^ 64 ≤ a.toNat + b.toNat := by
  unfold add?; split <;> simp <;> omega

@[simp] theorem toNat_clamp (n : Nat) : (clamp n).toNat = min n (2 ^ 64 - 1) := by
  simp only [clamp, UInt64.toNat_ofNat']; omega

@[simp] theorem toNat_addSat (a b : UInt64) :
    (addSat a b).toNat = min (a.toNat + b.toNat) (2 ^ 64 - 1) := toNat_clamp _

@[simp] theorem toNat_mulSat (a b : UInt64) :
    (mulSat a b).toNat = min (a.toNat * b.toNat) (2 ^ 64 - 1) := toNat_clamp _

end Tollgate.Word
