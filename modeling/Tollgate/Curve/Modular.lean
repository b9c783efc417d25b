/-! Arithmetic modulo a number: powers by squaring, and inverses modulo a prime. -/
namespace Tollgate.Curve

/-- The power of a number modulo `m`, one bit of the exponent at a time. -/
def powMod (m base exponent : Nat) : Nat :=
  if exponent = 0 then 1 % m
  else
    let half := powMod m (base * base % m) (exponent / 2)
    if exponent % 2 = 1 then base * half % m else half
termination_by exponent
decreasing_by omega

/-- The inverse modulo a prime. -/
def invMod (p a : Nat) : Nat := powMod p a (p - 2)

/-- The difference modulo `m`. -/
def subMod (m a b : Nat) : Nat := (a + (m - b % m)) % m

/-- The binary digits of a number, most significant first, in a fixed width. -/
def bits (width n : Nat) : List Bool := (List.range width).reverse.map n.testBit

end Tollgate.Curve
