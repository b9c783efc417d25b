import Tollgate.Curve.Modular
import Tollgate.Hash.Sha512
/-! The twisted Edwards curve -x² + y² = 1 + d x² y² over the field of 2^255 - 19 elements, and the
strict verification of Ed25519 signatures. -/
namespace Tollgate.Curve.Ed25519

/-- The field prime. -/
def p : Nat := 2 ^ 255 - 19

/-- The order of the base point. -/
def l : Nat := 2 ^ 252 + 27742317777372353535851937790883648493

def d : Nat := subMod p 0 (121665 * invMod p 121666)

/-- A square root of -1. -/
def rootOfMinusOne : Nat := powMod p 2 ((p - 1) / 4)

/-- The point (x / z, y / z), with t z = x y. -/
structure Point where
  x : Nat
  y : Nat
  z : Nat
  t : Nat
  deriving DecidableEq, Repr

namespace Point

def identity : Point := ⟨0, 1, 1, 0⟩

def add (a b : Point) : Point :=
  let e := subMod p ((a.x + a.y) * (b.x + b.y)) (a.x * b.x + a.y * b.y)
  let c := d * a.t % p * b.t % p
  let zz := a.z * b.z % p
  let f := subMod p zz c
  let g := (zz + c) % p
  let h := (a.y * b.y + a.x * b.x) % p
  ⟨e * f % p, g * h % p, f * g % p, e * h % p⟩

def neg (a : Point) : Point := ⟨subMod p 0 a.x, a.y, a.z, subMod p 0 a.t⟩

/-- The sum of `j` times `a` and `k` times `b`. -/
def combine (j : Nat) (a : Point) (k : Nat) (b : Point) : Point :=
  let both := a.add b
  ((bits 256 j).zip (bits 256 k)).foldl (fun acc (u, v) =>
    let acc := acc.add acc
    if u then acc.add (if v then both else a) else if v then acc.add b else acc) identity

/-- Eight times the point is the identity. -/
def hasSmallOrder (a : Point) : Bool :=
  let b := a.add a
  let c := b.add b
  let e := c.add c
  e.x = 0 && e.y = e.z

/-- The y coordinate in 255 bits, and the parity of x. -/
def compress (a : Point) : Bytes :=
  let i := invMod p a.z
  littleEndian 32 (a.y * i % p + 2 ^ 255 * (a.x * i % p % 2))

end Point

/-- The square root of `u / v`, if there is one. -/
def sqrtRatio? (u v : Nat) : Option Nat :=
  let v3 := v * v % p * v % p
  let r := u * v3 % p * powMod p (u * v3 % p * (v3 * v % p) % p) ((p - 5) / 8) % p
  let check := v * (r * r % p) % p
  if check = u % p then some r
  else if check = subMod p 0 u then some (r * rootOfMinusOne % p)
  else none

/-- A point from 32 bytes. A y coordinate beyond the prime is reduced, and the sign of a zero x is
ignored. -/
def decompress? (bs : Bytes) : Option Point :=
  let v := ofLittleEndian bs
  let y := v % 2 ^ 255 % p
  let odd := v / 2 ^ 255 == 1
  let yy := y * y % p
  match sqrtRatio? (subMod p yy 1) ((d * yy + 1) % p) with
  | none => none
  | some r =>
    let x := if (r % 2 == 1) == odd then r else subMod p 0 r
    some ⟨x, y, 1, x * y % p⟩

/-- The base point has y = 4/5 and an even x. -/
def base : Point := (decompress? (littleEndian 32 (4 * invMod p 5 % p))).getD .identity

/-- The two halves of a signature must be canonical, neither its point nor the key may have a small
order, and the point that the equation asks for must have exactly the bytes given. -/
def verifyStrict (key : Bytes) (a : Point) (message signature : Bytes) : Bool :=
  let rBytes := signature.take 32
  let s := ofLittleEndian (signature.drop 32)
  if l ≤ s then false
  else match decompress? rBytes with
    | none => false
    | some r =>
      if r.hasSmallOrder || a.hasSmallOrder then false
      else
        let k := ofLittleEndian (Sha512.hash (rBytes ++ key ++ message)).toList % l
        (Point.combine k a.neg s base).compress = rBytes

end Tollgate.Curve.Ed25519
