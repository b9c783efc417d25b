import Tollgate.Curve.Modular
import Tollgate.Hash.Sha256
/-! The curve y² = x³ + 7 over a prime field of 256 bits, and the verification of ECDSA signatures
over SHA-256 on it. -/
namespace Tollgate.Curve.Secp256k1

/-- The field prime. -/
def p : Nat := 2 ^ 256 - 2 ^ 32 - 977

/-- The order of the group. -/
def n : Nat := 0xFFFFFFFFFFFFFFFFFFFFFFFFFFFFFFFEBAAEDCE6AF48A03BBFD25E8CD0364141

/-- The point (x / z², y / z³), or the point at infinity when z is zero. -/
structure Point where
  x : Nat
  y : Nat
  z : Nat
  deriving DecidableEq, Repr

namespace Point

def infinity : Point := ⟨1, 1, 0⟩

def base : Point :=
  ⟨0x79BE667EF9DCBBAC55A06295CE870B07029BFCDB2DCE28D959F2815B16F81798,
   0x483ADA7726A3C4655DA4FBFC0E1108A8FD17B448A68554199C47D08FFB10D4B8, 1⟩

def double (a : Point) : Point :=
  if a.z = 0 ∨ a.y = 0 then infinity
  else
    let yy := a.y * a.y % p
    let s := 4 * a.x * yy % p
    let m := 3 * a.x * a.x % p
    let x := subMod p (m * m) (2 * s)
    ⟨x, subMod p (m * subMod p s x) (8 * yy * yy), 2 * a.y * a.z % p⟩

def add (a b : Point) : Point :=
  if a.z = 0 then b
  else if b.z = 0 then a
  else
    let azz := a.z * a.z % p
    let bzz := b.z * b.z % p
    let u1 := a.x * bzz % p
    let u2 := b.x * azz % p
    let s1 := a.y * bzz % p * b.z % p
    let s2 := b.y * azz % p * a.z % p
    if u1 = u2 then if s1 = s2 then a.double else infinity
    else
      let h := subMod p u2 u1
      let r := subMod p s2 s1
      let hh := h * h % p
      let hhh := hh * h % p
      let v := u1 * hh % p
      let x := subMod p (r * r) (hhh + 2 * v)
      ⟨x, subMod p (r * subMod p v x) (s1 * hhh), a.z * b.z % p * h % p⟩

/-- The sum of `k` times the base point and `l` times another point. -/
def combine (k l : Nat) (q : Point) : Point :=
  let both := base.add q
  ((bits 256 k).zip (bits 256 l)).foldl (fun acc (b, c) =>
    let acc := acc.double
    if b then acc.add (if c then both else base) else if c then acc.add q else acc) infinity

/-- The affine x coordinate of a point other than infinity. -/
def affineX? (a : Point) : Option Nat :=
  if a.z = 0 then none
  else
    let i := invMod p a.z
    some (a.x * (i * i % p) % p)

end Point

/-- The point with an x coordinate and the parity of y, if there is one. -/
def lift? (x : Nat) (odd : Bool) : Option Point :=
  let yy := (x * x % p * x + 7) % p
  let y := powMod p yy ((p + 1) / 4)
  if y * y % p = yy then some ⟨x, if (y % 2 == 1) == odd then y else p - y, 1⟩ else none

/-- A compressed point: the first byte tells the parity of y, the others are x. The byte 5 stands
for an even y as well. -/
def decompress? (key : FixedBytes 33) : Option Point :=
  match key.toList with
  | tag :: xs =>
    let x := ofBigEndian xs
    if p ≤ x then none
    else if tag = 2 ∨ tag = 5 then lift? x false
    else if tag = 3 then lift? x true
    else none
  | [] => none

/-- What a 64-byte signature says: two numbers from 1 to below the group order. -/
def scalars? (signature : Bytes) : Option (Nat × Nat) :=
  if signature.length ≠ 64 then none
  else
    let r := ofBigEndian (signature.take 32)
    let s := ofBigEndian (signature.drop 32)
    if r = 0 ∨ n ≤ r ∨ s = 0 ∨ n ≤ s then none else some (r, s)

/-- Of the two numbers that verify equally, the greater one is not allowed. -/
def isHigh (s : Nat) : Bool := n / 2 < s

/-- The ECDSA equation for the digest of a message. -/
def equation (q : Point) (message : Bytes) (r s : Nat) : Bool :=
  let e := ofBigEndian (Sha256.hash message).toList % n
  let w := invMod n s
  match (Point.combine (e * w % n) (r * w % n) q).affineX? with
  | some x => x % n = r
  | none => false

end Tollgate.Curve.Secp256k1
