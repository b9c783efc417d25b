import Tollgate.Power
/-! Byte strings, byte strings of a fixed length, little-endian numbers and hexadecimal text. -/
namespace Tollgate

/-- A byte string. -/
abbrev Bytes := List UInt8

/-- A byte string of exactly `n` bytes. -/
structure FixedBytes (n : Nat) where
  toList : Bytes
  length_eq : toList.length = n
  deriving DecidableEq

namespace FixedBytes

/-- The bytes themselves, when there are exactly `n` of them. -/
def ofList? (n : Nat) (bs : Bytes) : Option (FixedBytes n) :=
  if h : bs.length = n then some ⟨bs, h⟩ else none

def replicate (n : Nat) (b : UInt8) : FixedBytes n := ⟨List.replicate n b, List.length_replicate⟩

/-- The first `n` bytes of a longer block. -/
def take (n : Nat) {m : Nat} (b : FixedBytes m) (h : n ≤ m) : FixedBytes n :=
  ⟨b.toList.take n, by simp [b.length_eq, h]⟩

@[simp] theorem length_toList {n : Nat} (b : FixedBytes n) : b.toList.length = n := b.length_eq

@[simp] theorem ofList?_toList {n : Nat} (b : FixedBytes n) : ofList? n b.toList = some b := by
  simp [ofList?]

theorem toList_of_ofList? {n : Nat} {bs : Bytes} {b : FixedBytes n} (h : ofList? n bs = some b) :
    b.toList = bs := by
  unfold ofList? at h
  split at h
  · cases h; rfl
  · cases h

theorem toList_inj {n : Nat} {a b : FixedBytes n} : a.toList = b.toList ↔ a = b := by
  cases a; cases b; simp

end FixedBytes

/-- The `n` lowest base-256 digits of a number, least significant first. -/
def littleEndian : Nat → Nat → Bytes
  | 0, _ => []
  | n+1, v => UInt8.ofNat v :: littleEndian n (v / 256)

/-- The number written by base-256 digits, least significant first. -/
def ofLittleEndian : Bytes → Nat
  | [] => 0
  | b :: bs => b.toNat + 256 * ofLittleEndian bs

/-- The `n` lowest base-256 digits of a number, most significant first. -/
def bigEndian (n v : Nat) : Bytes := (littleEndian n v).reverse

/-- The number written by base-256 digits, most significant first. -/
def ofBigEndian (bs : Bytes) : Nat := ofLittleEndian bs.reverse

@[simp] theorem length_littleEndian (n v : Nat) : (littleEndian n v).length = n := by
  induction n generalizing v with
  | zero => rfl
  | succ n ih => simp [littleEndian, ih]

theorem ofLittleEndian_littleEndian (n v : Nat) :
    ofLittleEndian (littleEndian n v) = v % 256 ^ n := by
  induction n generalizing v with
  | zero => simp [littleEndian, ofLittleEndian, Nat.mod_one]
  | succ n ih =>
    have hp : 256 ^ (n + 1) = 256 * 256 ^ n := by rw [Nat.pow_succ, Nat.mul_comm]
    rw [hp, Nat.mod_mul]
    simp [littleEndian, ofLittleEndian, ih]

theorem littleEndian_ofLittleEndian (bs : Bytes) :
    littleEndian bs.length (ofLittleEndian bs) = bs := by
  induction bs with
  | nil => rfl
  | cons b bs ih =>
    have hb : b.toNat < 256 := b.toNat_lt
    have hq : (b.toNat + 256 * ofLittleEndian bs) / 256 = ofLittleEndian bs := by omega
    have hr : UInt8.ofNat (b.toNat + 256 * ofLittleEndian bs) = b := by
      apply UInt8.toNat_inj.1; simp
    simp [littleEndian, ofLittleEndian, hq, hr, ih]

theorem ofLittleEndian_lt (bs : Bytes) : ofLittleEndian bs < 256 ^ bs.length := by
  induction bs with
  | nil => simp [ofLittleEndian]
  | cons b bs ih =>
    have hb : b.toNat < 256 := b.toNat_lt
    simp only [ofLittleEndian, List.length_cons, Nat.pow_succ]
    omega

/-- The UTF-8 bytes of a text. -/
def utf8 (s : String) : Bytes := s.toByteArray.data.toList

/-- The text with these UTF-8 bytes, if they are valid. -/
def text? (bs : Bytes) : Option String := String.fromUTF8? ⟨bs.toArray⟩

@[simp] theorem text?_utf8 (s : String) : text? (utf8 s) = some s := by
  have h : (ByteArray.mk (utf8 s).toArray) = s.toByteArray := by simp [utf8]
  simp only [text?, String.fromUTF8?, h]
  rw [dif_pos s.isValidUTF8]
  rfl

theorem utf8_of_text? {bs : Bytes} {s : String} (h : text? bs = some s) : utf8 s = bs := by
  simp only [text?, String.fromUTF8?] at h
  split at h
  · cases h; simp [utf8, String.fromUTF8]
  · cases h

theorem utf8_inj {s t : String} : utf8 s = utf8 t ↔ s = t := by
  refine ⟨fun h => ?_, fun h => h ▸ rfl⟩
  have := congrArg text? h
  simpa using this

/-- The lower-case hexadecimal digit of a number below 16. -/
def hexDigit (n : Nat) : Char := if n < 10 then Char.ofNat (48 + n) else Char.ofNat (87 + n)

/-- Two lower-case hexadecimal digits for every byte. -/
def hexText (bs : Bytes) : String :=
  String.ofList (bs.flatMap fun b => [hexDigit (b.toNat / 16), hexDigit (b.toNat % 16)])

end Tollgate
