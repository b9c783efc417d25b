import Tollgate.Bytes
/-! Binary formats: how a value is written, and how it is read from the front of a byte string.
Numbers are little-endian with a fixed width, lengths take eight bytes, a structure is its fields in
turn and an alternative is preceded by its position. -/
namespace Tollgate

inductive WireError where
  | endOfInput
  | invalidUtf8
  | invalidBool
  | invalidTag
  /-- The bytes have the right shape but stand for no value. -/
  | rejected
  deriving DecidableEq, Repr

/-- A writer and a reader that belong together. The reader returns the bytes it did not use. -/
structure Format (α : Type) where
  write : α → Bytes
  read : Bytes → Except WireError (α × Bytes)

namespace Format

/-- Reads the whole value and ignores what follows it. -/
def decode {α : Type} (f : Format α) (bs : Bytes) : Except WireError α := (f.read bs).map Prod.fst

/-- The first `n` bytes and the rest. -/
def splitBytes (n : Nat) (bs : Bytes) : Except WireError (Bytes × Bytes) :=
  let (front, rest) := bs.splitAt n
  if front.length = n then .ok (front, rest) else .error .endOfInput

/-- A number of `n` bytes. -/
def number (n : Nat) : Format Nat where
  write v := littleEndian n v
  read bs := (splitBytes n bs).map fun p => (ofLittleEndian p.1, p.2)

/-- The same bytes for another type. -/
def convert {α β : Type} (f : Format α) (ofValue : α → β) (toValue : β → α) : Format β where
  write b := f.write (toValue b)
  read bs := (f.read bs).map fun p => (ofValue p.1, p.2)

/-- The same bytes for another type, when not every value read has a meaning. -/
def refine {α β : Type} (f : Format α) (ofValue? : α → Except WireError β) (toValue : β → α) :
    Format β where
  write b := f.write (toValue b)
  read bs := do
    let (a, rest) ← f.read bs
    let b ← ofValue? a
    return (b, rest)

/-- One value after the other. -/
def pair {α β : Type} (f : Format α) (g : Format β) : Format (α × β) where
  write p := f.write p.1 ++ g.write p.2
  read bs := do
    let (a, rest) ← f.read bs
    let (b, rest) ← g.read rest
    return ((a, b), rest)

def word8 : Format UInt8 := (number 1).convert UInt8.ofNat UInt8.toNat

def word32 : Format UInt32 := (number 4).convert UInt32.ofNat UInt32.toNat

def word64 : Format UInt64 := (number 8).convert UInt64.ofNat UInt64.toNat

def bool : Format Bool :=
  word8.refine
    (fun b => if b = 0 then .ok false else if b = 1 then .ok true else .error .invalidBool)
    fun b => if b then 1 else 0

/-- One byte that says whether a value follows. -/
def option {α : Type} (f : Format α) : Format (Option α) where
  write
    | none => [0]
    | some a => 1 :: f.write a
  read bs := do
    let (tag, rest) ← word8.read bs
    if tag = 0 then return (none, rest)
    if tag = 1 then
      let (a, rest) ← f.read rest
      return (some a, rest)
    throw .invalidTag

/-- Exactly `n` bytes. -/
def fixedBytes (n : Nat) : Format (FixedBytes n) where
  write b := b.toList
  read bs := do
    let (front, rest) ← splitBytes n bs
    match FixedBytes.ofList? n front with
    | some b => return (b, rest)
    | none => throw .endOfInput

/-- A length of eight bytes. -/
def length : Format Nat := number 8

/-- A byte string after its length. -/
def bytes : Format Bytes where
  write b := length.write b.length ++ b
  read bs := do
    let (n, rest) ← length.read bs
    splitBytes n rest

def string : Format String :=
  bytes.refine (fun bs => match text? bs with | some s => .ok s | none => .error .invalidUtf8) utf8

/-- Reads a number of values in turn. -/
def readMany {α : Type} (f : Format α) : Nat → Bytes → Except WireError (List α × Bytes)
  | 0, bs => .ok ([], bs)
  | n+1, bs => do
    let (a, rest) ← f.read bs
    let (as, rest) ← readMany f n rest
    return (a :: as, rest)

/-- The values in turn, after their number. -/
def list {α : Type} (f : Format α) : Format (List α) where
  write as := length.write as.length ++ as.flatMap f.write
  read bs := do
    let (n, rest) ← length.read bs
    readMany f n rest

/-- One alternative of a type: its values, and which values of the type belong to it. -/
structure Alternative (α : Type) where
  Content : Type
  format : Format Content
  make : Content → α
  content? : α → Option Content

/-- Writes a value with the first alternative it belongs to, counted from a position. -/
def writeAlternative {α : Type} (a : α) : Nat → List (Alternative α) → Bytes
  | _, [] => []
  | i, c :: cs =>
    match c.content? a with
    | some b => (number 4).write i ++ c.format.write b
    | none => writeAlternative a (i + 1) cs

/-- The position of the alternative in four bytes, then its content. -/
def alternatives {α : Type} (cases : List (Alternative α)) : Format α where
  write a := writeAlternative a 0 cases
  read bs := do
    let (i, rest) ← (number 4).read bs
    match cases[i]? with
    | none => throw .rejected
    | some c =>
      let (b, rest) ← c.format.read rest
      return (c.make b, rest)

/-- An alternative without content. -/
def Alternative.unit {α : Type} [DecidableEq α] (a : α) : Alternative α where
  Content := Unit
  format := ⟨fun _ => [], fun bs => .ok ((), bs)⟩
  make _ := a
  content? b := if b = a then some () else none

end Format
end Tollgate
