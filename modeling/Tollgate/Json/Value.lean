import Tollgate.Bytes
/-! JSON documents as trees. Objects keep their members in order, and repeated keys. -/
namespace Tollgate

/-- The content of a JSON string. Surrogates that an escape leaves unpaired are kept as three bytes
each, so the bytes may not be valid UTF-8. -/
structure JsonText where
  bytes : Bytes
  /-- A control character stands in it unescaped. -/
  hasControl : Bool
  deriving DecidableEq

namespace JsonText

def ofString (s : String) : JsonText := ⟨utf8 s, false⟩

/-- The text, if it is Unicode text without unescaped control characters. -/
def text? (t : JsonText) : Option String := if t.hasControl then none else Tollgate.text? t.bytes

@[simp] theorem text?_ofString (s : String) : (ofString s).text? = some s := by
  simp [text?, ofString]

end JsonText

inductive Json where
  | null
  | bool (b : Bool)
  /-- The value of a number below 2^64 written as plain digits; any other number has none. -/
  | number (value : Option Nat)
  | text (t : JsonText)
  | list (items : List Json)
  | object (members : List (JsonText × Json))

namespace Json

instance : Inhabited Json := ⟨.null⟩

def string (s : String) : Json := .text (.ofString s)

def nat (n : Nat) : Json := .number (some n)

/-- An object with its members in the given order. -/
def record (fields : List (String × Json)) : Json :=
  .object (fields.map fun f => (.ofString f.1, f.2))

def ofOption {α : Type} (f : α → Json) : Option α → Json
  | none => .null
  | some a => f a

def ofList {α : Type} (f : α → Json) (xs : List α) : Json := .list (xs.map f)

/-- A byte string is a list of numbers. -/
def ofBytes (bs : Bytes) : Json := ofList (fun b => .nat b.toNat) bs

mutual
/-- How deep containers are nested; scalars have depth zero. -/
def depth : Json → Nat
  | .list xs => 1 + depthOfList xs
  | .object ms => 1 + depthOfMembers ms
  | .null => 0
  | .bool _ => 0
  | .number _ => 0
  | .text _ => 0
def depthOfList : List Json → Nat
  | [] => 0
  | x :: xs => max (depth x) (depthOfList xs)
def depthOfMembers : List (JsonText × Json) → Nat
  | [] => 0
  | (_, v) :: ms => max (depth v) (depthOfMembers ms)
end

mutual
/-- No string in the document holds an unescaped control character. -/
def isClean : Json → Bool
  | .text t => !t.hasControl
  | .list xs => isCleanList xs
  | .object ms => isCleanMembers ms
  | .null => true
  | .bool _ => true
  | .number _ => true
def isCleanList : List Json → Bool
  | [] => true
  | x :: xs => isClean x && isCleanList xs
def isCleanMembers : List (JsonText × Json) → Bool
  | [] => true
  | (k, v) :: ms => !k.hasControl && isClean v && isCleanMembers ms
end

/-- Puts a member before the first one whose key is not smaller. -/
def insertMember (m : JsonText × Json) : List (JsonText × Json) → List (JsonText × Json)
  | [] => [m]
  | x :: xs => if m.1.bytes ≤ x.1.bytes then m :: x :: xs else x :: insertMember m xs

/-- Members in ascending order of the bytes of their keys. -/
def sortMembers (ms : List (JsonText × Json)) : List (JsonText × Json) := ms.foldr insertMember []

mutual
/-- The same document with the members of every object sorted by key. -/
def sorted : Json → Json
  | .list xs => .list (sortedList xs)
  | .object ms => .object (sortMembers (sortedMembers ms))
  | .null => .null
  | .bool b => .bool b
  | .number n => .number n
  | .text t => .text t
def sortedList : List Json → List Json
  | [] => []
  | x :: xs => sorted x :: sortedList xs
def sortedMembers : List (JsonText × Json) → List (JsonText × Json)
  | [] => []
  | (k, v) :: ms => (k, sorted v) :: sortedMembers ms
end

end Json
end Tollgate
