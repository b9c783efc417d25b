import Tollgate.Json.Reader
import Tollgate.Json.Print
/-! Reading typed values out of a document. A structure is an object, or a list of its fields in
order; an alternative is its name, or an object with its name as the only key. Containers that are
entered may not be nested deeper than a limit; a value that is skipped may. -/
namespace Tollgate.Json

/-- Reads a value when some levels of nesting are left. -/
abbrev Decoder (α : Type) := Nat → Json → Option α

/-- One more level than the number of nested containers that can be entered. -/
def levelLimit : Nat := 128

/-- The levels left inside a container. -/
def enter (levels : Nat) : Option Nat := if levels ≤ 1 then none else some (levels - 1)

namespace Decoder

def bool : Decoder Bool
  | _, .bool b => some b
  | _, _ => none

/-- A number below a bound, written as plain digits. -/
def below (bound : Nat) : Decoder Nat
  | _, .number (some n) => if n < bound then some n else none
  | _, _ => none

def byte : Decoder UInt8 := fun levels j => (below (2 ^ 8) levels j).map UInt8.ofNat

def word32 : Decoder UInt32 := fun levels j => (below (2 ^ 32) levels j).map UInt32.ofNat

def word64 : Decoder UInt64 := fun levels j => (below (2 ^ 64) levels j).map UInt64.ofNat

def string : Decoder String
  | _, .text t => t.text?
  | _, _ => none

def option {α : Type} (d : Decoder α) : Decoder (Option α)
  | _, .null => some none
  | levels, j => (d levels j).map some

def list {α : Type} (d : Decoder α) : Decoder (List α)
  | levels, .list xs => do
    let levels ← enter levels
    xs.mapM (d levels)
  | _, _ => none

def bytes : Decoder Bytes := list byte

def fixedBytes (n : Nat) : Decoder (FixedBytes n) := fun levels j =>
  (bytes levels j).bind (FixedBytes.ofList? n)

/-- The fields of a structure, and the levels left for their values. A field that an object does not
name, or that is beyond the end of a list, is absent. -/
structure Fields where
  levels : Nat
  values : List (Option Json)
  /-- The fields came by name. -/
  named : Bool

/-- The members of an object whose keys are all Unicode text. -/
def textMembers (ms : List (JsonText × Json)) : Option (List (String × Json)) :=
  ms.mapM fun m => m.1.text?.map fun k => (k, m.2)

/-- No member of this name is followed by another one of the same name. -/
def occursOnce (ms : List (String × Json)) (name : String) : Bool :=
  (ms.filter fun m => m.1 = name).length ≤ 1

/-- Members of other names are skipped; a field may not be given twice. -/
def fields (names : List String) : Decoder Fields
  | levels, .object ms => do
    let levels ← enter levels
    let ms ← textMembers ms
    guard (names.all (occursOnce ms))
    guard (ms.all fun m => m.1 ∈ names || m.2.isClean)
    return ⟨levels, names.map fun n => List.lookup n ms, true⟩
  | levels, .list xs => do
    let levels ← enter levels
    guard (xs.length ≤ names.length)
    return ⟨levels, names.mapIdx fun i _ => xs[i]?, false⟩
  | _, _ => none

namespace Fields

/-- A field that must be present. -/
def required {α : Type} (fs : Fields) (d : Decoder α) (value : Option Json) : Option α :=
  value.bind (d fs.levels)

/-- A field that may be left out where fields are named. -/
def optional {α : Type} (fs : Fields) (d : Decoder α) (value : Option Json) : Option (Option α) :=
  match value with
  | some j => Decoder.option d fs.levels j
  | none => if fs.named then some none else none

/-- A field that has a default. -/
def defaulting {α : Type} (fs : Fields) (d : Decoder α) (default : α) (value : Option Json) :
    Option α :=
  match value with
  | some j => d fs.levels j
  | none => some default

end Fields

/-- The chosen alternative: its name and what belongs to it. -/
structure Choice where
  name : String
  levels : Nat
  content : Option Json

def choice : Decoder Choice
  | levels, .text t => t.text?.map fun name => ⟨name, levels, none⟩
  | levels, .object [(k, v)] => do
    let levels ← enter levels
    let name ← k.text?
    return ⟨name, levels, some v⟩
  | _, _ => none

/-- An alternative without content; an object may give it null. -/
def Choice.unit {α : Type} (c : Choice) (a : α) : Option α :=
  match c.content with
  | none => some a
  | some .null => some a
  | some _ => none

def Choice.holding {α β : Type} (c : Choice) (d : Decoder α) (f : α → β) : Option β :=
  c.content.bind fun j => (d c.levels j).map f

end Decoder

/-- Reads a whole byte string as one value. -/
def decode? {α : Type} (d : Decoder α) (bs : Bytes) : Option α :=
  match read true bs with
  | .ok j => d levelLimit j
  | .error _ => none

end Tollgate.Json
