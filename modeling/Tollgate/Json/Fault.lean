import Tollgate.Bytes
/-! Why and where a byte string is not a JSON document. -/
namespace Tollgate.Json

inductive Reason where
  | endInValue
  | endInList
  | endInObject
  | endInString
  | expectedValue
  | expectedWord
  | invalidNumber
  | expectedListCommaOrEnd
  | expectedObjectCommaOrEnd
  | expectedColon
  | keyMustBeString
  | controlCharacter
  | invalidEscape
  | trailingCharacters
  deriving DecidableEq, Repr

def Reason.message : Reason → String
  | .endInValue => "EOF while parsing a value"
  | .endInList => "EOF while parsing a list"
  | .endInObject => "EOF while parsing an object"
  | .endInString => "EOF while parsing a string"
  | .expectedValue => "expected value"
  | .expectedWord => "expected ident"
  | .invalidNumber => "invalid number"
  | .expectedListCommaOrEnd => "expected `,` or `]`"
  | .expectedObjectCommaOrEnd => "expected `,` or `\x7d`"
  | .expectedColon => "expected `:`"
  | .keyMustBeString => "key must be a string"
  | .controlCharacter => "control character (\\u0000-\\u001F) found while parsing a string"
  | .invalidEscape => "invalid escape"
  | .trailingCharacters => "trailing characters"

/-- A place in a byte string: lines are counted from one, columns are the bytes since the last line
break. -/
structure Position where
  line : Nat
  column : Nat
  deriving DecidableEq, Repr

def Position.start : Position := ⟨1, 0⟩

def Position.advance (p : Position) (b : UInt8) : Position :=
  if b = 10 then ⟨p.line + 1, 0⟩ else ⟨p.line, p.column + 1⟩

structure Fault where
  reason : Reason
  position : Position
  deriving DecidableEq, Repr

def Fault.message (f : Fault) : String :=
  s!"{f.reason.message} at line {f.position.line} column {f.position.column}"

end Tollgate.Json
