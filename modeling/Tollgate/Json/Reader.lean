import Tollgate.Json.Value
import Tollgate.Json.Fault
/-! A JSON reader that takes one byte at a time and keeps the open containers on a stack, so that
nesting is not limited. -/
namespace Tollgate.Json

/-- A container around the value being read, newest entry first. -/
inductive Frame where
  | list (items : List Json)
  | object (members : List (JsonText × Json)) (key : JsonText)

/-- Where the reader stands when a value is complete. -/
inductive Follow where
  | item (items : List Json)
  | member (members : List (JsonText × Json))
  | finished (value : Json)

/-- A part of a string: a byte as it stands, or the code unit of an escape. -/
inductive Piece where
  | byte (b : UInt8)
  | unit (u : Nat)

inductive Escape where
  | none
  | started
  /-- `count` hexadecimal digits seen; `value` is absent after a byte that is no such digit. -/
  | hex (count : Nat) (value : Option Nat)

inductive NumberPart where
  | minus
  | zero (negative : Bool)
  | integer (value : Option Nat)
  | point
  | fraction
  | exponent
  | exponentSign
  | exponentDigits

/-- Whether a string is a value or the next key of an object with the given members. -/
inductive Role where
  | value
  | key (members : List (JsonText × Json))

inductive Phase where
  /-- A value must start here. -/
  | value
  /-- Just after an opening bracket. -/
  | firstItem
  /-- Just after an opening brace. -/
  | firstKey
  /-- After a comma in an object. -/
  | key (members : List (JsonText × Json))
  | colon (members : List (JsonText × Json)) (key : JsonText)
  | follow (f : Follow)
  /-- Inside a string; the pieces are newest first. -/
  | string (role : Role) (pieces : List Piece) (hasControl : Bool) (escape : Escape)
  /-- Inside `true`, `false` or `null`. -/
  | word (next : UInt8) (rest : Bytes) (value : Json)
  | number (part : NumberPart)

structure State where
  phase : Phase
  stack : List Frame

def isSpace (b : UInt8) : Bool := b = 32 || b = 10 || b = 9 || b = 13

def isDigit (b : UInt8) : Bool := 48 ≤ b && b ≤ 57

def digitValue (b : UInt8) : Nat := b.toNat - 48

def hexValue? (b : UInt8) : Option Nat :=
  if 48 ≤ b ∧ b ≤ 57 then some (b.toNat - 48)
  else if 97 ≤ b ∧ b ≤ 102 then some (b.toNat - 87)
  else if 65 ≤ b ∧ b ≤ 70 then some (b.toNat - 55)
  else none

/-- The UTF-8 bytes of a code point; surrogates take three bytes like their neighbours. -/
def codePoint (u : Nat) : Bytes :=
  if u < 0x80 then [UInt8.ofNat u]
  else if u < 0x800 then [UInt8.ofNat (0xC0 + u / 64), UInt8.ofNat (0x80 + u % 64)]
  else if u < 0x10000 then
    [UInt8.ofNat (0xE0 + u / 4096), UInt8.ofNat (0x80 + u / 64 % 64), UInt8.ofNat (0x80 + u % 64)]
  else
    [UInt8.ofNat (0xF0 + u / 262144), UInt8.ofNat (0x80 + u / 4096 % 64),
     UInt8.ofNat (0x80 + u / 64 % 64), UInt8.ofNat (0x80 + u % 64)]

def isHighSurrogate (u : Nat) : Bool := 0xD800 ≤ u && u < 0xDC00

def isLowSurrogate (u : Nat) : Bool := 0xDC00 ≤ u && u < 0xE000

/-- Puts the pieces, newest first, before `rest`; neighbouring escapes of a high and a low surrogate
are one code point. -/
def assemble : List Piece → Bytes → Bytes
  | [], rest => rest
  | .byte b :: older, rest => assemble older (b :: rest)
  | .unit low :: .unit high :: older, rest =>
    if isLowSurrogate low && isHighSurrogate high then
      assemble older (codePoint (0x10000 + (high - 0xD800) * 1024 + (low - 0xDC00)) ++ rest)
    else assemble (.unit high :: older) (codePoint low ++ rest)
  | .unit u :: older, rest => assemble older (codePoint u ++ rest)

/-- The place after a complete value, in the innermost open container. -/
def complete (v : Json) : List Frame → Follow × List Frame
  | [] => (.finished v, [])
  | .list items :: stack => (.item (v :: items), stack)
  | .object members key :: stack => (.member ((key, v) :: members), stack)

def completed (v : Json) (stack : List Frame) : State :=
  let (f, stack) := complete v stack
  ⟨.follow f, stack⟩

/-- The first byte of a value. -/
def startValue (stack : List Frame) (b : UInt8) : Except Reason State :=
  if b = 34 then .ok ⟨.string .value [] false .none, stack⟩
  else if b = 91 then .ok ⟨.firstItem, stack⟩
  else if b = 123 then .ok ⟨.firstKey, stack⟩
  else if b = 45 then .ok ⟨.number .minus, stack⟩
  else if b = 48 then .ok ⟨.number (.zero false), stack⟩
  else if isDigit b then .ok ⟨.number (.integer (some (digitValue b))), stack⟩
  else if b = 116 then .ok ⟨.word 114 [117, 101] (.bool true), stack⟩
  else if b = 102 then .ok ⟨.word 97 [108, 115, 101] (.bool false), stack⟩
  else if b = 110 then .ok ⟨.word 117 [108, 108] .null, stack⟩
  else .error .expectedValue

/-- A byte after a complete value. -/
def follow (f : Follow) (stack : List Frame) (b : UInt8) : Except Reason State :=
  if isSpace b then .ok ⟨.follow f, stack⟩
  else match f with
    | .finished _ => .error .trailingCharacters
    | .item items =>
      if b = 44 then .ok ⟨.value, .list items :: stack⟩
      else if b = 93 then .ok (completed (.list items.reverse) stack)
      else .error .expectedListCommaOrEnd
    | .member members =>
      if b = 44 then .ok ⟨.key members, stack⟩
      else if b = 125 then .ok (completed (.object members.reverse) stack)
      else .error .expectedObjectCommaOrEnd

def endString (role : Role) (t : JsonText) (stack : List Frame) : State :=
  match role with
  | .value => completed (.text t) stack
  | .key members => ⟨.colon members t, stack⟩

/-- The piece for the letter after a backslash; the letter `u` starts four digits instead. -/
def simpleEscape? (b : UInt8) : Option UInt8 :=
  if b = 34 ∨ b = 92 ∨ b = 47 then some b
  else if b = 98 then some 8
  else if b = 102 then some 12
  else if b = 110 then some 10
  else if b = 114 then some 13
  else if b = 116 then some 9
  else none

def stepString (keepControls : Bool) (role : Role) (pieces : List Piece) (hasControl : Bool)
    (stack : List Frame) (b : UInt8) : Escape → Except Reason State
  | .none =>
    if b = 34 then .ok (endString role ⟨assemble pieces [], hasControl⟩ stack)
    else if b = 92 then .ok ⟨.string role pieces hasControl .started, stack⟩
    else if b < 32 then
      if keepControls then .ok ⟨.string role (.byte b :: pieces) true .none, stack⟩
      else .error .controlCharacter
    else .ok ⟨.string role (.byte b :: pieces) hasControl .none, stack⟩
  | .started =>
    if b = 117 then .ok ⟨.string role pieces hasControl (.hex 0 (some 0)), stack⟩
    else match simpleEscape? b with
      | some c => .ok ⟨.string role (.byte c :: pieces) hasControl .none, stack⟩
      | none => .error .invalidEscape
  | .hex count value =>
    let value := value.bind fun v => (hexValue? b).map fun d => 16 * v + d
    if count < 3 then .ok ⟨.string role pieces hasControl (.hex (count + 1) value), stack⟩
    else match value with
      | some v => .ok ⟨.string role (.unit v :: pieces) hasControl .none, stack⟩
      | none => .error .invalidEscape

/-- The value of a number that may end here. -/
def NumberPart.value? : NumberPart → Option Json
  | .zero negative => some (.number (if negative then none else some 0))
  | .integer v => some (.number v)
  | .fraction => some (.number none)
  | .exponentDigits => some (.number none)
  | .minus => none
  | .point => none
  | .exponent => none
  | .exponentSign => none

/-- The value after one more digit, while it is below 2^64. -/
def appendDigit (value : Option Nat) (b : UInt8) : Option Nat :=
  (value.map fun n => 10 * n + digitValue b).filter (· < 2 ^ 64)

/-- The part of the number after one more byte, if the byte belongs to it. -/
def NumberPart.next? (p : NumberPart) (b : UInt8) : Option NumberPart :=
  match p with
  | .minus => if b = 48 then some (.zero true) else if isDigit b then some (.integer none) else none
  | .zero _ => if b = 46 then some .point else if b = 101 ∨ b = 69 then some .exponent else none
  | .integer v =>
    if isDigit b then some (.integer (appendDigit v b))
    else if b = 46 then some .point
    else if b = 101 ∨ b = 69 then some .exponent
    else none
  | .point => if isDigit b then some .fraction else none
  | .fraction =>
    if isDigit b then some .fraction else if b = 101 ∨ b = 69 then some .exponent else none
  | .exponent =>
    if isDigit b then some .exponentDigits
    else if b = 43 ∨ b = 45 then some .exponentSign
    else none
  | .exponentSign => if isDigit b then some .exponentDigits else none
  | .exponentDigits => if isDigit b then some .exponentDigits else none

/-- A digit may not come after a leading zero. -/
def NumberPart.refuses (p : NumberPart) (b : UInt8) : Bool :=
  match p with
  | .zero _ => isDigit b
  | _ => false

def stepNumber (p : NumberPart) (stack : List Frame) (b : UInt8) : Except Reason State :=
  match p.next? b with
  | some q => .ok ⟨.number q, stack⟩
  | none =>
    if p.refuses b then .error .invalidNumber
    else match p.value? with
      | some v =>
        let (f, stack) := complete v stack
        follow f stack b
      | none => .error .invalidNumber

def step (keepControls : Bool) (s : State) (b : UInt8) : Except Reason State :=
  match s.phase with
  | .value => if isSpace b then .ok s else startValue s.stack b
  | .firstItem =>
    if isSpace b then .ok s
    else if b = 93 then .ok (completed (.list []) s.stack)
    else startValue (.list [] :: s.stack) b
  | .firstKey =>
    if isSpace b then .ok s
    else if b = 125 then .ok (completed (.object []) s.stack)
    else if b = 34 then .ok ⟨.string (.key []) [] false .none, s.stack⟩
    else .error .keyMustBeString
  | .key members =>
    if isSpace b then .ok s
    else if b = 34 then .ok ⟨.string (.key members) [] false .none, s.stack⟩
    else .error .keyMustBeString
  | .colon members key =>
    if isSpace b then .ok s
    else if b = 58 then .ok ⟨.value, .object members key :: s.stack⟩
    else .error .expectedColon
  | .follow f => follow f s.stack b
  | .string role pieces hasControl escape =>
    stepString keepControls role pieces hasControl s.stack b escape
  | .word next rest v =>
    if b ≠ next then .error .expectedWord
    else match rest with
      | [] => .ok (completed v s.stack)
      | c :: cs => .ok ⟨.word c cs v, s.stack⟩
  | .number p => stepNumber p s.stack b

/-- The document, when the bytes may end after a complete value. -/
def Follow.finish : Follow → Except Reason Json
  | .finished v => .ok v
  | .item _ => .error .endInList
  | .member _ => .error .endInObject

/-- The document, when the bytes end here. -/
def State.finish (s : State) : Except Reason Json :=
  match s.phase with
  | .value => .error .endInValue
  | .firstItem => .error .endInList
  | .firstKey => .error .endInObject
  | .key _ => .error .endInObject
  | .colon _ _ => .error .endInObject
  | .follow f => f.finish
  | .string _ _ _ _ => .error .endInString
  | .word _ _ _ => .error .endInValue
  | .number p =>
    match p.value? with
    | some v => (complete v s.stack).1.finish
    | none => .error .invalidNumber

/-- The state before the first byte. -/
def State.initial : State := ⟨.value, []⟩

/-- The reported place counts the offending byte, unless it is a control character in a string. -/
def faultAt (p : Position) (b : UInt8) (r : Reason) : Fault :=
  if r = .controlCharacter then ⟨r, p⟩ else ⟨r, p.advance b⟩

def readFrom (keepControls : Bool) (s : State) (p : Position) : Bytes → Except Fault Json
  | [] =>
    match s.finish with
    | .ok v => .ok v
    | .error r => .error ⟨r, p⟩
  | b :: bs =>
    match step keepControls s b with
    | .ok t => readFrom keepControls t (p.advance b) bs
    | .error r => .error (faultAt p b r)

/-- Reads one document with white space around it. Unescaped control characters in strings are
refused, or kept and marked. -/
def read (keepControls : Bool) (bs : Bytes) : Except Fault Json :=
  readFrom keepControls .initial .start bs

/-- Only the syntax matters: any document will do. -/
def checkSyntax (bs : Bytes) : Except Fault Unit := (read false bs).map fun _ => ()

end Tollgate.Json
