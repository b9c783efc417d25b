import Tollgate.Json.Value
import Tollgate.Text.Digits
/-! The compact text of a JSON document: no white space, and only the escapes that are needed. -/
namespace Tollgate.Json

/-- Control characters without a letter of their own are written with four hexadecimal digits. -/
def escaped (b : UInt8) : Bytes :=
  if b = 34 then [92, 34]
  else if b = 92 then [92, 92]
  else if b = 8 then [92, 98]
  else if b = 12 then [92, 102]
  else if b = 10 then [92, 110]
  else if b = 13 then [92, 114]
  else if b = 9 then [92, 116]
  else if b < 32 then utf8 "\\u00" ++ utf8 (hexText [b])
  else [b]

def quoted (bs : Bytes) : Bytes := 34 :: bs.flatMap escaped ++ [34]

/-- A number without a value of its own is written as null. -/
def printNumber : Option Nat → Bytes
  | some n => utf8 (Text.decimal n)
  | none => utf8 "null"

mutual
def print : Json → Bytes
  | .null => utf8 "null"
  | .bool true => utf8 "true"
  | .bool false => utf8 "false"
  | .number n => printNumber n
  | .text t => quoted t.bytes
  | .list [] => [91, 93]
  | .list (x :: xs) => 91 :: (print x ++ printItems xs)
  | .object [] => [123, 125]
  | .object ((k, v) :: ms) => 123 :: (quoted k.bytes ++ 58 :: (print v ++ printMembers ms))
/-- The items after the first one, and the closing bracket. -/
def printItems : List Json → Bytes
  | [] => [93]
  | x :: xs => 44 :: (print x ++ printItems xs)
/-- The members after the first one, and the closing brace. -/
def printMembers : List (JsonText × Json) → Bytes
  | [] => [125]
  | (k, v) :: ms => 44 :: (quoted k.bytes ++ 58 :: (print v ++ printMembers ms))
end

end Tollgate.Json
