import SqlDialects.Json.Basic
import SqlDialects.Text.Bytes

/-!
JSON written on one line.
-/

namespace SqlDialects.Json

/-- A character of a string. -/
def escapeChar (c : Char) : List Char :=
  if c = '"' then ['\\', '"']
  else if c = '\\' then ['\\', '\\']
  else if c.toNat < 0x20 then
    ['\\', 'u', '0', '0', Text.hexDigit (c.toNat / 16), Text.hexDigit (c.toNat % 16)]
  else [c]

/-- A string between quotes. -/
def printText (s : String) : String :=
  String.ofList ('"' :: s.toList.flatMap escapeChar ++ ['"'])

/-- A number by its integer part. -/
def printNumber (n : JsonNumber) : String :=
  (if n.negative then "-" else "") ++ toString n.magnitude

mutual

/-- A value on one line. A string without a text is written empty. -/
def print : Json → String
  | .null => "null"
  | .bool b => if b then "true" else "false"
  | .number n => printNumber n
  | .string s => printText (s.getD "")
  | .array items => "[" ++ String.intercalate "," (printItems items) ++ "]"
  | .object members => "\x7b" ++ String.intercalate "," (printMembers members) ++ "\x7d"

/-- The items of an array. -/
def printItems : List Json → List String
  | [] => []
  | item :: rest => print item :: printItems rest

/-- The members of an object. -/
def printMembers : List (Option String × Json) → List String
  | [] => []
  | (name, value) :: rest =>
    (printText (name.getD "") ++ ":" ++ print value) :: printMembers rest

end

end SqlDialects.Json
