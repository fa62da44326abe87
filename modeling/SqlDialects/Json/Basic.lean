/-!
JSON values as written: members keep their order and may repeat a name, and a number is known by
what an integer reader needs. A string with half a surrogate pair has no text.
-/

namespace SqlDialects

/-- A number: its integer part, and whether that is all of it. -/
structure JsonNumber where
  negative : Bool
  magnitude : Nat
  integral : Bool
deriving DecidableEq, Repr

/-- A JSON value. -/
inductive Json where
  | null
  | bool (b : Bool)
  | number (n : JsonNumber)
  | string (text : Option String)
  | array (items : List Json)
  | object (members : List (Option String × Json))

namespace Json

/-- A text. -/
def text (s : String) : Json := .string (some s)

/-- A natural number. -/
def nat (n : Nat) : Json := .number ⟨false, n, true⟩

/-- An integer. -/
def int (n : Int) : Json := .number ⟨n < 0, n.natAbs, true⟩

/-- An array of texts. -/
def texts (items : List String) : Json := .array (items.map text)

/-- A value, or null. -/
def option {α : Type} (encode : α → Json) : Option α → Json
  | some a => encode a
  | none => .null

/-- An object of named members. -/
def record (members : List (String × Json)) : Json :=
  .object (members.map fun m => (some m.1, m.2))

end Json

/-- Types with a JSON form. -/
class ToJson (α : Type) where
  toJson : α → Json

export ToJson (toJson)

end SqlDialects
