import SqlDialects.Json.Basic

/-!
Typed values from JSON. A record is an object, where names it does not know are passed over and a
name it knows comes once at most, or an array of its fields in order. Nothing is converted: a
fraction is no integer and a number is no text.
-/

namespace SqlDialects.Json

/-- A text. -/
def text? : Json → Option String
  | .string s => s
  | _ => none

/-- A truth value. -/
def bool? : Json → Option Bool
  | .bool b => some b
  | _ => none

/-- An integer written without a fraction or exponent. Zero has no sign. -/
def int? : Json → Option Int
  | .number n =>
    if n.integral && !(n.negative && n.magnitude == 0) then
      some (if n.negative then -(n.magnitude : Int) else n.magnitude)
    else none
  | _ => none

/-- An integer within bounds. -/
def intIn? (least greatest : Int) (j : Json) : Option Int :=
  j.int?.filter fun n => least ≤ n && n ≤ greatest

/-- A natural number. -/
def nat? (j : Json) : Option Nat := (j.int?.filter fun n => 0 ≤ n).map Int.toNat

/-- A natural number of 32 bits. -/
def size? (j : Json) : Option Nat :=
  (j.intIn? 0 4294967295).map Int.toNat

/-- An array, item by item. -/
def list? {α : Type} (decode : Json → Option α) : Json → Option (List α)
  | .array items => items.mapM decode
  | _ => none

/-- A value, or null for none. -/
def option? {α : Type} (decode : Json → Option α) : Json → Option (Option α)
  | .null => some none
  | j => (decode j).map some

/-- One of several named things, by a text. -/
def choice? {α : Type} (options : List (String × α)) (j : Json) : Option α := do
  options.lookup (← j.text?)

/-- One of a set of names: the name itself, or an object with null under it. -/
def named? {α : Type} (ofName? : String → Option α) : Json → Option α
  | .string (some s) => ofName? s
  | .object [(some s, .null)] => ofName? s
  | _ => none

/-- The fields of a record that are present. -/
structure Fields where
  values : List (String × Json)

/-- Members with the names of a record, if all names are texts and none of those comes twice. -/
def fieldsOfObject (names : List String) (members : List (Option String × Json)) :
    Option Fields := do
  let named ← members.mapM fun m => m.1.map fun name => (name, m.2)
  let known := named.filter fun m => names.contains m.1
  if (known.map Prod.fst).Nodup then some ⟨known⟩ else none

/-- The fields of a record with these names. -/
def fields? (names : List String) : Json → Option Fields
  | .object members => fieldsOfObject names members
  | .array items => if items.length ≤ names.length then some ⟨names.zip items⟩ else none
  | _ => none

namespace Fields

/-- A field that has to be present. -/
def required {α : Type} (f : Fields) (name : String) (decode : Json → Option α) : Option α := do
  decode (← f.values.lookup name)

/-- A field with a value for when it is absent. -/
def orElse {α : Type} (f : Fields) (name : String) (default : α) (decode : Json → Option α) :
    Option α :=
  match f.values.lookup name with
  | some j => decode j
  | none => some default

end Fields

end SqlDialects.Json
