import SqlDialects.Binding.Run
import SqlDialects.Dialect.Builtin
import SqlDialects.Json.Decoding
import SqlDialects.Json.Parser

/-!
Settings of a generator: the dialect, the layout and the offset of local time.
-/

namespace SqlDialects

/-- Settings of a generator. -/
structure Settings where
  /-- One of the names of a dialect. -/
  dialect : String
  layout : Layout := .compact
  /-- Seconds of local time east of UTC. -/
  utcOffsetSeconds : Int := 0
deriving DecidableEq, Repr

namespace Settings

/-- Settings from JSON. -/
def ofJson? (j : Json) : Option Settings := do
  let f ← j.fields? ["dialect", "format", "utc_offset_seconds"]
  return {
    dialect := ← f.required "dialect" Json.text?
    layout := ← f.orElse "format" .compact (Json.named? Layout.ofCode?)
    utcOffsetSeconds := ← f.orElse "utc_offset_seconds" 0
      (Json.intIn? IntegerRange.integer.least IntegerRange.integer.greatest) }

instance : ToJson Settings where
  toJson s := .record [
    ("dialect", .text s.dialect), ("format", .text s.layout.code),
    ("utc_offset_seconds", .int s.utcOffsetSeconds)]

/-- Reads settings from JSON text. -/
def read (text : String) : Except Error Settings :=
  match (Json.parse? text).bind ofJson? with
  | some s => .ok s
  | none => .error .malformed

/-- The dialect that the settings name. -/
def findDialect (s : Settings) : Except Error Dialect := Dialect.named s.dialect

/-- The offset of local time. -/
def zone (s : Settings) : Except Error UtcOffset := UtcOffset.ofSeconds s.utcOffsetSeconds

end Settings

end SqlDialects
