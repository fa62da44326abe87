import SqlDialects.Binding.Basic
import SqlDialects.Json.Decoding

/-!
Parameters and result columns in JSON: arrays of position or label, type, declared length and field.
-/

namespace SqlDialects

/-- A position or a label. -/
def ResultPlace.ofJson? : Json → Option ResultPlace
  | .string s => s.map .label
  | j => j.nat?.map .index

instance : ToJson ResultPlace where
  toJson
    | .index n => .nat n
    | .label name => .text name

/-- A parameter from JSON. -/
def Parameter.ofJson? : Json → Option Parameter
  | .array [index, type, length, field] => do
    return ⟨← index.nat?, ← Json.named? ColumnType.ofCode? type, ← length.size?,
      ← Json.option? Json.text? field⟩
  | _ => none

instance : ToJson Parameter where
  toJson p := .array [.nat p.index, .text p.type.code, .nat p.length, .option .text p.field]

/-- A result column from JSON. -/
def ResultColumn.ofJson? : Json → Option ResultColumn
  | .array [column, type, length, field] => do
    return ⟨← ResultPlace.ofJson? column, ← Json.named? ColumnType.ofCode? type, ← length.size?,
      ← field.text?⟩
  | _ => none

instance : ToJson ResultColumn where
  toJson r := .array [toJson r.column, .text r.type.code, .nat r.length, .text r.field]

end SqlDialects
