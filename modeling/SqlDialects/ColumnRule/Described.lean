import SqlDialects.Json.Decoding
import SqlDialects.ColumnRule.Basic

/-!
Rules for column types from JSON: arrays of the kind of rules and what they are given.
-/

namespace SqlDialects

/-- How booleans are stored, by name. -/
def BooleanStorage.ofJson? : Json → Option BooleanStorage :=
  Json.choice? [("native", .native), ("yes_no", .yesNo), ("bit", .bit)]

/-- How dates are written, by name. -/
def CalendarLiteral.ofJson? : Json → Option CalendarLiteral :=
  Json.choice? [("quoted", .quoted), ("oracle", .function)]

/-- How large objects travel, by name. -/
def LargeObjectBinding.ofJson? : Json → Option LargeObjectBinding :=
  Json.choice?
    [("plain", .plain), ("stream", .stream), ("stream_empty_as_null", .streamEmptyAsNull)]

namespace ColumnRule

/-- A column type by name. -/
def typeOfJson? : Json → Option ColumnType := Json.named? ColumnType.ofCode?

/-- A type code by name. -/
def codeOfJson? : Json → Option TypeCode := Json.named? TypeCode.ofName?

/-- Rules of a kind. -/
def ofParts? (kind : String) (parts : List Json) : Option ColumnRule := do
  match kind, parts with
  | "character", [] => some .character
  | "boolean", [style] => return .boolean (← BooleanStorage.ofJson? style)
  | "integer", [type, declaration, code, digits] =>
    return .integer (← typeOfJson? type) (← declaration.text?) (← codeOfJson? code)
      (← Json.option? Json.size? digits)
  | "floating", [type, declaration, code] =>
    return .floating (← typeOfJson? type) (← declaration.text?) (← codeOfJson? code)
  | "decimal", [keyword, code] => return .decimal (← keyword.text?) (← codeOfJson? code)
  | "date", [literal] => return .date (← CalendarLiteral.ofJson? literal)
  | "timestamp", [type, declaration, literal] =>
    return .timestamp (← typeOfJson? type) (← declaration.text?)
      (← CalendarLiteral.ofJson? literal)
  | "clob", [declaration, code, binding, empty] =>
    return .clob (← declaration.text?) (← codeOfJson? code)
      (← LargeObjectBinding.ofJson? binding) (← empty.text?)
  | "blob", [declaration, code, binding, empty] =>
    return .blob (← declaration.text?) (← codeOfJson? code)
      (← LargeObjectBinding.ofJson? binding) (← empty.text?)
  | "string", [type, keyword, fallbackDefault] =>
    return .string (← typeOfJson? type) (← keyword.text?)
      ((← Json.option? Json.text? fallbackDefault).getD "")
  | _, _ => none

/-- Rules from JSON. -/
def ofJson? : Json → Option ColumnRule
  | .array (kind :: parts) => do ofParts? (← kind.text?) parts
  | _ => none

end ColumnRule

end SqlDialects
