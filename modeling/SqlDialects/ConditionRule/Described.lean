import SqlDialects.ConditionRule.Basic
import SqlDialects.Json.Decoding

/-!
Rules for restrictions from JSON: arrays of the kind of rule and what it is given.
-/

namespace SqlDialects

/-- Where a pattern gets its wildcard, by name. -/
def Wildcard.ofJson? : Json → Option Wildcard :=
  Json.choice? [("both", .both), ("leading", .leading), ("trailing", .trailing)]

namespace ConditionRule

/-- A restriction by name. -/
def restrictionOfJson? : Json → Option Restriction := Json.named? Restriction.ofName?

/-- A rule of a kind. -/
def ofParts? (kind : String) (parts : List Json) : Option ConditionRule := do
  match kind, parts with
  | "comparison", [r, operator] =>
    return .comparison (← restrictionOfJson? r) (← operator.text?)
  | "range", [negated] => return .range (← negated.bool?)
  | "amongst", [negated] => return .amongst (← negated.bool?)
  | "null", [negated] => return .nullCheck (← negated.bool?)
  | "like", [r, negated, wildcard] =>
    return .like (← restrictionOfJson? r) (← negated.bool?) (← Wildcard.ofJson? wildcard)
  | "compound", [r] => return .compound (← restrictionOfJson? r)
  | _, _ => none

/-- A rule from JSON. -/
def ofJson? : Json → Option ConditionRule
  | .array (kind :: parts) => do ofParts? (← kind.text?) parts
  | _ => none

end ConditionRule

end SqlDialects
