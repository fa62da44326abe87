import SqlDialects.Value.Basic

/-!
How a dialect writes each restriction over a column and its operands.
-/

namespace SqlDialects

/-- Where the operand of a pattern gets its wildcard. -/
inductive Wildcard where
  | both
  | trailing
  | leading
deriving DecidableEq, Repr

/-- The pattern of an operand. -/
def Wildcard.apply (w : Wildcard) (s : String) : String :=
  match w with
  | .both => "%" ++ s ++ "%"
  | .trailing => s ++ "%"
  | .leading => "%" ++ s

/-- Rule for writing one restriction. -/
inductive ConditionRule where
  /-- `COLUMN op ?` -/
  | comparison (restriction : Restriction) (operator : String)
  /-- `COLUMN BETWEEN ? AND ?` -/
  | range (negated : Bool)
  /-- `COLUMN IN (?, ?)` -/
  | amongst (negated : Bool)
  /-- `COLUMN LIKE ?` -/
  | like (restriction : Restriction) (negated : Bool) (wildcard : Wildcard)
  /-- `COLUMN IS NULL` -/
  | nullCheck (negated : Bool)
  /-- `(a AND b)` -/
  | compound (restriction : Restriction)
deriving DecidableEq, Repr

namespace ConditionRule

/-- The restriction that the rule writes. -/
def restriction : ConditionRule → Restriction
  | .comparison r _ => r
  | .range negated => if negated then .notBetween else .between
  | .amongst negated => if negated then .notAmongst else .amongst
  | .like r _ _ => r
  | .nullCheck negated => if negated then .isNotNull else .isNull
  | .compound r => r

/-- `NOT` and a blank, for a negation. -/
def negation (negated : Bool) : String := if negated then "NOT " else ""

/-- The restriction over a column; operands are texts, or for a compound the joined conditions. -/
def write (p : ConditionRule) (column : String) (operands : List String) : String :=
  match p, operands with
  | .comparison _ operator, operands =>
    column ++ " " ++ operator ++ " " ++ String.join operands
  | .range negated, operands =>
    column ++ " " ++ negation negated ++ "BETWEEN " ++ String.intercalate " AND " (operands.take 2)
  | .amongst negated, operands =>
    column ++ " " ++ negation negated ++ "IN (" ++ String.intercalate ", " operands ++ ")"
  | .like _ negated _, operands =>
    column ++ " " ++ negation negated ++ "LIKE " ++ String.join (operands.take 1)
  | .nullCheck negated, _ => column ++ (if negated then " IS NOT NULL" else " IS NULL")
  | .compound _, [operand] => operand
  | .compound r, operands =>
    "(" ++ String.intercalate (" " ++ r.name ++ " ") operands ++ ")"

/-- Operands without which nothing can be written. -/
def leastOperands : ConditionRule → Nat
  | .like .. => 1
  | .range _ => 2
  | _ => 0

/-- Whether `n` operands will do. -/
def checkOperands (p : ConditionRule) (n : Nat) : Except Error Unit :=
  if !p.restriction.arity.accepts n then
    .error (.operandCount p.restriction (.count p.restriction.arity) n)
  else if n < p.leastOperands then .error .missingOperand
  else .ok ()

/-- The restriction over a column, if the number of operands is right. -/
def render (p : ConditionRule) (column : String) (operands : List String) :
    Except Error String := do
  p.checkOperands operands.length
  return p.write column operands

/-- An operand value as it is bound: text with the wildcards of a pattern. -/
def operand (p : ConditionRule) (v : Value) : Value :=
  match p, v with
  | .like _ _ wildcard, .text s => .text (wildcard.apply s)
  | _, v => v

end ConditionRule

/-- Rules of one dialect, the one added last first. -/
structure ConditionRules where
  rules : List ConditionRule

namespace ConditionRules

/-- No rules. -/
def empty : ConditionRules := ⟨[]⟩

/-- A rule added, in place of any other for its restriction. -/
def insert (t : ConditionRules) (p : ConditionRule) : ConditionRules :=
  ⟨p :: t.rules⟩

/-- The rule for a restriction. -/
def get? (t : ConditionRules) (r : Restriction) : Option ConditionRule :=
  t.rules.find? (·.restriction == r)

/-- Restrictions without a rule, in order. -/
def missing (t : ConditionRules) : List Restriction :=
  Restriction.all.filter fun r => (t.get? r).isNone

/-- The usual rules for all restrictions. -/
def standard : ConditionRules :=
  [.comparison .equals "=", .comparison .notEquals "<>", .comparison .less "<",
    .comparison .lessOrEqual "<=", .comparison .greater ">", .comparison .greaterOrEqual ">=",
    .range false, .range true, .amongst false, .amongst true,
    .like .like false .both, .like .notLike true .both,
    .like .beginsWith false .trailing, .like .notBeginWith true .trailing,
    .like .endsWith false .leading, .like .notEndWith true .leading,
    .nullCheck false, .nullCheck true, .compound .and, .compound .or].foldl insert empty

theorem restriction_of_get? {t : ConditionRules} {r : Restriction} {p : ConditionRule}
    (h : t.get? r = some p) : p.restriction = r := by
  simpa using List.find?_some h

end ConditionRules

/-- Values in runs of at most `limit`. One run holds all of them where there is no limit or it is
zero, and where there is nothing to divide. -/
def runs {α : Type} (limit : Nat) (values : List α) : List (List α) :=
  if 0 < limit ∧ limit < values.length then values.take limit :: runs limit (values.drop limit)
  else [values]
termination_by values.length
decreasing_by
  rename_i h
  rw [List.length_drop]
  omega

/-- Values of one list, in as many lists as a dialect needs. -/
def valueRuns {α : Type} (limit : Option Nat) (values : List α) : List (List α) :=
  runs (limit.getD 0) values

end SqlDialects
