import SqlDialects.ConditionRule.Basic
import SqlDialects.DefaultReading
import SqlDialects.Ddl.Style
import SqlDialects.Database
import SqlDialects.TimeBucketStyle
import SqlDialects.Window

/-!
A dialect: how one database writes names, types, conditions, windows, defaults, time buckets and
the statements on tables. It has rules for every column type and every restriction, which is
checked when it is built.
-/

namespace SqlDialects

/-- How texts are joined. -/
inductive Concatenation where
  /-- `a || b` -/
  | operator (symbol : String)
  /-- `CONCAT(a, b)` -/
  | function
deriving DecidableEq, Repr

/-- What a dialect is made of, but for the rules of types and restrictions. -/
structure DialectTraits where
  name : Database
  naming : Naming
  window : WindowStyle := .limitOffset false
  defaults : DefaultReading := .quoted
  timeBuckets : TimeBucketStyle := .truncate
  ddl : DdlStyle := .standard
  concat : Concatenation := .operator "||"
  /-- Most values in one list of a condition. -/
  maxListLength : Option Nat := none
  /-- Longest string that is no large object. -/
  maxStringLength : Option Nat := none
  /-- Whether tables are created with their unique constraints and indexes. -/
  inlineConstraints : Bool := false
  /-- Whether a view has to go while its table changes. -/
  rebuildsViews : Bool := false
  /-- Query that tests a connection. -/
  testQuery : String := "SELECT 1"
  /-- Query for the local time. -/
  localTimeQuery : String := "SELECT CURRENT_TIMESTAMP"
  /-- Query for the time in UTC. -/
  utcTimeQuery : String := "SELECT CURRENT_TIMESTAMP"

/-- A dialect that may still lack rules. -/
structure DialectDraft extends DialectTraits where
  columnRules : ColumnRules := .standard
  conditionRules : ConditionRules := .standard

/-- A dialect. -/
structure Dialect extends DialectTraits where
  columnRules : ColumnRules
  conditionRules : ConditionRules
  columnRules_complete : ∀ type, (columnRules.get? type).isSome
  conditionRules_complete : ∀ restriction, (conditionRules.get? restriction).isSome

namespace Dialect

/-- Rules for a column type. -/
def columnRule (d : Dialect) (type : ColumnType) : ColumnRule :=
  (d.columnRules.get? type).get (d.columnRules_complete type)

/-- Rules for a restriction. -/
def conditionRule (d : Dialect) (r : Restriction) : ConditionRule :=
  (d.conditionRules.get? r).get (d.conditionRules_complete r)

/-- The type that a column of a declared type and length gets: a string that is too long becomes a
large object. -/
def storedType (d : Dialect) (type : ColumnType) (length : Nat) : ColumnType :=
  match type, d.maxStringLength with
  | .string, some longest => if longest < length then .clob else .string
  | type, _ => type

/-- Rules for a column of a declared type and length. -/
def columnRuleFor (d : Dialect) (type : ColumnType) (length : Nat) : ColumnRule :=
  d.columnRule (d.storedType type length)

/-- A time bucket over a field. -/
def timeBucket (d : Dialect) (field : String) (b : TimeBucket) :
    Except Error TimeBucketExpression :=
  match d.timeBuckets.truncated? b field, d.timeBuckets.label? b field with
  | some truncated, some label => .ok ⟨truncated, label⟩
  | _, _ => .error (.unsupportedTimeBucket d.name.name b)

/-- Texts joined by an expression. -/
def concatenate (d : Dialect) (parts : List String) : String :=
  match d.concat with
  | .operator symbol => String.intercalate (" " ++ symbol ++ " ") parts
  | .function => "CONCAT(" ++ String.intercalate ", " parts ++ ")"

theorem columnType_columnRule (d : Dialect) (type : ColumnType) :
    (d.columnRule type).columnType = type :=
  ColumnRules.columnType_of_get? (Option.some_get _).symm

theorem restriction_conditionRule (d : Dialect) (r : Restriction) :
    (d.conditionRule r).restriction = r :=
  ConditionRules.restriction_of_get? (Option.some_get _).symm

end Dialect

theorem ColumnType.mem_all (type : ColumnType) : type ∈ ColumnType.all := by
  cases type <;> decide

theorem Restriction.mem_all (r : Restriction) : r ∈ Restriction.all := by
  cases r <;> decide

namespace DialectDraft

/-- Whether all rules are there. -/
def isComplete (b : DialectDraft) : Bool :=
  b.columnRules.missing.isEmpty && b.conditionRules.missing.isEmpty

theorem columnRules_complete {b : DialectDraft} (h : b.isComplete = true) (type : ColumnType) :
    (b.columnRules.get? type).isSome := by
  have hm : b.columnRules.missing = [] := by simpa [isComplete] using (Bool.and_eq_true_iff.1 h).1
  have := List.filter_eq_nil_iff.1 hm type (ColumnType.mem_all type)
  simpa [Option.isSome_iff_ne_none] using this

theorem conditionRules_complete {b : DialectDraft} (h : b.isComplete = true) (r : Restriction) :
    (b.conditionRules.get? r).isSome := by
  have hm : b.conditionRules.missing = [] := by
    simpa [isComplete] using (Bool.and_eq_true_iff.1 h).2
  have := List.filter_eq_nil_iff.1 hm r (Restriction.mem_all r)
  simpa [Option.isSome_iff_ne_none] using this

/-- The dialect of a draft that lacks nothing. -/
def complete (b : DialectDraft) (h : b.isComplete = true) : Dialect :=
  { b with
    columnRules_complete := columnRules_complete h
    conditionRules_complete := conditionRules_complete h }

/-- The dialect, or the first type without rules, or else the first restriction without any. -/
def build (b : DialectDraft) : Except Error Dialect :=
  match ht : b.columnRules.missing with
  | type :: _ => .error (.missingColumnRule b.name.name type)
  | [] =>
    match hc : b.conditionRules.missing with
    | r :: _ => .error (.missingConditionRule b.name.name r)
    | [] => .ok (b.complete (by simp [isComplete, ht, hc]))

/-- Rules of a type added, in place of any others for it. -/
def withColumnRule (b : DialectDraft) (p : ColumnRule) : DialectDraft :=
  { b with columnRules := b.columnRules.insert p }

/-- Rules of several types added. -/
def withColumnRules (b : DialectDraft) (ps : List ColumnRule) : DialectDraft :=
  ps.foldl withColumnRule b

/-- The rule of a restriction added, in place of any other for it. -/
def withConditionRule (b : DialectDraft) (p : ConditionRule) : DialectDraft :=
  { b with conditionRules := b.conditionRules.insert p }

end DialectDraft

end SqlDialects
