import SqlDialects.Query.Condition

/-!
Statements on rows, as data, and their text. Keys are compared for equality, all of them at once.
-/

namespace SqlDialects

/-- A SELECT with the window where the dialect puts it. -/
structure Select where
  distinct : Bool
  /-- What the window adds after `SELECT`. -/
  afterSelect : String
  columns : List String
  /-- Table or view. -/
  source : String
  filter : Option Condition
  /-- What the window adds after the condition. -/
  afterWhere : String
  /-- Columns, each with whether it ascends. -/
  order : List (String × Bool)
  /-- What the window adds at the end. -/
  atEnd : String

/-- A statement on rows. -/
inductive Command where
  | select (s : Select)
  | insert (table : String) (columns : List String)
  | find (table : String) (columns key : List String)
  | update (table : String) (columns key : List String)
  | delete (table : String) (key : List String)
  | count (table : String) (filter : Option Condition)

namespace Command

/-- A column that is to equal a parameter. -/
def equation (column : String) : String := column ++ " = " ++ Value.placeholder

/-- The condition that a key is met. -/
def keyClause (key : List String) : String :=
  "WHERE " ++ String.intercalate " AND " (key.map equation)

/-- The condition of a query, after a separator. -/
def filterClause (separator : String) : Option Condition → String
  | some c => separator ++ "WHERE " ++ c.text
  | none => ""

/-- One column to order by. -/
def orderItem (item : String × Bool) : String :=
  item.1 ++ if item.2 then " ASC" else " DESC"

/-- The order of a query, after a separator. -/
def orderClause (separator : String) : List (String × Bool) → String
  | [] => ""
  | order => separator ++ "ORDER BY " ++ String.intercalate ", " (order.map orderItem)

/-- The text of a SELECT, with a separator between its clauses. -/
def selectText (separator : String) (s : Select) : String :=
  "SELECT " ++ (if s.distinct then "DISTINCT " else "") ++ s.afterSelect
    ++ String.intercalate ", " s.columns ++ separator ++ "FROM " ++ s.source
    ++ filterClause separator s.filter ++ s.afterWhere ++ orderClause separator s.order ++ s.atEnd

/-- The text with a separator between clauses. -/
def textWith (separator : String) : Command → String
  | .select s => selectText separator s
  | .insert table columns =>
    String.intercalate separator
      ["INSERT INTO " ++ table ++ " (" ++ String.intercalate ", " columns ++ ")",
        "VALUES (" ++ String.intercalate ", " (columns.map fun _ => Value.placeholder) ++ ")"]
  | .find table columns key =>
    String.intercalate separator
      ["SELECT " ++ String.intercalate ", " columns, "FROM " ++ table, keyClause key]
  | .update table columns key =>
    String.intercalate separator
      ["UPDATE " ++ table, "SET " ++ String.intercalate ", " (columns.map equation), keyClause key]
  | .delete table key => String.intercalate separator ["DELETE FROM " ++ table, keyClause key]
  | .count table filter => "SELECT COUNT(*)" ++ separator ++ "FROM " ++ table
    ++ filterClause separator filter

/-- The text in a layout. -/
def text (l : Layout) (c : Command) : String := c.textWith l.separator

end Command

/-- A statement on rows with its parameters and the columns of its result. -/
structure PreparedStatement where
  command : Command
  parameters : List Parameter := []
  results : List ResultColumn := []

end SqlDialects
