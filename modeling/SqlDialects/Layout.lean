/-!
Layouts of a statement: all on one line, or one clause a line.
-/

namespace SqlDialects

/-- Layout of a statement. -/
inductive Layout where
  /-- A single line. -/
  | compact
  /-- A line for each clause, all but the first indented. -/
  | pretty
deriving DecidableEq, Repr

namespace Layout

/-- Name in a description. -/
def code : Layout → String
  | .compact => "compact"
  | .pretty => "pretty"

/-- The layout of a name in a description. -/
def ofCode? (code : String) : Option Layout := [Layout.compact, .pretty].find? (·.code == code)

/-- Between two clauses. -/
def separator : Layout → String
  | .compact => " "
  | .pretty => "\n\t"

/-- Between two items of a list. -/
def listSeparator : Layout → String
  | .compact => ", "
  | .pretty => ",\n\t"

/-- Before the first item of a list. -/
def listStart : Layout → String
  | .compact => "("
  | .pretty => "(\n\t"

/-- After the last item of a list. -/
def listEnd : Layout → String
  | .compact => ")"
  | .pretty => "\n)"

end Layout

/-- Text whose parts a layout arranges. -/
inductive Arrangement where
  /-- Clauses one after the other. -/
  | clauses (parts : List String)
  /-- A head and items in parentheses. -/
  | list (head : String) (items : List String)
deriving DecidableEq, Repr

namespace Layout

/-- The text in a layout. -/
def arrange (l : Layout) : Arrangement → String
  | .clauses parts => String.intercalate l.separator parts
  | .list head items =>
    head ++ " " ++ l.listStart ++ String.intercalate l.listSeparator items ++ l.listEnd

end Layout

end SqlDialects
