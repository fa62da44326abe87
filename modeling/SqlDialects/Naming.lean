import SqlDialects.Text.Ascii
import SqlDialects.Text.LowerCase
import SqlDialects.Text.Quoted

/-!
Names of tables, columns and constraints as a dialect writes them: folded, and quoted where a plain
word would not do.
-/

namespace SqlDialects

/-- Words that every dialect reserves. -/
def standardReserved : List String :=
  ["ALL", "ALTER", "AND", "AS", "ASC", "BETWEEN", "BY", "CASE", "CHECK", "COLUMN", "CONSTRAINT",
    "CREATE", "CROSS", "CURRENT", "DATE", "DEFAULT", "DELETE", "DESC", "DISTINCT", "DROP", "ELSE",
    "END", "EXISTS", "FOR", "FOREIGN", "FROM", "FULL", "GRANT", "GROUP", "HAVING", "IN", "INDEX",
    "INNER", "INSERT", "INTO", "IS", "JOIN", "KEY", "LEFT", "LIKE", "NOT", "NULL", "OF", "ON",
    "OR", "ORDER", "OUTER", "PRIMARY", "REFERENCES", "RIGHT", "SELECT", "SET", "TABLE", "THEN",
    "TO", "UNION", "UNIQUE", "UPDATE", "USER", "VALUES", "VIEW", "WHEN", "WHERE", "WITH"]

/-- Quotes, case, default schema and reserved words of a dialect. -/
structure Naming where
  openQuote : Char
  closeQuote : Char
  /-- Whether names are folded to lower case. -/
  lowerCase : Bool := false
  /-- Schema of entities that name none. -/
  defaultSchema : Option String := none
  /-- Words reserved besides the standard ones, in capitals. -/
  reserved : List String := []
deriving DecidableEq, Repr

namespace Naming

/-- The name in the case of the dialect. -/
def folded (r : Naming) (name : String) : String :=
  if r.lowerCase then Text.lower name else name

/-- The name between quotes, with closing quotes in it doubled. -/
def quoted (r : Naming) (name : String) : String :=
  Text.enclose r.openQuote r.closeQuote name

/-- A word that may not stand as a name. -/
def isReserved (r : Naming) (name : String) : Bool :=
  let word := Text.asciiUpper name
  standardReserved.contains word || r.reserved.contains word

/-- The first character of a plain word. -/
def startsWord (c : Char) : Bool := c.isAlpha || c == '_'

/-- A later character of a plain word. -/
def continuesWord (c : Char) : Bool := c.isAlphanum || c == '_'

/-- Whether the name is a word of ASCII letters, digits and underscores. -/
def isWord : List Char → Bool
  | [] => false
  | c :: rest => startsWord c && rest.all continuesWord

/-- Whether the name has to be quoted. -/
def mustQuote (r : Naming) (name : String) : Bool :=
  !isWord name.toList || r.isReserved name

/-- The name as it is written: folded, and quoted where it has to be. -/
def written (r : Naming) (name : String) : String :=
  let folded := r.folded name
  if r.mustQuote folded then r.quoted folded else folded

/-- The name after its schema, where there is one. -/
def writtenIn (r : Naming) (schema : Option String) (name : String) : String :=
  match schema with
  | some schema => r.written schema ++ "." ++ r.written name
  | none => r.written name

end Naming

end SqlDialects
