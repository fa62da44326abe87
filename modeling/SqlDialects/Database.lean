import SqlDialects.Error
import SqlDialects.Text.Ascii

/-!
The databases that have a dialect, and the names they go by.
-/

namespace SqlDialects

/-- A database with a dialect of its own. -/
inductive Database where
  | hsqldb
  | postgresql
  | mysql
  | mssql
  | oracle
  | oracle12
deriving DecidableEq, Repr

namespace Database

/-- Every dialect, in order. -/
def all : List Database := [.hsqldb, .postgresql, .mysql, .mssql, .oracle, .oracle12]

/-- Name in settings and messages. -/
def name : Database → String
  | .hsqldb => "hsqldb"
  | .postgresql => "postgresql"
  | .mysql => "mysql"
  | .mssql => "mssql"
  | .oracle => "oracle"
  | .oracle12 => "oracle12"

/-- Other names. -/
def synonyms : List (String × Database) :=
  [("postgres", .postgresql), ("sqlserver", .mssql), ("oracle12c", .oracle12)]

/-- The dialect of a name, in any case and between blanks. -/
def ofText? (text : String) : Option Database :=
  let word := Text.asciiLower (Text.trim text)
  (all.find? (·.name == word)).or (synonyms.lookup word)

/-- The dialect of a name, or the name that nothing goes by. -/
def read (text : String) : Except Error Database :=
  match ofText? text with
  | some name => .ok name
  | none => .error (.unknownDialect text)

end Database

end SqlDialects
