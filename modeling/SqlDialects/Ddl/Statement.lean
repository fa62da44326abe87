import SqlDialects.Naming

/-!
Statements that define and change tables, as data. What a statement does can be read off it; its
text is a matter of the dialect and the layout.
-/

namespace SqlDialects

/-- A name as it was given and as the dialect writes it. -/
structure Name where
  raw : String
  written : String
deriving DecidableEq, Repr

/-- A name by the rules of a dialect. -/
def Naming.name (r : Naming) (raw : String) : Name := ⟨raw, r.written raw⟩

/-- A column of a table as it should become, with what its statements need to know. -/
structure ColumnChange where
  table : Name
  column : Name
  /-- Declaration of the type. -/
  typeDecl : String
  nullable : Bool
  defaultLiteral : Option String
  /-- Whether the column has a default already. -/
  hadDefault : Bool
deriving DecidableEq, Repr

/-- A column as a new one is declared. -/
structure ColumnDefinition where
  target : ColumnChange
  /-- Whether the database generates the key. -/
  isIdentity : Bool
  isPrimaryKey : Bool
deriving DecidableEq, Repr

/-- What a table is created with. -/
inductive TableItem where
  | column (definition : ColumnDefinition)
  | unique (name : Name) (columns : List Name)
  | index (name : Name) (columns : List Name) (isUnique : Bool)
deriving DecidableEq, Repr

/-- A column of a view, taken from a numbered table; `name` where it gets one of its own. -/
structure ViewColumn where
  source : Nat
  column : Name
  name : Option Name
deriving DecidableEq, Repr

/-- A table joined to the first one, whose column `key` holds the joined table's `column`. -/
structure ViewJoin where
  table : Name
  number : Nat
  key : Name
  column : Name
deriving DecidableEq, Repr

/-- A statement on tables, columns, constraints and views. -/
inductive Statement where
  | createTable (table : Name) (items : List TableItem)
  /-- The sequence that feeds the key of a table. -/
  | createSequence (table : Name)
  /-- The trigger that takes a new key from the sequence. -/
  | createKeyTrigger (table column : Name)
  | dropTable (table : Name)
  | dropSequence (table : Name)
  | addColumn (definition : ColumnDefinition)
  /-- Writes a literal into the NULLs of a column. -/
  | fillNulls (table column : Name) (literal : String)
  | alterType (target : ColumnChange)
  | setDefault (target : ColumnChange) (literal : String)
  | dropDefault (target : ColumnChange)
  | setNullable (target : ColumnChange)
  | renameTable (table newName : Name)
  /-- `target` has the column's old name. -/
  | renameColumn (target : ColumnChange) (newName : Name)
  | dropColumn (table column : Name)
  | createIndex (table name : Name) (columns : List Name) (isUnique : Bool)
  | dropIndex (table name : Name)
  | addUnique (table name : Name) (columns : List Name)
  | dropUnique (table name : Name)
  | addForeignKey (table name column target targetColumn : Name)
  | dropForeignKey (table name : Name)
  | addCheck (table name column : Name) (literals : List String)
  | dropCheck (table name : Name)
  | createView (view table : Name) (columns : List ViewColumn) (joins : List ViewJoin)
  | dropView (view : Name)
deriving DecidableEq, Repr

/-- Names as they are written, with commas between them. -/
def writtenList (names : List Name) : String := String.intercalate ", " (names.map Name.written)

end SqlDialects
