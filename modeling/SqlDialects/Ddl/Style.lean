import SqlDialects.Ddl.Statement
import SqlDialects.Layout

/-!
How databases write the statements on tables. A style says only what it writes in its own way.
-/

namespace SqlDialects

/-- How keys are generated where a table cannot be left to do it. -/
inductive KeyGeneration where
  /-- A sequence and a trigger. -/
  | sequence
  /-- An identity column. -/
  | identity
deriving DecidableEq, Repr

/-- A way to write statements on tables. -/
inductive DdlStyle where
  | standard
  | postgresql
  /-- A column is restated in full whenever something about it changes. -/
  | mysql
  /-- Defaults are constraints with names. -/
  | mssql
  | oracle (keys : KeyGeneration)
deriving DecidableEq, Repr

/-- The word for nullability. -/
def nullWord (nullable : Bool) : String := if nullable then "NULL" else "NOT NULL"

/-- Name of the constraint that holds a default. -/
def defaultConstraintName (t : ColumnChange) : String :=
  Text.asciiUpper ("DF_" ++ t.table.raw ++ "_" ++ t.column.raw)

/-- Name of the sequence of a table. -/
def sequenceName (table : Name) : String := Text.asciiUpper table.raw ++ "_SEQ"

/-- Name of the trigger of a table. -/
def triggerName (table : Name) : String := Text.asciiUpper table.raw ++ "_TRG"

/-- A name as an argument of a procedure: without brackets. -/
def withoutBrackets (name : String) : String :=
  String.ofList (name.toList.filter fun c => c ≠ '[' ∧ c ≠ ']')

namespace DdlStyle

/-- Words before an added column. -/
def addColumnWords : DdlStyle → String
  | .standard | .postgresql => "ADD COLUMN"
  | .mysql | .mssql | .oracle _ => "ADD"

/-- What follows the type of a generated key. -/
def generatedKey : DdlStyle → String
  | .standard => "GENERATED BY DEFAULT AS IDENTITY PRIMARY KEY NOT NULL"
  | .postgresql | .oracle .identity => "GENERATED BY DEFAULT AS IDENTITY PRIMARY KEY"
  | .mysql => "NOT NULL AUTO_INCREMENT PRIMARY KEY"
  | .mssql => "IDENTITY(1,1) NOT NULL PRIMARY KEY"
  | .oracle .sequence => "NOT NULL PRIMARY KEY"

/-- Whether a nullable column is declared so. -/
def statesNull : DdlStyle → Bool
  | .mysql => true
  | _ => false

/-- Whether the statement that changes a type also states nullability. -/
def alterTypeStatesNull : DdlStyle → Bool
  | .mysql | .mssql => true
  | _ => false

/-- Statements that let a table generate its keys, after it is created. -/
def createKeySupport (s : DdlStyle) (table column : Name) : List Statement :=
  match s with
  | .oracle .sequence => [.createSequence table, .createKeyTrigger table column]
  | _ => []

/-- Statements that remove what generated the keys, after the table is dropped. -/
def dropKeySupport (s : DdlStyle) (table : Name) : List Statement :=
  match s with
  | .oracle .sequence => [.dropSequence table]
  | _ => []

/-- Statements that give a column a default, in place of the one it has. -/
def replaceDefault (s : DdlStyle) (t : ColumnChange) (literal : String) : List Statement :=
  match s with
  | .mssql =>
    if t.hadDefault then [.dropDefault t, .setDefault t literal] else [.setDefault t literal]
  | _ => [.setDefault t literal]

/-- Default of a column definition, after a blank. -/
def defaultClause (s : DdlStyle) (t : ColumnChange) (literal : String) : String :=
  match s with
  | .mssql => " CONSTRAINT " ++ defaultConstraintName t ++ " DEFAULT " ++ literal
  | _ => " DEFAULT " ++ literal

/-- A column as a new one is declared. -/
def columnDefinition (s : DdlStyle) (d : ColumnDefinition) : String :=
  let t := d.target
  let head := t.column.written ++ " " ++ t.typeDecl
  if d.isIdentity then head ++ " " ++ s.generatedKey
  else
    head
      ++ (match t.defaultLiteral with
        | some literal => s.defaultClause t literal
        | none => "")
      ++ (if !t.nullable then " NOT NULL" else if s.statesNull then " NULL" else "")
      ++ (if d.isPrimaryKey then " PRIMARY KEY" else "")

/-- An index as a table is created with it. -/
def inlineIndex (name : String) (columns : String) (isUnique : Bool) : String :=
  (if isUnique then "UNIQUE " else "") ++ "INDEX " ++ name ++ " (" ++ columns ++ ")"

/-- A part of a new table. -/
def tableItem (s : DdlStyle) : TableItem → String
  | .column d => s.columnDefinition d
  | .unique name columns =>
    "CONSTRAINT " ++ name.written ++ " UNIQUE (" ++ writtenList columns ++ ")"
  | .index name columns isUnique => inlineIndex name.written (writtenList columns) isUnique

/-- The whole of a column restated under a name. -/
def restated (t : ColumnChange) (column : String) : String :=
  column ++ " " ++ t.typeDecl
    ++ (match t.defaultLiteral with
      | some literal => " DEFAULT " ++ literal
      | none => "")
    ++ " " ++ nullWord t.nullable

/-- Clauses that change a table. -/
def alterTable (table : Name) (change : String) : List String :=
  ["ALTER TABLE " ++ table.written, change]

/-- Clauses that change a type. -/
def alterType (s : DdlStyle) (t : ColumnChange) : List String :=
  alterTable t.table <| match s with
    | .standard => "ALTER COLUMN " ++ t.column.written ++ " SET DATA TYPE " ++ t.typeDecl
    | .postgresql => "ALTER COLUMN " ++ t.column.written ++ " TYPE " ++ t.typeDecl
    | .mysql => "MODIFY " ++ restated t t.column.written
    | .mssql =>
      "ALTER COLUMN " ++ t.column.written ++ " " ++ t.typeDecl ++ " " ++ nullWord t.nullable
    | .oracle _ => "MODIFY (" ++ t.column.written ++ " " ++ t.typeDecl ++ ")"

/-- Clauses that set a default where there is none, or none with a name. -/
def setDefault (s : DdlStyle) (t : ColumnChange) (literal : String) : List String :=
  alterTable t.table <| match s with
    | .mssql =>
      "ADD CONSTRAINT " ++ defaultConstraintName t ++ " DEFAULT " ++ literal ++ " FOR "
        ++ t.column.written
    | .oracle _ => "MODIFY (" ++ t.column.written ++ " DEFAULT " ++ literal ++ ")"
    | _ => "ALTER COLUMN " ++ t.column.written ++ " SET DEFAULT " ++ literal

/-- Clauses that remove a default. -/
def dropDefault (s : DdlStyle) (t : ColumnChange) : List String :=
  alterTable t.table <| match s with
    | .mssql => "DROP CONSTRAINT " ++ defaultConstraintName t
    | .oracle _ => "MODIFY (" ++ t.column.written ++ " DEFAULT NULL)"
    | _ => "ALTER COLUMN " ++ t.column.written ++ " DROP DEFAULT"

/-- Clauses that change nullability. -/
def setNullable (s : DdlStyle) (t : ColumnChange) : List String :=
  match s with
  | .standard =>
    alterTable t.table ("ALTER COLUMN " ++ t.column.written ++ " SET " ++ nullWord t.nullable)
  | .postgresql =>
    alterTable t.table ("ALTER COLUMN " ++ t.column.written
      ++ (if t.nullable then " DROP NOT NULL" else " SET NOT NULL"))
  | .mysql | .mssql => s.alterType t
  | .oracle _ =>
    alterTable t.table ("MODIFY (" ++ t.column.written ++ " " ++ nullWord t.nullable ++ ")")

/-- Clauses that rename a table. -/
def renameTable (s : DdlStyle) (table newName : Name) : List String :=
  match s with
  | .mysql => ["RENAME TABLE " ++ table.written ++ " TO " ++ newName.written]
  | .mssql =>
    ["EXEC sp_rename '" ++ withoutBrackets table.written ++ "', '"
      ++ withoutBrackets newName.written ++ "'"]
  | _ => alterTable table ("RENAME TO " ++ newName.written)

/-- Clauses that rename a column. -/
def renameColumn (s : DdlStyle) (t : ColumnChange) (newName : Name) : List String :=
  match s with
  | .standard =>
    alterTable t.table ("ALTER COLUMN " ++ t.column.written ++ " RENAME TO " ++ newName.written)
  | .mysql =>
    alterTable t.table ("CHANGE COLUMN " ++ t.column.written ++ " " ++ restated t newName.written)
  | .mssql =>
    ["EXEC sp_rename '" ++ withoutBrackets t.table.written ++ "."
      ++ withoutBrackets t.column.written ++ "', '" ++ withoutBrackets newName.written
      ++ "', 'COLUMN'"]
  | .postgresql | .oracle _ =>
    alterTable t.table ("RENAME COLUMN " ++ t.column.written ++ " TO " ++ newName.written)

/-- Clauses that drop an index. -/
def dropIndex (s : DdlStyle) (table name : Name) : List String :=
  match s with
  | .mysql | .mssql => ["DROP INDEX " ++ name.written ++ " ON " ++ table.written]
  | _ => ["DROP INDEX " ++ name.written]

/-- Clauses that drop a unique constraint. -/
def dropUnique (s : DdlStyle) (table name : Name) : List String :=
  alterTable table <| match s with
    | .mysql => "DROP INDEX " ++ name.written
    | _ => "DROP CONSTRAINT " ++ name.written

/-- Clauses that drop a foreign key. -/
def dropForeignKey (s : DdlStyle) (table name : Name) : List String :=
  alterTable table <| match s with
    | .mysql => "DROP FOREIGN KEY " ++ name.written
    | _ => "DROP CONSTRAINT " ++ name.written

/-- Clauses that drop a check constraint. -/
def dropCheck (s : DdlStyle) (table name : Name) : List String :=
  alterTable table <| match s with
    | .mysql => "DROP CHECK " ++ name.written
    | _ => "DROP CONSTRAINT " ++ name.written

/-- What a numbered table of a view goes by. -/
def aliasName (number : Nat) : String := s!"T{number}"

/-- A column of a view. -/
def viewColumn (c : ViewColumn) : String :=
  aliasName c.source ++ "." ++ c.column.written
    ++ (match c.name with
      | some name => " AS " ++ name.written
      | none => "")

/-- A joined table of a view. -/
def viewJoin (j : ViewJoin) : String :=
  "LEFT JOIN " ++ j.table.written ++ " " ++ aliasName j.number ++ " ON " ++ aliasName 1 ++ "."
    ++ j.key.written ++ " = " ++ aliasName j.number ++ "." ++ j.column.written

/-- The text of the trigger that takes a new key from the sequence. -/
def keyTrigger (table column : Name) : String :=
  "CREATE OR REPLACE TRIGGER " ++ triggerName table ++ " BEFORE INSERT ON " ++ table.written
    ++ " FOR EACH ROW WHEN (NEW." ++ column.written ++ " IS NULL) BEGIN SELECT "
    ++ sequenceName table ++ ".NEXTVAL INTO :NEW." ++ column.written ++ " FROM DUAL; END;"

/-- The parts of a statement's text. -/
def arrangement (s : DdlStyle) : Statement → Arrangement
  | .createTable table items => .list ("CREATE TABLE " ++ table.written) (items.map s.tableItem)
  | .createSequence table =>
    .clauses ["CREATE SEQUENCE " ++ sequenceName table ++ " START WITH 1 INCREMENT BY 1"]
  | .createKeyTrigger table column => .clauses [keyTrigger table column]
  | .dropTable table => .clauses ["DROP TABLE " ++ table.written]
  | .dropSequence table => .clauses ["DROP SEQUENCE " ++ sequenceName table]
  | .addColumn d =>
    .clauses (alterTable d.target.table (s.addColumnWords ++ " " ++ s.columnDefinition d))
  | .fillNulls table column literal =>
    .clauses ["UPDATE " ++ table.written, "SET " ++ column.written ++ " = " ++ literal,
      "WHERE " ++ column.written ++ " IS NULL"]
  | .alterType t => .clauses (s.alterType t)
  | .setDefault t literal => .clauses (s.setDefault t literal)
  | .dropDefault t => .clauses (s.dropDefault t)
  | .setNullable t => .clauses (s.setNullable t)
  | .renameTable table newName => .clauses (s.renameTable table newName)
  | .renameColumn t newName => .clauses (s.renameColumn t newName)
  | .dropColumn table column => .clauses (alterTable table ("DROP COLUMN " ++ column.written))
  | .createIndex table name columns isUnique =>
    .clauses ["CREATE " ++ (if isUnique then "UNIQUE " else "") ++ "INDEX " ++ name.written
      ++ " ON " ++ table.written ++ " (" ++ writtenList columns ++ ")"]
  | .dropIndex table name => .clauses (s.dropIndex table name)
  | .addUnique table name columns =>
    .clauses (alterTable table
      ("ADD CONSTRAINT " ++ name.written ++ " UNIQUE (" ++ writtenList columns ++ ")"))
  | .dropUnique table name => .clauses (s.dropUnique table name)
  | .addForeignKey table name column target targetColumn =>
    .clauses (alterTable table
      ("ADD CONSTRAINT " ++ name.written ++ " FOREIGN KEY (" ++ column.written ++ ") REFERENCES "
        ++ target.written ++ " (" ++ targetColumn.written ++ ")"))
  | .dropForeignKey table name => .clauses (s.dropForeignKey table name)
  | .addCheck table name column literals =>
    .clauses (alterTable table
      ("ADD CONSTRAINT " ++ name.written ++ " CHECK (" ++ column.written ++ " IN ("
        ++ String.intercalate ", " literals ++ "))"))
  | .dropCheck table name => .clauses (s.dropCheck table name)
  | .createView view table columns joins =>
    .clauses (["CREATE VIEW " ++ view.written ++ " AS SELECT "
        ++ String.intercalate ", " (columns.map viewColumn),
      "FROM " ++ table.written ++ " " ++ aliasName 1] ++ joins.map viewJoin)
  | .dropView view => .clauses ["DROP VIEW " ++ view.written]

/-- The text of a statement in a layout. -/
def text (s : DdlStyle) (l : Layout) (statement : Statement) : String :=
  l.arrange (s.arrangement statement)

end DdlStyle

end SqlDialects
