import SqlDialects.Proofs.Resizing
import SqlDialects.Proofs.VersionScript

/-!
# Columns that are added to a table

The column of a field is declared when its table is created, and when it is added to a table that has
rows already. In the second case a column that may not be NULL, and that no default fills, takes three
statements: it is added without constraints, filled, and tightened. This module runs the statements on
the rows that there are. They come to the column that the field has in a new table, but for the key of
the table: the three statements say nothing of a primary key, nor of values that the database generates.

Results:
1. `ColumnRule.cell_fillLiteral`: no database takes what NULLs are filled with for NULL.
2. `Entity.columnLeftBy_tightened`: the column that the three statements leave.
3. `Entity.addColumn_leaves_iff`: when the statements run, and when they leave the column of a new table;
   `hsqldb_added_key_is_no_key`: a key that is none when it is added.
-/

namespace SqlDialects

/-! ## Columns and rows -/

/-- A column as a table has it. -/
structure TableColumn where
  typeDecl : String
  defaultLiteral : Option String
  nullable : Bool
  isIdentity : Bool
  isPrimaryKey : Bool
deriving DecidableEq, Repr

/-- What a row has in a column. -/
inductive Cell where
  | null
  /-- A value that the database generates. -/
  | generated
  /-- The value of a literal. -/
  | literal (text : String)
deriving DecidableEq, Repr

/-- A column of a table, with what each row has in it. -/
structure FilledColumn where
  table : Name
  name : Name
  column : TableColumn
  cells : List Cell
deriving DecidableEq, Repr

namespace DdlStyle

/-- Whether the declaration of a generated key says that it is generated; where a trigger sees to it,
it does not. -/
def declaresIdentity : DdlStyle → Bool
  | .oracle .sequence => false
  | _ => true

/-- The column that a definition declares. A primary key may not be NULL. -/
def declared (s : DdlStyle) (d : ColumnDefinition) : TableColumn :=
  if d.isIdentity then
    { typeDecl := d.target.typeDecl
      defaultLiteral := none
      nullable := false
      isIdentity := s.declaresIdentity
      isPrimaryKey := true }
  else
    { typeDecl := d.target.typeDecl
      defaultLiteral := d.target.defaultLiteral
      nullable := d.target.nullable && !d.isPrimaryKey
      isIdentity := false
      isPrimaryKey := d.isPrimaryKey }

/-- Whether an empty string is NULL. -/
def readsEmptyAsNull : DdlStyle → Bool
  | .oracle _ => true
  | _ => false

/-- What a literal puts into a row. -/
def cell (s : DdlStyle) (text : String) : Cell :=
  if s.readsEmptyAsNull && text == "''" then .null else .literal text

/-- What the rows that there are get in a new column. -/
def newCell (s : DdlStyle) (d : ColumnDefinition) : Cell :=
  if (s.declared d).isIdentity then .generated
  else match (s.declared d).defaultLiteral with
    | some text => s.cell text
    | none => .null

/-- A column after a statement on its nullability. Some databases have more of the column stated with
it, and what MySQL is not told of the column is gone then, but for its keys. -/
def withNullability (s : DdlStyle) (t : ColumnChange) (c : TableColumn) : TableColumn :=
  match s with
  | .mysql =>
    { c with
      typeDecl := t.typeDecl
      defaultLiteral := t.defaultLiteral
      nullable := t.nullable
      isIdentity := false }
  | .mssql => { c with typeDecl := t.typeDecl, nullable := t.nullable }
  | _ => { c with nullable := t.nullable }

end DdlStyle

namespace FilledColumn

/-- The column, if no row is NULL in it that may not be. -/
def checked (c : FilledColumn) : Option FilledColumn :=
  if c.column.nullable || !c.cells.contains .null then some c else none

/-- The column after a statement that fills it or states its nullability, if the database takes that.
Other statements do not come up. -/
def after (s : DdlStyle) (c : FilledColumn) : Statement → Option FilledColumn
  | .fillNulls table name text =>
    if table = c.table ∧ name = c.name then
      some { c with cells := c.cells.map fun cell => if cell = .null then s.cell text else cell }
    else none
  | .setNullable t =>
    if t.table = c.table ∧ t.column = c.name then
      checked { c with column := s.withNullability t c.column }
    else none
  | _ => none

/-- A column that is added to some rows. -/
def added (s : DdlStyle) (rows : Nat) (d : ColumnDefinition) : FilledColumn :=
  { table := d.target.table
    name := d.target.column
    column := s.declared d
    cells := List.replicate rows (s.newCell d) }

end FilledColumn

/-- The column that statements leave which add it to some rows, if the database takes them all. -/
def columnLeftBy (s : DdlStyle) (rows : Nat) : List Statement → Option FilledColumn
  | .addColumn d :: rest => do
    let added ← (FilledColumn.added s rows d).checked
    rest.foldlM (FilledColumn.after s) added
  | _ => none

/-! ## What NULLs are filled with -/

theorem DdlStyle.cell_ne_null_iff {s : DdlStyle} {text : String} :
    s.cell text ≠ .null ↔ s.readsEmptyAsNull = false ∨ text ≠ "''" := by
  unfold cell
  cases s.readsEmptyAsNull <;> by_cases h : text = "''" <;> simp [h]

/-- No database takes what NULLs of a type are filled with for NULL. Where that would be an empty
string, Oracle has another literal. -/
theorem ColumnRule.cell_fillLiteral (db : Database) (type : ColumnType) {text : String}
    (h : ((Dialect.builtin db).columnRule type).fillLiteral none = .ok text) :
    (Dialect.builtin db).ddl.cell text ≠ .null := by
  rw [DdlStyle.cell_ne_null_iff]
  have hall : ∀ type ∈ ColumnType.all,
      (Dialect.builtin db).ddl.readsEmptyAsNull = false ∨
        (((Dialect.builtin db).columnRule type).fillLiteral none).toOption ≠ some "''" := by
    cases db <;> decide +kernel
  refine (hall type type.mem_all).imp id fun hne heq => hne ?_
  rw [h, heq]
  rfl

/-! ## Columns that statements leave -/

namespace FilledColumn

variable {s : DdlStyle} {rows : Nat}

theorem checked_eq_some_iff {c left : FilledColumn} :
    c.checked = some left ↔ left = c ∧ (c.column.nullable = true ∨ .null ∉ c.cells) := by
  unfold checked
  rw [Option.ite_none_right_eq_some, Option.some.injEq, Bool.or_eq_true, Bool.not_eq_true',
    ← Bool.not_eq_true, List.contains_iff_mem, and_comm, eq_comm]

/-- What no row has in a column is NULL exactly if there are no rows or they have something else. -/
theorem null_notMem_added {d : ColumnDefinition} :
    .null ∉ (added s rows d).cells ↔ rows = 0 ∨ s.newCell d ≠ .null := by
  show .null ∉ List.replicate rows (s.newCell d) ↔ _
  rw [List.mem_replicate, not_and_or, not_not, eq_comm (a := Cell.null)]

end FilledColumn

/-- A column that one statement adds is the one that is declared, if the rows that there are may have
what they get in it. -/
theorem columnLeftBy_addColumn {s : DdlStyle} {rows : Nat} {d : ColumnDefinition}
    {left : FilledColumn} :
    columnLeftBy s rows [.addColumn d] = some left ↔
      left = .added s rows d ∧
        (rows = 0 ∨ (s.declared d).nullable = true ∨ s.newCell d ≠ .null) := by
  show (FilledColumn.added s rows d).checked.bind some = some left ↔ _
  rw [Option.bind_fun_some, FilledColumn.checked_eq_some_iff, FilledColumn.null_notMem_added]
  exact and_congr_right fun _ => or_left_comm

namespace Field

/-- Whether the column of a field is first added without constraints: no row could have a value. -/
def isTightened (f : Field) : Bool := !f.nullable && f.defaultLiteral.isNone

/-- The column that a field without a default gets, if it is no key. -/
def keylessColumn (f : Field) : TableColumn :=
  { typeDecl := f.typeDecl
    defaultLiteral := none
    nullable := false
    isIdentity := false
    isPrimaryKey := false }

end Field

namespace Entity

variable {e : Entity} {f : Field}

/-- What the declaration of a column says that is tightened when it is added. -/
theorem declared_eq_keylessColumn_iff (s : DdlStyle) (h : f.isTightened = true) :
    f.keylessColumn = s.declared (e.definition f) ↔ f.primaryKey = false := by
  obtain ⟨hnullable, hdefault⟩ : f.nullable = false ∧ f.defaultLiteral = none := by
    simpa [Field.isTightened] using h
  constructor
  · intro heq
    have hkey := congrArg TableColumn.isPrimaryKey heq
    unfold DdlStyle.declared at hkey
    split at hkey
    · cases hkey
    · exact hkey.symm
  · intro hkey
    have hidentity : f.isIdentity = false := by rw [Field.isIdentity, hkey, Bool.false_and]
    unfold DdlStyle.declared
    rw [if_neg (by simp [definition, hidentity])]
    simp [Field.keylessColumn, definition, target, hnullable, hdefault, hkey]

/-- The three statements that add a column run on any rows, and leave a column that may not be NULL,
without a default or a key, in which each row has the value that it was filled with. -/
theorem columnLeftBy_tightened {s : DdlStyle} (h : f.isTightened = true) {text : String}
    (htext : s.cell text ≠ .null) (rows : Nat) :
    columnLeftBy s rows [.addColumn (e.relaxedDefinition f), .fillNulls e.table f.column text,
        .setNullable (e.target f)] =
      some ⟨e.table, f.column, f.keylessColumn, List.replicate rows (s.cell text)⟩ := by
  obtain ⟨hnullable, hdefault⟩ : f.nullable = false ∧ f.defaultLiteral = none := by
    simpa [Field.isTightened] using h
  have hrelaxed : (FilledColumn.added s rows (e.relaxedDefinition f)).checked =
      some ⟨e.table, f.column, { f.keylessColumn with nullable := true },
        List.replicate rows .null⟩ := rfl
  have hfilled : FilledColumn.after s
        ⟨e.table, f.column, { f.keylessColumn with nullable := true }, List.replicate rows .null⟩
        (.fillNulls e.table f.column text) =
      some ⟨e.table, f.column, { f.keylessColumn with nullable := true },
        List.replicate rows (s.cell text)⟩ := by
    simp [FilledColumn.after]
  have hstated : s.withNullability (e.target f) { f.keylessColumn with nullable := true } =
      f.keylessColumn := by
    cases s <;> simp [DdlStyle.withNullability, Field.keylessColumn, target, hnullable, hdefault]
  have htightened : FilledColumn.after s
        ⟨e.table, f.column, { f.keylessColumn with nullable := true },
          List.replicate rows (s.cell text)⟩ (.setNullable (e.target f)) =
      some ⟨e.table, f.column, f.keylessColumn, List.replicate rows (s.cell text)⟩ := by
    show (if e.table = e.table ∧ f.column = f.column then _ else none) = _
    rw [if_pos ⟨rfl, rfl⟩, hstated, FilledColumn.checked_eq_some_iff]
    refine ⟨rfl, .inr ?_⟩
    rintro hnull
    exact htext (List.eq_of_mem_replicate hnull).symm
  rw [columnLeftBy, hrelaxed, Option.bind_eq_bind, Option.bind_some, List.foldlM_cons, hfilled,
    Option.bind_eq_bind, Option.bind_some, List.foldlM_cons, htightened]
  rfl

/-- The statements that add the column of a field run on any rows if it is tightened, and otherwise if
the rows may have what the column gives them. They leave the column that a new table would have, in
which no row is NULL that may not be, unless it is both tightened and a primary key. -/
theorem addColumn_leaves_iff {db : Database} {name : String} {statements : List Statement}
    (h : e.addColumn (Dialect.builtin db) name = .ok statements) :
    ∃ f, e.tableField name = .ok f ∧ ∀ rows,
      ((columnLeftBy (Dialect.builtin db).ddl rows statements).isSome = true ↔
        f.isTightened = true ∨ rows = 0 ∨
          ((Dialect.builtin db).ddl.declared (e.definition f)).nullable = true ∨
          (Dialect.builtin db).ddl.newCell (e.definition f) ≠ .null) ∧
      ∀ left, columnLeftBy (Dialect.builtin db).ddl rows statements = some left →
        left.table = e.table ∧ left.name = f.column ∧ left.cells.length = rows ∧
        (left.column = (Dialect.builtin db).ddl.declared (e.definition f) ↔
          f.isTightened = false ∨ f.primaryKey = false) ∧
        (left.column.nullable = false → .null ∉ left.cells) := by
  obtain ⟨f, hf, hstatements⟩ := addColumn_eq_ok h
  refine ⟨f, hf, fun rows => ?_⟩
  rcases hstatements with ⟨hdirect, rfl⟩ | ⟨hloose, text, htext, rfl⟩
  · have hdirect : f.isTightened = false := by
      rw [Bool.or_eq_true] at hdirect
      rcases hdirect with hnullable | hdefault
      · simp [Field.isTightened, hnullable]
      · simp [Field.isTightened, Option.isNone_eq_false_iff, hdefault]
    constructor
    · rw [Option.isSome_iff_exists, hdirect]
      simp only [columnLeftBy_addColumn, exists_eq_left, Bool.false_eq_true, false_or]
    · intro left hleft
      obtain ⟨rfl, hgiven⟩ := columnLeftBy_addColumn.1 hleft
      refine ⟨rfl, rfl, List.length_replicate, iff_of_true rfl (.inl hdirect), ?_⟩
      intro hnotNull
      rw [FilledColumn.null_notMem_added]
      refine hgiven.imp_right fun hgiven => hgiven.resolve_left ?_
      rw [show ((Dialect.builtin db).ddl.declared (e.definition f)).nullable = false from hnotNull]
      exact Bool.false_ne_true
  · have htightened : f.isTightened = true := by
      simpa [Field.isTightened] using hloose
    have hvalue := ColumnRule.cell_fillLiteral db f.columnType htext
    rw [columnLeftBy_tightened htightened hvalue]
    refine ⟨iff_of_true rfl (.inl htightened), ?_⟩
    rintro left ⟨⟩
    refine ⟨rfl, rfl, List.length_replicate, ?_, fun _ hnull => ?_⟩
    · rw [declared_eq_keylessColumn_iff _ htightened, htightened]
      simp
    · exact hvalue (List.eq_of_mem_replicate hnull).symm

end Entity

/-- In MySQL the text of notes that there are is added loosely, filled, and then as in a new table. -/
theorem mysql_added_text_is_declared :
    ∃ e f statements left,
      Entity.ofSpec (Dialect.builtin .mysql) (noteWith (FieldSpec.named "text" .string)) = .ok e ∧
      e.tableField "text" = .ok f ∧ f.isTightened = true ∧
      e.addColumn (Dialect.builtin .mysql) "text" = .ok statements ∧
      columnLeftBy (Dialect.builtin .mysql).ddl 2 statements = some left ∧
      left.column = (Dialect.builtin .mysql).ddl.declared (e.definition f) ∧
      left.cells.length = 2 ∧ .null ∉ left.cells := by
  obtain ⟨⟨e, f, statements⟩, hrun, hfield⟩ :
      ∃ run : Entity × Field × List Statement,
        (do
          let e ← Entity.ofSpec (Dialect.builtin .mysql) (noteWith (FieldSpec.named "text" .string))
          let f ← e.tableField "text"
          let statements ← e.addColumn (Dialect.builtin .mysql) "text"
          return (e, f, statements)) = .ok run ∧
        (run.2.1.isTightened && !run.2.1.primaryKey) = true :=
    exists_ok_of_any (by decide +kernel)
  obtain ⟨_, he, hrun⟩ := bind_eq_ok_iff.1 hrun
  obtain ⟨_, hf, hrun⟩ := bind_eq_ok_iff.1 hrun
  obtain ⟨_, hadd, hrun⟩ := bind_eq_ok_iff.1 hrun
  cases hrun
  obtain ⟨htightened, hkeyless⟩ : f.isTightened = true ∧ f.primaryKey = false := by
    simpa using hfield
  obtain ⟨g, hg, hleft⟩ := Entity.addColumn_leaves_iff hadd
  obtain rfl : f = g := Except.ok.inj (hf.symm.trans hg)
  obtain ⟨left, hrun⟩ := Option.isSome_iff_exists.1 ((hleft 2).1.2 (.inl htightened))
  obtain ⟨_, _, hlength, hcolumn, hnull⟩ := (hleft 2).2 left hrun
  have hdeclared := hcolumn.2 (.inr hkeyless)
  refine ⟨e, f, statements, left, he, hf, htightened, hadd, hrun, hdeclared, hlength, hnull ?_⟩
  rw [hdeclared, ← Entity.declared_eq_keylessColumn_iff _ htightened |>.2 hkeyless]
  rfl

/-- In HSQLDB the key of notes that is added to their table is not generated, and no primary key. -/
theorem hsqldb_added_key_is_no_key :
    ∃ e f statements left,
      Entity.ofSpec (Dialect.builtin .hsqldb) (noteWith (FieldSpec.named "text" .string)) = .ok e ∧
      e.tableField "id" = .ok f ∧ e.addColumn (Dialect.builtin .hsqldb) "id" = .ok statements ∧
      (Dialect.builtin .hsqldb).ddl.columnDefinition (e.definition f) =
        "ID BIGINT GENERATED BY DEFAULT AS IDENTITY PRIMARY KEY NOT NULL" ∧
      statements.map ((Dialect.builtin .hsqldb).ddl.text .compact) =
        ["ALTER TABLE PUBLIC.NOTE ADD COLUMN ID BIGINT",
          "UPDATE PUBLIC.NOTE SET ID = 0 WHERE ID IS NULL",
          "ALTER TABLE PUBLIC.NOTE ALTER COLUMN ID SET NOT NULL"] ∧
      columnLeftBy (Dialect.builtin .hsqldb).ddl 2 statements = some left ∧
      left.column.isIdentity = false ∧ left.column.isPrimaryKey = false ∧
      left.column ≠ (Dialect.builtin .hsqldb).ddl.declared (e.definition f) := by
  obtain ⟨⟨e, f, statements⟩, hrun, hcheck⟩ :
      ∃ run : Entity × Field × List Statement,
        (do
          let e ← Entity.ofSpec (Dialect.builtin .hsqldb) (noteWith (FieldSpec.named "text" .string))
          let f ← e.tableField "id"
          let statements ← e.addColumn (Dialect.builtin .hsqldb) "id"
          return (e, f, statements)) = .ok run ∧
        ((Dialect.builtin .hsqldb).ddl.columnDefinition (run.1.definition run.2.1) ==
            "ID BIGINT GENERATED BY DEFAULT AS IDENTITY PRIMARY KEY NOT NULL" &&
          run.2.2.map ((Dialect.builtin .hsqldb).ddl.text .compact) ==
            ["ALTER TABLE PUBLIC.NOTE ADD COLUMN ID BIGINT",
              "UPDATE PUBLIC.NOTE SET ID = 0 WHERE ID IS NULL",
              "ALTER TABLE PUBLIC.NOTE ALTER COLUMN ID SET NOT NULL"] &&
          (columnLeftBy (Dialect.builtin .hsqldb).ddl 2 run.2.2).any fun left =>
            !left.column.isIdentity && !left.column.isPrimaryKey &&
              left.column != (Dialect.builtin .hsqldb).ddl.declared (run.1.definition run.2.1)) =
          true :=
    exists_ok_of_any (by decide +kernel)
  obtain ⟨_, he, hrun⟩ := bind_eq_ok_iff.1 hrun
  obtain ⟨_, hf, hrun⟩ := bind_eq_ok_iff.1 hrun
  obtain ⟨_, hadd, hrun⟩ := bind_eq_ok_iff.1 hrun
  cases hrun
  rw [Bool.and_eq_true, Bool.and_eq_true, beq_iff_eq, beq_iff_eq] at hcheck
  obtain ⟨⟨hdeclared, htexts⟩, hleft⟩ := hcheck
  obtain ⟨left, hleft, hkey⟩ := (Option.any_eq_true _ _).1 hleft
  obtain ⟨⟨hidentity, hprimary⟩, hdiffers⟩ :
      (left.column.isIdentity = false ∧ left.column.isPrimaryKey = false) ∧
        left.column ≠ (Dialect.builtin .hsqldb).ddl.declared (e.definition f) := by
    simpa using hkey
  exact ⟨e, f, statements, left, he, hf, hadd, hdeclared, htexts, hleft, hidentity, hprimary,
    hdiffers⟩

end SqlDialects
