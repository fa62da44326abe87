import SqlDialects.Query.Rows
import SqlDialects.Query.Select
import SqlDialects.Upgrade.Version

/-!
# What a layout leaves alone

A layout puts blanks between the clauses of a statement and between the items of a list, and nothing
else. Read without its blanks, a statement is therefore the same text in every layout, and so is a
whole answer, whatever was asked for.

Results:
1. `Layout.withoutBlanks_arrange`, `Command.withoutBlanks_textWith`: a statement on tables and one on
   rows.
2. `Request.answer_withoutBlanks`: one request in two layouts fails alike or is answered alike, up to
   the blanks in its statements.
-/

namespace SqlDialects

/-! ## Text without blanks -/

namespace Text

/-- Text with all its blanks taken out, wherever they stand. -/
def withoutBlanks (s : String) : String := String.ofList (s.toList.filter fun c => !isBlank c)

@[simp] theorem withoutBlanks_append (a b : String) :
    withoutBlanks (a ++ b) = withoutBlanks a ++ withoutBlanks b := by
  rw [withoutBlanks, String.toList_append, List.filter_append, String.ofList_append]
  rfl

theorem withoutBlanks_intercalate (glue : String) (parts : List String) :
    withoutBlanks (String.intercalate glue parts) =
      String.intercalate (withoutBlanks glue) (parts.map withoutBlanks) := by
  induction parts with
  | nil => rfl
  | cons part rest ih =>
    cases rest with
    | nil => simp
    | cons next rest =>
      rw [String.intercalate_cons_cons, withoutBlanks_append, withoutBlanks_append, ih,
        List.map_cons, List.map_cons, List.map_cons, String.intercalate_cons_cons]

/-- Two glues of the same content hold parts together to the same content. -/
theorem withoutBlanks_intercalate_congr {glue glue' : String}
    (h : withoutBlanks glue = withoutBlanks glue') (parts : List String) :
    withoutBlanks (String.intercalate glue parts) =
      withoutBlanks (String.intercalate glue' parts) := by
  rw [withoutBlanks_intercalate, withoutBlanks_intercalate, h]

end Text

open Text

/-! ## One statement -/

namespace Layout

@[simp] theorem withoutBlanks_separator (l : Layout) : withoutBlanks l.separator = "" := by
  cases l <;> rfl

@[simp] theorem withoutBlanks_listSeparator (l : Layout) :
    withoutBlanks l.listSeparator = "," := by
  cases l <;> rfl

@[simp] theorem withoutBlanks_listStart (l : Layout) : withoutBlanks l.listStart = "(" := by
  cases l <;> rfl

@[simp] theorem withoutBlanks_listEnd (l : Layout) : withoutBlanks l.listEnd = ")" := by
  cases l <;> rfl

/-- What a layout arranges is the same in another one, blanks apart. -/
theorem withoutBlanks_arrange (l m : Layout) (a : Arrangement) :
    withoutBlanks (l.arrange a) = withoutBlanks (m.arrange a) := by
  cases a with
  | clauses parts =>
    refine withoutBlanks_intercalate_congr ?_ parts
    rw [withoutBlanks_separator, withoutBlanks_separator]
  | list head items =>
    have hitems := withoutBlanks_intercalate_congr
      (l.withoutBlanks_listSeparator.trans m.withoutBlanks_listSeparator.symm) items
    simp only [arrange, withoutBlanks_append, hitems, withoutBlanks_listStart,
      withoutBlanks_listEnd]

end Layout

/-- A statement on tables, in every dialect. -/
theorem DdlStyle.withoutBlanks_text (s : DdlStyle) (l m : Layout) (statement : Statement) :
    withoutBlanks (s.text l statement) = withoutBlanks (s.text m statement) :=
  Layout.withoutBlanks_arrange l m (s.arrangement statement)

namespace Command

variable {a b : String}

theorem withoutBlanks_filterClause (h : withoutBlanks a = withoutBlanks b)
    (filter : Option Condition) :
    withoutBlanks (filterClause a filter) = withoutBlanks (filterClause b filter) := by
  cases filter with
  | none => rfl
  | some c => simp only [filterClause, withoutBlanks_append, h]

theorem withoutBlanks_orderClause (h : withoutBlanks a = withoutBlanks b)
    (order : List (String × Bool)) :
    withoutBlanks (orderClause a order) = withoutBlanks (orderClause b order) := by
  cases order with
  | nil => rfl
  | cons item rest => simp only [orderClause, withoutBlanks_append, h]

/-- A statement on rows has nothing of a separator but what is not blank in it. -/
theorem withoutBlanks_textWith (h : withoutBlanks a = withoutBlanks b) (c : Command) :
    withoutBlanks (c.textWith a) = withoutBlanks (c.textWith b) := by
  cases c with
  | select s =>
    show withoutBlanks (selectText a s) = withoutBlanks (selectText b s)
    unfold selectText
    simp only [withoutBlanks_append, withoutBlanks_filterClause h, withoutBlanks_orderClause h, h]
  | count table filter =>
    show withoutBlanks ("SELECT COUNT(*)" ++ a ++ "FROM " ++ table ++ filterClause a filter) =
      withoutBlanks ("SELECT COUNT(*)" ++ b ++ "FROM " ++ table ++ filterClause b filter)
    simp only [withoutBlanks_append, withoutBlanks_filterClause h, h]
  | insert table columns | find table columns key | update table columns key | delete table key =>
    exact withoutBlanks_intercalate_congr h _

/-- A statement on rows is the same in two layouts, blanks apart. -/
theorem withoutBlanks_text (l m : Layout) (c : Command) :
    withoutBlanks (c.text l) = withoutBlanks (c.text m) :=
  withoutBlanks_textWith (l.withoutBlanks_separator.trans m.withoutBlanks_separator.symm) c

end Command

/-! ## Whole answers -/

/-- What the registered entities of a dialect can be asked for. -/
inductive Request where
  /-- The declaration of a column. -/
  | columnDefinition (e : Entity) (f : Field)
  | createTable (e : Entity)
  | dropTable (e : Entity)
  | addColumn (e : Entity) (field : String)
  | alterColumn (e : Entity) (field : String) (observed : CatalogColumn)
  /-- A column brought to a field, whether or not it is the field of its name. -/
  | convergeColumn (e : Entity) (f : Field) (observed : CatalogColumn)
  | relaxColumn (e : Entity) (observed : CatalogColumn)
  | renameTable (e : Entity) (newTable : String)
  | renameColumn (e : Entity) (field oldColumn : String)
  | dropColumn (e : Entity) (column : String)
  | createIndex (e : Entity) (i : IndexSpec)
  | dropIndex (e : Entity) (name : String)
  | addUnique (e : Entity) (u : UniqueSpec)
  | dropUnique (e : Entity) (name : String)
  | foreignKeyName (e : Entity) (f : Field)
  | addForeignKey (e : Entity) (field : String)
  | dropForeignKey (e : Entity) (name : String)
  | addCheck (e : Entity) (c : CheckSpec)
  | dropCheck (e : Entity) (name : String)
  | createView (e : Entity)
  | dropView (e : Entity)
  | restrict (e : Entity) (field : String) (r : Restriction) (operands : Nat)
  | restrictView (e : Entity) (field : String) (r : Restriction) (operands : Nat)
  | compound (r : Restriction) (parts : List BoundCondition)
  | operand (r : Restriction) (v : Value)
  | timeBucket (f : Field) (b : TimeBucket)
  | select (e : Entity) (q : Query)
  | insert (e : Entity)
  | findByKey (e : Entity) (withVersion : Bool)
  | updateByKey (e : Entity) (withVersion : Bool)
  | deleteByKey (e : Entity) (withVersion : Bool)
  | count (e : Entity) (filter : Option BoundCondition)
  | dropViews (entities : List Entity) (catalog : Catalog)
  /-- The upgrade of a database to the entities of some names. -/
  | upgrade (keys : Bool) (names : List String) (catalog : Catalog)
  /-- The upgrade of an entity from an earlier description. -/
  | versionUpgrade (old : EntitySpec) (name : String)

/-- What a request is answered with, over the way in which statements on tables (`σ`) and on rows
(`τ`) are given. -/
inductive Answer (σ τ : Type) where
  | statements (s : List σ)
  | prepared (statement : τ) (parameters : List Parameter) (results : List ResultColumn)
  | upgrade (viewDrops : List σ) (scripts : List (String × List σ))
  | condition (c : BoundCondition)
  | bucket (b : TimeBucketExpression)
  | value (v : Value)
  | text (s : String)

namespace Answer

variable {σ σ' σ'' τ τ' τ'' : Type}

/-- The statements of an answer given in another way. All else stays. -/
def map (f : σ → σ') (g : τ → τ') : Answer σ τ → Answer σ' τ'
  | .statements s => .statements (s.map f)
  | .prepared statement parameters results => .prepared (g statement) parameters results
  | .upgrade viewDrops scripts =>
    .upgrade (viewDrops.map f) (scripts.map fun script => (script.1, script.2.map f))
  | .condition c => .condition c
  | .bucket b => .bucket b
  | .value v => .value v
  | .text s => .text s

theorem map_map (f : σ → σ') (f' : σ' → σ'') (g : τ → τ') (g' : τ' → τ'') (a : Answer σ τ) :
    (a.map f g).map f' g' = a.map (f' ∘ f) (g' ∘ g) := by
  cases a with
  | statements s => simp only [map, List.map_map]
  | upgrade viewDrops scripts =>
    simp only [map, List.map_map, Function.comp_def]
  | prepared | condition | bucket | value | text => rfl

/-- A statement on rows with its parameters and results. -/
def ofPrepared (p : PreparedStatement) : Answer Statement Command :=
  .prepared p.command p.parameters p.results

/-- Scripts, each with the name of its entity. -/
def ofUpgrade (p : Upgrade) : Answer Statement Command :=
  .upgrade p.viewDrops (p.scripts.map fun s => (s.entity, s.statements))

end Answer

namespace Request

/-- What comes of a request, before any statement has a text. -/
def outcome (r : Registry) : Request → Except UpgradeError (Answer Statement Command)
  | .columnDefinition e f => return .text (r.dialect.ddl.columnDefinition (e.definition f))
  | .createTable e => return .statements (← planning (e.createTable r.dialect))
  | .dropTable e => return .statements (e.dropTable r.dialect)
  | .addColumn e field => return .statements (← planning (e.addColumn r.dialect field))
  | .alterColumn e field observed =>
    return .statements (← planning (e.alterColumn r.dialect field observed))
  | .convergeColumn e f observed =>
    return .statements (← planning (e.convergeColumn r.dialect f observed))
  | .relaxColumn e observed => return .statements [e.relaxColumn r.dialect observed]
  | .renameTable e newTable => return .statements [e.renameTable r.dialect newTable]
  | .renameColumn e field oldColumn =>
    return .statements [← planning (e.renameColumn r.dialect field oldColumn)]
  | .dropColumn e column => return .statements [e.dropColumn r.dialect column]
  | .createIndex e i => return .statements [← planning (e.createIndex r.dialect i)]
  | .dropIndex e name => return .statements [e.dropIndex r.dialect name]
  | .addUnique e u => return .statements [← planning (e.addUnique r.dialect u)]
  | .dropUnique e name => return .statements [e.dropUnique r.dialect name]
  | .foreignKeyName e f => return .text (e.foreignKeyName f)
  | .addForeignKey e field => return .statements [← planning (e.addForeignKey r field)]
  | .dropForeignKey e name => return .statements [e.dropForeignKey r.dialect name]
  | .addCheck e c => return .statements [← planning (e.addCheck r.dialect c)]
  | .dropCheck e name => return .statements [e.dropCheck r.dialect name]
  | .createView e => return .statements (← planning (e.createView r)).toList
  | .dropView e => return .statements e.dropView.toList
  | .restrict e field restriction operands =>
    return .condition (← planning (BoundCondition.restrict r.dialect e field restriction operands))
  | .restrictView e field restriction operands =>
    return .condition
      (← planning (BoundCondition.restrictView r.dialect e field restriction operands))
  | .compound restriction parts =>
    return .condition (← planning (BoundCondition.compound r.dialect restriction parts))
  | .operand restriction v => return .value ((r.dialect.conditionRule restriction).operand v)
  | .timeBucket f b => return .bucket (← planning (r.dialect.timeBucket f.column.written b))
  | .select e q => return .ofPrepared (← planning (q.select r.dialect e))
  | .insert e => return .ofPrepared e.insert
  | .findByKey e withVersion => return .ofPrepared (← planning (e.findByKey withVersion))
  | .updateByKey e withVersion => return .ofPrepared (← planning (e.updateByKey withVersion))
  | .deleteByKey e withVersion => return .ofPrepared (← planning (e.deleteByKey withVersion))
  | .count e filter => return .ofPrepared (e.count filter)
  | .dropViews entities catalog => return .statements (← Registry.dropViews entities catalog)
  | .upgrade keys names catalog => return .ofUpgrade (← r.upgrade keys names catalog)
  | .versionUpgrade old name => return .ofUpgrade ⟨[], [← planning (r.versionUpgrade old name)]⟩

/-- The answer to a request in a layout: the texts of its statements. -/
def answer (r : Registry) (l : Layout) (q : Request) :
    Except UpgradeError (Answer String String) :=
  (q.outcome r).map (Answer.map (r.dialect.ddl.text l) (Command.text l))

/-- Two layouts fail with the same error, or answer with the same statements in the same order, whose
texts differ in blanks at most; the parameters and results that go with them are the same. -/
theorem answer_withoutBlanks (r : Registry) (q : Request) (l m : Layout) :
    (q.answer r l).map (Answer.map withoutBlanks withoutBlanks) =
      (q.answer r m).map (Answer.map withoutBlanks withoutBlanks) := by
  have htables : withoutBlanks ∘ r.dialect.ddl.text l = withoutBlanks ∘ r.dialect.ddl.text m :=
    funext (r.dialect.ddl.withoutBlanks_text l m)
  have hrows : withoutBlanks ∘ Command.text l = withoutBlanks ∘ Command.text m :=
    funext (Command.withoutBlanks_text l m)
  rw [answer, answer]
  cases q.outcome r with
  | error cause => rfl
  | ok a =>
    show Except.ok ((a.map _ _).map _ _) = Except.ok ((a.map _ _).map _ _)
    rw [Answer.map_map, Answer.map_map, htables, hrows]

end Request

end SqlDialects
