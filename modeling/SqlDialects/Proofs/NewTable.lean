import SqlDialects.Proofs.ConstraintScript
import SqlDialects.Proofs.FieldLookup

/-!
# The constraints of a new table

A dialect declares the unique constraints and indexes of a new table in the statement that creates
it, or in statements of their own; foreign keys and checks always have their own. This module reads
declarations off a script wherever they stand, and compares them with what the entity describes.

Results:
1. `Entity.createTable_declares`: what the statement that creates the table declares.
2. `Entity.createAll_declares`: each constraint is declared once, over the columns that its names
   find.
3. `Entity.createAll_declares_iff`: when these are the columns that it is described over.
-/

namespace SqlDialects

/-! ## What a script declares -/

/-- Kinds of declarations. -/
inductive DeclarationKind where
  | unique
  | index
  | foreignKey
  | check
deriving DecidableEq

/-- A constraint or index, as it is declared for a table. -/
inductive Declaration where
  | unique (table name : Name) (columns : List Name)
  | index (table name : Name) (columns : List Name) (isUnique : Bool)
  | foreignKey (table name column target targetColumn : Name)
  | check (table name column : Name) (literals : List String)
deriving DecidableEq

def Declaration.kind : Declaration → DeclarationKind
  | .unique .. => .unique
  | .index .. => .index
  | .foreignKey .. => .foreignKey
  | .check .. => .check

/-- The columns of its table that a declaration is over. -/
def Declaration.columns : Declaration → List Name
  | .unique _ _ columns | .index _ _ columns _ => columns
  | .foreignKey _ _ column _ _ | .check _ _ column _ => [column]

/-- What a part of a new table declares. -/
def TableItem.declarations (table : Name) : TableItem → List Declaration
  | .column _ => []
  | .unique name columns => [.unique table name columns]
  | .index name columns isUnique => [.index table name columns isUnique]

/-- What a statement declares, inside a new table or by itself. -/
def Statement.declarations : Statement → List Declaration
  | .createTable table items => items.flatMap (·.declarations table)
  | .addUnique table name columns => [.unique table name columns]
  | .createIndex table name columns isUnique => [.index table name columns isUnique]
  | .addForeignKey table name column target targetColumn =>
    [.foreignKey table name column target targetColumn]
  | .addCheck table name column literals => [.check table name column literals]
  | _ => []

/-- Declarations of a kind, in order. -/
def ofKind (kind : DeclarationKind) (l : List Declaration) : List Declaration :=
  l.filter fun c => c.kind = kind

/-- What a script declares of a kind, in order. -/
def declared (kind : DeclarationKind) (statements : List Statement) : List Declaration :=
  ofKind kind (statements.flatMap (·.declarations))

/-- Whether a statement creates a table. -/
def Statement.createsTable : Statement → Bool
  | .createTable .. => true
  | _ => false

theorem Statement.createsTable_of_isOnPart {s : Statement} (h : s.isOnPart = true) :
    s.createsTable = false := by
  cases s with
  | createTable => cases h
  | _ => rfl

section Lists

variable {α β : Type} {P : α → Declaration → Prop} {l : List Declaration}

theorem ofKind_append (kind : DeclarationKind) (l l' : List Declaration) :
    ofKind kind (l ++ l') = ofKind kind l ++ ofKind kind l' := List.filter_append l l'

/-- Declarations of one kind are all or none of those of a kind. -/
theorem ofKind_of_forall {k : DeclarationKind} (h : ∀ c ∈ l, c.kind = k) (kind : DeclarationKind) :
    ofKind kind l = if k = kind then l else [] := by
  unfold ofKind
  split
  · next hk =>
    refine List.filter_eq_self.2 ?_
    intro c hc
    simp [h c hc, hk]
  · next hk =>
    refine List.filter_eq_nil_iff.2 ?_
    intro c hc
    simp [h c hc, hk]

/-- Among lists of one kind each, a kind is read off the one or two lists that are of it. -/
theorem ofKind_of_lists {u u' i i' f c : List Declaration}
    (hu : ∀ x ∈ u ++ u', x.kind = .unique) (hi : ∀ x ∈ i ++ i', x.kind = .index)
    (hf : ∀ x ∈ f, x.kind = .foreignKey) (hc : ∀ x ∈ c, x.kind = .check)
    (kind : DeclarationKind) :
    ofKind kind (u ++ i ++ f ++ u' ++ i' ++ c) = match kind with
      | .unique => u ++ u'
      | .index => i ++ i'
      | .foreignKey => f
      | .check => c := by
  obtain ⟨hu, hu'⟩ := List.forall_mem_append.1 hu
  obtain ⟨hi, hi'⟩ := List.forall_mem_append.1 hi
  simp only [ofKind_append, ofKind_of_forall hu, ofKind_of_forall hu', ofKind_of_forall hi,
    ofKind_of_forall hi', ofKind_of_forall hf, ofKind_of_forall hc]
  cases kind <;> simp

/-- One declaration in each, read off in order. -/
theorem forall₂_flatMap {g : β → List Declaration} {as : List α} {bs : List β}
    (h : List.Forall₂ (fun a b => ∃ c, g b = [c] ∧ P a c) as bs) :
    List.Forall₂ P as (bs.flatMap g) := by
  induction h with
  | nil => exact .nil
  | cons hab _ ih =>
    obtain ⟨c, hc, hp⟩ := hab
    rw [List.flatMap_cons, hc]
    exact .cons hp ih

/-- Declared in the statement that creates the table, or each by a statement of its own. -/
theorem forall₂_of_inline_or_own {inline : Bool} {as : List α} {f : α → Except Error Statement}
    {own : List Statement} (hf : ∀ a s, f a = .ok s → ∃ c, s.declarations = [c] ∧ P a c)
    (hinline : List.Forall₂ P (if inline then as else []) l)
    (hown : (if inline then .ok [] else as.mapM f) = .ok own) :
    List.Forall₂ P as (l ++ own.flatMap (·.declarations)) := by
  cases inline with
  | true =>
    cases hown
    rwa [List.flatMap_nil, List.append_nil]
  | false =>
    cases hinline
    exact forall₂_flatMap ((mapM_eq_ok_iff.1 hown).imp hf)

theorem kind_of_forall₂ {as : List α} {k : DeclarationKind} (h : List.Forall₂ P as l)
    (hk : ∀ a c, P a c → c.kind = k) : ∀ c ∈ l, c.kind = k := by
  intro c hc
  obtain ⟨a, -, hp⟩ := exists_mem_of_forall₂ h.flip hc
  exact hk a c hp

/-- What stands beside an entry for two reasons does so for both. -/
theorem exists_of_forall₂_both {Q R : α → β → Prop} {as : List α} {bs : List β}
    (hq : List.Forall₂ Q as bs) (hr : List.Forall₂ R as bs) {a : α} (ha : a ∈ as) :
    ∃ b, Q a b ∧ R a b := by
  induction hq with
  | nil => cases ha
  | cons hab _ ih =>
    cases hr with
    | cons hab' hrest =>
      rcases List.mem_cons.1 ha with rfl | ha
      · exact ⟨_, hab, hab'⟩
      · exact ih hrest ha

theorem forall₂_imp_of_mem {Q R : α → β → Prop} {as : List α} {bs : List β}
    (h : List.Forall₂ Q as bs) (himp : ∀ a ∈ as, ∀ b, Q a b → R a b) : List.Forall₂ R as bs := by
  induction h with
  | nil => exact .nil
  | cons hab _ ih =>
    obtain ⟨hfirst, hrest⟩ := List.forall_mem_cons.1 himp
    exact .cons (hfirst _ hab) (ih hrest)

end Lists

namespace Entity

variable {e : Entity} {r : Registry} {d : Dialect} {keys : Bool} {statements : List Statement}

/-! ## What constraints declare -/

/-- The column of the field that the entity finds by a name: the last one of that name. -/
def FindsColumn (e : Entity) (name : String) (column : Name) : Prop :=
  ∃ f, e.field name = .ok f ∧ f.column = column

/-- The column of the field that the description of the entity has by a name: the first one. -/
def DescribesColumn (e : Entity) (d : Dialect) (name : String) (column : Name) : Prop :=
  ∃ f, e.source.field name = .ok f ∧ d.naming.name f.column = column

/-- A unique constraint is declared, over columns in the order of their names. -/
def DeclaresUnique (e : Entity) (d : Dialect) (IsColumn : String → Name → Prop) (u : UniqueSpec)
    (c : Declaration) : Prop :=
  ∃ columns, List.Forall₂ IsColumn u.fieldNames columns ∧
    c = .unique e.table (d.naming.name u.name) columns

/-- An index is declared, over columns in the order of their names. -/
def DeclaresIndex (e : Entity) (d : Dialect) (IsColumn : String → Name → Prop) (i : IndexSpec)
    (c : Declaration) : Prop :=
  ∃ columns, List.Forall₂ IsColumn i.fieldNames columns ∧
    c = .index e.table (d.naming.name i.name) columns i.unique

/-- A check is declared, over its column. -/
def DeclaresCheck (e : Entity) (d : Dialect) (IsColumn : String → Name → Prop) (k : CheckSpec)
    (c : Declaration) : Prop :=
  ∃ column literals, IsColumn k.fieldName column ∧
    c = .check e.table (d.naming.name k.name) column literals

/-- The foreign key of a field is declared, from its column to the one that it refers to. -/
def DeclaresKey (e : Entity) (r : Registry) (IsColumn : Entity → String → Name → Prop) (f : Field)
    (c : Declaration) : Prop :=
  ∃ reference target column, f.foreignKey = some reference ∧
    r.get reference.entity = .ok target ∧ IsColumn target reference.field column ∧
      c = .foreignKey e.table (r.dialect.naming.name (e.foreignKeyName f)) f.column target.table
        column

/-- The foreign key of the field is declared that the entity finds by the name of a field, and to the
column that is found where it refers to. -/
def DeclaresFoundKey (e : Entity) (r : Registry) (f : Field) (c : Declaration) : Prop :=
  ∃ g, e.tableField f.name = .ok g ∧ e.DeclaresKey r FindsColumn g c

/-- The foreign key of a field is declared, to the column that is described where it refers to. -/
def DeclaresDescribedKey (e : Entity) (r : Registry) : Field → Declaration → Prop :=
  e.DeclaresKey r (·.DescribesColumn r.dialect)

/-- Each constraint is declared once, and each foreign key if keys are wanted, all in order; nothing
else is declared. -/
structure DeclaresEach (e : Entity) (r : Registry) (keys : Bool) (IsColumn : String → Name → Prop)
    (IsKey : Field → Declaration → Prop) (statements : List Statement) : Prop where
  uniques : List.Forall₂ (e.DeclaresUnique r.dialect IsColumn) e.source.uniqueConstraints
    (declared .unique statements)
  indexes : List.Forall₂ (e.DeclaresIndex r.dialect IsColumn) e.source.indexes
    (declared .index statements)
  checks : List.Forall₂ (e.DeclaresCheck r.dialect IsColumn) e.source.checkConstraints
    (declared .check statements)
  foreignKeys : List.Forall₂ IsKey
    (if keys then e.tableFields.filter (·.foreignKey.isSome) else [])
    (declared .foreignKey statements)

theorem forall₂_of_columns {names : List String} {columns : List Name}
    (h : e.columns names = .ok columns) : List.Forall₂ e.FindsColumn names columns := by
  refine (mapM_eq_ok_iff.1 h).imp ?_
  intro name column hcolumn
  obtain ⟨f, hf, hcolumn⟩ := bind_eq_ok_iff.1 hcolumn
  cases hcolumn
  exact ⟨f, hf, rfl⟩

theorem declares_uniqueItem {u : UniqueSpec} {item : TableItem} (h : e.uniqueItem d u = .ok item) :
    ∃ c, item.declarations e.table = [c] ∧ e.DeclaresUnique d e.FindsColumn u c := by
  obtain ⟨columns, hcolumns, h⟩ := bind_eq_ok_iff.1 h
  cases h
  exact ⟨_, rfl, columns, forall₂_of_columns hcolumns, rfl⟩

theorem declares_addUnique {u : UniqueSpec} {s : Statement} (h : e.addUnique d u = .ok s) :
    ∃ c, s.declarations = [c] ∧ e.DeclaresUnique d e.FindsColumn u c := by
  obtain ⟨columns, hcolumns, h⟩ := bind_eq_ok_iff.1 h
  cases h
  exact ⟨_, rfl, columns, forall₂_of_columns hcolumns, rfl⟩

theorem declares_indexItem {i : IndexSpec} {item : TableItem} (h : e.indexItem d i = .ok item) :
    ∃ c, item.declarations e.table = [c] ∧ e.DeclaresIndex d e.FindsColumn i c := by
  obtain ⟨columns, hcolumns, h⟩ := bind_eq_ok_iff.1 h
  cases h
  exact ⟨_, rfl, columns, forall₂_of_columns hcolumns, rfl⟩

theorem declares_createIndex {i : IndexSpec} {s : Statement} (h : e.createIndex d i = .ok s) :
    ∃ c, s.declarations = [c] ∧ e.DeclaresIndex d e.FindsColumn i c := by
  obtain ⟨columns, hcolumns, h⟩ := bind_eq_ok_iff.1 h
  cases h
  exact ⟨_, rfl, columns, forall₂_of_columns hcolumns, rfl⟩

theorem declares_addCheck {k : CheckSpec} {s : Statement} (h : e.addCheck d k = .ok s) :
    ∃ c, s.declarations = [c] ∧ e.DeclaresCheck d e.FindsColumn k c := by
  obtain ⟨f, hf, h⟩ := bind_eq_ok_iff.1 h
  obtain ⟨literals, -, h⟩ := bind_eq_ok_iff.1 h
  cases h
  exact ⟨_, rfl, f.column, literals, ⟨f, (tableField_eq_ok_iff.1 hf).1, rfl⟩, rfl⟩

theorem declares_addForeignKey {f : Field} {s : Statement}
    (h : e.addForeignKey r f.name = .ok s) :
    ∃ c, s.declarations = [c] ∧ e.DeclaresFoundKey r f c := by
  obtain ⟨g, reference, target, column, hfound, hcolumn, rfl⟩ := addForeignKey_eq_ok_iff.1 h
  exact ⟨_, rfl, g, hfound.found, reference, target, column.column, hfound.refers,
    hfound.registered, ⟨column, hcolumn, rfl⟩, rfl⟩

/-! ## What a new table declares -/

theorem inlineItems_declares {items : List TableItem} (h : e.inlineItems d = .ok items) :
    ∃ uniques indexes, items.flatMap (·.declarations e.table) = uniques ++ indexes ∧
      List.Forall₂ (e.DeclaresUnique d e.FindsColumn)
        (if d.inlineConstraints then e.source.uniqueConstraints else []) uniques ∧
      List.Forall₂ (e.DeclaresIndex d e.FindsColumn)
        (if d.inlineConstraints then e.source.indexes else []) indexes := by
  obtain ⟨uniques, indexes, huniques, hindexes, rfl⟩ := inlineItems_eq_ok h
  refine ⟨_, _, List.flatMap_append, ?_, ?_⟩
  · exact forall₂_flatMap ((mapM_eq_ok_iff.1 huniques).imp fun _ _ => declares_uniqueItem)
  · exact forall₂_flatMap ((mapM_eq_ok_iff.1 hindexes).imp fun _ _ => declares_indexItem)

/-- Creating the table declares what it is created with: its columns declare nothing, nor does what
feeds its key. -/
theorem createTable_declares (h : e.createTable d = .ok statements) :
    ∃ inline, e.inlineItems d = .ok inline ∧
      statements.flatMap (·.declarations) = inline.flatMap (·.declarations e.table) := by
  obtain ⟨inline, support, hinline, rfl, hsupport⟩ := createTable_eq_ok h
  have hcolumns : (e.tableFields.map fun f => TableItem.column (e.definition f)).flatMap
      (·.declarations e.table) = [] := by
    simp [List.flatMap_map, TableItem.declarations]
  have hnone : support.flatMap (·.declarations) = [] := List.flatMap_eq_nil_iff.2 fun s hs => by
    obtain rfl | ⟨_, rfl⟩ := hsupport s hs
    · rfl
    · rfl
  refine ⟨inline, hinline, ?_⟩
  rw [List.flatMap_cons, Statement.declarations, List.flatMap_append, hcolumns, List.nil_append,
    hnone, List.append_nil]

/-- The table is created by the first statement, and by no other one. -/
theorem createAll_creates_first (h : e.createAll r keys = .ok statements) :
    ∃ items rest, statements = .createTable e.table items :: rest ∧
      ∀ s ∈ rest, s.createsTable = false := by
  obtain ⟨table, foreignKeys, uniques, indexes, checks, htable, hkeys, huniques, hindexes, hchecks,
    rfl⟩ := exists_parts_of_createAll h
  obtain ⟨inline, support, -, rfl, hsupport⟩ := createTable_eq_ok htable
  have hothers : ∀ s ∈ support, s.createsTable = false := fun s hs => by
    obtain rfl | ⟨_, rfl⟩ := hsupport s hs
    · rfl
    · rfl
  refine ⟨_, support ++ foreignKeys ++ uniques ++ indexes ++ checks, rfl, ?_⟩
  simp only [List.forall_mem_append]
  refine ⟨⟨⟨⟨hothers, ?_⟩, ?_⟩, ?_⟩,
    forall_of_mapM (fun _ _ s hs => s.createsTable_of_isOnPart (isOnPart_addCheck hs)) hchecks⟩
  · split at hkeys
    · refine forall_of_mapM ?_ hkeys
      intro f _ s hs
      obtain ⟨_, _, _, _, _, _, _, _, rfl⟩ := addForeignKey_eq_ok hs
      rfl
    · cases hkeys
      simp
  · split at huniques
    · cases huniques
      simp
    · exact forall_of_mapM (fun _ _ s hs => s.createsTable_of_isOnPart (isOnPart_addUnique hs))
        huniques
  · split at hindexes
    · cases hindexes
      simp
    · exact forall_of_mapM (fun _ _ s hs => s.createsTable_of_isOnPart (isOnPart_createIndex hs))
        hindexes

/-- Every constraint is declared once, where the dialect wants it, over the columns that its names
find. -/
theorem createAll_declares (h : e.createAll r keys = .ok statements) :
    e.DeclaresEach r keys e.FindsColumn (e.DeclaresFoundKey r) statements := by
  obtain ⟨table, foreignKeys, uniques, indexes, checks, htable, hkeys, huniques, hindexes, hchecks,
    rfl⟩ := exists_parts_of_createAll h
  obtain ⟨inline, hinline, hcreated⟩ := createTable_declares htable
  obtain ⟨inUniques, inIndexes, hin, hinUniques, hinIndexes⟩ := inlineItems_declares hinline
  have hkeys : List.Forall₂ (e.DeclaresFoundKey r)
      (if keys then e.tableFields.filter (·.foreignKey.isSome) else [])
      (foreignKeys.flatMap (·.declarations)) := by
    split at hkeys
    · next hwanted =>
      rw [if_pos hwanted]
      exact forall₂_flatMap ((mapM_eq_ok_iff.1 hkeys).imp fun _ _ => declares_addForeignKey)
    · next hwanted =>
      cases hkeys
      rw [if_neg hwanted]
      exact .nil
  have huniques := forall₂_of_inline_or_own (fun _ _ => declares_addUnique) hinUniques huniques
  have hindexes := forall₂_of_inline_or_own (fun _ _ => declares_createIndex) hinIndexes hindexes
  have hchecks : List.Forall₂ (e.DeclaresCheck r.dialect e.FindsColumn) e.source.checkConstraints
      (checks.flatMap (·.declarations)) :=
    forall₂_flatMap ((mapM_eq_ok_iff.1 hchecks).imp fun _ _ => declares_addCheck)
  have hread (kind : DeclarationKind) := ofKind_of_lists
    (kind_of_forall₂ huniques fun _ _ ⟨_, _, hc⟩ => hc ▸ rfl)
    (kind_of_forall₂ hindexes fun _ _ ⟨_, _, hc⟩ => hc ▸ rfl)
    (kind_of_forall₂ hkeys fun _ _ ⟨_, _, _, _, _, _, _, _, hc⟩ => hc ▸ rfl)
    (kind_of_forall₂ hchecks fun _ _ ⟨_, _, _, hc⟩ => hc ▸ rfl) kind
  have hall : (table ++ foreignKeys ++ uniques ++ indexes ++ checks).flatMap (·.declarations) =
      inUniques ++ inIndexes ++ foreignKeys.flatMap (·.declarations) ++
        uniques.flatMap (·.declarations) ++ indexes.flatMap (·.declarations) ++
          checks.flatMap (·.declarations) := by
    simp only [List.flatMap_append, hcreated, hin]
  refine ⟨?_, ?_, ?_, ?_⟩
  · rw [declared, hall, hread]
    exact huniques
  · rw [declared, hall, hread]
    exact hindexes
  · rw [declared, hall, hread]
    exact hchecks
  · rw [declared, hall, hread]
    exact hkeys

/-! ## What a new table should declare -/

/-- The names of constraints find the columns that they stand for in the description, and what is found
for a field with a foreign key declares the key that is described. -/
structure FindsConstrained (e : Entity) (r : Registry) (keys : Bool) : Prop where
  columns : ∀ name ∈ e.source.constrainedNames,
    ∃ column, e.FindsColumn name column ∧ e.DescribesColumn r.dialect name column
  keys : keys = true → ∀ f ∈ e.tableFields, f.foreignKey.isSome = true →
    ∃ c, e.DeclaresFoundKey r f c ∧ e.DeclaresDescribedKey r f c

theorem FindsColumn.unique {name : String} {column column' : Name} (h : e.FindsColumn name column)
    (h' : e.FindsColumn name column') : column = column' := by
  obtain ⟨f, hf, rfl⟩ := h
  obtain ⟨g, hg, rfl⟩ := h'
  rw [hf] at hg
  cases hg
  rfl

theorem DeclaresFoundKey.unique {f : Field} {c c' : Declaration} (h : e.DeclaresFoundKey r f c)
    (h' : e.DeclaresFoundKey r f c') : c = c' := by
  obtain ⟨g, hg, reference, target, column, href, htarget, hcolumn, rfl⟩ := h
  obtain ⟨g', hg', reference', target', column', href', htarget', hcolumn', rfl⟩ := h'
  cases hg.symm.trans hg'
  cases href.symm.trans href'
  cases htarget.symm.trans htarget'
  rw [hcolumn.unique hcolumn']

end Entity

theorem EntitySpec.mem_constrainedNames {spec : EntitySpec} {name : String} :
    name ∈ spec.constrainedNames ↔ (∃ i ∈ spec.indexes, name ∈ i.fieldNames) ∨
      (∃ u ∈ spec.uniqueConstraints, name ∈ u.fieldNames) ∨
      ∃ k ∈ spec.checkConstraints, k.fieldName = name := by
  simp only [constrainedNames, List.mem_append, List.mem_flatMap, List.mem_map, or_assoc]

namespace Entity

variable {e : Entity} {r : Registry} {keys : Bool} {statements : List Statement}

/-- What is declared both as it is found and as it is described is found as it is described. -/
theorem findsConstrained_of_declaresEach
    (h : e.DeclaresEach r keys e.FindsColumn (e.DeclaresFoundKey r) statements)
    (hdeclares : e.DeclaresEach r keys (e.DescribesColumn r.dialect) (e.DeclaresDescribedKey r)
      statements) : e.FindsConstrained r keys where
  columns name hname := by
    rcases EntitySpec.mem_constrainedNames.1 hname with ⟨i, hi, hn⟩ | ⟨u, hu, hn⟩ | ⟨k, hk, rfl⟩
    · obtain ⟨c, ⟨columns, hfound, rfl⟩, ⟨columns', hdescribed, hc⟩⟩ :=
        exists_of_forall₂_both h.indexes hdeclares.indexes hi
      cases hc
      exact exists_of_forall₂_both hfound hdescribed hn
    · obtain ⟨c, ⟨columns, hfound, rfl⟩, ⟨columns', hdescribed, hc⟩⟩ :=
        exists_of_forall₂_both h.uniques hdeclares.uniques hu
      cases hc
      exact exists_of_forall₂_both hfound hdescribed hn
    · obtain ⟨c, ⟨column, literals, hfound, rfl⟩, ⟨column', literals', hdescribed, hc⟩⟩ :=
        exists_of_forall₂_both h.checks hdeclares.checks hk
      cases hc
      exact ⟨column, hfound, hdescribed⟩
  keys hkeys f hf href := by
    have hfound := h.foreignKeys
    have hdescribed := hdeclares.foreignKeys
    rw [if_pos hkeys] at hfound hdescribed
    exact exists_of_forall₂_both hfound hdescribed (List.mem_filter.2 ⟨hf, href⟩)

/-- The columns found for the names of a constraint are the described ones. -/
theorem FindsConstrained.describesColumns (hfinds : e.FindsConstrained r keys)
    {names : List String} {columns : List Name}
    (hnames : ∀ name ∈ names, name ∈ e.source.constrainedNames)
    (hfound : List.Forall₂ e.FindsColumn names columns) :
    List.Forall₂ (e.DescribesColumn r.dialect) names columns := by
  refine forall₂_imp_of_mem hfound ?_
  intro name hname column hcolumn
  obtain ⟨column', hcolumn', hdescribed⟩ := hfinds.columns name (hnames name hname)
  rwa [hcolumn.unique hcolumn']

theorem FindsConstrained.declaresEach (hfinds : e.FindsConstrained r keys)
    (h : e.DeclaresEach r keys e.FindsColumn (e.DeclaresFoundKey r) statements) :
    e.DeclaresEach r keys (e.DescribesColumn r.dialect) (e.DeclaresDescribedKey r)
      statements where
  uniques := by
    refine forall₂_imp_of_mem h.uniques ?_
    rintro u hu c ⟨columns, hfound, rfl⟩
    exact ⟨columns, hfinds.describesColumns (fun name hn =>
      EntitySpec.mem_constrainedNames.2 (.inr (.inl ⟨u, hu, hn⟩))) hfound, rfl⟩
  indexes := by
    refine forall₂_imp_of_mem h.indexes ?_
    rintro i hi c ⟨columns, hfound, rfl⟩
    exact ⟨columns, hfinds.describesColumns (fun name hn =>
      EntitySpec.mem_constrainedNames.2 (.inl ⟨i, hi, hn⟩)) hfound, rfl⟩
  checks := by
    refine forall₂_imp_of_mem h.checks ?_
    rintro k hk c ⟨column, literals, hfound, rfl⟩
    obtain ⟨column', hcolumn', hdescribed⟩ := hfinds.columns k.fieldName
      (EntitySpec.mem_constrainedNames.2 (.inr (.inr ⟨k, hk, rfl⟩)))
    rw [← hfound.unique hcolumn'] at hdescribed
    exact ⟨column, literals, hdescribed, rfl⟩
  foreignKeys := by
    refine forall₂_imp_of_mem h.foreignKeys ?_
    intro f hf c hfound
    split at hf
    · next hkeys =>
      obtain ⟨hmem, href⟩ := List.mem_filter.1 hf
      obtain ⟨c', hfound', hown⟩ := hfinds.keys hkeys f hmem href
      rwa [hfound.unique hfound']
    · cases hf

/-- Each constraint is declared over the columns of its description, and each key as the key of its
own field, exactly if the entity finds these columns and keys by name. -/
theorem declaresEach_iff_findsConstrained
    (h : e.DeclaresEach r keys e.FindsColumn (e.DeclaresFoundKey r) statements) :
    e.DeclaresEach r keys (e.DescribesColumn r.dialect) (e.DeclaresDescribedKey r) statements ↔
      e.FindsConstrained r keys :=
  ⟨findsConstrained_of_declaresEach h, fun hfinds => hfinds.declaresEach h⟩

theorem exists_findsColumn (h : e.DeclaresEach r keys e.FindsColumn (e.DeclaresFoundKey r) statements)
    {name : String} (hname : name ∈ e.source.constrainedNames) :
    ∃ column, e.FindsColumn name column := by
  rcases EntitySpec.mem_constrainedNames.1 hname with ⟨i, hi, hn⟩ | ⟨u, hu, hn⟩ | ⟨k, hk, rfl⟩
  · obtain ⟨c, -, columns, hfound, -⟩ := exists_mem_of_forall₂ h.indexes hi
    obtain ⟨column, -, hcolumn⟩ := exists_mem_of_forall₂ hfound hn
    exact ⟨column, hcolumn⟩
  · obtain ⟨c, -, columns, hfound, -⟩ := exists_mem_of_forall₂ h.uniques hu
    obtain ⟨column, -, hcolumn⟩ := exists_mem_of_forall₂ hfound hn
    exact ⟨column, hcolumn⟩
  · obtain ⟨c, -, column, literals, hcolumn, -⟩ := exists_mem_of_forall₂ h.checks hk
    exact ⟨column, hcolumn⟩

/-- Whether the fields that the description has are told apart by their names. -/
def HasDistinctNames (e : Entity) : Prop := (e.source.fields.map (·.name)).Nodup

/-- Where no name repeats, a name finds the column that it stands for. -/
theorem FindsColumn.describesColumn {spec : EntitySpec} (hspec : e.IsOfSpec r.dialect spec)
    (hnames : e.HasDistinctNames) {name : String} {column : Name} (h : e.FindsColumn name column) :
    e.DescribesColumn r.dialect name column := by
  obtain ⟨f, hf, rfl⟩ := h
  obtain ⟨hmem, rfl⟩ := field_eq_ok hf
  obtain ⟨fspec, hfspec, hmade⟩ := exists_mem_of_forall₂ hspec.fields.flip hmem
  refine ⟨fspec, ?_, hmade.column.symm⟩
  unfold HasDistinctNames at hnames
  rw [hspec.source] at hnames ⊢
  unfold EntitySpec.field
  cases hfirst : spec.fields.find? (·.name == f.name) with
  | none =>
    exact absurd (beq_iff_eq.2 hmade.name.symm) (List.find?_eq_none.1 hfirst fspec hfspec)
  | some first =>
    have hname : first.name = fspec.name := by
      rw [← hmade.name]
      simpa using List.find?_some hfirst
    rw [List.inj_on_of_nodup_map hnames (List.mem_of_find?_eq_some hfirst) hfspec hname]

/-- Where no name repeats, in the entity and where its keys refer to, names find what they stand for. -/
theorem findsConstrained_of_distinct {spec : EntitySpec} (hr : r.IsReachable)
    (hspec : e.IsOfSpec r.dialect spec)
    (h : e.DeclaresEach r keys e.FindsColumn (e.DeclaresFoundKey r) statements)
    (hnames : e.HasDistinctNames)
    (htargets : ∀ f ∈ e.tableFields, ∀ reference target, f.foreignKey = some reference →
      r.get reference.entity = .ok target → target.HasDistinctNames) :
    e.FindsConstrained r keys := by
  refine ⟨?_, ?_⟩
  · intro name hname
    obtain ⟨column, hcolumn⟩ := exists_findsColumn h hname
    exact ⟨column, hcolumn, hcolumn.describesColumn hspec hnames⟩
  · intro hkeys f hf href
    have hfields : (e.fields.map (·.name)).Nodup := by
      unfold HasDistinctNames at hnames
      rwa [hspec.source, map_eq_of_forall₂ (g := (·.name)) hspec.fields
        fun _ _ hfield => hfield.name.symm] at hnames
    have hfound := h.foreignKeys
    rw [if_pos hkeys] at hfound
    obtain ⟨c, -, g, hg, hkey⟩ := exists_mem_of_forall₂ hfound (List.mem_filter.2 ⟨hf, href⟩)
    have hown : e.tableField f.name = .ok f := tableField_of_mem hfields hf
    rw [hown] at hg
    cases hg
    obtain ⟨reference, target, column, hreference, htarget, hcolumn, rfl⟩ := hkey
    obtain ⟨tspec, -, htspec⟩ := hr.exists_finished (Registry.mem_of_get htarget)
    have hdescribed : target.DescribesColumn r.dialect reference.field column :=
      hcolumn.describesColumn htspec (htargets f hf reference target hreference htarget)
    exact ⟨_, ⟨f, hown, reference, target, column, hreference, htarget, hcolumn, rfl⟩,
      reference, target, column, hreference, htarget, hdescribed, rfl⟩

/-- The script for a new table creates it first, and declares each constraint of the entity once,
inside the new table or after it, and each foreign key if keys are wanted, over the columns of the
fields that are found by name, the last ones of their names. These are the columns and keys that the
description means exactly if they are found for the first ones as well, which holds wherever no name
repeats, as without markers of their own. -/
theorem createAll_declares_iff {r : Registry} (hr : r.IsReachable) {spec : EntitySpec} {e : Entity}
    (hs : spec.IsFinished) (he : Entity.ofSpec r.dialect spec = .ok e) {keys : Bool}
    {statements : List Statement} (h : e.createAll r keys = .ok statements) :
    (∃ items rest, statements = .createTable e.table items :: rest ∧
        ∀ s ∈ rest, s.createsTable = false) ∧
      e.DeclaresEach r keys e.FindsColumn (e.DeclaresFoundKey r) statements ∧
      (e.DeclaresEach r keys (e.DescribesColumn r.dialect) (e.DeclaresDescribedKey r) statements ↔
        e.FindsConstrained r keys) ∧
      (e.HasDistinctNames → (∀ f ∈ e.tableFields, ∀ reference target,
        f.foreignKey = some reference → r.get reference.entity = .ok target →
          target.HasDistinctNames) → e.FindsConstrained r keys) ∧
      ((∀ f ∈ spec.fields, f.givenMarker = none) → e.HasDistinctNames) := by
  have hspec : e.IsOfSpec r.dialect spec := Entity.isOfSpec he
  have hdeclares := createAll_declares h
  refine ⟨createAll_creates_first h, hdeclares, declaresEach_iff_findsConstrained hdeclares,
    findsConstrained_of_distinct hr hspec hdeclares, ?_⟩
  intro hmarkers
  unfold HasDistinctNames
  rw [hspec.source]
  exact EntitySpec.nodup_names_of_markers hs hmarkers

end Entity

instance (e : Entity) : Decidable e.HasDistinctNames :=
  inferInstanceAs (Decidable (e.source.fields.map (·.name)).Nodup)

/-- A note with an author, a title that is the only one of the author, and a state from a list. -/
def titledNoteSpec : EntitySpec :=
  { EntitySpec.named "Note" with
    fields := [(FieldSpec.named "id" .long).asPrimaryKey,
      { FieldSpec.named "author" .long with foreignKey := some ⟨"Person", "id"⟩ },
      FieldSpec.named "title" .string, FieldSpec.named "state" .string]
    indexes := [{ name := "ix_note", fieldNames := ["state", "title"] }]
    uniqueConstraints := [{ name := "uq_note", fieldNames := ["author", "title"] }]
    checkConstraints := [{ name := "ck_note", fieldName := "state", allowed := ["draft", "open"] }] }

/-- A registry of persons and notes with titles, in MySQL. -/
def titledNotes : Registry :=
  Registry.ofSpecs (Dialect.builtin .mysql) [personSpec, titledNoteSpec]

/-- MySQL declares the unique constraint and the index with the table, and then the key and the
check. -/
theorem titled_note_declares :
    titledNotes.IsReachable ∧ titledNoteSpec.IsFinished ∧
      ∃ note statements, Entity.ofSpec titledNotes.dialect titledNoteSpec = .ok note ∧
        note.createAll titledNotes true = .ok statements ∧
        statements.map (fun s => s.declarations.map (·.kind)) =
          [[.unique, .index], [.foreignKey], [.check]] ∧
        note.DeclaresEach titledNotes true (note.DescribesColumn titledNotes.dialect)
          (note.DeclaresDescribedKey titledNotes) statements := by
  have hs : titledNoteSpec.IsFinished := EntitySpec.isFinished_of_build (by decide +kernel)
  have hr : titledNotes.IsReachable := by
    refine Registry.isReachable_ofSpecs ?_
    simp only [List.forall_mem_cons]
    exact ⟨EntitySpec.isFinished_of_build (by decide), hs, fun _ h => absurd h List.not_mem_nil⟩
  obtain ⟨note, hnote, htest⟩ : ∃ note, Entity.ofSpec titledNotes.dialect titledNoteSpec = .ok note ∧
      ((note.createAll titledNotes true).toOption.any fun statements =>
        decide (statements.map (fun s => s.declarations.map (·.kind)) =
          [[.unique, .index], [.foreignKey], [.check]])) = true :=
    exists_ok_of_any (by decide +kernel)
  obtain ⟨statements, hstatements, hkinds⟩ := exists_ok_of_any htest
  have hnames : ∀ g ∈ titledNotes.entities, g.HasDistinctNames := by decide +kernel
  obtain ⟨-, -, hiff, hdistinct, hmarkers⟩ :=
    Entity.createAll_declares_iff hr hs hnote hstatements
  refine ⟨hr, hs, note, statements, hnote, hstatements, of_decide_eq_true hkinds,
    hiff.2 (hdistinct (hmarkers (by decide)) ?_)⟩
  intro f _ reference target _ htarget
  exact hnames target (Registry.mem_of_get htarget)

/-- A new table of notes with an author and an editor of one name gets the key of the editor twice,
and that of the author never. -/
theorem owned_note_lacks_key :
    ownedNotes.IsReachable ∧
      ∃ note statements, ownedNotes.get "Note" = .ok note ∧
        note.createAll ownedNotes true = .ok statements ∧
        (note.tableFields.filter (·.foreignKey.isSome)).map (fun f => [f.column.raw]) =
          [["AUTHOR"], ["EDITOR"]] ∧
        (declared .foreignKey statements).map (·.columns.map Name.raw) = [["EDITOR"], ["EDITOR"]] ∧
        ¬note.DeclaresEach ownedNotes true (note.DescribesColumn ownedNotes.dialect)
          (note.DeclaresDescribedKey ownedNotes) statements := by
  obtain ⟨note, hnote, htest⟩ : ∃ note, ownedNotes.get "Note" = .ok note ∧
      (decide ((note.tableFields.filter (·.foreignKey.isSome)).map (fun f => [f.column.raw]) =
          [["AUTHOR"], ["EDITOR"]]) &&
        (note.createAll ownedNotes true).toOption.any fun statements =>
          decide ((declared .foreignKey statements).map (·.columns.map Name.raw) =
            [["EDITOR"], ["EDITOR"]])) = true :=
    exists_ok_of_any (by decide +kernel)
  obtain ⟨hfields, htest⟩ := Bool.and_eq_true_iff.1 htest
  obtain ⟨statements, hstatements, hdeclared⟩ := exists_ok_of_any htest
  have hfields := of_decide_eq_true hfields
  have hdeclared := of_decide_eq_true hdeclared
  refine ⟨isReachable_ownedNotes, note, statements, hnote, hstatements, hfields, hdeclared, ?_⟩
  intro heach
  -- Each key would be over the column of its own field.
  have hcolumns := map_eq_of_forall₂ (f := fun f : Field => [f.column.raw])
    (g := fun c => c.columns.map Name.raw) heach.foreignKeys
    fun _ _ ⟨_, _, _, _, _, _, hc⟩ => hc ▸ rfl
  rw [if_pos rfl, hfields, hdeclared] at hcolumns
  exact absurd hcolumns (by decide)

end SqlDialects
