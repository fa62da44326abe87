import SqlDialects.Proofs.ReferenceOrder
import SqlDialects.Proofs.VersionScript

/-!
# What the catalog reports of entities

Entities declare tables with their columns and constraints, and views. This module says what a
catalog reports of them, in which ways it may list it, and what entities need so that their parts
can be told apart.

Results:
1. `Registry.exists_reported`: what entities in order declare can be reported.
2. `Registry.objects_reported`, `Registry.objectNames_reported`: which objects that comes to.
3. `Catalog.IsListingOf.find?`: each of them is found by its name, however the catalog lists it.
-/

namespace SqlDialects

/-! ## What is declared -/

namespace Entity

/-- The foreign key of a field as the catalog would report it. -/
def reportedForeignKey (e : Entity) (r : Registry) (f : Field) (reference : FieldReference) :
    Except Error CatalogForeignKey := do
  let target ← r.get reference.entity
  let targetField ← target.field reference.field
  return { name := e.foreignKeyName f, refTable := target.table.raw,
           refColumns := [targetField.column.raw] }

/-- Fields of the table that refer to another, with what they refer to. -/
def foreignKeyFields (e : Entity) : List (Field × FieldReference) :=
  e.tableFields.filterMap fun f => f.foreignKey.map (f, ·)

/-- A unique constraint as the catalog would report it. -/
def reportedUnique (e : Entity) (u : UniqueSpec) : Except Error CatalogUnique :=
  return { name := u.name, columns := ← e.rawColumns u.fieldNames }

/-- An index as the catalog would report it. -/
def reportedIndex (e : Entity) (i : IndexSpec) : Except Error CatalogIndex :=
  return { name := i.name, columns := ← e.rawColumns i.fieldNames, unique := i.unique }

/-- The table as the catalog would report it. -/
def reportedTable (e : Entity) (r : Registry) : Except Error CatalogObject := do
  let foreignKeys ← e.foreignKeyFields.mapM fun p => e.reportedForeignKey r p.1 p.2
  let uniqueConstraints ← e.source.uniqueConstraints.mapM e.reportedUnique
  let indexes ← e.source.indexes.mapM e.reportedIndex
  return { name := e.table.raw, kind := .table
           columns := e.tableFields.map (·.asReported r.dialect)
           foreignKeys, indexes, uniqueConstraints
           checkConstraints := e.source.checkConstraints.map (·.name) }

/-- The view with its list-only columns, for an entity that has one. -/
def reportedView? (e : Entity) (d : Dialect) : Option CatalogObject :=
  e.view.map fun view =>
    { name := view.raw, kind := .view, columns := e.viewFields.map (·.asReported d) }

end Entity

/-- The tables and views of some entities as the catalog would report them. -/
def Registry.reported (r : Registry) (entities : List Entity) : Except Error Catalog := do
  let tables ← entities.mapM (·.reportedTable r)
  return ⟨tables ++ entities.filterMap (·.reportedView? r.dialect)⟩

/-! ## How a catalog may list it -/

/-- The object as a catalog may list it: the parts of a table come in any order, and a view may have
further columns. -/
structure CatalogObject.IsListingOf (o declared : CatalogObject) : Prop where
  name : o.name = declared.name
  kind : o.kind = declared.kind
  columns : declared.columns ⊆ o.columns
  tableColumns : declared.kind = .table → o.columns.Perm declared.columns
  foreignKeys : o.foreignKeys.Perm declared.foreignKeys
  uniqueConstraints : o.uniqueConstraints.Perm declared.uniqueConstraints
  indexes : o.indexes.Perm declared.indexes
  checkConstraints : o.checkConstraints.Perm declared.checkConstraints

/-- The objects of a schema listed in any order. -/
def Catalog.IsListingOf (c declared : Catalog) : Prop :=
  ∃ objects, c.objects.Perm objects ∧
    List.Forall₂ CatalogObject.IsListingOf objects declared.objects

theorem CatalogObject.IsListingOf.refl (o : CatalogObject) : o.IsListingOf o where
  name := rfl
  kind := rfl
  columns := List.Subset.refl _
  tableColumns _ := .refl _
  foreignKeys := .refl _
  uniqueConstraints := .refl _
  indexes := .refl _
  checkConstraints := .refl _

theorem Catalog.IsListingOf.refl (c : Catalog) : c.IsListingOf c :=
  ⟨c.objects, .refl _, List.forall₂_same.2 fun o _ => .refl o⟩

/-- Each object is found by its name, as the catalog lists it. -/
theorem Catalog.IsListingOf.find? {c declared : Catalog} (h : c.IsListingOf declared)
    (hd : (declared.objects.map fun o => Text.asciiLower o.name).Nodup) {o : CatalogObject}
    (ho : o ∈ declared.objects) :
    ∃ existing, c.find? o.name = some existing ∧ existing.IsListingOf o := by
  obtain ⟨objects, hp, hall⟩ := h
  obtain ⟨existing, hmem, hlisting⟩ := exists_mem_of_forall₂ hall.flip ho
  have hnames : objects.map (fun o => Text.asciiLower o.name) =
      declared.objects.map fun o => Text.asciiLower o.name :=
    map_eq_of_forall₂ hall fun a b hab => by rw [hab.name]
  refine ⟨existing, Text.find?_sameName ?_ (hp.mem_iff.2 hmem) ?_, hlisting⟩
  · rw [(hp.map _).nodup_iff, hnames]
    exact hd
  · rw [hlisting.name]
    exact Text.sameName_refl o.name

/-! ## What has to tell the parts apart -/

/-- Fields have names of their own, and columns of the table names that differ by more than case. -/
structure Entity.IsDistinct (e : Entity) : Prop where
  fields : (e.fields.map (·.name)).Nodup
  columns : (e.tableFields.map (·.column.caseless)).Nodup

/-- Names of the tables and views of some entities. -/
def objectNames (entities : List Entity) : List Name :=
  entities.map (·.table) ++ entities.filterMap (·.view)

/-- Configured defaults read back as they were rendered. -/
def Entity.HasReadableDefaults (e : Entity) (d : Dialect) : Prop :=
  ∀ f ∈ e.tableFields, f.defaultValue.isSome →
    d.defaults.isMatch f.defaultLiteral f.defaultValue (d.columnRule f.columnType) = true

/-- Foreign keys refer to fields that their entities have. -/
def Entity.HasTargets (e : Entity) (r : Registry) : Prop :=
  ∀ p ∈ e.foreignKeyFields, ∀ target, r.get p.2.entity = .ok target →
    ∃ g, target.field p.2.field = .ok g

/-- What entities of a registry need so that a database can be told to be up to date. -/
structure Registry.IsComparable (r : Registry) (entities : List Entity) : Prop where
  distinct : ∀ e ∈ entities, e.IsDistinct
  objects : ((objectNames entities).map (·.caseless)).Nodup
  targets : ∀ e ∈ entities, e.HasTargets r
  defaults : ∀ e ∈ entities, e.HasReadableDefaults r.dialect

/-! ## Reporting -/

namespace Entity

variable {e : Entity} {r : Registry} {spec : EntitySpec}

theorem exists_field_of_constrained (hs : e.IsOfSpec r.dialect spec) (hfin : spec.IsFinished)
    {name : String} (hn : name ∈ spec.constrainedNames) : ∃ f, e.field name = .ok f := by
  obtain ⟨fspec, hfind, _⟩ := hfin.hasConstrainable hn
  obtain ⟨f, hf, _⟩ := find?_of_forall₂ (q := (·.name == name)) hs.fields
    (fun a b hab => by rw [hab.name]) hfind
  have hname : f.name = name := by simpa using List.find?_some hf
  exact hname ▸ exists_field (List.mem_of_find?_eq_some hf)

theorem exists_rawColumns {names : List String} (h : ∀ name ∈ names, ∃ f, e.field name = .ok f) :
    ∃ columns, e.rawColumns names = .ok columns := by
  have hcolumns : ∃ columns, e.columns names = .ok columns := by
    refine exists_mapM_eq_ok fun name hn => ?_
    obtain ⟨f, hf⟩ := h name hn
    exact ⟨f.column, bind_eq_ok_iff.2 ⟨f, hf, rfl⟩⟩
  obtain ⟨columns, hcolumns⟩ := hcolumns
  exact ⟨columns.map Name.raw, bind_eq_ok_iff.2 ⟨columns, hcolumns, rfl⟩⟩

theorem exists_reportedForeignKey {names : List String} {entities : List Entity}
    (horder : r.referenceOrder names = .ok entities) (he : e ∈ entities) (ht : e.HasTargets r)
    {p : Field × FieldReference} (hp : p ∈ e.foreignKeyFields) :
    ∃ c, e.reportedForeignKey r p.1 p.2 = .ok c := by
  obtain ⟨f, hf, hpair⟩ := List.mem_filterMap.1 hp
  obtain ⟨reference, href, rfl⟩ := Option.map_eq_some_iff.1 hpair
  obtain ⟨target, htarget⟩ := Registry.exists_target_of_referenceOrder horder he hf href
  obtain ⟨g, hg⟩ := ht _ hp target htarget
  exact ⟨_, bind_eq_ok_iff.2 ⟨target, htarget, bind_eq_ok_iff.2 ⟨g, hg, rfl⟩⟩⟩

theorem exists_reportedTable_of_fields
    (hfields : ∀ name ∈ e.source.constrainedNames, ∃ f, e.field name = .ok f)
    (hkeys : ∀ p ∈ e.foreignKeyFields, ∃ c, e.reportedForeignKey r p.1 p.2 = .ok c) :
    ∃ o, e.reportedTable r = .ok o := by
  have huniques : ∃ uniques, e.source.uniqueConstraints.mapM e.reportedUnique = .ok uniques := by
    refine exists_mapM_eq_ok fun u hu => ?_
    obtain ⟨columns, hcolumns⟩ := exists_rawColumns fun name hn => hfields name <| by
      simp only [EntitySpec.constrainedNames, List.mem_append, List.mem_flatMap]
      exact .inl (.inr ⟨u, hu, hn⟩)
    exact ⟨_, bind_eq_ok_iff.2 ⟨columns, hcolumns, rfl⟩⟩
  have hindexes : ∃ indexes, e.source.indexes.mapM e.reportedIndex = .ok indexes := by
    refine exists_mapM_eq_ok fun i hi => ?_
    obtain ⟨columns, hcolumns⟩ := exists_rawColumns fun name hn => hfields name <| by
      simp only [EntitySpec.constrainedNames, List.mem_append, List.mem_flatMap]
      exact .inl (.inl ⟨i, hi, hn⟩)
    exact ⟨_, bind_eq_ok_iff.2 ⟨columns, hcolumns, rfl⟩⟩
  obtain ⟨keys, hkeys⟩ := exists_mapM_eq_ok hkeys
  obtain ⟨uniques, huniques⟩ := huniques
  obtain ⟨indexes, hindexes⟩ := hindexes
  exact ⟨_, bind_eq_ok_iff.2 ⟨keys, hkeys, bind_eq_ok_iff.2 ⟨uniques, huniques,
    bind_eq_ok_iff.2 ⟨indexes, hindexes, rfl⟩⟩⟩⟩

/-- The catalog can report the table of an entity in order. -/
theorem exists_reportedTable {names : List String} {entities : List Entity}
    (horder : r.referenceOrder names = .ok entities) (he : e ∈ entities)
    (hs : e.IsOfSpec r.dialect spec) (hfin : spec.IsFinished) (ht : e.HasTargets r) :
    ∃ o, e.reportedTable r = .ok o :=
  exists_reportedTable_of_fields
    (fun _ hn => exists_field_of_constrained hs hfin (hs.source ▸ hn))
    fun _ hp => exists_reportedForeignKey horder he ht hp

/-- What reporting the table comes to, part by part. -/
structure IsTable (e : Entity) (r : Registry) (o : CatalogObject) : Prop where
  name : o.name = e.table.raw
  kind : o.kind = .table
  columns : o.columns = e.tableFields.map (·.asReported r.dialect)
  foreignKeys :
    List.Forall₂ (fun p c => e.reportedForeignKey r p.1 p.2 = .ok c) e.foreignKeyFields
      o.foreignKeys
  uniqueConstraints :
    List.Forall₂ (fun u c => e.reportedUnique u = .ok c) e.source.uniqueConstraints
      o.uniqueConstraints
  indexes : List.Forall₂ (fun i c => e.reportedIndex i = .ok c) e.source.indexes o.indexes
  checkConstraints : o.checkConstraints = e.source.checkConstraints.map (·.name)

theorem isTable_of_reportedTable {o : CatalogObject} (h : e.reportedTable r = .ok o) :
    e.IsTable r o := by
  obtain ⟨foreignKeys, hf, h⟩ := bind_eq_ok_iff.1 h
  obtain ⟨uniques, hu, h⟩ := bind_eq_ok_iff.1 h
  obtain ⟨indexes, hi, h⟩ := bind_eq_ok_iff.1 h
  cases h
  exact ⟨rfl, rfl, rfl, mapM_eq_ok_iff.1 hf, mapM_eq_ok_iff.1 hu, mapM_eq_ok_iff.1 hi, rfl⟩

end Entity

namespace Registry

variable {r : Registry} {names : List String} {entities : List Entity}

theorem objects_reported {declared : Catalog} (h : r.reported entities = .ok declared) :
    ∃ tables, declared.objects = tables ++ entities.filterMap (·.reportedView? r.dialect) ∧
      List.Forall₂ (fun e o => e.IsTable r o) entities tables := by
  obtain ⟨tables, htables, h⟩ := bind_eq_ok_iff.1 h
  cases h
  exact ⟨tables, rfl, (mapM_eq_ok_iff.1 htables).imp fun _ _ => Entity.isTable_of_reportedTable⟩

theorem objectNames_reported {declared : Catalog} (h : r.reported entities = .ok declared) :
    declared.objects.map (fun o => Text.asciiLower o.name) =
      (objectNames entities).map (·.caseless) := by
  obtain ⟨tables, hobjects, htables⟩ := objects_reported h
  have hnames : entities.map (fun e => e.table.caseless) =
      tables.map fun o => Text.asciiLower o.name :=
    map_eq_of_forall₂ htables fun e o ho => by rw [ho.name, Name.caseless]
  rw [hobjects, objectNames, List.map_append, List.map_append, ← hnames, List.map_map,
    List.map_filterMap, List.map_filterMap]
  congr 1
  simp only [Entity.reportedView?, Option.map_map]
  rfl

theorem exists_reported (hr : r.IsReachable) (horder : r.referenceOrder names = .ok entities)
    (h : r.IsComparable entities) : ∃ declared, r.reported entities = .ok declared := by
  have htables : ∃ tables, entities.mapM (·.reportedTable r) = .ok tables := by
    refine exists_mapM_eq_ok fun e he => ?_
    obtain ⟨spec, hfin, hs⟩ := hr.exists_finished (mem_of_referenceOrder horder he)
    exact Entity.exists_reportedTable horder he hs hfin (h.targets e he)
  obtain ⟨tables, htables⟩ := htables
  exact ⟨_, bind_eq_ok_iff.2 ⟨tables, htables, rfl⟩⟩

end Registry

end SqlDialects
