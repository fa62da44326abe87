import SqlDialects.Proofs.ViewJoins

/-!
# Columns that views and foreign keys refer to

A view takes columns from its own table and from the tables that it joins, and a foreign key refers to
a column of another table. Fields of the entity itself are looked up among those of its table. Fields of
the other entity, which a reference or a list-only field names, are looked up among all of its fields,
and one that only its view has gives a column that its table does not have.

Results:
1. `Entity.stores_column_iff`: which fields have a column in the table.
2. `Entity.IsArranged.namesStored_iff`: when all columns that a view names are stored.
3. `Entity.references_stored_iff`: the same of views and foreign keys as they are created;
   `comment_reads_unstored`: a view and a foreign key that name a column of no table.
-/

namespace SqlDialects

/-! ## Stored columns -/

/-- Whether the table of an entity has a column. -/
def Entity.stores (g : Entity) (column : Name) : Bool := g.tableFields.any (·.column == column)

theorem Entity.stores_iff {g : Entity} {column : Name} :
    g.stores column = true ↔ ∃ f ∈ g.tableFields, f.column = column := by
  simp [stores]

/-- Where no two fields have one column, the table has those of its fields, and no others. -/
theorem Entity.stores_column_iff {g : Entity} (h : (g.fields.map (·.column)).Nodup) {f : Field}
    (hf : f ∈ g.fields) : g.stores f.column = true ↔ f.isViewOnly = false := by
  rw [stores_iff]
  constructor
  · rintro ⟨other, hother, heq⟩
    obtain ⟨hmem, hstored⟩ := mem_tableFields.1 hother
    rwa [List.inj_on_of_nodup_map h hmem hf heq] at hstored
  · intro hstored
    exact ⟨f, mem_tableFields.2 ⟨hf, hstored⟩, rfl⟩

/-- Tables that a statement reads or refers to, the first one being that of its entity. -/
def Statement.namedTables : Statement → List Name
  | .createView _ table _ joins => table :: joins.map (·.table)
  | .addForeignKey table _ _ target _ => [table, target]
  | _ => []

/-- Columns that a statement reads or refers to, with the number of the table that each is of. -/
def Statement.namedColumns : Statement → List (Nat × Name)
  | .createView _ _ columns joins =>
    columns.map (fun c => (c.source, c.column)) ++
      joins.flatMap fun join => [(1, join.key), (join.number, join.column)]
  | .addForeignKey _ _ column _ targetColumn => [(1, column), (2, targetColumn)]
  | _ => []

/-- Whether all columns that a statement names are stored, given the entities of its tables. -/
def Statement.namesStored (s : Statement) (tables : List Entity) : Bool :=
  s.namedColumns.all fun entry => tables[entry.1 - 1]?.any (·.stores entry.2)

namespace Entity

variable {e : Entity} {r : Registry}

/-- Fields of other entities that a view takes: those that its keys refer to, and those that its
list-only fields show. -/
inductive Takes (e : Entity) (r : Registry) : Entity → Field → Prop
  | target {name : String} {key : Field} {reference : FieldReference} {g : Entity} {f : Field} :
      name ∈ keysInUse e.viewFields → e.LeadsTo r name key reference g →
        g.field reference.field = .ok f → Takes e r g f
  | shown {listed : Field} {source : ViewSource} {key : Field} {reference : FieldReference}
      {g : Entity} {f : Field} : listed ∈ e.viewFields → listed.viewSource = some source →
        e.LeadsTo r source.keyField key reference g →
          g.field source.sourceField = .ok f → Takes e r g f

theorem stores_of_mem {f : Field} (h : f ∈ e.tableFields) : e.stores f.column = true :=
  stores_iff.2 ⟨f, h, rfl⟩

theorem LeadsTo.stores {name : String} {key : Field} {reference : FieldReference} {g : Entity}
    (h : e.LeadsTo r name key reference g) : e.stores key.column = true :=
  stores_of_mem (mem_tableFields_of_tableField h.found).1

/-- An entity for each join: the one that the key of the join leads to, whose table is joined. -/
def AreJoined (e : Entity) (r : Registry) (joins : List (String × ViewJoin))
    (foreign : List Entity) : Prop :=
  List.Forall₂ (fun entry g => entry.2.table = g.table ∧
    ∃ key reference, e.LeadsTo r entry.1 key reference g) joins foreign

theorem AreJoined.map_table {joins : List (String × ViewJoin)} {foreign : List Entity}
    (h : e.AreJoined r joins foreign) : joins.map (·.2.table) = foreign.map (·.table) :=
  map_eq_of_forall₂ h fun _ _ hentry => hentry.1

namespace IsArranged

variable {joins : List (String × ViewJoin)} {listed : List ViewColumn} {foreign : List Entity}

theorem exists_areJoined {fields : List Field} (h : e.IsArranged r fields joins listed) :
    ∃ foreign, e.AreJoined r joins foreign :=
  exists_forall₂ fun entry hentry => by
    obtain ⟨key, reference, g, _, hkey, _, htable, _⟩ := h.joined entry hentry
    exact ⟨g, htable, key, reference, hkey⟩

/-- The number of a join is that of the table of the entity that its key leads to. -/
theorem getElem?_number {fields : List Field} (h : e.IsArranged r fields joins listed)
    (hf : e.AreJoined r joins foreign) {name : String} {join : ViewJoin}
    (hjoin : (name, join) ∈ joins) {key : Field} {reference : FieldReference} {g : Entity}
    (hkey : e.LeadsTo r name key reference g) : (e :: foreign)[join.number - 1]? = some g := by
  obtain ⟨i, hi, hentry⟩ := List.getElem_of_mem hjoin
  have hnumber : join.number = i + 2 := by
    have hat : (joins.map (·.2.number))[i]? = (List.range' 2 joins.length)[i]? := by
      rw [h.numbers]
    simpa [hi, hentry, List.getElem?_range', Nat.add_comm] using hat
  have hlength : i < foreign.length := hf.length_eq ▸ hi
  obtain ⟨-, key', reference', hkey'⟩ := (List.forall₂_iff_get.1 hf).2 i hi hlength
  have hname : (joins.get ⟨i, hi⟩).1 = name := congrArg Prod.fst hentry
  rw [hname] at hkey'
  obtain ⟨-, -, rfl⟩ := hkey.unique hkey'
  rw [hnumber]
  exact List.getElem?_eq_getElem hlength

/-- A view names columns of its own table, and those of the fields that it takes. -/
theorem of_mem_namedColumns (h : e.IsArranged r e.viewFields joins listed)
    (hf : e.AreJoined r joins foreign) {view : Name} {entry : Nat × Name}
    (hentry : entry ∈ (e.viewStatement view joins listed).namedColumns) :
    (entry.1 = 1 ∧ e.stores entry.2 = true) ∨
      ∃ g f, e.Takes r g f ∧ f.column = entry.2 ∧ (e :: foreign)[entry.1 - 1]? = some g := by
  rcases List.mem_append.1 hentry with hcolumn | hjoin
  · obtain ⟨c, hc, rfl⟩ := List.mem_map.1 hcolumn
    rcases List.mem_append.1 hc with hown | hlisted
    · obtain ⟨f, hmem, rfl⟩ := List.mem_map.1 hown
      exact .inl ⟨rfl, stores_of_mem hmem⟩
    · obtain ⟨f, hmem, source, join, key, reference, g, shown, hsource, hjoin, hkey, hshown, rfl⟩ :=
        exists_mem_of_forall₂ h.listed.flip hlisted
      exact .inr ⟨g, shown, .shown hmem hsource hkey hshown, rfl, h.getElem?_number hf hjoin hkey⟩
  · obtain ⟨join, hmem, hsides⟩ := List.mem_flatMap.1 hjoin
    obtain ⟨⟨name, _⟩, hpair, rfl⟩ := List.mem_map.1 hmem
    obtain ⟨key, reference, g, target, hkey, htarget, _, hleft, hright⟩ := h.joined _ hpair
    simp only [List.mem_cons, List.not_mem_nil, or_false] at hsides
    rcases hsides with rfl | rfl
    · exact .inl ⟨rfl, by rw [hleft]; exact hkey.stores⟩
    · have hused : name ∈ keysInUse e.viewFields := h.keys ▸ List.mem_map_of_mem hpair
      exact .inr ⟨g, target, .target hused hkey htarget, hright.symm,
        h.getElem?_number hf hpair hkey⟩

/-- A view names the column of each field that it takes, under the number of its table. -/
theorem exists_mem_namedColumns (h : e.IsArranged r e.viewFields joins listed)
    (hf : e.AreJoined r joins foreign) (view : Name) {g : Entity} {f : Field}
    (ht : e.Takes r g f) :
    ∃ number, (number, f.column) ∈ (e.viewStatement view joins listed).namedColumns ∧
      (e :: foreign)[number - 1]? = some g := by
  cases ht with
  | @target name key reference _ _ hused hkey htarget =>
    rw [← h.keys] at hused
    obtain ⟨⟨_, join⟩, hmem, rfl⟩ := List.mem_map.1 hused
    obtain ⟨key', reference', g', target', hkey', htarget', _, _, hright⟩ := h.joined _ hmem
    obtain ⟨rfl, rfl, rfl⟩ := hkey.unique hkey'
    obtain rfl : f = target' := Except.ok.inj (htarget.symm.trans htarget')
    refine ⟨join.number, List.mem_append_right _ (List.mem_flatMap.2
      ⟨join, List.mem_map_of_mem hmem, ?_⟩), h.getElem?_number hf hmem hkey⟩
    rw [← hright]
    exact List.mem_cons_of_mem _ (List.mem_singleton_self _)
  | @shown field source key reference _ _ hfield hsource hkey hshown =>
    obtain ⟨c, hc, source', join, key', reference', g', shown', hsource', hmem, hkey', hshown', rfl⟩ :=
      exists_mem_of_forall₂ h.listed hfield
    obtain rfl : source = source' := Option.some.inj (hsource.symm.trans hsource')
    obtain ⟨rfl, rfl, rfl⟩ := hkey.unique hkey'
    obtain rfl : f = shown' := Except.ok.inj (hshown.symm.trans hshown')
    exact ⟨join.number, List.mem_append_left _ (List.mem_map.2
      ⟨_, List.mem_append_right _ hc, rfl⟩), h.getElem?_number hf hmem hkey⟩

/-- All columns that a view names are stored exactly if those of the fields that it takes are. -/
theorem namesStored_iff (h : e.IsArranged r e.viewFields joins listed)
    (hf : e.AreJoined r joins foreign) (view : Name) :
    (e.viewStatement view joins listed).namesStored (e :: foreign) = true ↔
      ∀ g f, e.Takes r g f → g.stores f.column = true := by
  rw [Statement.namesStored, List.all_eq_true]
  constructor
  · intro hstored g f ht
    obtain ⟨number, hmem, htable⟩ := h.exists_mem_namedColumns hf view ht
    simpa [htable] using hstored _ hmem
  · intro hstored entry hentry
    rcases h.of_mem_namedColumns hf hentry with ⟨hone, hown⟩ | ⟨g, f, ht, hcolumn, htable⟩
    · rw [hone]
      exact hown
    · rw [htable, ← hcolumn]
      exact hstored g f ht

end IsArranged

/-- Columns of its own table that a view or a foreign key names are stored. Those of other tables are
stored exactly if the fields are that are found in the other entities: those that keys refer to, and
those that list-only fields show. -/
theorem references_stored_iff (e : Entity) (r : Registry) :
    (∀ s, e.createView r = .ok (some s) →
      ∃ foreign, (e :: foreign).map (·.table) = s.namedTables ∧
        List.Forall₂ (fun name g => ∃ key reference, e.LeadsTo r name key reference g)
          (keysInUse e.viewFields) foreign ∧
        (s.namesStored (e :: foreign) = true ↔
          ∀ g f, e.Takes r g f → g.stores f.column = true)) ∧
    ∀ name s, e.addForeignKey r name = .ok s →
      ∃ key reference g target, e.LeadsTo r name key reference g ∧
        g.field reference.field = .ok target ∧ [e, g].map (·.table) = s.namedTables ∧
          (s.namesStored [e, g] = true ↔ g.stores target.column = true) := by
  constructor
  · intro s h
    obtain ⟨view, joins, listed, _, harranged, rfl⟩ := createView_eq_some h
    obtain ⟨foreign, hjoined⟩ := harranged.exists_areJoined
    refine ⟨foreign, ?_, ?_, harranged.namesStored_iff hjoined view⟩
    · rw [List.map_cons, ← hjoined.map_table]
      simp [viewStatement, Statement.namedTables]
    · rw [← harranged.keys, List.forall₂_map_left_iff]
      exact hjoined.imp fun _ _ hentry => hentry.2
  · intro name s h
    obtain ⟨key, reference, g, target, hkey, htarget, rfl⟩ := addForeignKey_eq_ok_iff.1 h
    refine ⟨key, reference, g, target, hkey, htarget, rfl, ?_⟩
    simp [Statement.namesStored, Statement.namedColumns, hkey.stores]

end Entity

/-- The view and the foreign key of posts name stored columns, of posts and of authors. -/
theorem post_references_stored :
    ∃ e author s key, (blogRegistry .hsqldb).get "Post" = .ok e ∧
      e.createView (blogRegistry .hsqldb) = .ok (some s) ∧
      e.addForeignKey (blogRegistry .hsqldb) "author" = .ok key ∧
      s.namesStored [e, author] = true ∧ key.namesStored [e, author] = true ∧
      (∀ g f, e.Takes (blogRegistry .hsqldb) g f → g.stores f.column = true) ∧
      ∃ target, author.stores target = true := by
  obtain ⟨⟨e, ⟨leading, reference, author⟩, create, key⟩, hrun, hstored⟩ :
      ∃ run : Entity × (Field × FieldReference × Entity) × Option Statement × Statement,
        (do
          let e ← (blogRegistry .hsqldb).get "Post"
          let source ← e.sourceEntity (blogRegistry .hsqldb) ⟨"author", "name"⟩
          let create ← e.createView (blogRegistry .hsqldb)
          let key ← e.addForeignKey (blogRegistry .hsqldb) "author"
          return (e, source, create, key)) = .ok run ∧
        (Entity.keysInUse run.1.viewFields == ["author"] &&
          run.2.2.1.any (·.namesStored [run.1, run.2.1.2.2]) &&
          run.2.2.2.namesStored [run.1, run.2.1.2.2]) = true :=
    exists_ok_of_any (by decide +kernel)
  obtain ⟨_, he, hrun⟩ := bind_eq_ok_iff.1 hrun
  obtain ⟨_, hsource, hrun⟩ := bind_eq_ok_iff.1 hrun
  obtain ⟨_, hcreate, hrun⟩ := bind_eq_ok_iff.1 hrun
  obtain ⟨_, hkey, hrun⟩ := bind_eq_ok_iff.1 hrun
  cases hrun
  simp only [Bool.and_eq_true, beq_iff_eq] at hstored
  obtain ⟨⟨hkeys, hview⟩, hforeign⟩ := hstored
  obtain ⟨s, hs, hnamed⟩ := (Option.any_eq_true _ _).1 hview
  cases hs
  have hleads := Entity.sourceEntity_eq_ok_iff.1 hsource
  obtain ⟨foreign, _, hjoined, hview_iff⟩ :=
    (Entity.references_stored_iff e (blogRegistry .hsqldb)).1 s hcreate
  rw [hkeys] at hjoined
  cases hjoined with
  | cons hlast hnil =>
    cases hnil
    obtain ⟨_, _, hlast⟩ := hlast
    obtain ⟨-, -, rfl⟩ := hleads.unique hlast
    obtain ⟨_, _, _, target, hkeyLeads, _, _, hkey_iff⟩ :=
      (Entity.references_stored_iff e (blogRegistry .hsqldb)).2 "author" key hkey
    obtain ⟨-, -, rfl⟩ := hleads.unique hkeyLeads
    exact ⟨e, author, s, key, he, hcreate, hkey, hnamed, hforeign, hview_iff.1 hnamed, target.column,
      hkey_iff.1 hforeign⟩

/-- Comments on posts, listed with the authors of the posts, which only the view of posts has. -/
def commentSpec : EntitySpec :=
  { EntitySpec.named "Comment" with
    view := some "V_COMMENT"
    fields := [(FieldSpec.named "id" .long).asPrimaryKey,
      { FieldSpec.named "post" .long with foreignKey := some ⟨"Post", "id"⟩ },
      { FieldSpec.named "byline" .string with foreignKey := some ⟨"Post", "authorName"⟩ },
      { FieldSpec.named "postAuthor" .string with viewSource := some ⟨"post", "authorName"⟩ }] }

/-- A registry of authors, posts and comments. -/
def commentRegistry (db : Database) : Registry :=
  Registry.ofSpecs (Dialect.builtin db) [authorSpec, postSpec, commentSpec]

/-- The view of comments and a foreign key of theirs name a column that the table of posts does not
have. -/
theorem comment_reads_unstored :
    (commentRegistry .hsqldb).IsReachable ∧
    ∃ e post s key, (commentRegistry .hsqldb).get "Comment" = .ok e ∧
      (commentRegistry .hsqldb).get "Post" = .ok post ∧
      e.createView (commentRegistry .hsqldb) = .ok (some s) ∧
      e.addForeignKey (commentRegistry .hsqldb) "byline" = .ok key ∧
      s.namedTables = [e.table, post.table] ∧ key.namedTables = [e.table, post.table] ∧
      ∃ column, column.written = "AUTHOR_NAME" ∧ post.stores column = false ∧
        (2, column) ∈ s.namedColumns ∧ (2, column) ∈ key.namedColumns := by
  refine ⟨Registry.isReachable_ofSpecs ?_, ?_⟩
  · simp only [List.forall_mem_cons]
    exact ⟨EntitySpec.isFinished_of_build (by decide), EntitySpec.isFinished_of_build (by decide),
      EntitySpec.isFinished_of_build (by decide), fun _ h => absurd h List.not_mem_nil⟩
  obtain ⟨⟨e, post, create, key⟩, hrun, hcheck⟩ :
      ∃ run : Entity × Entity × Option Statement × Statement,
        (do
          let e ← (commentRegistry .hsqldb).get "Comment"
          let post ← (commentRegistry .hsqldb).get "Post"
          let create ← e.createView (commentRegistry .hsqldb)
          let key ← e.addForeignKey (commentRegistry .hsqldb) "byline"
          return (e, post, create, key)) = .ok run ∧
        (run.2.2.1.any (fun s => s.namedTables == [run.1.table, run.2.1.table] &&
            s.namedColumns.contains (2, ⟨"AUTHOR_NAME", "AUTHOR_NAME"⟩)) &&
          run.2.2.2.namedTables == [run.1.table, run.2.1.table] &&
          run.2.2.2.namedColumns.contains (2, ⟨"AUTHOR_NAME", "AUTHOR_NAME"⟩) &&
          !run.2.1.stores ⟨"AUTHOR_NAME", "AUTHOR_NAME"⟩) = true :=
    exists_ok_of_any (by decide +kernel)
  obtain ⟨_, he, hrun⟩ := bind_eq_ok_iff.1 hrun
  obtain ⟨_, hpost, hrun⟩ := bind_eq_ok_iff.1 hrun
  obtain ⟨_, hcreate, hrun⟩ := bind_eq_ok_iff.1 hrun
  obtain ⟨_, hkey, hrun⟩ := bind_eq_ok_iff.1 hrun
  cases hrun
  simp only [Bool.and_eq_true, beq_iff_eq, List.contains_iff_mem, Bool.not_eq_true'] at hcheck
  obtain ⟨⟨⟨hview, hkeyTables⟩, hkeyColumn⟩, hunstored⟩ := hcheck
  obtain ⟨s, hs, hnamed⟩ := (Option.any_eq_true _ _).1 hview
  cases hs
  rw [Bool.and_eq_true, beq_iff_eq, List.contains_iff_mem] at hnamed
  exact ⟨e, post, s, key, he, hpost, hcreate, hkey, hnamed.1, hkeyTables, _, rfl, hunstored, hnamed.2,
    hkeyColumn⟩

end SqlDialects
