import SqlDialects.Proofs.VersionView

/-!
# Tables that a view joins

The view of an entity reads its table under the first alias, and list-only fields from tables that are
joined over their key fields. Each key field gets one join and one alias when it is first used: several
keys may refer to one entity, which is then joined once for each of them, and several fields may share a
key, and then share its alias.

Results:
1. `Entity.keysInUse_append`, `Entity.nodup_keysInUse`: key fields in the order of their first use.
2. `Entity.IsArranged.step`, `Entity.IsArranged.run`: the joins and columns after some list-only fields.
3. `Entity.exists_isArranged_of_createView`: the text of a view.
-/

namespace SqlDialects

namespace Entity

/-! ## Key fields in use -/

/-- Names of the key fields of some list-only fields, in the order in which they are first used. -/
def keysInUse (fields : List Field) : List String :=
  (fields.filterMap fun f => f.viewSource.map (·.keyField)).eraseDups

theorem mem_keysInUse {fields : List Field} {key : String} :
    key ∈ keysInUse fields ↔
      ∃ f ∈ fields, ∃ source, f.viewSource = some source ∧ source.keyField = key := by
  simp [keysInUse]

/-- One more field uses one more key, or one that is in use. -/
theorem keysInUse_append (fields : List Field) {f : Field} {source : ViewSource}
    (hf : f.viewSource = some source) :
    keysInUse (fields ++ [f]) =
      if source.keyField ∈ keysInUse fields then keysInUse fields
      else keysInUse fields ++ [source.keyField] := by
  have hlast : [f].filterMap (fun f => f.viewSource.map (·.keyField)) = [source.keyField] := by
    simp [hf]
  rw [keysInUse, List.filterMap_append, hlast, List.eraseDups_append, ← keysInUse]
  simp only [keysInUse, List.mem_eraseDups]
  generalize fields.filterMap (fun f => f.viewSource.map (·.keyField)) = keys
  by_cases hmem : source.keyField ∈ keys
  · simp [List.removeAll, hmem]
  · simp [List.removeAll, hmem, List.eraseDups_cons]

theorem nodup_keysInUse {fields : List Field} (h : ∀ f ∈ fields, f.isViewOnly = true) :
    (keysInUse fields).Nodup := by
  induction fields using List.reverseRecOn with
  | nil => exact List.nodup_nil
  | append_singleton fields f ih =>
    obtain ⟨hfields, hf⟩ := List.forall_mem_append.1 h
    obtain ⟨source, hsource⟩ := Option.isSome_iff_exists.1 (hf f (List.mem_singleton_self f))
    rw [keysInUse_append fields hsource]
    split
    · exact ih hfields
    · next hnew => exact List.nodup_append_comm.1 (List.nodup_cons.2 ⟨hnew, ih hfields⟩)

theorem isViewOnly_of_mem_viewFields {e : Entity} {f : Field} (h : f ∈ e.viewFields) :
    f.isViewOnly = true := (List.mem_filter.1 h).2

/-! ## Joins and columns -/

/-- A join over a key field: the table that the key refers to, where it has the value of the key in
the column that the key refers to. -/
def IsJoinOver (e : Entity) (r : Registry) (name : String) (join : ViewJoin) : Prop :=
  ∃ key reference g target, e.LeadsTo r name key reference g ∧
    g.field reference.field = .ok target ∧
      join.table = g.table ∧ join.key = key.column ∧ join.column = target.column

/-- The column of a list-only field: taken from the table that is joined over its own key, and named
by its own column. -/
def IsListed (e : Entity) (r : Registry) (joins : List (String × ViewJoin)) (f : Field)
    (c : ViewColumn) : Prop :=
  ∃ source join key reference g shown, f.viewSource = some source ∧
    (source.keyField, join) ∈ joins ∧ e.LeadsTo r source.keyField key reference g ∧
      g.field source.sourceField = .ok shown ∧ c = ⟨join.number, shown.column, some f.column⟩

theorem IsListed.mono {e : Entity} {r : Registry} {joins more : List (String × ViewJoin)}
    {f : Field} {c : ViewColumn} (h : e.IsListed r joins f c) (hsub : joins ⊆ more) :
    e.IsListed r more f c := by
  obtain ⟨source, join, key, reference, g, shown, hsource, hjoin, h⟩ := h
  exact ⟨source, join, key, reference, g, shown, hsource, hsub hjoin, h⟩

/-- Joins and columns of some list-only fields: one join for each key in use, numbered in that order,
and one column for each field. -/
structure IsArranged (e : Entity) (r : Registry) (fields : List Field)
    (joins : List (String × ViewJoin)) (listed : List ViewColumn) : Prop where
  keys : joins.map Prod.fst = keysInUse fields
  numbers : joins.map (·.2.number) = List.range' 2 joins.length
  joined : ∀ entry ∈ joins, e.IsJoinOver r entry.1 entry.2
  listed : List.Forall₂ (e.IsListed r joins) fields listed

section Steps

variable {e : Entity} {r : Registry} {fields : List Field} {joins : List (String × ViewJoin)}
  {listed own : List ViewColumn}

theorem isArranged_nil (e : Entity) (r : Registry) : e.IsArranged r [] [] [] :=
  ⟨rfl, rfl, fun _ h => absurd h List.not_mem_nil, .nil⟩

/-- A list-only field finds the join over its key among those there are, or gets the next one. -/
theorem IsArranged.joinOver (h : e.IsArranged r fields joins listed) {f : Field}
    {source : ViewSource} (hf : f.viewSource = some source) {key : Field}
    {reference : FieldReference} {g : Entity} (hkey : e.LeadsTo r source.keyField key reference g)
    {columns : List ViewColumn} {joined : ViewParts} {number : Nat}
    (hjoin : Entity.joinOver ⟨joins, columns⟩ source key reference g = .ok (joined, number)) :
    joined.columns = columns ∧ joins ⊆ joined.joins ∧
      joined.joins.map Prod.fst = keysInUse (fields ++ [f]) ∧
      joined.joins.map (·.2.number) = List.range' 2 joined.joins.length ∧
      (∀ entry ∈ joined.joins, e.IsJoinOver r entry.1 entry.2) ∧
      ∃ join, (source.keyField, join) ∈ joined.joins ∧ join.number = number := by
  unfold Entity.joinOver at hjoin
  rw [keysInUse_append fields hf, ← h.keys]
  split at hjoin
  · next join hfound =>
    cases hjoin
    obtain ⟨before, after, hsplit, _⟩ := List.lookup_eq_some_iff.1 hfound
    have hmem : (source.keyField, join) ∈ joins := by
      rw [show joins = _ from hsplit]
      simp
    rw [if_pos (List.mem_map_of_mem hmem)]
    exact ⟨rfl, List.Subset.refl _, rfl, h.numbers, h.joined, join, hmem, rfl⟩
  · next hnew =>
    obtain ⟨target, htarget, hjoin⟩ := bind_eq_ok_iff.1 hjoin
    cases hjoin
    have hnotMem : source.keyField ∉ joins.map Prod.fst := by
      intro hmem
      obtain ⟨entry, hentry, heq⟩ := List.mem_map.1 hmem
      exact absurd (List.lookup_eq_none_iff.1 hnew entry hentry) (by simp [heq])
    rw [if_neg hnotMem]
    refine ⟨rfl, List.subset_append_left _ _, by simp, ?_, ?_, _,
      List.mem_append_right _ (List.mem_singleton_self _), rfl⟩
    · simp [h.numbers, List.range'_concat]
      omega
    · exact List.forall_mem_append.2 ⟨h.joined,
        List.forall_mem_singleton.2 ⟨key, reference, g, target, hkey, htarget, rfl, rfl, rfl⟩⟩

/-- One more list-only field. -/
theorem IsArranged.step (h : e.IsArranged r fields joins listed) {f : Field}
    (hf : f.isViewOnly = true) {parts : ViewParts}
    (hstep : e.addViewField r ⟨joins, own ++ listed⟩ f = .ok parts) :
    ∃ more, parts.columns = own ++ more ∧ e.IsArranged r (fields ++ [f]) parts.joins more := by
  obtain ⟨source, hsource⟩ := Option.isSome_iff_exists.1 hf
  unfold addViewField at hstep
  rw [hsource] at hstep
  obtain ⟨⟨key, reference, g⟩, hg, hstep⟩ := bind_eq_ok_iff.1 hstep
  obtain ⟨⟨joined, number⟩, hjoin, hstep⟩ := bind_eq_ok_iff.1 hstep
  obtain ⟨shown, hshown, hstep⟩ := bind_eq_ok_iff.1 hstep
  cases hstep
  have hkey := sourceEntity_eq_ok_iff.1 hg
  obtain ⟨hcolumns, hsub, hkeys, hnumbers, hjoined, join, hmem, rfl⟩ :=
    h.joinOver hsource hkey hjoin
  refine ⟨listed ++ [⟨join.number, shown.column, some f.column⟩], ?_, hkeys, hnumbers, hjoined, ?_⟩
  · rw [hcolumns, List.append_assoc]
  · refine List.rel_append (h.listed.imp fun _ _ hl => hl.mono hsub) (.cons ?_ .nil)
    exact ⟨source, join, key, reference, g, shown, hsource, hmem, hkey, hshown, rfl⟩

/-- Any more list-only fields. -/
theorem IsArranged.run (h : e.IsArranged r fields joins listed) {more : List Field}
    (hmore : ∀ f ∈ more, f.isViewOnly = true) {parts : ViewParts}
    (hrun : more.foldlM (e.addViewField r) ⟨joins, own ++ listed⟩ = .ok parts) :
    ∃ all, parts.columns = own ++ all ∧ e.IsArranged r (fields ++ more) parts.joins all := by
  induction more generalizing fields joins listed with
  | nil =>
    cases hrun
    exact ⟨listed, rfl, by rwa [List.append_nil]⟩
  | cons f rest ih =>
    obtain ⟨hf, hrest⟩ := List.forall_mem_cons.1 hmore
    rw [List.foldlM_cons] at hrun
    obtain ⟨⟨joins', columns⟩, hstep, hrun⟩ := bind_eq_ok_iff.1 hrun
    obtain ⟨listed', rfl, h'⟩ := h.step hf hstep
    obtain ⟨all, hall, hend⟩ := ih h' hrest hrun
    exact ⟨all, hall, by rwa [List.append_assoc, List.singleton_append] at hend⟩

end Steps

/-! ## The text of a view -/

theorem aliasName_injective : Function.Injective DdlStyle.aliasName := by
  intro m n h
  have hdigits : toString m = toString n := by
    simpa [DdlStyle.aliasName] using h
  exact Nat.repr_inj.1 hdigits

/-- The first table and the joined ones go by different aliases. -/
theorem IsArranged.nodup_aliases {e : Entity} {r : Registry} {fields : List Field}
    {joins : List (String × ViewJoin)} {listed : List ViewColumn}
    (h : e.IsArranged r fields joins listed) :
    ((1 :: joins.map (·.2.number)).map DdlStyle.aliasName).Nodup := by
  rw [h.numbers]
  refine List.Nodup.map aliasName_injective (List.nodup_cons.2 ⟨?_, List.nodup_range'⟩)
  intro hmem
  obtain ⟨i, _, hi⟩ := List.mem_range'.1 hmem
  omega

/-- What is written for a list-only field. -/
def listedText (f : Field) (c : ViewColumn) : String :=
  DdlStyle.aliasName c.source ++ "." ++ c.column.written ++ " AS " ++ f.column.written

/-- What is written for a joined table. -/
def joinText (join : ViewJoin) : String :=
  "LEFT JOIN " ++ join.table.written ++ " " ++ DdlStyle.aliasName join.number ++ " ON T1." ++
    join.key.written ++ " = " ++ DdlStyle.aliasName join.number ++ "." ++ join.column.written

theorem joinText_eq_viewJoin (join : ViewJoin) : joinText join = DdlStyle.viewJoin join := by
  have hon : " ON T1." = " ON " ++ DdlStyle.aliasName 1 ++ "." := by decide
  unfold joinText DdlStyle.viewJoin
  simp only [hon, String.append_assoc]

theorem IsArranged.map_viewColumn {e : Entity} {r : Registry} {fields : List Field}
    {joins : List (String × ViewJoin)} {listed : List ViewColumn}
    (h : e.IsArranged r fields joins listed) :
    listed.map DdlStyle.viewColumn = List.zipWith listedText fields listed := by
  have hlisted := h.listed
  clear h
  induction hlisted with
  | nil => rfl
  | cons hc _ ih =>
    obtain ⟨source, join, key, reference, g, shown, _, _, _, _, rfl⟩ := hc
    rw [List.map_cons, List.zipWith_cons_cons, ih]
    simp [DdlStyle.viewColumn, listedText, String.append_assoc]

/-- The statement that creates a view with some joins, whose list-only fields have some columns. -/
def viewStatement (e : Entity) (view : Name) (joins : List (String × ViewJoin))
    (listed : List ViewColumn) : Statement :=
  .createView view e.table (e.tableFields.map (⟨1, ·.column, none⟩) ++ listed) (joins.map Prod.snd)

/-- The text of a view whose joins and columns are arranged. -/
theorem IsArranged.text {e : Entity} {r : Registry} {joins : List (String × ViewJoin)}
    {listed : List ViewColumn} (h : e.IsArranged r e.viewFields joins listed) (view : Name)
    (style : DdlStyle) (layout : Layout) :
    style.text layout (e.viewStatement view joins listed) =
      String.intercalate layout.separator
        (("CREATE VIEW " ++ view.written ++ " AS SELECT " ++ String.intercalate ", "
            (e.tableFields.map ("T1." ++ ·.column.written) ++
              List.zipWith listedText e.viewFields listed)) ::
          ("FROM " ++ e.table.written ++ " T1") ::
          joins.map (joinText ·.2)) := by
  have hown : (e.tableFields.map (fun f => ViewColumn.mk 1 f.column none)).map
      DdlStyle.viewColumn = e.tableFields.map ("T1." ++ ·.column.written) := by
    rw [List.map_map]
    refine List.map_congr_left fun f _ => ?_
    have hfirst : "T1." = DdlStyle.aliasName 1 ++ "." := by decide
    simp only [Function.comp_apply, DdlStyle.viewColumn, hfirst, String.append_empty]
  have hjoins : (joins.map Prod.snd).map DdlStyle.viewJoin = joins.map (joinText ·.2) := by
    rw [List.map_map]
    exact List.map_congr_left fun entry _ => (joinText_eq_viewJoin entry.2).symm
  have hfrom : " T1" = " " ++ DdlStyle.aliasName 1 := by decide
  rw [viewStatement, DdlStyle.text, DdlStyle.arrangement, Layout.arrange, List.map_append, hown,
    h.map_viewColumn, hjoins]
  simp only [hfrom, String.append_assoc, List.cons_append, List.nil_append]

/-- Joins and columns that a view is created with. -/
theorem createView_eq_some {e : Entity} {r : Registry} {s : Statement}
    (h : e.createView r = .ok (some s)) :
    ∃ view joins listed, e.view = some view ∧ e.IsArranged r e.viewFields joins listed ∧
      s = e.viewStatement view joins listed := by
  obtain ⟨-, hnone⟩ | ⟨view, ⟨joins, columns⟩, hview, hparts, hcreate⟩ := createView_cases h
  · cases hnone
  · cases hcreate
    rw [← List.append_nil (e.tableFields.map _)] at hparts
    obtain ⟨listed, hcolumns, harranged⟩ := (isArranged_nil e r).run
      (fun _ => isViewOnly_of_mem_viewFields) hparts
    exact ⟨view, joins, listed, hview, harranged, by rw [hcolumns]; rfl⟩

/-- The text of a view has one join for each key in use, in the order of their first use, each under an
alias of its own. The join compares the column of the key with the one that it refers to. The columns
of the table come first, and then each list-only field, from the join over its own key and named by
its own column. -/
theorem exists_isArranged_of_createView {e : Entity} {r : Registry} {s : Statement}
    (h : e.createView r = .ok (some s)) :
    ∃ view joins listed, e.view = some view ∧ e.IsArranged r e.viewFields joins listed ∧
      (keysInUse e.viewFields).Nodup ∧
      ((1 :: joins.map (·.2.number)).map DdlStyle.aliasName).Nodup ∧
      ∀ (style : DdlStyle) (layout : Layout),
        style.text layout s = String.intercalate layout.separator
          (("CREATE VIEW " ++ view.written ++ " AS SELECT " ++ String.intercalate ", "
              (e.tableFields.map ("T1." ++ ·.column.written) ++
                List.zipWith listedText e.viewFields listed)) ::
            ("FROM " ++ e.table.written ++ " T1") ::
            joins.map (joinText ·.2)) := by
  obtain ⟨view, joins, listed, hview, harranged, rfl⟩ := createView_eq_some h
  exact ⟨view, joins, listed, hview, harranged,
    nodup_keysInUse fun _ => isViewOnly_of_mem_viewFields, harranged.nodup_aliases,
    harranged.text view⟩

end Entity

/-- Posts with two keys to authors, listed by fields of both in turn. -/
def editedPostSpec : EntitySpec :=
  { EntitySpec.named "Post" with
    view := some "V_POST"
    fields := [(FieldSpec.named "id" .long).asPrimaryKey,
      { FieldSpec.named "author" .long with foreignKey := some ⟨"Author", "id"⟩ },
      { FieldSpec.named "editorName" .string with viewSource := some ⟨"editor", "name"⟩ },
      { FieldSpec.named "authorName" .string with viewSource := some ⟨"author", "name"⟩ },
      { FieldSpec.named "editorId" .long with viewSource := some ⟨"editor", "id"⟩ },
      { FieldSpec.named "editor" .long with foreignKey := some ⟨"Author", "id"⟩ }] }

/-- A registry of authors and edited posts. -/
def editedRegistry (db : Database) : Registry :=
  Registry.ofSpecs (Dialect.builtin db) [authorSpec, editedPostSpec]

/-- The view of edited posts. -/
def editedPosts : String :=
  "CREATE VIEW PUBLIC.V_POST AS SELECT T1.ID, T1.AUTHOR, T1.EDITOR, " ++
    "T2.NAME AS EDITOR_NAME, T3.NAME AS AUTHOR_NAME, T2.ID AS EDITOR_ID " ++
    "FROM PUBLIC.POST T1 LEFT JOIN PUBLIC.AUTHOR T2 ON T1.EDITOR = T2.ID " ++
    "LEFT JOIN PUBLIC.AUTHOR T3 ON T1.AUTHOR = T3.ID"

theorem Entity.createView_of_viewText? {e : Entity} {r : Registry} {text : String}
    (h : e.viewText? r = some text) :
    ∃ s, e.createView r = .ok (some s) ∧ r.dialect.ddl.text .compact s = text := by
  obtain ⟨s, hs, htext⟩ := Option.map_eq_some_iff.1 h
  cases hcreate : e.createView r with
  | error _ => simp [hcreate, Except.toOption] at hs
  | ok create =>
    rw [hcreate] at hs
    exact ⟨s, congrArg Except.ok (Option.some.inj (Option.join_eq_some_iff.1 hs)), htext⟩

/-- The editors are joined first, since they are used first, and once for both of their fields. -/
theorem edited_post_joins :
    ∃ e s, (editedRegistry .hsqldb).get "Post" = .ok e ∧
      e.createView (editedRegistry .hsqldb) = .ok (some s) ∧
      (editedRegistry .hsqldb).dialect.ddl.text .compact s = editedPosts ∧
      Entity.keysInUse e.viewFields = ["editor", "author"] ∧
      ∃ view joins listed, e.view = some view ∧
        e.IsArranged (editedRegistry .hsqldb) e.viewFields joins listed := by
  obtain ⟨e, he, hview⟩ : ∃ e, (editedRegistry .hsqldb).get "Post" = .ok e ∧
      (e.viewText? (editedRegistry .hsqldb) == some editedPosts &&
        Entity.keysInUse e.viewFields == ["editor", "author"]) = true :=
    exists_ok_of_any (by decide +kernel)
  rw [Bool.and_eq_true, beq_iff_eq, beq_iff_eq] at hview
  obtain ⟨s, hcreate, htext⟩ := Entity.createView_of_viewText? hview.1
  obtain ⟨view, joins, listed, hname, harranged, _⟩ :=
    Entity.exists_isArranged_of_createView hcreate
  exact ⟨e, s, he, hcreate, htext, hview.2, view, joins, listed, hname, harranged⟩

end SqlDialects
