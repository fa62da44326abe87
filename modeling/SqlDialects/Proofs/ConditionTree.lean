import SqlDialects.Proofs.SearchCondition
import SqlDialects.Proofs.StatementText
import SqlDialects.Proofs.UpToDate

/-!
# A condition means what it was built from

Conditions are built as trees, of restrictions on fields that `AND` and `OR` join, and are written
with as few parentheses as will do. This module shows that these are enough: read by the rules of
SQL, whatever the names of the columns are, the text is that tree again, but that a compound of one
part is the part and a long list is several lists. Nor is there a loose end: what is added after an
`AND` is a condition of its own.

Results:
1. `BoundCondition.isFactor_ofField`: a restriction, in any dialect with faithful rules.
2. `ConditionTree.exists_isFactor`: a tree, whatever follows it.
3. `ConditionTree.parse_text`: the text, alone and in front of a bound on the number of rows or on
   the version.
-/

namespace SqlDialects

open SearchCondition (IsFactor isFactor_groupTokens isFactor_writeTokens)

/-! ## Restrictions -/

theorem runs_ne_nil {α : Type} (limit : Nat) (values : List α) : runs limit values ≠ [] := by
  unfold runs
  split <;> simp

theorem Dialect.runLengths_ne_nil (d : Dialect) (r : Restriction) (operands : Nat) :
    d.runLengths r operands ≠ [] := by
  unfold runLengths
  split
  · simp [valueRuns, runs_ne_nil]
  · simp

/-- A restriction on a column as it is understood: a test, or a test for each run of the operands.
The value is in one of the lists, or it is in none of them. -/
def SearchCondition.ofRestriction (d : Dialect) (column : String) (r : Restriction)
    (operands : Nat) : SearchCondition :=
  joined (if r = .notAmongst then "AND" else "OR") <| (d.runLengths r operands).map fun k =>
    .test r.shown (.name column) (List.replicate k (.mark '?'))

/-- A restriction is read as it is meant, whatever name the column has. -/
theorem BoundCondition.isFactor_ofField {d : Dialect} (hd : d.naming.IsBuiltin) {f : Field}
    (hf : f.column.written = d.naming.written f.column.raw) {r : Restriction}
    (hr : (d.conditionRule r).isFaithful = true) {operands : Nat} {c : BoundCondition}
    (h : ofField d f r operands = .ok c) :
    IsFactor (c.condition.parts d.naming)
      (.ofRestriction d (d.naming.folded f.column.raw) r operands) := by
  obtain ⟨hcompound, hruns, rfl⟩ := ofField_eq_ok_iff.1 h
  have hrestriction := d.restriction_conditionRule r
  have hcolumn := (Naming.reads_written hd.hasOwnQuotes f.column.raw).2
  have hrun : ∀ k ∈ d.runLengths r operands,
      IsFactor (Condition.runTokens d.naming (d.conditionRule r) f.column.written k)
        (.test r.shown (.name (d.naming.folded f.column.raw)) (List.replicate k (.mark '?'))) := by
    intro k hk
    have hsubject : (Token.name (d.naming.folded f.column.raw)).isSubject = true := rfl
    have hfactor := isFactor_writeTokens hr (by rwa [hrestriction]) (hruns k hk) hsubject
    rwa [hrestriction, ← hcolumn, ← hf] at hfactor
  have hglue : Condition.glueWord (d.conditionRule r) =
      if r = .notAmongst then "AND" else "OR" := by
    rw [Condition.glueWord, hrestriction]
  have hword : (if r = .notAmongst then "AND" else "OR") = "AND" ∨
      (if r = .notAmongst then "AND" else "OR") = "OR" := by
    split
    · exact .inl rfl
    · exact .inr rfl
  rw [test, Condition.parts, hglue]
  exact isFactor_groupTokens hword hrun (d.runLengths_ne_nil r operands)

/-! ## Trees -/

/-- A condition that is to be built. -/
inductive ConditionTree where
  /-- A restriction on a field, of the view or else of the table. -/
  | restrict (inView : Bool) (field : String) (r : Restriction) (operands : Nat)
  /-- Conditions joined by a compound. -/
  | compound (r : Restriction) (parts : List ConditionTree)

namespace ConditionTree

mutual

/-- Builds the condition, from its parts. -/
def build (d : Dialect) (e : Entity) : ConditionTree → Except Error BoundCondition
  | .restrict inView field r operands =>
    if inView then BoundCondition.restrictView d e field r operands
    else BoundCondition.restrict d e field r operands
  | .compound r parts => do BoundCondition.compound d r (← buildAll d e parts)

/-- Builds several conditions. -/
def buildAll (d : Dialect) (e : Entity) : List ConditionTree → Except Error (List BoundCondition)
  | [] => return []
  | t :: rest => do return (← build d e t) :: (← buildAll d e rest)

end

mutual

/-- What is to be understood; none without the columns of its fields. -/
def shown (d : Dialect) (e : Entity) : ConditionTree → Option SearchCondition
  | .restrict _ field r operands =>
    (e.columnNamed d.naming field).map fun column => .ofRestriction d column r operands
  | .compound r parts => (shownAll d e parts).map (SearchCondition.joined r.name)

/-- What is to be understood of several conditions. -/
def shownAll (d : Dialect) (e : Entity) : List ConditionTree → Option (List SearchCondition)
  | [] => some []
  | t :: rest => do return (← shown d e t) :: (← shownAll d e rest)

end

mutual

theorem isBuilt_build {d : Dialect} {e : Entity} :
    ∀ {t : ConditionTree} {c : BoundCondition}, build d e t = .ok c → c.IsBuilt d e
  | .restrict inView field r operands, c, h => by
    rw [build] at h
    cases inView with
    | true => exact .restrictView h
    | false => exact .restrict h
  | .compound r parts, c, h => by
    rw [build] at h
    obtain ⟨clauses, hclauses, hc⟩ := bind_eq_ok_iff.1 h
    exact .compound (isBuilt_buildAll hclauses) hc

theorem isBuilt_buildAll {d : Dialect} {e : Entity} :
    ∀ {ts : List ConditionTree} {cs : List BoundCondition}, buildAll d e ts = .ok cs →
      ∀ c ∈ cs, c.IsBuilt d e
  | [], cs, h => by
    obtain rfl := pure_eq_ok_iff.1 h
    exact fun _ hc => absurd hc List.not_mem_nil
  | t :: rest, cs, h => by
    rw [buildAll] at h
    obtain ⟨c, hc, h⟩ := bind_eq_ok_iff.1 h
    obtain ⟨cs, hcs, h⟩ := bind_eq_ok_iff.1 h
    obtain rfl := pure_eq_ok_iff.1 h
    exact List.forall_mem_cons.2 ⟨isBuilt_build hc, isBuilt_buildAll hcs⟩

end

section Reading

variable {db : Database} {e : Entity}

/-- A restriction that is built on a field is read as what is shown of it. -/
theorem exists_isFactor_restrict
    (he : ∀ f ∈ e.fields, f.column.written = (Dialect.builtin db).naming.written f.column.raw)
    {field : String} {f : Field} (hf : e.field field = .ok f) {r : Restriction} {operands : Nat}
    {c : BoundCondition} (h : BoundCondition.ofField (Dialect.builtin db) f r operands = .ok c)
    (inView : Bool) :
    ∃ s, shown (Dialect.builtin db) e (.restrict inView field r operands) = some s ∧
      IsFactor (c.condition.parts (Dialect.builtin db).naming) s := by
  refine ⟨_, ?_, BoundCondition.isFactor_ofField (Naming.isBuiltin db)
    (he f (Entity.field_eq_ok hf).1) (ConditionRule.isFaithful_conditionRule db r) h⟩
  rw [shown, Entity.columnNamed, hf]
  rfl

mutual

/-- A tree is read as it is shown, whatever follows it. -/
theorem exists_isFactor
    (he : ∀ f ∈ e.fields, f.column.written = (Dialect.builtin db).naming.written f.column.raw) :
    ∀ {t : ConditionTree} {c : BoundCondition}, build (Dialect.builtin db) e t = .ok c →
      ∃ s, shown (Dialect.builtin db) e t = some s ∧
        IsFactor (c.condition.parts (Dialect.builtin db).naming) s
  | .restrict inView field r operands, c, h => by
    rw [build] at h
    cases inView with
    | true =>
      obtain ⟨f, hf, hc⟩ := bind_eq_ok_iff.1 h
      exact exists_isFactor_restrict he hf hc true
    | false =>
      obtain ⟨f, hf, hc⟩ := bind_eq_ok_iff.1 h
      exact exists_isFactor_restrict he (Entity.tableField_eq_ok_iff.1 hf).1 hc false
  | .compound r parts, c, h => by
    rw [build] at h
    obtain ⟨clauses, hclauses, hc⟩ := bind_eq_ok_iff.1 h
    obtain ⟨hr, hcheck, rfl⟩ := BoundCondition.compound_eq_ok hc
    obtain ⟨items, rfl, hshown, hfactors⟩ := exists_isFactor_all he hclauses
    have hword : r.name = "AND" ∨ r.name = "OR" := by
      revert hr
      cases r <;> simp [Restriction.isCompound, Restriction.name]
    -- A compound takes one part at least.
    have hne : items ≠ [] := by
      rintro rfl
      have harity := ConditionRule.checkOperands_eq_ok hcheck
      rw [Dialect.restriction_conditionRule] at harity
      revert hr harity
      cases r <;> decide
    refine ⟨SearchCondition.joined r.name (items.map (·.2)), by rw [shown, hshown]; rfl, ?_⟩
    rw [BoundCondition.joined, BoundCondition.conditionRule_compound db hr, Condition.parts,
      Condition.partsOfAll_eq_map, List.map_map, List.map_map]
    exact isFactor_groupTokens hword hfactors hne

/-- Several trees, each with what is shown of it. -/
theorem exists_isFactor_all
    (he : ∀ f ∈ e.fields, f.column.written = (Dialect.builtin db).naming.written f.column.raw) :
    ∀ {ts : List ConditionTree} {cs : List BoundCondition},
      buildAll (Dialect.builtin db) e ts = .ok cs →
      ∃ items : List (BoundCondition × SearchCondition), items.map (·.1) = cs ∧
        shownAll (Dialect.builtin db) e ts = some (items.map (·.2)) ∧
        ∀ p ∈ items, IsFactor (p.1.condition.parts (Dialect.builtin db).naming) p.2
  | [], cs, h => by
    obtain rfl := pure_eq_ok_iff.1 h
    exact ⟨[], rfl, rfl, fun _ hp => absurd hp List.not_mem_nil⟩
  | t :: rest, cs, h => by
    rw [buildAll] at h
    obtain ⟨c, hc, h⟩ := bind_eq_ok_iff.1 h
    obtain ⟨cs, hcs, h⟩ := bind_eq_ok_iff.1 h
    obtain rfl := pure_eq_ok_iff.1 h
    obtain ⟨s, hs, hfactor⟩ := exists_isFactor he hc
    obtain ⟨items, rfl, hshown, hfactors⟩ := exists_isFactor_all he hcs
    refine ⟨(c, s) :: items, rfl, ?_, List.forall_mem_cons.2 ⟨hfactor, hfactors⟩⟩
    rw [shownAll, hs, hshown]
    rfl

end

/-! ## What follows a condition -/

/-- The number of a row, as a dialect reads it. -/
def rowNumber (r : Naming) : Token := r.wordToken "ROWNUM".toList

theorem isFactor_rowNumber (db : Database) (n : Nat) :
    IsFactor ([rowNumber (Dialect.builtin db).naming] ++ [Token.mark '<', Token.mark '='] ++
        [Token.number (toString n)])
      (.test .lessOrEqual (rowNumber (Dialect.builtin db).naming) [.number (toString n)]) := by
  have hsubject : (rowNumber (Dialect.builtin db).naming).isSubject = true := by
    cases db <;> decide
  exact SearchCondition.isFactor_test hsubject (fun _ => rfl) fun _ => rfl

theorem isFactor_equation (column : String) :
    IsFactor ([Token.name column] ++ [Token.mark '='] ++ [Token.mark '?'])
      (.test .equals (.name column) [.mark '?']) :=
  SearchCondition.isFactor_test rfl (fun _ => rfl) fun _ => rfl

/-- The text of a condition is read as the tree that it was built from, and so is its start where it
goes on with a bound on the number of rows or with the version of a row. -/
theorem parse_text {spec : EntitySpec} (he : Entity.ofSpec (Dialect.builtin db) spec = .ok e)
    {t : ConditionTree} {c : BoundCondition} (h : t.build (Dialect.builtin db) e = .ok c) :
    ∃ s, t.shown (Dialect.builtin db) e = some s ∧
      SearchCondition.parse ((Dialect.builtin db).naming.tokens c.condition.text) = some s ∧
      (∀ n : Nat, SearchCondition.parse ((Dialect.builtin db).naming.tokens
          (c.condition.text ++ " AND ROWNUM <= " ++ toString n)) =
        some (.all [s, .test .lessOrEqual (rowNumber (Dialect.builtin db).naming)
          [.number (toString n)]])) ∧
      ∀ f ∈ e.fields, SearchCondition.parse ((Dialect.builtin db).naming.tokens
          (c.condition.text ++ " AND " ++ Command.equation f.column.written)) =
        some (.all [s, .test .equals (.name ((Dialect.builtin db).naming.folded f.column.raw))
          [.mark '?']]) := by
  have hr := Naming.isBuiltin db
  have hwritten := Entity.written_of_ofSpec he
  -- As a factor the text is read whatever follows it; what follows here are factors as well.
  obtain ⟨s, hshown, hfactor⟩ := exists_isFactor hwritten h
  have hreads := (isBuilt_build h).reads fun f hf => by
    rw [hwritten f hf]
    exact (Naming.reads_written hr.hasOwnQuotes f.column.raw).1
  refine ⟨s, hshown, ?_, fun n => ?_, fun f hf => ?_⟩
  · rw [hreads.2]
    exact hfactor.parse_eq
  · have hbound : (Dialect.builtin db).naming.Separates " AND ROWNUM <= "
        [.keyword "AND", rowNumber (Dialect.builtin db).naming, .mark '<', .mark '='] := by
      cases db <;> decide +kernel
    have htext := hreads.separated hbound (Naming.reads_nat hr.hasOwnQuotes n)
    rw [htext.2, List.append_assoc]
    exact hfactor.parse_and (isFactor_rowNumber db n)
  · have hand : (Dialect.builtin db).naming.Separates " AND " [.keyword "AND"] :=
      ConditionRule.separates_of_mem hr (by simp [ConditionRule.separators])
    have htext := hreads.separated hand (Naming.reads_equation hr (hwritten f hf))
    rw [htext.2, List.append_assoc]
    exact hfactor.parse_and (isFactor_equation _)

end Reading

end ConditionTree

/-! ## Posts -/

/-- Posts whose author has a name in a range and is none of two, or whose state starts with a text:
compounds in a compound, one of them with a single part. -/
def postTree : ConditionTree :=
  .compound .or
    [.compound .and
        [.restrict true "authorName" .between 2, .restrict false "author" .notAmongst 2],
      .compound .and [.restrict false "state" .beginsWith 1]]

/-- The tree of posts as it is understood. -/
def postCondition : SearchCondition :=
  .any [.all [.test .between (.name "AUTHOR_NAME") [.mark '?', .mark '?'],
      .test .notAmongst (.name "AUTHOR") [.mark '?', .mark '?']],
    .test .like (.name "STATE") [.mark '?']]

/-- In Oracle the bound on the number of rows is next to the whole condition, although the condition
ends with what `OR` joins. -/
theorem posts_parsed :
    ∃ e c, Entity.ofSpec (Dialect.builtin .oracle) postSpec = .ok e ∧
      postTree.build (Dialect.builtin .oracle) e = .ok c ∧
      SearchCondition.parse ((Dialect.builtin .oracle).naming.tokens c.condition.text) =
        some postCondition ∧
      SearchCondition.parse ((Dialect.builtin .oracle).naming.tokens
          (c.condition.text ++ " AND ROWNUM <= " ++ toString 10)) =
        some (.all [postCondition, .test .lessOrEqual (.keyword "ROWNUM") [.number "10"]]) := by
  obtain ⟨⟨e, c⟩, hall, hcolumns⟩ : ∃ p : Entity × BoundCondition, (do
      let e ← Entity.ofSpec (Dialect.builtin .oracle) postSpec
      let c ← postTree.build (Dialect.builtin .oracle) e
      return (e, c)) = .ok p ∧ (["authorName", "author", "state"].map
        (p.1.columnNamed (Dialect.builtin .oracle).naming) ==
          [some "AUTHOR_NAME", some "AUTHOR", some "STATE"]) = true :=
    exists_ok_of_any (by decide +kernel)
  obtain ⟨e, he, hall⟩ := bind_eq_ok_iff.1 hall
  obtain ⟨c, hc, hall⟩ := bind_eq_ok_iff.1 hall
  cases pure_eq_ok_iff.1 hall
  obtain ⟨s, hs, hparse, hrows, -⟩ := ConditionTree.parse_text he hc
  have hone : (Dialect.builtin .oracle).runLengths .notAmongst 2 = [2] := by decide +kernel
  simp only [List.map_cons, List.map_nil, beq_iff_eq, List.cons.injEq, and_true] at hcolumns
  obtain ⟨hname, hauthor, hstate⟩ := hcolumns
  obtain rfl : s = postCondition := by
    simp only [postTree, ConditionTree.shown, ConditionTree.shownAll, hname, hauthor, hstate,
      SearchCondition.ofRestriction, hone] at hs
    exact (Option.some.inj hs).symm
  exact ⟨e, c, he, hc, hparse, hrows 10⟩

end SqlDialects
