import SqlDialects.Entity.Constraints
import SqlDialects.Proofs.Entities

/-!
# Names that two columns share

The name of a foreign key is made up of those of its table and its column, with an underscore
between them, and so is that of the constraint that holds a default in SQL Server. Names of tables
and columns may have underscores of their own, so a made-up name does not say where the one ends and
the other begins. This module says which columns share a name: but for case, only those where a word
moves from the front of the one column to the end of the other's table.

Results:
1. `Text.sameName_joined_iff`: when two pairs of names are joined to the same name.
2. `foreignKeyName_and_defaultName_eq_iff`: when foreign keys and defaults have one name;
   `team_members_share_names`: two tables of teams that have such columns.
-/

namespace SqlDialects

/-- Two lists with an entry somewhere are the same if they are so before and after it, or if the
entry of each one is also in the other, further to the front or to the end. -/
theorem append_cons_eq_append_cons_iff {α : Type} {x : α} {before after before' after' : List α} :
    before ++ x :: after = before' ++ x :: after' ↔
      (before = before' ∧ after = after') ∨
      (∃ moved, before' = before ++ x :: moved ∧ after = moved ++ x :: after') ∨
      ∃ moved, before = before' ++ x :: moved ∧ after' = moved ++ x :: after := by
  constructor
  · intro h
    rcases List.append_eq_append_iff.1 h with ⟨more, hbefore, hafter⟩ | ⟨more, hbefore, hafter⟩
    · cases more with
      | nil => exact .inl ⟨by simpa using hbefore.symm, (List.cons.inj hafter).2⟩
      | cons y moved =>
        obtain ⟨rfl, hmoved⟩ := List.cons.inj hafter
        exact .inr (.inl ⟨moved, hbefore, hmoved⟩)
    · cases more with
      | nil => exact .inl ⟨by simpa using hbefore, (List.cons.inj hafter).2.symm⟩
      | cons y moved =>
        obtain ⟨rfl, hmoved⟩ := List.cons.inj hafter
        exact .inr (.inr ⟨moved, hbefore, hmoved⟩)
  · rintro (⟨rfl, rfl⟩ | ⟨moved, rfl, rfl⟩ | ⟨moved, rfl, rfl⟩)
    · rfl
    · rw [List.append_assoc, List.cons_append]
    · rw [List.append_assoc, List.cons_append]

namespace Text

/-- Whether a word moves from a column to a table: the second table is the first one with the word
at its end, and the first column is the second one with the word in front of it. -/
def MovesWord (table column table' column' : String) : Prop :=
  ∃ word, asciiLower table' = asciiLower table ++ "_" ++ word ∧
    asciiLower column = word ++ "_" ++ asciiLower column'

/-- Tables and columns between which a word is moved differ in both. -/
theorem MovesWord.differ {table column table' column' : String}
    (h : MovesWord table column table' column') :
    sameName table table' = false ∧ sameName column column' = false := by
  obtain ⟨word, htable, hcolumn⟩ := h
  rw [Bool.eq_false_iff, Bool.eq_false_iff, Ne, Ne, sameName_iff, sameName_iff, htable, hcolumn]
  constructor
  · intro hsame
    have hlength := congrArg (·.toList.length) hsame
    simp at hlength
  · intro hsame
    have hlength := congrArg (·.toList.length) hsame
    simp only [String.toList_append, List.length_append] at hlength
    simp at hlength

theorem movesWord_iff {table column table' column' : String} :
    MovesWord table column table' column' ↔ ∃ moved,
      (asciiLower table').toList = (asciiLower table).toList ++ '_' :: moved ∧
        (asciiLower column).toList = moved ++ '_' :: (asciiLower column').toList := by
  constructor
  · rintro ⟨word, htable, hcolumn⟩
    exact ⟨word.toList, by simp [htable], by simp [hcolumn]⟩
  · rintro ⟨moved, htable, hcolumn⟩
    refine ⟨String.ofList moved, ?_, ?_⟩
    · rw [← String.toList_inj, htable]
      simp
    · rw [← String.toList_inj, hcolumn]
      simp

/-- Tables and columns are joined to the same name if they are the same, or if a word is moved from
the one column to the other's table. -/
theorem sameName_joined_iff {table column table' column' : String} :
    sameName (table ++ "_" ++ column) (table' ++ "_" ++ column') = true ↔
      (sameName table table' = true ∧ sameName column column' = true) ∨
      MovesWord table column table' column' ∨ MovesWord table' column' table column := by
  have htoList (a b : String) : (asciiLower (a ++ "_" ++ b)).toList =
      (asciiLower a).toList ++ '_' :: (asciiLower b).toList := by
    rw [asciiLower_append, asciiLower_append, String.toList_append, String.toList_append,
      List.append_assoc]
    rfl
  rw [sameName_iff, sameName_iff, sameName_iff, movesWord_iff, movesWord_iff, ← String.toList_inj,
    ← String.toList_inj, ← String.toList_inj, htoList, htoList, append_cons_eq_append_cons_iff]

/-- What stands in front of joined names, and the case that they are in, tells none apart. -/
theorem asciiUpper_joined_eq_iff {start table column table' column' : String} :
    asciiUpper (start ++ table ++ "_" ++ column) =
        asciiUpper (start ++ table' ++ "_" ++ column') ↔
      sameName (table ++ "_" ++ column) (table' ++ "_" ++ column') = true := by
  simp only [asciiUpper_eq_iff, sameName_iff, asciiLower_append, String.append_assoc,
    String.append_right_inj]

end Text

/-- Two foreign keys have one name, and so have the constraints of two defaults, exactly if table
and column are the same but for case, or if a word is moved between them: the column of the one is
that of the other with a word in front of it that stands at the end of the other's table. So columns
of one table share no name, nor do those of one name in different tables. -/
theorem foreignKeyName_and_defaultName_eq_iff :
    (∀ (e e' : Entity) (f f' : Field), e.foreignKeyName f = e'.foreignKeyName f' ↔
      (Text.sameName e.table.raw e'.table.raw = true ∧
        Text.sameName f.column.raw f'.column.raw = true) ∨
      Text.MovesWord e.table.raw f.column.raw e'.table.raw f'.column.raw ∨
      Text.MovesWord e'.table.raw f'.column.raw e.table.raw f.column.raw) ∧
    (∀ t t' : ColumnChange, defaultConstraintName t = defaultConstraintName t' ↔
      (Text.sameName t.table.raw t'.table.raw = true ∧
        Text.sameName t.column.raw t'.column.raw = true) ∨
      Text.MovesWord t.table.raw t.column.raw t'.table.raw t'.column.raw ∨
      Text.MovesWord t'.table.raw t'.column.raw t.table.raw t.column.raw) ∧
    ∀ table column table' column' : String,
      ¬(Text.MovesWord table column table' column' ∧
        (Text.sameName table table' = true ∨ Text.sameName column column' = true)) := by
  refine ⟨fun e e' f f' => ?_, fun t t' => ?_, ?_⟩
  · rw [Entity.foreignKeyName, Entity.foreignKeyName, Text.asciiUpper_joined_eq_iff]
    exact Text.sameName_joined_iff
  · rw [defaultConstraintName, defaultConstraintName, Text.asciiUpper_joined_eq_iff]
    exact Text.sameName_joined_iff
  · rintro table column table' column' ⟨hmoves, hsame⟩
    obtain ⟨htable, hcolumn⟩ := hmoves.differ
    rw [htable, hcolumn] at hsame
    exact hsame.elim Bool.false_ne_true Bool.false_ne_true

/-! ## Teams and their members -/

/-- A person who leads. -/
def leaderSpec : EntitySpec :=
  { EntitySpec.named "Leader" with fields := [(FieldSpec.named "id" .long).asPrimaryKey] }

/-- A team, with the leader and the state of its members. -/
def ledTeamSpec : EntitySpec :=
  { EntitySpec.named "Team" with
    fields := [(FieldSpec.named "id" .long).asPrimaryKey,
      { FieldSpec.named "memberLead" .long with foreignKey := some ⟨"Leader", "id"⟩ },
      (FieldSpec.named "memberState" .string).withDefault "new"] }

/-- A member of a team, with a leader and a state. -/
def ledMemberSpec : EntitySpec :=
  { EntitySpec.named "TeamMember" with
    fields := [(FieldSpec.named "id" .long).asPrimaryKey,
      { FieldSpec.named "lead" .long with foreignKey := some ⟨"Leader", "id"⟩ },
      (FieldSpec.named "state" .string).withDefault "new"] }

/-- A registry of teams and members. -/
def ledTeams : Registry :=
  Registry.ofSpecs (Dialect.builtin .mssql) [leaderSpec, ledTeamSpec, ledMemberSpec]

/-- The lead and the state of members have the names in the table of teams that those of a member
have in the table of members. -/
theorem team_members_share_names :
    ledTeams.IsReachable ∧
      ∃ team member memberLead lead memberState state,
        ledTeams.get "Team" = .ok team ∧ ledTeams.get "TeamMember" = .ok member ∧
        team.tableField "memberLead" = .ok memberLead ∧ member.tableField "lead" = .ok lead ∧
        team.tableField "memberState" = .ok memberState ∧ member.tableField "state" = .ok state ∧
        Text.sameName team.table.raw member.table.raw = false ∧
        Text.sameName memberLead.column.raw lead.column.raw = false ∧
        Text.sameName memberState.column.raw state.column.raw = false ∧
        team.foreignKeyName memberLead = member.foreignKeyName lead ∧
        defaultConstraintName (team.target memberState) =
          defaultConstraintName (member.target state) := by
  have hr : ledTeams.IsReachable := by
    refine Registry.isReachable_ofSpecs ?_
    simp only [List.forall_mem_cons]
    exact ⟨EntitySpec.isFinished_of_build (by decide), EntitySpec.isFinished_of_build (by decide),
      EntitySpec.isFinished_of_build (by decide), fun _ h => absurd h List.not_mem_nil⟩
  obtain ⟨team, hteam, htest⟩ : ∃ team, ledTeams.get "Team" = .ok team ∧
      ((ledTeams.get "TeamMember").toOption.any fun member =>
        (team.tableField "memberLead").toOption.any fun memberLead =>
        (member.tableField "lead").toOption.any fun lead =>
        (team.tableField "memberState").toOption.any fun memberState =>
        (member.tableField "state").toOption.any fun state =>
          decide (Text.sameName team.table.raw member.table.raw = false ∧
            Text.sameName memberLead.column.raw lead.column.raw = false ∧
            Text.sameName memberState.column.raw state.column.raw = false ∧
            team.foreignKeyName memberLead = member.foreignKeyName lead ∧
            defaultConstraintName (team.target memberState) =
              defaultConstraintName (member.target state))) = true :=
    exists_ok_of_any (by decide +kernel)
  obtain ⟨member, hmember, htest⟩ := exists_ok_of_any htest
  obtain ⟨memberLead, hmemberLead, htest⟩ := exists_ok_of_any htest
  obtain ⟨lead, hlead, htest⟩ := exists_ok_of_any htest
  obtain ⟨memberState, hmemberState, htest⟩ := exists_ok_of_any htest
  obtain ⟨state, hstate, htest⟩ := exists_ok_of_any htest
  exact ⟨hr, team, member, memberLead, lead, memberState, state, hteam, hmember, hmemberLead, hlead,
    hmemberState, hstate, of_decide_eq_true htest⟩

end SqlDialects
