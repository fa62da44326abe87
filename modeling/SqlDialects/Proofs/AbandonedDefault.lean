import SqlDialects.Proofs.RegistryRun
import SqlDialects.Proofs.Spelling

/-!
# Defaults of columns left behind

A column that no field stands for any more may be NULL from then on. Where a column is restated in
full whenever something about it changes, its default has to be restated as well, and a column of no
field has no default but the one reported. This is put into the statement as it is, while the
database that restates columns reports texts without their quotes. This module says what is read
where the default stands, for every text reported.

Results:
1. `DdlStyle.text_relaxColumn`: the statement that lets a column be NULL, with its default.
2. `Lexeme.lexemes_append_eq_iff`: what follows a text is read by itself exactly if no string is
   left open.
3. `Entity.relaxColumn_restatesText_iff`: which reported defaults are restated as a text, and as
   which one; `left_state_is_a_word`: not as the text that the column has by default.
-/

namespace SqlDialects

/-! ## The statement -/

/-- What stands before the default of a column that is restated. -/
def Entity.restatedHead (e : Entity) (d : Dialect) (l : Layout) (c : CatalogColumn) : String :=
  "ALTER TABLE " ++ e.table.written ++ l.separator ++ "MODIFY " ++ d.naming.written c.name ++ " " ++
    Entity.reportedDeclaration c

/-- The default is restated as it was reported. -/
theorem DdlStyle.text_relaxColumn (l : Layout) (e : Entity) (d : Dialect) (c : CatalogColumn) :
    mysql.text l (e.relaxColumn d c) =
      e.restatedHead d l c ++
        (match c.defaultValue with
          | some reported => " DEFAULT " ++ reported
          | none => "") ++ " NULL" := by
  have hclauses : mysql.text l (e.relaxColumn d c) =
      "ALTER TABLE " ++ e.table.written ++ l.separator ++
        ("MODIFY " ++ (d.naming.written c.name ++ " " ++ Entity.reportedDeclaration c ++
          (match c.defaultValue with
            | some reported => " DEFAULT " ++ reported
            | none => "") ++ " " ++ "NULL")) :=
    String.intercalate_cons_cons ..
  rw [hclauses]
  delta Entity.restatedHead
  simp only [String.append_assoc]
  rfl

/-! ## The default in it -/

namespace LexicalState

/-- Only the end of a text leaves a string open. -/
theorem unclosed_notMem_pending {p : LexicalState} (hp : ∀ cs, p ≠ quoted cs) (text : String) :
    .unclosed text ∉ p.pending := by
  cases p with
  | quoted cs => exact absurd rfl (hp cs)
  | _ => simp [pending]

theorem unclosed_notMem_start (c : Char) (text : String) : .unclosed text ∉ (start c).1 := by
  unfold start
  split_ifs <;> simp

theorem unclosed_notMem_step (p : LexicalState) (c : Char) (text : String) :
    .unclosed text ∉ (p.step c).1 := by
  have hrestart (hp : ∀ cs, p ≠ quoted cs) : .unclosed text ∉ (p.restart c).1 := by
    rw [restart, List.mem_append, not_or]
    exact ⟨unclosed_notMem_pending hp text, unclosed_notMem_start c text⟩
  cases p with
  | between => exact unclosed_notMem_start c text
  | quoted cs =>
    simp only [step]
    split_ifs <;> exact List.not_mem_nil
  | _ =>
    simp only [step]
    split_ifs
    · exact List.not_mem_nil
    · exact hrestart (by simp)

theorem unclosed_notMem_scan (p : LexicalState) (cs : List Char) (text : String) :
    .unclosed text ∉ (p.scan cs).1 := by
  induction cs generalizing p with
  | nil => exact List.not_mem_nil
  | cons c rest ih =>
    rw [scan, List.mem_append, not_or]
    exact ⟨unclosed_notMem_step p c text, ih _⟩

/-- Without a quote the string goes on. -/
theorem scan_quoted {text : List Char} (h : '\'' ∉ text) (cs : List Char) :
    (quoted cs).scan text = ([], .quoted (cs ++ text)) := by
  rw [← scan_double, Text.double_eq_self h]

end LexicalState

namespace Lexeme

open LexicalState (between goesOn)

/-- What follows a text is read by itself exactly if the text leaves no string open. -/
theorem lexemes_append_eq_iff {a b : String} (hb : ∀ c ∈ b.toList.head?, goesOn c = false)
    (hne : b ≠ "") (hquote : '\'' ∉ b.toList) :
    lexemes (a ++ b) = lexemes a ++ lexemes b ↔ ∀ text, .unclosed text ∉ lexemes a := by
  refine ⟨fun h text hopen => ?_, fun h => lexemes_append h hb⟩
  -- An open string runs on to the end of `b`, so no part of `b` is read from it.
  obtain ⟨cs, hstate⟩ : ∃ cs, (between.scan a.toList).2 = .quoted cs := by
    by_contra hother
    rw [lexemes, LexicalState.lexemes, List.mem_append] at hopen
    exact hopen.elim (LexicalState.unclosed_notMem_scan _ _ text)
      (LexicalState.unclosed_notMem_pending (fun cs hcs => hother ⟨cs, hcs⟩) text)
  have hwhole : lexemes (a ++ b) =
      (between.scan a.toList).1 ++ [.unclosed (String.ofList (cs ++ b.toList))] := by
    rw [lexemes, String.toList_append, LexicalState.lexemes_append, hstate, LexicalState.lexemes,
      LexicalState.scan_quoted hquote]
    rfl
  have hfront : lexemes a = (between.scan a.toList).1 ++ [.unclosed (String.ofList cs)] := by
    rw [lexemes, LexicalState.lexemes, hstate]
    rfl
  rw [hwhole, hfront, List.append_assoc, List.append_cancel_left_eq] at h
  obtain ⟨hsame, -⟩ := List.cons.inj h
  have hlonger := congrArg List.length (String.ofList_injective (Lexeme.unclosed.inj hsame))
  rw [List.length_append, Nat.add_eq_left, List.length_eq_zero_iff, String.toList_eq_nil_iff]
    at hlonger
  exact hne hlonger

end Lexeme

/-- Whether a default and what stands after it are read as a text and NULL. -/
def RestatesText (clause text : String) : Prop :=
  Lexeme.lexemes (clause ++ " NULL") = [.string text, .mark ' ', .word "NULL"]

instance (clause text : String) : Decidable (RestatesText clause text) :=
  inferInstanceAs (Decidable (_ = _))

theorem lexemes_append_null_iff {clause : String} :
    Lexeme.lexemes (clause ++ " NULL") =
        Lexeme.lexemes clause ++ [.mark ' ', .word "NULL"] ↔
      ∀ text, .unclosed text ∉ Lexeme.lexemes clause := by
  have hnull : Lexeme.lexemes " NULL" = [.mark ' ', .word "NULL"] := by decide
  rw [← hnull]
  refine Lexeme.lexemes_append_eq_iff ?_ (by decide) (by decide)
  rintro _ ⟨⟩
  decide

/-- Only the literal of a text is read as the text. -/
theorem restatesText_iff {clause text : String} :
    RestatesText clause text ↔ clause = Text.literal text := by
  have hliteral : Lexeme.lexemes (Text.literal text ++ " NULL") =
      [.string text, .mark ' ', .word "NULL"] := by
    have hclosed : ∀ inner, Lexeme.unclosed inner ∉ Lexeme.lexemes (Text.literal text) := by
      rw [Lexeme.lexemes_literal_self]
      simp
    rw [lexemes_append_null_iff.2 hclosed, Lexeme.lexemes_literal_self]
    rfl
  refine ⟨fun h => ?_, fun h => h ▸ hliteral⟩
  have hsame := Lexeme.eq_of_lexemes_eq (h.trans hliteral.symm)
  rw [← String.toList_inj, String.toList_append, String.toList_append,
    List.append_cancel_right_eq] at hsame
  exact String.toList_inj.1 hsame

theorem not_restatesText_self (text : String) : ¬RestatesText text text := by
  intro h
  have hlonger := Text.length_lt_of_unquote? (Text.unquote_literal text)
  rw [← restatesText_iff.1 h] at hlonger
  exact Nat.lt_irrefl _ hlonger

/-- A column of no field is restated in MySQL with the default that was reported, as it is. What
follows the default is read by itself exactly if that leaves no string open. The default is read as
a text exactly if it is the literal of that text, which no text is of itself: whatever the column,
the default that it has after the statement is not the text reported. -/
theorem Entity.relaxColumn_restatesText_iff (l : Layout) (e : Entity) (c : CatalogColumn)
    (reported : String) :
    (Dialect.builtin .mysql).ddl.text l
        (e.relaxColumn (Dialect.builtin .mysql) { c with defaultValue := some reported }) =
      e.restatedHead (Dialect.builtin .mysql) l c ++ " DEFAULT " ++ (reported ++ " NULL") ∧
    (Lexeme.lexemes (reported ++ " NULL") =
        Lexeme.lexemes reported ++ [.mark ' ', .word "NULL"] ↔
      ∀ text, .unclosed text ∉ Lexeme.lexemes reported) ∧
    (∀ text, RestatesText reported text ↔ reported = Text.literal text) ∧
    ¬RestatesText reported reported := by
  refine ⟨?_, lexemes_append_null_iff, fun _ => restatesText_iff, not_restatesText_self reported⟩
  have htext := DdlStyle.text_relaxColumn l e (Dialect.builtin .mysql)
    { c with defaultValue := some reported }
  have hhead : e.restatedHead (Dialect.builtin .mysql) l { c with defaultValue := some reported } =
      e.restatedHead (Dialect.builtin .mysql) l c := rfl
  rw [hhead] at htext
  refine Eq.trans htext ?_
  simp only [String.append_assoc]

/-! ## The state of a note -/

/-- A note without a state. -/
def statelessNoteSpec : EntitySpec :=
  { EntitySpec.named "Note" with fields := [(FieldSpec.named "id" .long).asPrimaryKey] }

/-- A registry of notes without states. -/
def statelessNotes : Registry :=
  Registry.ofSpecs (Dialect.builtin .mysql) [statelessNoteSpec]

/-- The state that notes had. -/
def leftState : CatalogColumn :=
  { name := "STATE", typeCode := .varchar, typeName := "VARCHAR", size := 16, nullable := false
    defaultValue := some "new" }

/-- The table of notes as reported, with the state. -/
def notesWithState : CatalogObject :=
  { name := "NOTE"
    columns := [{ name := "ID", typeCode := .bigInt, typeName := "BIGINT", nullable := false },
      leftState] }

/-- The text that the state has by default comes back as a word. -/
theorem left_state_is_a_word :
    statelessNotes.IsReachable ∧
      ∃ note, statelessNotes.get "Note" = .ok note ∧
        note.convergeColumns statelessNotes.dialect notesWithState =
          .ok [note.relaxColumn statelessNotes.dialect leftState] ∧
        statelessNotes.dialect.ddl.text .compact
            (note.relaxColumn statelessNotes.dialect leftState) =
          "ALTER TABLE NOTE MODIFY STATE VARCHAR(16) DEFAULT new NULL" ∧
        Lexeme.lexemes "new NULL" = [.word "new", .mark ' ', .word "NULL"] ∧
        ¬RestatesText "new" "new" := by
  have hr : statelessNotes.IsReachable :=
    Registry.isReachable_ofSpecs (List.forall_mem_singleton.2
      (EntitySpec.isFinished_of_build (by decide)))
  obtain ⟨note, hnote, htest⟩ : ∃ note, statelessNotes.get "Note" = .ok note ∧
      ((note.convergeColumns statelessNotes.dialect notesWithState).toOption.any (fun statements =>
          decide (statements = [note.relaxColumn statelessNotes.dialect leftState])) &&
        decide (statelessNotes.dialect.ddl.text .compact
            (note.relaxColumn statelessNotes.dialect leftState) =
          "ALTER TABLE NOTE MODIFY STATE VARCHAR(16) DEFAULT new NULL")) = true :=
    exists_ok_of_any (by decide +kernel)
  obtain ⟨hpass, htext⟩ := Bool.and_eq_true_iff.1 htest
  obtain ⟨statements, hs, hpass⟩ := exists_ok_of_any hpass
  obtain rfl := of_decide_eq_true hpass
  exact ⟨hr, note, hnote, hs, of_decide_eq_true htext, by decide, by decide⟩

end SqlDialects
