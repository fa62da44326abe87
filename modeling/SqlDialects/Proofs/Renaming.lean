import SqlDialects.Proofs.Entities
import SqlDialects.Proofs.InlineValue
import SqlDialects.Proofs.WrittenName

/-!
# Renaming in SQL Server

SQL Server renames by calling a procedure with texts. The first is the full name of an object: names
with dots between them, in brackets where they need them. The second is the new name, taken as it
is. Both are put together from names as other statements have them, with every bracket left out.
This module reads such a call, as SQL and then the full name, and says which names it leads back to.

Results:
1. `Lexeme.lexemes_eq_call_iff`: a text is a call with some arguments exactly if it has their
   literals.
2. `ObjectName.read_written`: in a full name, names that are written as in other statements are read
   as they are.
3. `Entity.renames_iff`: when a call renames what it should; `quoted_note_not_renamed`: not to a
   name with a quote.
-/

namespace SqlDialects

/-! ## Calls -/

/-- The parts of a call of a procedure with texts as arguments. -/
def Lexeme.call (procedure : String) (arguments : List String) : List Lexeme :=
  [.word "EXEC", .mark ' ', .word procedure, .mark ' '] ++
    [.mark ',', .mark ' '].intercalate (arguments.map fun text => [.string text])

/-- The text of a call that renames. -/
def renameCall (arguments : List String) : String :=
  "EXEC sp_rename " ++ ", ".intercalate (arguments.map Text.literal)

namespace Lexeme

open LexicalState (between)

theorem lexemes_arguments (arguments : List String) :
    between.lexemes (", ".intercalate (arguments.map Text.literal)).toList =
      [.mark ',', .mark ' '].intercalate (arguments.map fun text => [.string text]) := by
  induction arguments with
  | nil => rfl
  | cons first rest ih =>
    cases rest with
    | nil => exact lexemes_literal_self first
    | cons second rest =>
      have hcomma (cs : List Char) : between.lexemes (", ".toList ++ cs) =
          [.mark ',', .mark ' '] ++ between.lexemes cs := rfl
      rw [List.map_cons, List.map_cons, String.intercalate_cons_cons, ← List.map_cons,
        String.append_assoc, String.toList_append, String.toList_append,
        LexicalState.lexemes_literal_append first (by simp), hcomma, ih]
      simp only [List.map_cons, List.intercalate_cons_cons]
      rfl

/-- A text is a call with some arguments exactly if it has their literals as they are. -/
theorem lexemes_eq_call_iff {text : String} {arguments : List String} :
    lexemes text = call "sp_rename" arguments ↔ text = renameCall arguments := by
  have hcall : lexemes (renameCall arguments) = call "sp_rename" arguments := by
    have hfront : between.scan "EXEC sp_rename ".toList =
        ([.word "EXEC", .mark ' ', .word "sp_rename", .mark ' '], .between) := by decide
    rw [lexemes, renameCall, String.toList_append, LexicalState.lexemes_append, hfront,
      lexemes_arguments, call]
  exact ⟨fun h => eq_of_lexemes_eq (h.trans hcall.symm), fun h => h ▸ hcall⟩

end Lexeme

/-! ## Full names -/

namespace ObjectName

/-- Where in a full name its reader is, with the characters of the name that has begun. -/
inductive State where
  | bare (cs : List Char)
  | bracketed (cs : List Char)
  /-- After a bracket that closes the name, unless another one follows. -/
  | closed (cs : List Char)
deriving DecidableEq, Repr

namespace State

/-- The characters of the name that has begun. -/
def held : State → List Char
  | .bare cs | .bracketed cs | .closed cs => cs

/-- Whether a dot belongs to the name. -/
def isBracketed : State → Bool
  | .bracketed _ => true
  | .bare _ | .closed _ => false

/-- The name that has begun, if it ends here. Without brackets it is not empty. -/
def name? : State → Option String
  | .bare [] | .bracketed _ => none
  | .bare cs | .closed cs => some (String.ofList cs)

/-- One more character of a name. -/
def next? : State → Char → Option State
  | .bare cs, c => some (if cs = [] ∧ c = '[' then .bracketed [] else .bare (cs ++ [c]))
  | .bracketed cs, c => some (if c = ']' then .closed cs else .bracketed (cs ++ [c]))
  | .closed cs, c => if c = ']' then some (.bracketed (cs ++ [c])) else none

end State

/-- The names of the rest of a text. -/
def readFrom (p : State) : List Char → Option (List String)
  | [] => p.name?.map fun name => [name]
  | c :: rest =>
    if c = '.' ∧ p.isBracketed = false then
      p.name?.bind fun name => (readFrom (.bare []) rest).map (name :: ·)
    else (p.next? c).bind fun q => readFrom q rest

/-- The names that a full name is made of. -/
def read (text : String) : Option (List String) := readFrom (.bare []) text.toList

example : read "dbo.[a.b]]c].ORDER" = some ["dbo", "a.b]c", "ORDER"] := by decide

/-- How a full name is read, step by step. -/
inductive Reads : State → List Char → List String → Prop
  | last {p : State} {name : String} : p.name? = some name → Reads p [] [name]
  | dot {p : State} {name : String} {rest : List Char} {names : List String} :
    p.isBracketed = false → p.name? = some name → Reads (.bare []) rest names →
      Reads p ('.' :: rest) (name :: names)
  | next {p q : State} {c : Char} {rest : List Char} {names : List String} :
    (c = '.' → p.isBracketed = true) → p.next? c = some q → Reads q rest names →
      Reads p (c :: rest) names

variable {p q : State} {cs begun rest : List Char} {name : String} {names : List String}

theorem reads_iff : readFrom p cs = some names ↔ Reads p cs names := by
  constructor
  · intro h
    induction cs generalizing p names with
    | nil =>
      obtain ⟨name, hname, rfl⟩ := Option.map_eq_some_iff.1 h
      exact .last hname
    | cons c rest ih =>
      rw [readFrom] at h
      split at h
      · next hdot =>
        obtain ⟨name, hname, h⟩ := Option.bind_eq_some_iff.1 h
        obtain ⟨others, hothers, rfl⟩ := Option.map_eq_some_iff.1 h
        exact hdot.1 ▸ .dot hdot.2 hname (ih hothers)
      · next hother =>
        obtain ⟨q, hq, h⟩ := Option.bind_eq_some_iff.1 h
        exact .next (fun hc => by simpa [hc] using hother) hq (ih h)
  · intro h
    induction h with
    | last hname => rw [readFrom, hname]; rfl
    | dot hp hname _ ih => rw [readFrom, if_pos ⟨rfl, hp⟩, hname, Option.bind_some, ih]; rfl
    | next hc hq _ ih =>
      rw [readFrom, if_neg fun h => Bool.false_ne_true (h.2.symm.trans (hc h.1)), hq,
        Option.bind_some, ih]

/-! ### What is read of a text -/

theorem Reads.ne_nil (h : Reads p cs names) : names ≠ [] := by
  induction h with
  | last => exact List.cons_ne_nil _ _
  | dot => exact List.cons_ne_nil _ _
  | next _ _ _ ih => exact ih

theorem intercalate_cons (h : names ≠ []) :
    (".".intercalate (name :: names)).toList =
      name.toList ++ '.' :: (".".intercalate names).toList := by
  obtain ⟨second, others, rfl⟩ := List.exists_cons_of_ne_nil h
  rw [String.intercalate_cons_cons, String.toList_append, String.toList_append, List.append_assoc]
  rfl

/-- The characters of a full name, dots aside, are those of its names. -/
theorem mem_intercalate_iff {c : Char} (hc : c ≠ '.') :
    c ∈ (".".intercalate names).toList ↔ ∃ name ∈ names, c ∈ name.toList := by
  induction names with
  | nil => simp
  | cons name names ih =>
    by_cases hnames : names = []
    · subst hnames
      simp
    · rw [intercalate_cons hnames, List.mem_append, List.mem_cons, ih]
      simp [hc]

theorem length_of_name? (h : p.name? = some name) : name.toList.length = p.held.length := by
  unfold State.name? at h
  split at h
  · cases h
  · cases h
  · cases h
    rw [String.toList_ofList, State.held]
  · cases h
    rw [String.toList_ofList, State.held]

theorem length_held_of_next? {c : Char} (h : p.next? c = some q) :
    q.held.length ≤ p.held.length + 1 := by
  unfold State.next? at h
  split at h
  · cases h
    split_ifs <;> simp [State.held]
  · cases h
    split_ifs <;> simp [State.held]
  · split_ifs at h
    cases h
    simp [State.held]

/-- What is read is not longer than the text: brackets are left out, and of two one is. -/
theorem Reads.length_le (h : Reads p cs names) :
    (".".intercalate names).toList.length ≤ p.held.length + cs.length := by
  induction h with
  | last hname => simp [length_of_name? hname]
  | dot _ hname hrest ih =>
    have hlength := length_of_name? hname
    have hheld : (State.bare []).held.length = 0 := rfl
    rw [intercalate_cons hrest.ne_nil, List.length_append, List.length_cons, List.length_cons]
    omega
  | next _ hq _ ih =>
    have hheld := length_held_of_next? hq
    rw [List.length_cons]
    omega

/-- A name that a full name can have without brackets. -/
def IsBare (name : String) : Prop := name ≠ "" ∧ '.' ∉ name.toList

theorem isBare_of_name? (hdot : '.' ∉ begun) (h : (State.bare begun).name? = some name) :
    name.toList = begun ∧ IsBare name := by
  cases begun with
  | nil => cases h
  | cons c begun =>
    cases h
    exact ⟨String.toList_ofList, by simp [← String.toList_inj], by simpa using hdot⟩

/-- Without brackets a text is its names with dots between them. -/
theorem Reads.eq_of_bare (h : Reads p cs names) (hp : p = .bare begun) (hdot : '.' ∉ begun)
    (hbracket : '[' ∉ cs) :
    (".".intercalate names).toList = begun ++ cs ∧ ∀ name ∈ names, IsBare name := by
  induction h generalizing begun with
  | last hname =>
    subst hp
    obtain ⟨htext, hbare⟩ := isBare_of_name? hdot hname
    exact ⟨by simp [htext], List.forall_mem_singleton.2 hbare⟩
  | dot _ hname hrest ih =>
    subst hp
    obtain ⟨htext, hbare⟩ := isBare_of_name? hdot hname
    obtain ⟨hjoined, hall⟩ := ih rfl List.not_mem_nil (List.not_mem_of_not_mem_cons hbracket)
    rw [intercalate_cons hrest.ne_nil, htext, hjoined]
    exact ⟨rfl, List.forall_mem_cons.2 ⟨hbare, hall⟩⟩
  | @next p q c rest names hc hq _ ih =>
    subst hp
    obtain ⟨hne, hrest⟩ := List.ne_and_not_mem_of_not_mem_cons hbracket
    have hcdot : c ≠ '.' := fun hdot => Bool.false_ne_true (hc hdot)
    have hstate : q = .bare (begun ++ [c]) := by
      simpa [State.next?, Ne.symm hne] using hq.symm
    obtain ⟨hjoined, hall⟩ := ih hstate (by simp [hdot, Ne.symm hcdot]) hrest
    exact ⟨by simpa using hjoined, hall⟩

/-! ### Texts that are read -/

/-- Whether a text at the start of a full name is read as a name. -/
def Spells (text name : String) : Prop :=
  ∃ p : State, p.isBracketed = false ∧ p.name? = some name ∧
    ∀ {rest : List Char} {names : List String},
      Reads p rest names → Reads (.bare []) (text.toList ++ rest) names

/-- Names are read that are spelled with dots between them. -/
theorem reads_intercalate {texts : List String} (h : List.Forall₂ Spells texts names)
    (hne : names ≠ []) : Reads (.bare []) (".".intercalate texts).toList names := by
  induction h with
  | nil => exact absurd rfl hne
  | @cons text name texts names hfirst hrest ih =>
    obtain ⟨p, hp, hname, hreads⟩ := hfirst
    by_cases hnames : names = []
    · subst hnames
      cases hrest
      simpa using hreads (.last hname)
    · have htexts : texts ≠ [] := by
        rintro rfl
        cases hrest
        exact hnames rfl
      rw [intercalate_cons htexts]
      exact hreads (.dot hp hname (ih hnames))

theorem reads_bare_append {word : List Char} (hdot : '.' ∉ word)
    (hbracket : begun = [] → word.head? ≠ some '[') (h : Reads (.bare (begun ++ word)) rest names) :
    Reads (.bare begun) (word ++ rest) names := by
  induction word generalizing begun with
  | nil => simpa using h
  | cons c word ih =>
    obtain ⟨hc, hword⟩ := List.ne_and_not_mem_of_not_mem_cons hdot
    have hopen : ¬(begun = [] ∧ c = '[') := fun ⟨hnil, hc⟩ => hbracket hnil (by simp [hc])
    refine .next (q := .bare (begun ++ [c])) (fun h => absurd h.symm hc) ?_
      (ih hword (by simp) (by simpa using h))
    rw [State.next?, if_neg hopen]

theorem spells_bare (h : IsBare name) (hbracket : '[' ∉ name.toList) : Spells name name := by
  refine ⟨.bare name.toList, rfl, ?_, fun {rest names} hrest => ?_⟩
  · have hne : name.toList ≠ [] := fun hnil => h.1 (String.toList_eq_nil_iff.1 hnil)
    obtain ⟨c, cs, hcs⟩ := List.exists_cons_of_ne_nil hne
    rw [hcs, State.name?, ← hcs, String.ofList_toList]
    simp
  · refine reads_bare_append h.2 (fun _ hhead => ?_) (by simpa using hrest)
    exact hbracket (List.mem_of_mem_head? hhead)

theorem reads_double_append {text : List Char} (h : Reads (.bracketed (begun ++ text)) rest names) :
    Reads (.bracketed begun) (Text.double ']' text ++ rest) names := by
  induction text generalizing begun with
  | nil => simpa [Text.double] using h
  | cons c text ih =>
    have hrest : Reads (.bracketed (begun ++ [c])) (Text.double ']' text ++ rest) names :=
      ih (by simpa using h)
    by_cases hc : c = ']'
    · subst hc
      have hfirst : (State.bracketed begun).next? ']' = some (.closed begun) := rfl
      have hsecond : (State.closed begun).next? ']' = some (.bracketed (begun ++ [']'])) := rfl
      have hdot : ']' ≠ '.' := by decide
      rw [Text.double, if_pos rfl]
      exact .next (absurd · hdot) hfirst (.next (absurd · hdot) hsecond hrest)
    · have hnext : (State.bracketed begun).next? c = some (.bracketed (begun ++ [c])) := by
        rw [State.next?, if_neg hc]
      rw [Text.double, if_neg hc]
      exact .next (fun _ => rfl) hnext hrest

theorem spells_enclosed (name : String) : Spells (Text.enclose '[' ']' name) name := by
  refine ⟨.closed name.toList, rfl, by simp [State.name?], fun {rest names} hrest => ?_⟩
  have hopen : (State.bare []).next? '[' = some (.bracketed []) := rfl
  have hclose : (State.bracketed name.toList).next? ']' = some (.closed name.toList) := rfl
  have hdot : '[' ≠ '.' := by decide
  have htext : (Text.enclose '[' ']' name).toList ++ rest =
      '[' :: (Text.double ']' name.toList ++ ']' :: rest) := by
    simp [Text.enclose]
  rw [htext]
  exact .next (absurd · hdot) hopen (reads_double_append (.next (fun _ => rfl) hclose hrest))

end ObjectName

/-! ### Names in brackets -/

/-- The names of SQL Server. -/
def Naming.IsBracketing (r : Naming) : Prop :=
  r.openQuote = '[' ∧ r.closeQuote = ']' ∧ r.lowerCase = false

namespace ObjectName

variable {r : Naming} {names : List String}

theorem spells_written (hr : r.IsBracketing) (name : String) : Spells (r.written name) name := by
  obtain ⟨hopen, hclose, hcase⟩ := hr
  have hfolded : r.folded name = name := by simp [Naming.folded, hcase]
  rcases r.written_cases name with hw | ⟨hw, hword, -⟩
  · rw [hw, hfolded, Naming.quoted, hopen, hclose]
    exact spells_enclosed name
  · rw [hfolded] at hw hword
    have hall := Naming.all_continuesWord_of_isWord hword
    have hother {c : Char} (hc : Naming.continuesWord c = false) : c ∉ name.toList := fun hmem =>
      Bool.false_ne_true (hc.symm.trans (List.all_eq_true.1 hall c hmem))
    rw [hw]
    refine spells_bare ⟨?_, hother (by decide)⟩ (hother (by decide))
    rintro rfl
    exact absurd hword (by decide)

/-- Names that are written as in other statements make up a full name that is read as they are. -/
theorem read_written (hr : r.IsBracketing) (hne : names ≠ []) :
    read (".".intercalate (names.map r.written)) = some names := by
  refine reads_iff.2 (reads_intercalate (List.forall₂_map_left_iff.2 ?_) hne)
  exact List.forall₂_same.2 fun name _ => spells_written hr name

/-- Without brackets names make up a full name that is read as they are exactly if none is empty or
has a dot. -/
theorem read_intercalate_iff (hne : names ≠ []) (hbracket : '[' ∉ (".".intercalate names).toList) :
    read (".".intercalate names) = some names ↔ ∀ name ∈ names, IsBare name := by
  constructor
  · intro h
    exact ((reads_iff.1 h).eq_of_bare rfl List.not_mem_nil hbracket).2
  · intro hall
    refine reads_iff.2 (reads_intercalate (List.forall₂_same.2 fun name hname => ?_) hne)
    exact spells_bare (hall name hname) fun hmem =>
      hbracket ((mem_intercalate_iff (by decide)).2 ⟨name, hname, hmem⟩)

end ObjectName

/-! ## Calls that rename -/

namespace Text

theorem length_double (mark : Char) (cs : List Char) :
    (double mark cs).length = cs.length + cs.count mark := by
  induction cs with
  | nil => rfl
  | cons c rest ih =>
    by_cases hc : c = mark
    · rw [double, if_pos hc, hc, List.count_cons_self]
      simp only [List.length_cons, ih]
      omega
    · rw [double, if_neg hc, List.count_cons_of_ne (by simpa using hc)]
      simp only [List.length_cons, ih]
      omega

theorem filter_double {mark : Char} {p : Char → Bool} (h : p mark = false) (cs : List Char) :
    (double mark cs).filter p = cs.filter p := by
  induction cs with
  | nil => rfl
  | cons c rest ih =>
    by_cases hc : c = mark
    · subst hc
      simp [double, h, ih]
    · simp only [double, if_neg hc, List.filter_cons, ih]

/-- Texts that are put between quotes as they are, and are no longer than those they stand for, are
read as these exactly if they are these and have no quote. -/
theorem quoted_eq_double_iff {a b cs ds : List Char} (ha : a.length ≤ cs.length)
    (hb : b.length ≤ ds.length) (between behind : List Char) :
    a ++ (between ++ (b ++ behind)) =
        double '\'' cs ++ (between ++ (double '\'' ds ++ behind)) ↔
      (a = cs ∧ '\'' ∉ cs) ∧ b = ds ∧ '\'' ∉ ds := by
  constructor
  · intro h
    have hlength := congrArg List.length h
    simp only [List.length_append, length_double] at hlength
    have hcs : cs.count '\'' = 0 := by omega
    have hds : ds.count '\'' = 0 := by omega
    rw [List.count_eq_zero] at hcs hds
    rw [double_eq_self hcs, double_eq_self hds] at h
    obtain ⟨hfirst, hrest⟩ := List.append_inj h (by omega)
    exact ⟨⟨hfirst, hcs⟩,
      List.append_cancel_right (List.append_cancel_left hrest), hds⟩
  · rintro ⟨⟨rfl, hcs⟩, rfl, hds⟩
    rw [double_eq_self hcs, double_eq_self hds]

end Text

@[simp] theorem toList_withoutBrackets (name : String) :
    (withoutBrackets name).toList = name.toList.filter fun c => c ≠ '[' ∧ c ≠ ']' := by
  rw [withoutBrackets, String.toList_ofList]

theorem withoutBrackets_append (a b : String) :
    withoutBrackets (a ++ b) = withoutBrackets a ++ withoutBrackets b := by
  simp [← String.toList_inj]

theorem withoutBrackets_eq_self_iff {name : String} :
    withoutBrackets name = name ↔ '[' ∉ name.toList ∧ ']' ∉ name.toList := by
  rw [← String.toList_inj, toList_withoutBrackets, List.filter_eq_self]
  grind

theorem withoutBrackets_enclosed (name : String) :
    withoutBrackets (Text.enclose '[' ']' name) = withoutBrackets name := by
  have htext : (Text.enclose '[' ']' name).toList =
      '[' :: (Text.double ']' name.toList ++ [']']) := by
    simp [Text.enclose]
  rw [← String.toList_inj, toList_withoutBrackets, toList_withoutBrackets, htext,
    List.filter_cons_of_neg (by decide), List.filter_append, Text.filter_double (by decide)]
  simp

theorem withoutBrackets_written {r : Naming} (hr : r.IsBracketing) (name : String) :
    withoutBrackets (r.written name) = withoutBrackets name := by
  obtain ⟨hopen, hclose, hcase⟩ := hr
  have hfolded : r.folded name = name := by simp [Naming.folded, hcase]
  rcases r.written_cases name with hw | ⟨hw, -⟩
  · rw [hw, hfolded, Naming.quoted, hopen, hclose, withoutBrackets_enclosed]
  · rw [hw, hfolded]

/-- Whether a text, read as SQL, gives the object of a full name a new name. What comes after the
two says what kind of object it is. -/
def Renames (text : String) (names : List String) (newName : String) (kind : List String) : Prop :=
  ∃ fullName, Lexeme.lexemes text = Lexeme.call "sp_rename" (fullName :: newName :: kind) ∧
    ObjectName.read fullName = some names

/-- What follows the two names of a call. -/
def endOfCall (kind : List String) : String :=
  String.join (kind.map fun text => ", " ++ Text.literal text)

/-- The text of a call with names that brackets are left out of. -/
def bareCall (names : List String) (newName : String) (kind : List String) : String :=
  "EXEC sp_rename '" ++ withoutBrackets (".".intercalate names) ++ "', '" ++
    withoutBrackets newName ++ "'" ++ endOfCall kind

theorem intercalate_cons_eq_join (glue first : String) (rest : List String) :
    glue.intercalate (first :: rest) = first ++ String.join (rest.map (glue ++ ·)) := by
  induction rest generalizing first with
  | nil => simp
  | cons second rest ih =>
    rw [String.intercalate_cons_cons, ih, List.map_cons, String.join_cons]
    simp only [String.append_assoc]

theorem renameCall_cons_cons (fullName newName : String) (kind : List String) :
    renameCall (fullName :: newName :: kind) =
      "EXEC sp_rename " ++ Text.literal fullName ++ ", " ++ Text.literal newName ++
        endOfCall kind := by
  rw [renameCall, endOfCall, List.map_cons, List.map_cons, String.intercalate_cons_cons,
    intercalate_cons_eq_join, List.map_map]
  simp only [String.append_assoc, Function.comp_def]

/-- A name that may be put between quotes as it is, with no bracket to lose. -/
def IsUnmarked (name : String) : Prop :=
  '[' ∉ name.toList ∧ ']' ∉ name.toList ∧ '\'' ∉ name.toList

theorem isUnmarked_iff {name : String} :
    IsUnmarked name ↔ withoutBrackets name = name ∧ '\'' ∉ name.toList := by
  rw [withoutBrackets_eq_self_iff, IsUnmarked, and_assoc]

theorem toList_bareCall (names : List String) (newName : String) (kind : List String) :
    (bareCall names newName kind).toList = "EXEC sp_rename '".toList ++
      ((withoutBrackets (".".intercalate names)).toList ++ ("', '".toList ++
        ((withoutBrackets newName).toList ++ ("'".toList ++ (endOfCall kind).toList)))) := by
  unfold bareCall
  simp only [String.toList_append, List.append_assoc]

theorem toList_renameCall (fullName newName : String) (kind : List String) :
    (renameCall (fullName :: newName :: kind)).toList = "EXEC sp_rename '".toList ++
      (Text.double '\'' fullName.toList ++ ("', '".toList ++
        (Text.double '\'' newName.toList ++ ("'".toList ++ (endOfCall kind).toList)))) := by
  -- The quotes of the literals are counted to what stands between them.
  have hopen : "EXEC sp_rename '".toList = "EXEC sp_rename ".toList ++ ['\''] := by decide
  have hbetween : "', '".toList = '\'' :: (", ".toList ++ ['\'']) := by decide
  have hclose : "'".toList = ['\''] := by decide
  rw [hopen, hbetween, hclose]
  simp only [renameCall_cons_cons, String.toList_append, Text.toList_literal, List.append_assoc,
    List.cons_append, List.nil_append]

theorem length_withoutBrackets_le (name : String) :
    (withoutBrackets name).toList.length ≤ name.toList.length := by
  rw [toList_withoutBrackets]
  exact List.length_filter_le _ _

/-- The texts of a call without brackets are closed, and are those that were meant, exactly if there
was no bracket to leave out and no quote to double. -/
theorem bareCall_eq_renameCall_iff {names : List String} {fullName newName : String}
    {kind : List String}
    (hle : (".".intercalate names).toList.length ≤ fullName.toList.length) :
    bareCall names newName kind = renameCall (fullName :: newName :: kind) ↔
      withoutBrackets (".".intercalate names) = fullName ∧ '\'' ∉ fullName.toList ∧
        IsUnmarked newName := by
  have hfirst := (length_withoutBrackets_le (".".intercalate names)).trans hle
  have hsecond := length_withoutBrackets_le newName
  rw [← String.toList_inj, toList_bareCall, toList_renameCall, List.append_right_inj,
    Text.quoted_eq_double_iff hfirst hsecond, String.toList_inj, String.toList_inj,
    ← isUnmarked_iff, and_assoc]

/-- A call without brackets renames what it should exactly if nothing in its names is left out or
doubled, and none needs brackets. -/
theorem renames_bareCall_iff {names : List String} (hne : names ≠ []) (newName : String)
    (kind : List String) :
    Renames (bareCall names newName kind) names newName kind ↔
      (∀ name ∈ names, ObjectName.IsBare name ∧ IsUnmarked name) ∧ IsUnmarked newName := by
  have hmarks : IsUnmarked (".".intercalate names) ↔ ∀ name ∈ names, IsUnmarked name := by
    have hmem {c : Char} (hc : c ≠ '.') : c ∈ (".".intercalate names).toList ↔
        ∃ name ∈ names, c ∈ name.toList := ObjectName.mem_intercalate_iff hc
    simp only [IsUnmarked, hmem (c := '[') (by decide), hmem (c := ']') (by decide),
      hmem (c := '\'') (by decide)]
    grind
  constructor
  · rintro ⟨fullName, hcall, hread⟩
    have hreads := ObjectName.reads_iff.1 hread
    obtain ⟨hfull, hquote, hnew⟩ := (bareCall_eq_renameCall_iff
      (by simpa [ObjectName.State.held] using hreads.length_le)).1
        (Lexeme.lexemes_eq_call_iff.1 hcall)
    -- Brackets are left out of the full name, so that it is read as it stands.
    have hbrackets : '[' ∉ fullName.toList ∧ ']' ∉ fullName.toList := by simp [← hfull]
    obtain ⟨hjoined, hbare⟩ := hreads.eq_of_bare rfl List.not_mem_nil hbrackets.1
    have hunmarked : ∀ name ∈ names, IsUnmarked name :=
      hmarks.1 (by rw [IsUnmarked, hjoined]; exact ⟨hbrackets.1, hbrackets.2, hquote⟩)
    exact ⟨fun name hname => ⟨hbare name hname, hunmarked name hname⟩, hnew⟩
  · rintro ⟨hall, hnew⟩
    have hjoined : IsUnmarked (".".intercalate names) := hmarks.2 fun name hname =>
      (hall name hname).2
    obtain ⟨hself, hquote⟩ := isUnmarked_iff.1 hjoined
    refine ⟨_, Lexeme.lexemes_eq_call_iff.2
      ((bareCall_eq_renameCall_iff le_rfl).2 ⟨hself, hquote, hnew⟩), ?_⟩
    exact (ObjectName.read_intercalate_iff hne hjoined.1).2 fun name hname => (hall name hname).1

/-- A call renames what it should whose full name has its names as they are written elsewhere, and
whose texts are literals. -/
theorem renames_renameCall {r : Naming} (hr : r.IsBracketing) {names : List String}
    (hne : names ≠ []) (newName : String) (kind : List String) :
    Renames (renameCall (".".intercalate (names.map r.written) :: newName :: kind)) names newName
      kind :=
  ⟨_, Lexeme.lexemes_eq_call_iff.2 rfl, ObjectName.read_written hr hne⟩

/-! ## Tables and columns -/

theorem isBracketing_mssql : (Dialect.builtin .mssql).naming.IsBracketing := ⟨rfl, rfl, rfl⟩

theorem withoutBrackets_intercalate_written {r : Naming} (hr : r.IsBracketing)
    (names : List String) :
    withoutBrackets (".".intercalate (names.map r.written)) =
      withoutBrackets (".".intercalate names) := by
  induction names with
  | nil => rfl
  | cons name names ih =>
    cases names with
    | nil => simpa using withoutBrackets_written hr name
    | cons second names =>
      rw [List.map_cons, List.map_cons, String.intercalate_cons_cons, ← List.map_cons,
        String.intercalate_cons_cons, withoutBrackets_append, withoutBrackets_append, ih,
        withoutBrackets_written hr, ← withoutBrackets_append, ← withoutBrackets_append]

namespace Entity

variable {spec : EntitySpec} {e : Entity} {f : Field}

/-- The table of an entity after its schema, in the words of its description. -/
theorem table_of_ofSpec (h : ofSpec (Dialect.builtin .mssql) spec = .ok e) :
    e.table.written = ".".intercalate
      ([spec.schema.getD "dbo", spec.table].map (Dialect.builtin .mssql).naming.written) := by
  obtain ⟨fields, -, h⟩ := bind_eq_ok_iff.1 h
  cases h
  cases hschema : spec.schema with
  | none => rfl
  | some schema => rfl

theorem text_renameTable (h : ofSpec (Dialect.builtin .mssql) spec = .ok e) (l : Layout)
    (newTable : String) :
    (Dialect.builtin .mssql).ddl.text l (e.renameTable (Dialect.builtin .mssql) newTable) =
      bareCall [spec.schema.getD "dbo", spec.table] newTable [] := by
  have hr := isBracketing_mssql
  have htext : (Dialect.builtin .mssql).ddl.text l
        (e.renameTable (Dialect.builtin .mssql) newTable) =
      "EXEC sp_rename '" ++ withoutBrackets e.table.written ++ "', '" ++
        withoutBrackets ((Dialect.builtin .mssql).naming.written newTable) ++ "'" := rfl
  rw [htext, table_of_ofSpec h, withoutBrackets_intercalate_written hr,
    withoutBrackets_written hr]
  unfold bareCall
  rw [endOfCall, List.map_nil, String.join_nil, String.append_empty]

theorem text_renameColumn (h : ofSpec (Dialect.builtin .mssql) spec = .ok e) (l : Layout)
    {fieldName : String} (hf : e.tableField fieldName = .ok f) (oldColumn : String) :
    ∃ statement, e.renameColumn (Dialect.builtin .mssql) fieldName oldColumn = .ok statement ∧
      (Dialect.builtin .mssql).ddl.text l statement =
        bareCall [spec.schema.getD "dbo", spec.table, oldColumn] f.column.raw ["COLUMN"] := by
  have hr := isBracketing_mssql
  refine ⟨_, by rw [renameColumn, hf]; rfl, ?_⟩
  have hcolumn := written_of_ofSpec h f (field_eq_ok (tableField_eq_ok_iff.1 hf).1).1
  have htext : (Dialect.builtin .mssql).ddl.text l (.renameColumn
        { e.target f with column := (Dialect.builtin .mssql).naming.name oldColumn } f.column) =
      "EXEC sp_rename '" ++ withoutBrackets e.table.written ++ "." ++
        withoutBrackets ((Dialect.builtin .mssql).naming.written oldColumn) ++ "', '" ++
        withoutBrackets f.column.written ++ "', 'COLUMN'" := rfl
  have hdot : withoutBrackets "." = "." := by decide
  have hjoined : withoutBrackets (".".intercalate [spec.schema.getD "dbo", spec.table]) ++ "." ++
        withoutBrackets oldColumn =
      withoutBrackets (".".intercalate [spec.schema.getD "dbo", spec.table, oldColumn]) := by
    simp only [String.intercalate_cons_cons, String.intercalate_singleton, withoutBrackets_append,
      hdot, String.append_assoc]
  have hend : endOfCall ["COLUMN"] = ", 'COLUMN'" := by decide
  have hkind : "', 'COLUMN'" = "'" ++ ", 'COLUMN'" := by decide
  rw [htext, table_of_ofSpec h, withoutBrackets_intercalate_written hr, hcolumn,
    withoutBrackets_written hr, withoutBrackets_written hr, hkind]
  unfold bareCall
  rw [hend, ← hjoined]
  simp only [String.append_assoc]

/-- The statement that renames a table, and the one that renames a column, do so exactly if no name
in them has a bracket or a quote, and none of the old ones is empty or has a dot. With each old name
written as in other statements, and literals of both texts, they would for all names. -/
theorem renames_iff (h : ofSpec (Dialect.builtin .mssql) spec = .ok e) (l : Layout)
    (newTable oldColumn : String) :
    let d := Dialect.builtin .mssql
    let table := [spec.schema.getD "dbo", spec.table]
    let column := table ++ [oldColumn]
    (Renames (d.ddl.text l (e.renameTable d newTable)) table newTable [] ↔
      (∀ name ∈ table, ObjectName.IsBare name ∧ IsUnmarked name) ∧ IsUnmarked newTable) ∧
    (∀ fieldName f, e.tableField fieldName = .ok f →
      ∃ statement, e.renameColumn d fieldName oldColumn = .ok statement ∧
        (Renames (d.ddl.text l statement) column f.column.raw ["COLUMN"] ↔
          (∀ name ∈ column, ObjectName.IsBare name ∧ IsUnmarked name) ∧
            IsUnmarked f.column.raw)) ∧
    ∀ names newName kind, names ≠ [] →
      Renames (renameCall (".".intercalate (names.map d.naming.written) :: newName :: kind)) names
        newName kind := by
  refine ⟨?_, fun fieldName f hf => ?_, fun names newName kind hne => ?_⟩
  · rw [text_renameTable h]
    exact renames_bareCall_iff (List.cons_ne_nil _ _) newTable []
  · obtain ⟨statement, hstatement, htext⟩ := text_renameColumn h l hf oldColumn
    refine ⟨statement, hstatement, ?_⟩
    rw [htext]
    exact renames_bareCall_iff (List.cons_ne_nil _ _) f.column.raw ["COLUMN"]
  · exact renames_renameCall isBracketing_mssql hne newName kind

end Entity

/-! ### Notes -/

/-- A note with a text. -/
def renamedNoteSpec : EntitySpec :=
  { EntitySpec.named "Note" with
    fields := [(FieldSpec.named "id" .long).asPrimaryKey, FieldSpec.named "text" .string] }

/-- The table and a column of notes get new names. -/
theorem note_and_text_renamed : ∃ note field statement,
    Entity.ofSpec (Dialect.builtin .mssql) renamedNoteSpec = .ok note ∧
    note.tableField "text" = .ok field ∧
    note.renameColumn (Dialect.builtin .mssql) "text" "BODY" = .ok statement ∧
    Renames ((Dialect.builtin .mssql).ddl.text .compact
      (note.renameTable (Dialect.builtin .mssql) "MEMO")) ["dbo", "NOTE"] "MEMO" [] ∧
    Renames ((Dialect.builtin .mssql).ddl.text .compact statement) ["dbo", "NOTE", "BODY"] "TEXT"
      ["COLUMN"] ∧
    Renames (renameCall [".".intercalate (["dbo", "NOTE"].map
      (Dialect.builtin .mssql).naming.written), "it's"]) ["dbo", "NOTE"] "it's" [] := by
  obtain ⟨note, hnote, htest⟩ : ∃ note,
      Entity.ofSpec (Dialect.builtin .mssql) renamedNoteSpec = .ok note ∧
        ((note.tableField "text").toOption.any fun field =>
          decide (field.column.raw = "TEXT")) = true :=
    exists_ok_of_any (by decide +kernel)
  obtain ⟨field, hfield, hcolumn⟩ := exists_ok_of_any htest
  obtain ⟨htable, hcolumns, hliterals⟩ := Entity.renames_iff hnote .compact "MEMO" "BODY"
  obtain ⟨statement, hstatement, hrenames⟩ := hcolumns "text" field hfield
  rw [of_decide_eq_true hcolumn] at hrenames
  refine ⟨note, field, statement, hnote, hfield, hstatement, htable.2 ?_, hrenames.2 ?_,
    hliterals ["dbo", "NOTE"] "it's" [] (List.cons_ne_nil _ _)⟩
  all_goals
    unfold ObjectName.IsBare IsUnmarked
    decide

/-- A note is not renamed to a name with a quote, which ends the text of the new name. -/
theorem quoted_note_not_renamed : ∃ note,
    Entity.ofSpec (Dialect.builtin .mssql) renamedNoteSpec = .ok note ∧
    (Dialect.builtin .mssql).ddl.text .compact
      (note.renameTable (Dialect.builtin .mssql) "it's") = "EXEC sp_rename 'dbo.NOTE', 'it's'" ∧
    ¬Renames "EXEC sp_rename 'dbo.NOTE', 'it's'" ["dbo", "NOTE"] "it's" [] := by
  obtain ⟨note, hnote, htest⟩ : ∃ note,
      Entity.ofSpec (Dialect.builtin .mssql) renamedNoteSpec = .ok note ∧
        decide ((Dialect.builtin .mssql).ddl.text .compact
          (note.renameTable (Dialect.builtin .mssql) "it's") =
            "EXEC sp_rename 'dbo.NOTE', 'it's'") = true :=
    exists_ok_of_any (by decide +kernel)
  refine ⟨note, hnote, of_decide_eq_true htest, ?_⟩
  rintro ⟨fullName, hcall, -⟩
  have htexts : Lexeme.call "sp_rename" [fullName, "it's"] =
      [.word "EXEC", .mark ' ', .word "sp_rename", .mark ' ', .string fullName, .mark ',',
        .mark ' ', .string "it's"] := rfl
  have hlexemes : Lexeme.lexemes "EXEC sp_rename 'dbo.NOTE', 'it's'" =
      [.word "EXEC", .mark ' ', .word "sp_rename", .mark ' ', .string "dbo.NOTE", .mark ',',
        .mark ' ', .string "it", .word "s", .unclosed ""] := by decide
  rw [htexts, hlexemes] at hcall
  simp at hcall

end SqlDialects
