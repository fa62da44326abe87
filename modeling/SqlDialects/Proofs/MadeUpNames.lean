import SqlDialects.Proofs.FilledLists
import SqlDialects.Proofs.NamedDefaults
import SqlDialects.Proofs.WrittenName

/-!
# Names that are made up

Some names are given by nobody: those of the sequence and the trigger that fill the key of a table,
of the constraint that holds a default, and of a foreign key. They are put together from the names
of table and column as these were given. The first three go into statements as they are, where every
other name is quoted if it has to be.

Results:
1. `Naming.readName_self_iff`: a name is read where it stands without quotes exactly if it needs
   none.
2. `Statement.readName_madeUpName_iff`: when a statement is read with the names made up for it;
   `blank_splits_made_up_names`: not where the name of the table has a blank.
-/

namespace SqlDialects

/-! ## Names without quotes -/

/-- The characters of the word or name that has begun. -/
def Position.held : Position → List Char
  | .between => []
  | .word cs | .quoted cs | .closed cs => cs

namespace Naming

variable {r : Naming} {p : Position} {c : Char} {text : String} {cs rest : List Char}

theorem readName_eq_some_iff :
    r.readName cs = some (text, rest) ↔ r.readToken .between cs = some (.name text, rest) := by
  unfold readName
  split
  · next hread => simp [hread]
  · next hother => simpa using fun hread => hother _ _ hread

theorem length_of_mem_pending (h : .name text ∈ r.pending p) :
    text.toList.length = p.held.length := by
  cases p with
  | between => cases h
  | word cs =>
    have hword := (List.mem_singleton.1 h).symm
    unfold wordToken at hword
    dsimp only at hword
    split_ifs at hword
    cases hword
    rw [String.toList_ofList]
    rfl
  | quoted cs => cases List.mem_singleton.1 h
  | closed cs =>
    cases List.mem_singleton.1 h
    rw [String.toList_ofList]
    rfl

theorem name_notMem_readFirst : .name text ∉ (r.readFirst c).1 := by
  unfold readFirst
  split_ifs <;> simp

/-- A name ends with the character after it, not with one of its own. -/
theorem mem_pending_of_readChar (h : .name text ∈ (r.readChar p c).1) :
    .name text ∈ r.pending p := by
  cases p with
  | between => exact absurd h name_notMem_readFirst
  | quoted cs =>
    simp only [readChar] at h
    split_ifs at h <;> cases h
  | _ =>
    simp only [readChar] at h
    split_ifs at h
    · cases h
    · exact (List.mem_append.1 h).resolve_right name_notMem_readFirst

/-- A character adds no more than itself to the name that has begun. -/
theorem length_held_readChar (h : (r.readChar p c).1 = []) :
    (r.readChar p c).2.held.length ≤ p.held.length + 1 := by
  cases p with
  | between =>
    simp only [readChar, readFirst]
    split_ifs <;> simp [Position.held]
  | quoted cs =>
    simp only [readChar]
    split_ifs <;> simp [Position.held]
  | _ =>
    simp only [readChar] at h ⊢
    split_ifs at h ⊢
    · simp [Position.held]
    · cases h

/-- No more is read than there was. -/
theorem length_le_of_readToken (h : r.readToken p cs = some (.name text, rest)) :
    text.toList.length + rest.length ≤ p.held.length + cs.length := by
  induction cs generalizing p with
  | nil =>
    obtain ⟨t, ht, hpair⟩ := Option.map_eq_some_iff.1 h
    cases hpair
    rw [length_of_mem_pending (List.mem_of_mem_head? ht)]
  | cons c cs ih =>
    rw [readToken] at h
    split at h
    · next hnone =>
      have hheld := length_held_readChar hnone
      have hle := ih h
      rw [List.length_cons]
      omega
    · next t ts hsome =>
      cases h
      have hmem : .name text ∈ (r.readChar p c).1 := hsome ▸ List.mem_cons_self
      rw [length_of_mem_pending (mem_pending_of_readChar hmem)]
      split_ifs <;> simp

/-- A character that begins no word is not part of what is read as a name. -/
theorem length_le_of_readName_cons (hc : continuesWord c = false)
    (h : r.readName (c :: cs) = some (text, rest)) :
    text.toList.length + rest.length ≤ cs.length := by
  rw [readName_eq_some_iff, readToken, readChar, readFirst, hc] at h
  by_cases hopen : c = r.openQuote
  · rw [if_pos hopen] at h
    simpa [Position.held] using length_le_of_readToken h
  · rw [if_neg hopen, if_neg Bool.false_ne_true] at h
    by_cases hblank : Text.isBlank c = true
    · rw [if_pos hblank] at h
      simpa [Position.held] using length_le_of_readToken h
    · rw [if_neg hblank] at h
      cases h

/-- What is all of word characters is read as the word that it is. -/
theorem readName_word_iff (hq : r.HasOwnQuotes) (h : r.BeginsApart rest) (hne : text.toList ≠ [])
    (hall : text.toList.all continuesWord = true) :
    r.readName (text.toList ++ rest) = some (text, rest) ↔ r.mustQuote text = false := by
  rw [readName_eq_some_iff, readToken_append (scan_between_word hq hne hall),
    readToken_pending rfl rfl h]
  simp only [wordToken, mustQuote, String.ofList_toList]
  cases isWord text.toList with
  | false => simp
  | true => cases r.isReserved text <;> simp

theorem readName_empty_ne (h : r.BeginsApart rest) : r.readName rest ≠ some (text, rest) := by
  intro hread
  cases rest with
  | nil => cases readName_eq_some_iff.1 hread
  | cons c cs =>
    have hle := length_le_of_readName_cons (h c rfl).1 hread
    rw [List.length_cons] at hle
    omega

/-- The word that begins a text, if one does, ends before a character of no word. -/
theorem readName_word_append_ne (hq : r.HasOwnQuotes) {word more : List Char}
    (hword : word.all continuesWord = true) (hc : continuesWord c = false)
    (htext : text.toList = word ++ c :: more) :
    r.readName (text.toList ++ rest) ≠ some (text, rest) := by
  intro hread
  have hlength := congrArg List.length htext
  rw [htext, List.append_assoc, List.cons_append] at hread
  rcases eq_or_ne word [] with rfl | hne
  · have hle := length_le_of_readName_cons hc hread
    simp only [List.nil_append, List.length_cons, List.length_append] at hle hlength
    omega
  · have hends : (r.readChar (.word word) c).1 = r.wordToken word :: (r.readFirst c).1 := by
      rw [readChar, hc]
      rfl
    rw [readName_eq_some_iff, readToken_append (scan_between_word hq hne hword),
      readToken, hends] at hread
    obtain ⟨-, hbehind⟩ := Prod.mk.inj (Option.some.inj hread)
    have hlonger := congrArg List.length hbehind
    simp only [reduceCtorEq, if_false, List.length_cons, List.length_append] at hlonger
    omega

/-- A text is read as the name that it is, wherever no word runs into it, exactly if it needs no
quotes. -/
theorem readName_self_iff (hq : r.HasOwnQuotes) (h : r.BeginsApart rest) :
    r.readName (text.toList ++ rest) = some (text, rest) ↔ r.mustQuote text = false := by
  by_cases hall : text.toList.all continuesWord = true
  · by_cases hempty : text.toList = []
    · have hquote : r.mustQuote text = true := by rw [mustQuote, hempty]; rfl
      rw [hquote, hempty, List.nil_append]
      exact iff_of_false (readName_empty_ne h) (by decide)
    · exact readName_word_iff hq h hempty hall
  · have hquote : r.mustQuote text = true := by
      rw [mustQuote, Bool.eq_false_iff.2 fun hword => hall (all_continuesWord_of_isWord hword)]
      rfl
    obtain ⟨c, more, hrest⟩ : ∃ c more, text.toList.dropWhile continuesWord = c :: more :=
      List.exists_cons_of_ne_nil fun hnone =>
        hall (List.all_eq_true.2 (List.dropWhile_eq_nil_iff.1 hnone))
    have hc : continuesWord c = false := by
      simpa [hrest] using List.head?_dropWhile_not continuesWord text.toList
    have hsplit := (List.takeWhile_append_dropWhile (p := continuesWord) (l := text.toList)).symm
    rw [hrest] at hsplit
    rw [hquote]
    exact iff_of_false (readName_word_append_ne hq List.all_takeWhile hc hsplit) (by decide)

/-- Between quotes any text is read as the name that it is. -/
theorem readName_quoted (name : String) (h : r.BeginsApart rest) :
    r.readName ((r.quoted name).toList ++ rest) = some (name, rest) := by
  have hpending : r.pending (.closed name.toList) = [.name name] := by
    rw [pending, String.ofList_toList]
  rw [readName_eq_some_iff, readToken_append (scan_quoted name), readToken_pending rfl hpending h]

end Naming

/-! ## Names of statements -/

/-- A name that is put together where it is needed. -/
inductive MadeUpName where
  | sequence (table : Name)
  | trigger (table : Name)
  /-- Of the constraint that holds the default of a column. -/
  | default (column : ColumnChange)
deriving DecidableEq, Repr

namespace MadeUpName

def text : MadeUpName → String
  | sequence table => sequenceName table
  | trigger table => triggerName table
  | default column => defaultConstraintName column

/-- Whether the names that it is made of are all of word characters, and no digit comes first. -/
def IsPlain : MadeUpName → Prop
  | sequence table | trigger table =>
    table.raw.toList.head?.all Naming.startsWord = true ∧
      table.raw.toList.all Naming.continuesWord = true
  | default column =>
    column.table.raw.toList.all Naming.continuesWord = true ∧
      column.column.raw.toList.all Naming.continuesWord = true

instance : DecidablePred IsPlain
  | sequence _ | trigger _ | default _ => inferInstanceAs (Decidable (_ ∧ _))

end MadeUpName

/-- The name that a new column has made up for its default. -/
def ColumnDefinition.madeUpNames (s : DdlStyle) (d : ColumnDefinition) : List MadeUpName :=
  match s with
  | .mssql => d.defaultName?.toList.map fun _ => .default d.target
  | _ => []

def TableItem.madeUpNames (s : DdlStyle) : TableItem → List MadeUpName
  | .column d => d.madeUpNames s
  | .unique .. | .index .. => []

/-- Names in the text of a statement that are made up for it. -/
def Statement.madeUpNames (s : DdlStyle) : Statement → List MadeUpName
  | .createSequence table | .dropSequence table => [.sequence table]
  | .createKeyTrigger table _ => [.trigger table, .sequence table]
  | .createTable _ items => items.flatMap (·.madeUpNames s)
  | .addColumn d => d.madeUpNames s
  | .setDefault t _ | .dropDefault t =>
    match s with
    | .mssql => [.default t]
    | _ => []
  | _ => []

/-! ### What they are made of -/

namespace Naming

variable {r : Naming}

theorem toUpper_of_not_isAlpha {c : Char} (h : c.isAlpha = false) : c.toUpper = c := by
  refine Char.toUpper_eq_of_not_isLower fun hlower => ?_
  rw [Char.isAlpha, hlower, Bool.or_true] at h
  cases h

@[simp] theorem startsWord_toUpper (c : Char) : startsWord c.toUpper = startsWord c := by
  cases h : c.isAlpha with
  | true => rw [startsWord, startsWord, Char.isAlpha_toUpper_eq_isAlpha, h]; rfl
  | false => rw [toUpper_of_not_isAlpha h]

@[simp] theorem continuesWord_toUpper (c : Char) : continuesWord c.toUpper = continuesWord c := by
  cases h : c.isAlpha with
  | true => simp [continuesWord, Char.isAlphanum, h]
  | false => rw [toUpper_of_not_isAlpha h]

/-- A text with an underscore in it is a word if what is in front is one, and what is behind goes on
with it. -/
theorem isWord_underscore {front back : List Char} :
    isWord (front ++ '_' :: back) =
      (front.head?.all startsWord && front.all continuesWord && back.all continuesWord) := by
  have hstarts : startsWord '_' = true := by decide
  have hcontinues : continuesWord '_' = true := by decide
  cases front with
  | nil => simp [isWord, hstarts]
  | cons c cs =>
    cases hc : startsWord c with
    | false => simp [isWord, hc]
    | true => simp [isWord, hc, hcontinues, continuesWord_of_startsWord hc]

/-- No word that is reserved has an underscore. -/
theorem IsBuiltin.isReserved_of_underscore (h : r.IsBuiltin) {name : String}
    (hname : '_' ∈ name.toList) : r.isReserved name = false := by
  have hnone : ∀ word ∈ standardReserved ++ r.reserved, '_' ∉ word.toList := by
    obtain ⟨db, rfl⟩ := h
    cases db <;> decide +kernel
  have hupper : '_' ∈ (Text.asciiUpper name).toList := by
    rw [Text.asciiUpper, String.toList_ofList]
    exact List.mem_map.2 ⟨'_', hname, rfl⟩
  rw [isReserved, Bool.eq_false_iff]
  intro hreserved
  rw [Bool.or_eq_true_iff, List.contains_iff_mem, List.contains_iff_mem] at hreserved
  exact hnone _ (List.mem_append.2 hreserved) hupper

end Naming

namespace MadeUpName

variable {r : Naming} {m : MadeUpName}

theorem underscore_mem_text (m : MadeUpName) : '_' ∈ m.text.toList := by
  cases m with
  | sequence table => simp [text, sequenceName]
  | trigger table => simp [text, triggerName]
  | default column =>
    simp only [text, defaultConstraintName, Text.asciiUpper, String.toList_ofList,
      String.toList_append]
    exact List.mem_map.2 ⟨'_', by simp, rfl⟩

/-- Capitals make a word of a table's name and an ending exactly if it is one without them. -/
theorem isWord_upper_append (name : String) (ending : List Char)
    (h : ending.all Naming.continuesWord = true) :
    Naming.isWord ((Text.asciiUpper name).toList ++ '_' :: ending) = true ↔
      name.toList.head?.all Naming.startsWord = true ∧
        name.toList.all Naming.continuesWord = true := by
  rw [Naming.isWord_underscore, h, Bool.and_true, Bool.and_eq_true, Text.asciiUpper,
    String.toList_ofList, List.head?_map, Option.all_map, List.all_map]
  simp only [Function.comp_def, Naming.startsWord_toUpper, Naming.continuesWord_toUpper]

theorem isWord_text (m : MadeUpName) : Naming.isWord m.text.toList = true ↔ m.IsPlain := by
  cases m with
  | sequence table =>
    rw [text, sequenceName, String.toList_append]
    exact isWord_upper_append table.raw ['S', 'E', 'Q'] (by decide)
  | trigger table =>
    rw [text, triggerName, String.toList_append]
    exact isWord_upper_append table.raw ['T', 'R', 'G'] (by decide)
  | default column =>
    have htext : (defaultConstraintName column).toList =
        ['D', 'F'] ++ '_' :: (column.table.raw.toList.map Char.toUpper ++
          '_' :: column.column.raw.toList.map Char.toUpper) := by
      simp [defaultConstraintName, Text.asciiUpper]
    have hprefix : (['D', 'F'].head?.all Naming.startsWord &&
        ['D', 'F'].all Naming.continuesWord) = true := by decide
    have hunderscore : Naming.continuesWord '_' = true := by decide
    rw [text, htext, Naming.isWord_underscore, hprefix, IsPlain, Bool.true_and, List.all_append,
      List.all_cons, hunderscore, Bool.true_and, Bool.and_eq_true, List.all_map, List.all_map]
    simp only [Function.comp_def, Naming.continuesWord_toUpper]

theorem mustQuote_text (hr : r.IsBuiltin) : r.mustQuote m.text = false ↔ m.IsPlain := by
  rw [Naming.mustQuote, hr.isReserved_of_underscore m.underscore_mem_text, Bool.or_false,
    Bool.not_eq_false', isWord_text]

end MadeUpName

/-! ### Where they stand -/

/-- Whether a name stands in a text after a blank, and before nothing that goes on with a name. -/
def Naming.StandsIn (r : Naming) (name text : String) : Prop :=
  ∃ before after, text.toList = before ++ ' ' :: (name.toList ++ after) ∧ r.BeginsApart after

namespace Naming

variable {r : Naming} {name text part : String}

/-- A name in the middle of a text. -/
theorem standsIn_of_infix {c : Char} (hc : r.isApart c = true)
    (h : (' ' :: (name.toList ++ [c])) <:+: text.toList) : r.StandsIn name text := by
  obtain ⟨before, after, htext⟩ := h
  refine ⟨before, c :: after, by simpa using htext.symm, ?_⟩
  intro x hx
  cases hx
  simpa [isApart] using hc

/-- A name at the end of a text. -/
theorem standsIn_of_suffix (h : (' ' :: name.toList) <:+ text.toList) : r.StandsIn name text := by
  obtain ⟨before, htext⟩ := h
  exact ⟨before, [], by simpa using htext.symm, nofun⟩

/-- A name between a piece that ends with a blank and one that begins with some character. -/
theorem infix_of_between {whole : String} (before lead tail after : String) {c : Char}
    (hlead : lead.toList.getLast? = some ' ') (htail : tail.toList.head? = some c)
    (h : whole = before ++ (lead ++ (name ++ (tail ++ after)))) :
    (' ' :: (name.toList ++ [c])) <:+: whole.toList := by
  obtain ⟨first, hfirst⟩ := List.getLast?_eq_some_iff.1 hlead
  obtain ⟨last, hlast⟩ := List.head?_eq_some_iff.1 htail
  refine ⟨before.toList ++ first, last ++ after.toList, ?_⟩
  rw [h]
  simp [hfirst, hlast]

theorem standsIn_clause {l : Layout} {clauses : List String} {clause : String} {c : Char}
    (hc : r.isApart c = true) (hname : (' ' :: (name.toList ++ [c])) <:+: clause.toList)
    (h : clause ∈ clauses) : r.StandsIn name (l.arrange (.clauses clauses)) :=
  standsIn_of_infix hc (hname.trans (infix_intercalate l.separator h))

end Naming

/-- The name of a default is followed by the word for it. -/
theorem ColumnDefinition.infix_of_mem_madeUpNames {s : DdlStyle} {d : ColumnDefinition}
    {m : MadeUpName} (hm : m ∈ d.madeUpNames s) :
    (' ' :: (m.text.toList ++ [' '])) <:+: (s.columnDefinition d).toList := by
  cases s with
  | mssql =>
    obtain ⟨name, hname, rfl⟩ := List.mem_map.1 hm
    rw [Option.mem_toList, defaultName?] at hname
    split_ifs at hname with hidentity
    obtain ⟨literal, hliteral, -⟩ := Option.map_eq_some_iff.1 hname
    refine Naming.infix_of_between (d.target.column.written ++ " " ++ d.target.typeDecl)
      " CONSTRAINT " " DEFAULT "
      (literal ++ ((if !d.target.nullable then " NOT NULL" else "") ++
        (if d.isPrimaryKey then " PRIMARY KEY" else ""))) rfl rfl ?_
    simp only [DdlStyle.columnDefinition, hidentity, hliteral, DdlStyle.defaultClause,
      MadeUpName.text, DdlStyle.statesNull, Bool.false_eq_true, if_false, String.append_assoc]
  | _ => cases hm

/-- A new table has the names of its defaults among its columns. -/
theorem Statement.infix_of_mem_madeUpNames {s : DdlStyle} (l : Layout) {table : Name}
    {items : List TableItem} {m : MadeUpName} (hm : m ∈ items.flatMap (·.madeUpNames s)) :
    (' ' :: (m.text.toList ++ [' '])) <:+: (s.text l (.createTable table items)).toList := by
  obtain ⟨item, hitem, hm⟩ := List.mem_flatMap.1 hm
  cases item with
  | column d =>
    have hpart := infix_intercalate l.listSeparator (List.mem_map_of_mem (f := s.tableItem) hitem)
    have hitems : (String.intercalate l.listSeparator (items.map s.tableItem)).toList <:+:
        (s.text l (.createTable table items)).toList :=
      ⟨("CREATE TABLE " ++ table.written ++ " " ++ l.listStart).toList, l.listEnd.toList, by
        simp [DdlStyle.text, DdlStyle.arrangement, Layout.arrange]⟩
    exact (d.infix_of_mem_madeUpNames hm).trans (hpart.trans hitems)
  | unique | index => cases hm

/-- In every statement a name that is made up for it stands by itself. -/
theorem Statement.standsIn_of_mem_madeUpNames {r : Naming} (hblank : r.isApart ' ' = true)
    (hdot : r.isApart '.' = true) {s : DdlStyle} (l : Layout) {t : Statement} {m : MadeUpName}
    (hm : m ∈ t.madeUpNames s) : r.StandsIn m.text (s.text l t) := by
  cases t with
  | createSequence table =>
    obtain rfl := List.mem_singleton.1 hm
    refine Naming.standsIn_clause hblank (Naming.infix_of_between ""
      "CREATE SEQUENCE " " START WITH 1 INCREMENT BY 1" "" rfl rfl ?_)
      List.mem_cons_self
    simp only [MadeUpName.text, String.append_assoc, String.empty_append, String.append_empty]
  | dropSequence table =>
    obtain rfl := List.mem_singleton.1 hm
    exact Naming.standsIn_of_suffix ⟨"DROP SEQUENCE".toList, by
      simp [DdlStyle.text, DdlStyle.arrangement, Layout.arrange, MadeUpName.text]⟩
  | createKeyTrigger table column =>
    rcases List.mem_pair.1 hm with rfl | rfl
    · refine Naming.standsIn_clause hblank (Naming.infix_of_between ""
        "CREATE OR REPLACE TRIGGER " " BEFORE INSERT ON "
        (table.written ++ (" FOR EACH ROW WHEN (NEW." ++ (column.written ++
          (" IS NULL) BEGIN SELECT " ++ (sequenceName table ++ (".NEXTVAL INTO :NEW." ++
            (column.written ++ " FROM DUAL; END;"))))))) rfl rfl ?_) List.mem_cons_self
      delta DdlStyle.keyTrigger
      simp only [MadeUpName.text, String.append_assoc, String.empty_append]
    · refine Naming.standsIn_clause hdot (Naming.infix_of_between
        ("CREATE OR REPLACE TRIGGER " ++ triggerName table ++ " BEFORE INSERT ON " ++
          table.written ++ " FOR EACH ROW WHEN (NEW." ++ column.written)
        " IS NULL) BEGIN SELECT " ".NEXTVAL INTO :NEW."
        (column.written ++ " FROM DUAL; END;") rfl rfl ?_) List.mem_cons_self
      delta DdlStyle.keyTrigger
      simp only [MadeUpName.text, String.append_assoc]
  | createTable table items => exact Naming.standsIn_of_infix hblank (infix_of_mem_madeUpNames l hm)
  | addColumn d =>
    have hclause : (s.columnDefinition d).toList <:+:
        (s.addColumnWords ++ " " ++ s.columnDefinition d).toList :=
      ⟨(s.addColumnWords ++ " ").toList, [], by simp⟩
    exact Naming.standsIn_clause hblank ((d.infix_of_mem_madeUpNames hm).trans hclause)
      (List.mem_pair.2 (.inr rfl))
  | setDefault t literal =>
    cases s with
    | mssql =>
      obtain rfl := List.mem_singleton.1 hm
      refine Naming.standsIn_clause hblank (Naming.infix_of_between ""
        "ADD CONSTRAINT " " DEFAULT "
        (literal ++ (" FOR " ++ t.column.written)) rfl rfl ?_)
        (List.mem_pair.2 (.inr rfl))
      simp only [MadeUpName.text, String.append_assoc, String.empty_append]
    | _ => cases hm
  | dropDefault t =>
    cases s with
    | mssql =>
      obtain rfl := List.mem_singleton.1 hm
      refine Naming.standsIn_of_suffix
        ⟨("ALTER TABLE " ++ t.table.written ++ l.separator ++ "DROP CONSTRAINT").toList, ?_⟩
      simp [DdlStyle.text, DdlStyle.arrangement, DdlStyle.dropDefault, DdlStyle.alterTable,
        Layout.arrange, MadeUpName.text]
    | _ => cases hm
  | _ => cases hm

/-- Every name that is made up for a statement stands in its text as it is, after a blank and before
nothing that goes on with a name. It is read there as the name that it is exactly if it needs no
quotes, that is, if the names of table and column are all of letters, digits and underscores and the
table does not begin with a digit where the name begins with it. Between quotes it would be read in
any case. -/
theorem Statement.readName_madeUpName_iff (db : Database) (l : Layout) (t : Statement) :
    ∀ m ∈ t.madeUpNames (Dialect.builtin db).ddl, ∃ before after,
      ((Dialect.builtin db).ddl.text l t).toList = before ++ ' ' :: (m.text.toList ++ after) ∧
        (Dialect.builtin db).naming.BeginsApart after ∧
        ((Dialect.builtin db).naming.readName (m.text.toList ++ after) = some (m.text, after) ↔
          m.IsPlain) ∧
        ((Dialect.builtin db).naming.mustQuote m.text = false ↔ m.IsPlain) ∧
        (Dialect.builtin db).naming.readName
            (((Dialect.builtin db).naming.quoted m.text).toList ++ after) =
          some (m.text, after) := by
  intro m hm
  have hr := Naming.isBuiltin db
  have hapart : (Dialect.builtin db).naming.isApart ' ' = true ∧
      (Dialect.builtin db).naming.isApart '.' = true := by
    cases db <;> decide
  obtain ⟨before, after, htext, hafter⟩ := t.standsIn_of_mem_madeUpNames hapart.1 hapart.2 l hm
  exact ⟨before, after, htext, hafter,
    (Naming.readName_self_iff hr.hasOwnQuotes hafter).trans (MadeUpName.mustQuote_text hr),
    MadeUpName.mustQuote_text hr, Naming.readName_quoted m.text hafter⟩

/-! ### Notes with a blank in their table -/

/-- A sequence and a trigger for the keys of notes are read in Oracle, up to what follows. -/
theorem sequence_and_trigger_read :
    (Statement.createKeyTrigger ⟨"NOTE", "NOTE"⟩ ⟨"ID", "ID"⟩).madeUpNames
        (Dialect.builtin .oracle).ddl =
      [.trigger ⟨"NOTE", "NOTE"⟩, .sequence ⟨"NOTE", "NOTE"⟩] ∧
    ∀ m ∈ [MadeUpName.trigger ⟨"NOTE", "NOTE"⟩, .sequence ⟨"NOTE", "NOTE"⟩], ∃ before after,
      ((Dialect.builtin .oracle).ddl.text .compact
          (.createKeyTrigger ⟨"NOTE", "NOTE"⟩ ⟨"ID", "ID"⟩)).toList =
        before ++ ' ' :: (m.text.toList ++ after) ∧
      (Dialect.builtin .oracle).naming.readName (m.text.toList ++ after) =
        some (m.text, after) := by
  refine ⟨rfl, fun m hm => ?_⟩
  obtain ⟨before, after, htext, -, hread, -⟩ := Statement.readName_madeUpName_iff .oracle .compact
    (.createKeyTrigger ⟨"NOTE", "NOTE"⟩ ⟨"ID", "ID"⟩) m hm
  have hplain : m.IsPlain := by
    rcases List.mem_pair.1 hm with rfl | rfl <;> decide
  exact ⟨before, after, htext, hread.2 hplain⟩

/-- A note in a table with a blank in its name. -/
def spacedNoteSpec : EntitySpec :=
  { EntitySpec.named "Note" with
    table := "MY NOTES"
    fields := [(FieldSpec.named "id" .long).asPrimaryKey,
      (FieldSpec.named "state" .string).withDefault "new"] }

/-- A registry of such notes. -/
def spacedNotes (db : Database) : Registry :=
  Registry.ofSpecs (Dialect.builtin db) [spacedNoteSpec]

/-- The name of the table is quoted. Those made up of it are not, and end at the blank. -/
theorem blank_splits_made_up_names :
    (∀ db, (spacedNotes db).IsReachable) ∧
    (∃ note statements, (spacedNotes .oracle).get "Note" = .ok note ∧
      note.createTable (spacedNotes .oracle).dialect = .ok statements ∧
      (.createSequence note.table) ∈ statements ∧
      (spacedNotes .oracle).dialect.ddl.text .compact (.createSequence note.table) =
        "CREATE SEQUENCE MY NOTES_SEQ START WITH 1 INCREMENT BY 1" ∧
      (spacedNotes .oracle).dialect.naming.readName
          "MY NOTES_SEQ START WITH 1 INCREMENT BY 1".toList =
        some ("MY", " NOTES_SEQ START WITH 1 INCREMENT BY 1".toList)) ∧
    ∃ note state, (spacedNotes .mssql).get "Note" = .ok note ∧
      note.tableField "state" = .ok state ∧
      (spacedNotes .mssql).dialect.ddl.text .compact (.dropDefault (note.target state)) =
        "ALTER TABLE dbo.[MY NOTES] DROP CONSTRAINT DF_MY NOTES_STATE" ∧
      (spacedNotes .mssql).dialect.naming.readName "DF_MY NOTES_STATE".toList =
        some ("DF_MY", " NOTES_STATE".toList) := by
  refine ⟨fun db => Registry.isReachable_ofSpecs (List.forall_mem_singleton.2
    (EntitySpec.isFinished_of_build (by decide))), ?_, ?_⟩
  · obtain ⟨note, hnote, htest⟩ : ∃ note, (spacedNotes .oracle).get "Note" = .ok note ∧
        ((note.createTable (spacedNotes .oracle).dialect).toOption.any fun statements =>
          decide (.createSequence note.table ∈ statements ∧
            (spacedNotes .oracle).dialect.ddl.text .compact (.createSequence note.table) =
              "CREATE SEQUENCE MY NOTES_SEQ START WITH 1 INCREMENT BY 1")) = true :=
      exists_ok_of_any (by decide +kernel)
    obtain ⟨statements, hs, htest⟩ := exists_ok_of_any htest
    obtain ⟨hmem, htext⟩ := of_decide_eq_true htest
    exact ⟨note, statements, hnote, hs, hmem, htext, by decide +kernel⟩
  · obtain ⟨note, hnote, htest⟩ : ∃ note, (spacedNotes .mssql).get "Note" = .ok note ∧
        ((note.tableField "state").toOption.any fun state =>
          decide ((spacedNotes .mssql).dialect.ddl.text .compact
              (.dropDefault (note.target state)) =
            "ALTER TABLE dbo.[MY NOTES] DROP CONSTRAINT DF_MY NOTES_STATE")) = true :=
      exists_ok_of_any (by decide +kernel)
    obtain ⟨state, hstate, htext⟩ := exists_ok_of_any htest
    exact ⟨note, state, hnote, hstate, of_decide_eq_true htext, by decide +kernel⟩

end SqlDialects
