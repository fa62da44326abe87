import SqlDialects.Proofs.Operands
import SqlDialects.Query.Rows
import SqlDialects.Query.Select

/-!
# The text of a statement on rows

A statement on rows is put together from its columns, its table, a condition and what the window
adds. This module reads each of these parts, and from them whole statements: a query, whatever it
selects, and the three statements that write.

Results:
1. `Command.reads_query`: what is selected, from where, and under which condition.
2. `Command.reads_insert`, `Command.reads_update`, `Command.reads_delete`.
3. `WindowStyle.isTail_atEnd`, `WindowStyle.isTail_afterWhere`, `WindowStyle.reads_afterSelect`: the
   window compares nothing, wherever the dialect writes it.
-/

namespace SqlDialects

theorem forall_mem_intercalate {α β : Type} {p : β → Prop} {glue : List β} {items : List α}
    {read : α → List β} (hg : ∀ t ∈ glue, p t) (h : ∀ x ∈ items, ∀ t ∈ read x, p t) :
    ∀ t ∈ glue.intercalate (items.map read), p t := by
  induction items with
  | nil => exact fun t ht => absurd ht List.not_mem_nil
  | cons x rest ih =>
    have hx := h x List.mem_cons_self
    have hrest := ih fun y hy => h y (List.mem_cons_of_mem _ hy)
    cases rest with
    | nil => simpa using hx
    | cons y rest =>
      rw [List.map_cons, List.map_cons, List.intercalate_cons_cons, ← List.map_cons]
      exact List.forall_mem_append.2 ⟨List.forall_mem_append.2 ⟨hx, hg⟩, hrest⟩

theorem filterMap_intercalate {α β γ : Type} {f : β → Option γ} {glue : List β} {items : List α}
    {read : α → List β} (hg : glue.filterMap f = []) :
    (glue.intercalate (items.map read)).filterMap f =
      items.flatMap fun x => (read x).filterMap f := by
  induction items with
  | nil => rfl
  | cons x rest ih =>
    cases rest with
    | nil => simp
    | cons y rest =>
      rw [List.map_cons, List.map_cons, List.intercalate_cons_cons, ← List.map_cons,
        List.filterMap_append, List.filterMap_append, hg, ih, List.append_nil]
      rfl

/-- What may stand before the columns of a query. -/
def Token.isFiller : Token → Bool
  | .keyword word => word != "FROM" && word != "BETWEEN"
  | .number _ => true
  | .name _ | .mark _ | .unclosed _ => false

/-- Part of the name of a table or view. -/
def Token.isSource : Token → Bool
  | .name text => !text.toList.contains '?'
  | .mark c => c == '.'
  | .keyword _ | .number _ | .unclosed _ => false

theorem Token.isQuiet_of_isFiller {t : Token} (h : t.isFiller = true) : t.isQuiet = true := by
  cases t with
  | keyword word => exact (Bool.and_eq_true_iff.1 h).2
  | number text => rfl
  | name text => cases h
  | mark c => cases h
  | unclosed text => cases h

theorem Token.isQuiet_of_isSource {t : Token} (h : t.isSource = true) : t.isQuiet = true := by
  cases t with
  | name text => exact h
  | mark c =>
    obtain rfl : c = '.' := by simpa [isSource] using h
    rfl
  | keyword word => cases h
  | number text => cases h
  | unclosed text => cases h

namespace Command

/-! ## Statements in their clauses -/

theorem text_insert (l : Layout) (table : String) (columns : List String) :
    (insert table columns).text l =
      "INSERT INTO " ++ table ++ " (" ++ String.intercalate ", " columns ++ ")" ++ l.separator ++
        ("VALUES (" ++ String.intercalate ", " (columns.map fun _ => Value.placeholder) ++ ")") := by
  have h : (insert table columns).text l = String.intercalate l.separator
      ["INSERT INTO " ++ table ++ " (" ++ String.intercalate ", " columns ++ ")",
        "VALUES (" ++ String.intercalate ", " (columns.map fun _ => Value.placeholder) ++ ")"] :=
    rfl
  rw [h, String.intercalate_cons_cons, String.intercalate_singleton]

theorem text_find (l : Layout) (table : String) (columns key : List String) :
    (find table columns key).text l =
      "SELECT " ++ String.intercalate ", " columns ++ l.separator ++
        ("FROM " ++ table ++ l.separator ++ keyClause key) := by
  have h : (find table columns key).text l = String.intercalate l.separator
      ["SELECT " ++ String.intercalate ", " columns, "FROM " ++ table, keyClause key] := rfl
  rw [h, String.intercalate_cons_cons, String.intercalate_cons_cons, String.intercalate_singleton]

theorem text_update (l : Layout) (table : String) (columns key : List String) :
    (update table columns key).text l =
      "UPDATE " ++ table ++ l.separator ++ ("SET " ++ String.intercalate ", " (columns.map equation)
        ++ l.separator ++ keyClause key) := by
  have h : (update table columns key).text l = String.intercalate l.separator
      ["UPDATE " ++ table, "SET " ++ String.intercalate ", " (columns.map equation),
        keyClause key] := rfl
  rw [h, String.intercalate_cons_cons, String.intercalate_cons_cons, String.intercalate_singleton]

theorem text_delete (l : Layout) (table : String) (key : List String) :
    (delete table key).text l = "DELETE FROM " ++ table ++ l.separator ++ keyClause key := by
  have h : (delete table key).text l =
      String.intercalate l.separator ["DELETE FROM " ++ table, keyClause key] := rfl
  rw [h, String.intercalate_cons_cons, String.intercalate_singleton]

theorem text_count (l : Layout) (table : String) (filter : Option Condition) :
    (count table filter).text l =
      "SELECT " ++ "COUNT(*)" ++ l.separator ++
        ("FROM " ++ table ++ filterClause l.separator filter) := by
  have h : (count table filter).text l =
      "SELECT COUNT(*)" ++ l.separator ++ "FROM " ++ table ++ filterClause l.separator filter := rfl
  have hselect : "SELECT " ++ "COUNT(*)" = "SELECT COUNT(*)" := by decide
  rw [h, hselect]
  simp only [String.append_assoc]

theorem text_select (l : Layout) (s : Select) :
    (select s).text l =
      "SELECT " ++ ((if s.distinct then "DISTINCT " else "") ++ s.afterSelect
        ++ String.intercalate ", " s.columns) ++ l.separator ++ ("FROM " ++ s.source ++
          (filterClause l.separator s.filter ++ s.afterWhere ++ orderClause l.separator s.order
            ++ s.atEnd)) := by
  have h : (select s).text l =
      "SELECT " ++ (if s.distinct then "DISTINCT " else "") ++ s.afterSelect
        ++ String.intercalate ", " s.columns ++ l.separator ++ "FROM " ++ s.source
        ++ filterClause l.separator s.filter ++ s.afterWhere
        ++ orderClause l.separator s.order ++ s.atEnd := rfl
  rw [h]
  simp only [String.append_assoc]

end Command

namespace Naming

variable {r : Naming}

theorem separates_separator (hr : r.IsBuiltin) (l : Layout) : r.Separates l.separator [] := by
  cases l with
  | compact =>
    exact ConditionRule.separates_of_mem hr (by simp [ConditionRule.separators, Layout.separator])
  | pretty =>
    exact ConditionRule.separates_of_mem hr (by simp [ConditionRule.separators, Layout.separator])

/-- What clauses begin with. -/
def openings : List (String × List Token) :=
  [("SELECT ", [.keyword "SELECT"]), ("DISTINCT ", [.keyword "DISTINCT"]),
    ("FROM ", [.keyword "FROM"]), ("WHERE ", [.keyword "WHERE"]),
    ("ORDER BY ", [.keyword "ORDER", .keyword "BY"]),
    ("INSERT INTO ", [.keyword "INSERT", .keyword "INTO"]),
    ("VALUES (", [.keyword "VALUES", .mark '(']), ("UPDATE ", [.keyword "UPDATE"]),
    ("SET ", [.keyword "SET"]), ("DELETE FROM ", [.keyword "DELETE", .keyword "FROM"])]

theorem endsApart_opening (hr : r.IsBuiltin) {s : String} {ts : List Token}
    (h : (s, ts) ∈ openings) : r.EndsApart s ∧ r.Reads s ts := by
  obtain ⟨db, rfl⟩ := hr
  have hall : ∀ p ∈ openings, (Dialect.builtin db).naming.EndsApart p.1 ∧
      (Dialect.builtin db).naming.Reads p.1 p.2 := by
    cases db <;> decide +kernel
  exact hall _ h

theorem reads_opening (hr : r.IsBuiltin) {s b : String} {ts us : List Token}
    (h : (s, ts) ∈ openings) (hb : r.Reads b us) : r.Reads (s ++ b) (ts ++ us) := by
  obtain ⟨hends, hreads⟩ := endsApart_opening hr h
  exact hreads.append hb (Or.inl hends)

/-! ## Columns -/

/-- The columns of fields, one after the other. -/
def columnTokens (r : Naming) (fields : List Field) : List Token :=
  [Token.mark ','].intercalate (fields.map fun f => [.name (r.folded f.column.raw)])

/-- A column that is to equal a parameter. -/
def equationTokens (r : Naming) (f : Field) : List Token :=
  [.name (r.folded f.column.raw), .mark '=', .mark '?']

/-- The equations of a key. -/
def keyTokens (r : Naming) (key : List Field) : List Token :=
  .keyword "WHERE" :: [Token.keyword "AND"].intercalate (key.map r.equationTokens)

variable {e : Entity} {fields : List Field}

theorem reads_columns (hr : r.IsBuiltin) (he : e.HasNamedColumns r)
    (hf : ∀ f ∈ fields, f ∈ e.fields) :
    r.Reads (String.intercalate ", " (Entity.writtenColumns fields)) (r.columnTokens fields) := by
  refine reads_intercalate (ConditionRule.separates_comma hr) fun f hm => ?_
  rw [(he f (hf f hm)).1]
  exact reads_written hr.hasOwnQuotes f.column.raw

theorem isQuiet_columnTokens (he : e.HasNamedColumns r) (hf : ∀ f ∈ fields, f ∈ e.fields) :
    ∀ t ∈ r.columnTokens fields, t.isQuiet = true := by
  refine forall_mem_intercalate (by decide) fun f hm => List.forall_mem_singleton.2 ?_
  simpa [Token.isQuiet] using notMem_folded (he f (hf f hm)).2

theorem reads_equation (hr : r.IsBuiltin) {f : Field}
    (hf : f.column.written = r.written f.column.raw) :
    r.Reads (Command.equation f.column.written) (r.equationTokens f) := by
  have hequals : r.Separates " = " [.mark '='] :=
    ConditionRule.separates_of_mem hr (by simp [ConditionRule.separators])
  have hplaceholder := ConditionRule.separates_placeholder hr
  rw [hf]
  exact (reads_written hr.hasOwnQuotes f.column.raw).separated hequals hplaceholder.reads

theorem compares_equation (he : e.HasNamedColumns r) {f : Field} (hf : f ∈ e.fields) :
    Compares (r.equationTokens f) [some (r.folded f.column.raw)] := by
  have hstill : ∀ t ∈ [Token.mark '=', .mark '?'], t.isStill = true := by decide
  exact Compares.of_isStill (notMem_folded (he f hf).2) hstill

/-- Equations with something between them compare each column with its placeholder. -/
theorem compares_equations (he : e.HasNamedColumns r) (hf : ∀ f ∈ fields, f ∈ e.fields)
    {glue : List Token} (hg : Compares glue []) :
    Compares (glue.intercalate (fields.map r.equationTokens))
      (fields.map fun f => some (r.folded f.column.raw)) := by
  have h := Compares.intercalate hg fun f hm => compares_equation he (hf f hm)
  rwa [← List.map_eq_flatMap] at h

theorem reads_keyClause (hr : r.IsBuiltin) (he : e.HasNamedColumns r)
    (hf : ∀ f ∈ fields, f ∈ e.fields) :
    r.Reads (Command.keyClause (Entity.writtenColumns fields)) (r.keyTokens fields) := by
  have hlist : r.Reads (String.intercalate " AND "
      ((Entity.writtenColumns fields).map Command.equation))
      ([Token.keyword "AND"].intercalate (fields.map r.equationTokens)) := by
    rw [Entity.writtenColumns, List.map_map]
    exact reads_intercalate (ConditionRule.separates_of_mem hr (by simp [ConditionRule.separators]))
      fun f hm => reads_equation hr (he f (hf f hm)).1
  have hwhere : ("WHERE ", [Token.keyword "WHERE"]) ∈ openings := by simp [openings]
  exact reads_opening hr hwhere hlist

theorem compares_keyTokens (he : e.HasNamedColumns r) (hf : ∀ f ∈ fields, f ∈ e.fields) :
    Compares (r.keyTokens fields) (fields.map fun f => some (r.folded f.column.raw)) := by
  have hwhere : Compares [.keyword "WHERE"] [] := .of_isQuiet (by decide)
  exact hwhere.append (compares_equations he hf (.of_isQuiet (by decide)))

/-! ## What comes after the condition -/

/-- A text that may end a statement, since it compares nothing. -/
def IsTail (r : Naming) (s : String) : Prop :=
  r.StartsApart s ∧ ∃ ts, r.Reads s ts ∧ ∀ t ∈ ts, t.isQuiet = true

theorem isTail_empty : r.IsTail "" :=
  ⟨startsApart_empty, [], reads_empty, fun _ h => absurd h List.not_mem_nil⟩

theorem IsTail.append {a b : String} (ha : r.IsTail a) (hb : r.IsTail b) : r.IsTail (a ++ b) := by
  obtain ⟨hsa, ts, hta, hqa⟩ := ha
  obtain ⟨hsb, us, htb, hqb⟩ := hb
  exact ⟨hsa.append hsb, ts ++ us, hta.append htb (Or.inr hsb), List.forall_mem_append.2 ⟨hqa, hqb⟩⟩

/-- What windows write before a number. -/
def windowOpenings : List String :=
  [" LIMIT ", " OFFSET ", " FETCH NEXT ", " AND ROWNUM <= ", " WHERE ROWNUM <= "]

/-- What comes after a number of rows or a column to order by. -/
def endings : List String := [" ROWS", " ROWS ONLY", " ASC", " DESC"]

theorem isTail_number (hr : r.IsBuiltin) {s : String} (h : s ∈ windowOpenings) (n : Nat) :
    r.IsTail (s ++ toString n) := by
  have hnumber := reads_nat hr.hasOwnQuotes n
  obtain ⟨db, rfl⟩ := hr
  have hall : ∀ s ∈ windowOpenings,
      (Dialect.builtin db).naming.Separates s ((Dialect.builtin db).naming.tokens s) ∧
        ∀ t ∈ (Dialect.builtin db).naming.tokens s, t.isQuiet = true := by
    cases db <;> decide +kernel
  obtain ⟨hsep, hquiet⟩ := hall s h
  exact ⟨hsep.startsApart_append _, _, hsep.reads_append hnumber,
    List.forall_mem_append.2 ⟨hquiet, List.forall_mem_singleton.2 rfl⟩⟩

theorem isTail_ending (hr : r.IsBuiltin) {s : String} (h : s ∈ endings) :
    r.IsTail s := by
  obtain ⟨db, rfl⟩ := hr
  have hall : ∀ s ∈ endings, (Dialect.builtin db).naming.StartsApart s ∧
      (Dialect.builtin db).naming.IsClosed s ∧
        ∀ t ∈ (Dialect.builtin db).naming.tokens s, t.isQuiet = true := by
    cases db <;> decide +kernel
  obtain ⟨hstart, hclosed, hquiet⟩ := hall s h
  exact ⟨hstart, _, ⟨hclosed, rfl⟩, hquiet⟩

theorem isTail_atEnd (hr : r.IsBuiltin) (w : WindowStyle) (offset limit : Nat) :
    r.IsTail ((w.atEnd offset limit).getD "") := by
  have hlimit (n : Nat) : r.IsTail (" LIMIT " ++ toString n) := isTail_number hr (by decide) n
  have hoffset (n : Nat) : r.IsTail (" OFFSET " ++ toString n) := isTail_number hr (by decide) n
  have hfetch (n : Nat) : r.IsTail (" FETCH NEXT " ++ toString n) :=
    isTail_number hr (by decide) n
  have hrows : r.IsTail " ROWS" := isTail_ending hr (by decide)
  have honly : r.IsTail " ROWS ONLY" := isTail_ending hr (by decide)
  unfold WindowStyle.atEnd
  split
  · exact isTail_empty
  · cases w with
    | limitOffset limitRequired =>
      refine IsTail.append ?_ ?_
      · split
        · exact hlimit limit
        · split
          · exact hlimit _
          · exact isTail_empty
      · split
        · exact hoffset offset
        · exact isTail_empty
    | offsetFetch =>
      refine IsTail.append ?_ ?_
      · split
        · exact (hoffset offset).append hrows
        · exact isTail_empty
      · split
        · exact (hfetch limit).append honly
        · exact isTail_empty
    | top dialect => exact isTail_empty
    | rowNumber dialect => exact isTail_empty

theorem limitOnly_eq_ok {dialect : String} {offset limit : Nat} {write : Nat → String}
    {a : Option String} (h : WindowStyle.limitOnly dialect offset limit write = .ok a) :
    a = none ∨ a = some (write limit) := by
  unfold WindowStyle.limitOnly at h
  split at h
  · cases h
  · split at h
    · exact Or.inl (Except.ok.inj h).symm
    · exact Or.inr (Except.ok.inj h).symm

theorem isTail_afterWhere (hr : r.IsBuiltin) {w : WindowStyle} {offset limit : Nat}
    {hasWhere : Bool} {a : Option String} (h : w.afterWhere offset limit hasWhere = .ok a) :
    r.IsTail (a.getD "") := by
  have hand : r.IsTail (" AND ROWNUM <= " ++ toString limit) :=
    isTail_number hr (by decide) limit
  have hwhere : r.IsTail (" WHERE ROWNUM <= " ++ toString limit) :=
    isTail_number hr (by decide) limit
  cases w with
  | rowNumber dialect =>
    simp only [WindowStyle.afterWhere] at h
    obtain rfl | rfl := limitOnly_eq_ok h
    · exact isTail_empty
    · cases hasWhere with
      | false =>
        have hs : " " ++ "WHERE" ++ " ROWNUM <= " = " WHERE ROWNUM <= " := by decide
        exact hs ▸ hwhere
      | true =>
        have hs : " " ++ "AND" ++ " ROWNUM <= " = " AND ROWNUM <= " := by decide
        exact hs ▸ hand
  | limitOffset limitRequired =>
    obtain rfl := Except.ok.inj h
    exact isTail_empty
  | offsetFetch =>
    obtain rfl := Except.ok.inj h
    exact isTail_empty
  | top dialect =>
    obtain rfl := Except.ok.inj h
    exact isTail_empty

theorem reads_orderItem (hr : r.IsBuiltin) {item : String × Bool} {raw : String}
    (hitem : item.1 = r.written raw) (hraw : '?' ∉ raw.toList) :
    r.Reads (Command.orderItem item) (r.tokens (Command.orderItem item)) ∧
      ∀ t ∈ r.tokens (Command.orderItem item), t.isQuiet = true := by
  obtain ⟨hstart, ts, hts, hquiet⟩ : r.IsTail (if item.2 then " ASC" else " DESC") := by
    cases item.2 <;> exact isTail_ending hr (by decide)
  have hreads : r.Reads (Command.orderItem item) ([Token.name (r.folded raw)] ++ ts) := by
    rw [Command.orderItem, hitem]
    exact (reads_written hr.hasOwnQuotes raw).append hts (Or.inr hstart)
  have hname : (Token.name (r.folded raw)).isQuiet = true := by
    simpa [Token.isQuiet] using notMem_folded hraw
  rw [hreads.2]
  exact ⟨hreads, List.forall_mem_append.2 ⟨List.forall_mem_singleton.2 hname, hquiet⟩⟩

/-- The order of a query names columns and compares none. -/
theorem isTail_orderClause (hr : r.IsBuiltin) (l : Layout) {order : List (String × Bool)}
    (h : ∀ item ∈ order, ∃ raw, item.1 = r.written raw ∧ '?' ∉ raw.toList) :
    r.IsTail (Command.orderClause l.separator order) := by
  have hitem : ∀ item ∈ order,
      r.Reads (Command.orderItem item) (r.tokens (Command.orderItem item)) ∧
        ∀ t ∈ r.tokens (Command.orderItem item), t.isQuiet = true := by
    intro item hm
    obtain ⟨raw, hwritten, hraw⟩ := h item hm
    exact reads_orderItem hr hwritten hraw
  have hcomma := ConditionRule.separates_comma hr
  have horder : ("ORDER BY ", [Token.keyword "ORDER", .keyword "BY"]) ∈ openings := by
    simp [openings]
  have hsep := separates_separator hr l
  have hlist := reads_intercalate hcomma fun item hm => (hitem item hm).1
  unfold Command.orderClause
  split
  · exact isTail_empty
  · rw [String.append_assoc]
    refine ⟨hsep.startsApart_append _, _, hsep.reads_append (reads_opening hr horder hlist), ?_⟩
    have hcolumns := forall_mem_intercalate (by decide : ∀ t ∈ [Token.mark ','], t.isQuiet = true)
      fun item hm => (hitem item hm).2
    simpa [Token.isQuiet] using hcolumns

/-! ## Queries -/

/-- A query, whatever it selects and from where. -/
theorem reads_query (hr : r.IsBuiltin) (l : Layout) {head source rest : String}
    {hts sts rts : List Token} (hhead : r.Reads head hts) (hsource : r.Reads source sts)
    (hrest : r.Reads rest rts) (hapart : r.StartsApart rest) :
    r.Reads ("SELECT " ++ head ++ l.separator ++ ("FROM " ++ source ++ rest))
      (.keyword "SELECT" :: (hts ++ .keyword "FROM" :: (sts ++ rts))) := by
  have hselect : ("SELECT ", [Token.keyword "SELECT"]) ∈ openings := by simp [openings]
  have hfrom : ("FROM ", [Token.keyword "FROM"]) ∈ openings := by simp [openings]
  have htail := reads_opening hr hfrom (hsource.append hrest (Or.inr hapart))
  have hall := reads_opening hr hselect (hhead.separated (separates_separator hr l) htail)
  simpa [String.append_assoc] using hall

theorem compares_query {hts sts rts : List Token} {columns : List (Option String)}
    (hhead : ∀ t ∈ hts, t.isQuiet = true) (hsource : ∀ t ∈ sts, t.isQuiet = true)
    (hrest : Compares rts columns) :
    Compares (.keyword "SELECT" :: (hts ++ .keyword "FROM" :: (sts ++ rts))) columns := by
  have hselect : Compares [.keyword "SELECT"] [] := .of_isQuiet (by decide)
  have hfrom : Compares [.keyword "FROM"] [] := .of_isQuiet (by decide)
  have htail := hfrom.append ((Compares.of_isQuiet hsource).append hrest)
  simpa using hselect.append ((Compares.of_isQuiet hhead).append htail)

/-! ## What comes before the columns -/

/-- A text that may come before the columns of a query, since it names none. -/
def IsLead (r : Naming) (s : String) : Prop :=
  r.EndsApart s ∧ ∃ ts, r.Reads s ts ∧ ∀ t ∈ ts, t.isFiller = true

theorem isLead_empty : r.IsLead "" :=
  ⟨endsApart_empty, [], reads_empty, fun _ h => absurd h List.not_mem_nil⟩

theorem IsLead.append {a b : String} (ha : r.IsLead a) (hb : r.IsLead b) : r.IsLead (a ++ b) := by
  obtain ⟨hea, ts, hta, hfa⟩ := ha
  obtain ⟨heb, us, htb, hfb⟩ := hb
  exact ⟨hea.append heb, ts ++ us, hta.append htb (Or.inl hea),
    List.forall_mem_append.2 ⟨hfa, hfb⟩⟩

theorem isLead_distinct (hr : r.IsBuiltin) (distinct : Bool) :
    r.IsLead (if distinct then "DISTINCT " else "") := by
  have hword : ("DISTINCT ", [Token.keyword "DISTINCT"]) ∈ openings := by simp [openings]
  obtain ⟨hends, hreads⟩ := endsApart_opening hr hword
  cases distinct with
  | false => exact isLead_empty
  | true => exact ⟨hends, _, hreads, by decide⟩

/-- Only one dialect writes its window before the columns, and the word it writes is reserved. -/
theorem isLead_afterSelect {db : Database} {offset limit : Nat} {a : Option String}
    (h : (Dialect.builtin db).window.afterSelect offset limit = .ok a) :
    (Dialect.builtin db).naming.IsLead (a.getD "") := by
  have hother (hnone : .ok none = (Except.ok a : Except Error (Option String))) :
      (Dialect.builtin db).naming.IsLead (a.getD "") := by
    obtain rfl := Except.ok.inj hnone
    exact isLead_empty
  cases db with
  | mssql =>
    have hlimit : WindowStyle.limitOnly "mssql" offset limit (fun n => s!"TOP {n} ") = .ok a := h
    obtain rfl | rfl := limitOnly_eq_ok hlimit
    · exact isLead_empty
    · have hr := isBuiltin .mssql
      have htop : (Dialect.builtin .mssql).naming.EndsApart "TOP " := by decide
      have hblank : (Dialect.builtin .mssql).naming.Separates " " [] :=
        separates_separator hr .compact
      have hread : (Dialect.builtin .mssql).naming.Reads "TOP " [.keyword "TOP"] := by
        decide
      have hnumber := hread.append (reads_nat hr.hasOwnQuotes limit) (Or.inl htop)
      exact ⟨hblank.endsApart_append hnumber.1, _,
        hnumber.append hblank.reads (Or.inr hblank.starts), by simp [Token.isFiller]⟩
  | hsqldb => exact hother h
  | postgresql => exact hother h
  | mysql => exact hother h
  | oracle => exact hother h
  | oracle12 => exact hother h

/-! ## Statements -/

/-- The name of a table or view. -/
def IsSource (r : Naming) (s : String) : Prop :=
  ∃ ts, r.Reads s ts ∧ ∀ t ∈ ts, t.isSource = true

theorem isSource_writtenIn (hr : r.IsBuiltin) {schema : Option String} {name : String}
    (hschema : ∀ s ∈ schema, '?' ∉ s.toList) (hname : '?' ∉ name.toList) :
    r.IsSource (r.writtenIn schema name) := by
  refine ⟨_, reads_writtenIn hr schema name, ?_⟩
  have hfolded := notMem_folded (r := r) hname
  cases schema with
  | none => simp [qualifiedTokens, Token.isSource, hfolded]
  | some schema =>
    have hs := notMem_folded (r := r) (hschema schema rfl)
    simp [qualifiedTokens, Token.isSource, hfolded, hs]

/-- The tokens of an insertion of `k` values into the listed columns of a table. -/
def insertTokens (table columns : List Token) (k : Nat) : List Token :=
  [Token.keyword "INSERT", Token.keyword "INTO"] ++ (table ++ (Token.mark '(' :: (columns ++
    (Token.mark ')' :: Token.keyword "VALUES" :: Token.mark '(' ::
      ([Token.mark ','].intercalate (List.replicate k [Token.mark '?']) ++ [Token.mark ')'])))))

theorem reads_insert (hr : r.IsBuiltin) (l : Layout) (he : e.HasNamedColumns r)
    (hf : ∀ f ∈ fields, f ∈ e.fields) {table : String} {tts : List Token}
    (htable : r.Reads table tts) :
    r.Reads ((Command.insert table (Entity.writtenColumns fields)).text l)
      (insertTokens tts (r.columnTokens fields) fields.length) := by
  have hinsert : ("INSERT INTO ", [Token.keyword "INSERT", .keyword "INTO"]) ∈ openings := by
    simp [openings]
  have hvalues : ("VALUES (", [Token.keyword "VALUES", .mark '(']) ∈ openings := by simp [openings]
  have hcomma := ConditionRule.separates_comma hr
  have hclose := ConditionRule.separates_close hr
  have hopen : r.Separates " (" [.mark '('] :=
    ConditionRule.separates_of_mem hr (by simp [ConditionRule.separators])
  have hplaceholder : ∀ f ∈ fields, r.Reads Value.placeholder [.mark '?'] := fun _ _ =>
    (ConditionRule.separates_placeholder hr).reads
  have hmarks := (reads_intercalate hcomma hplaceholder).append hclose.reads (Or.inr hclose.starts)
  have hsecond := (separates_separator hr l).reads_append (reads_opening hr hvalues hmarks)
  have hcolumns := (reads_columns hr he hf).separated hclose hsecond
  have hall := reads_opening hr hinsert (htable.separated hopen hcolumns)
  have htext : (Command.insert table (Entity.writtenColumns fields)).text l =
      "INSERT INTO " ++ (table ++ " (" ++
        (String.intercalate ", " (Entity.writtenColumns fields) ++ ")" ++
          (l.separator ++ ("VALUES (" ++
            (String.intercalate ", " (fields.map fun _ => Value.placeholder) ++ ")"))))) := by
    rw [Command.text_insert, Entity.writtenColumns, List.map_map]
    simp only [String.append_assoc, Function.comp_def]
  rw [htext, insertTokens, ← List.map_const']
  simpa using hall

theorem reads_update (hr : r.IsBuiltin) (l : Layout) (he : e.HasNamedColumns r)
    (hf : ∀ f ∈ fields, f ∈ e.fields) {key : List Field} (hkey : ∀ f ∈ key, f ∈ e.fields)
    {table : String} {tts : List Token} (htable : r.Reads table tts) :
    r.Reads ((Command.update table (Entity.writtenColumns fields)
        (Entity.writtenColumns key)).text l)
      (.keyword "UPDATE" :: (tts ++ (.keyword "SET" ::
        ([Token.mark ','].intercalate (fields.map r.equationTokens) ++ r.keyTokens key)))) := by
  have hupdate : ("UPDATE ", [Token.keyword "UPDATE"]) ∈ openings := by simp [openings]
  have hset : ("SET ", [Token.keyword "SET"]) ∈ openings := by simp [openings]
  have hsep := separates_separator hr l
  have hcomma := ConditionRule.separates_comma hr
  have hlist := reads_intercalate hcomma fun f hm => reads_equation hr (he f (hf f hm)).1
  have hassign := reads_opening hr hset (hlist.separated hsep (reads_keyClause hr he hkey))
  have hall := reads_opening hr hupdate (htable.separated hsep hassign)
  have htext : (Command.update table (Entity.writtenColumns fields)
      (Entity.writtenColumns key)).text l =
      "UPDATE " ++ (table ++ l.separator ++ ("SET " ++
        (String.intercalate ", " (fields.map fun f => Command.equation f.column.written)
          ++ l.separator ++ Command.keyClause (Entity.writtenColumns key)))) := by
    rw [Command.text_update, Entity.writtenColumns, List.map_map]
    simp only [String.append_assoc, Function.comp_def]
  rw [htext]
  simpa using hall

theorem reads_delete (hr : r.IsBuiltin) (l : Layout) (he : e.HasNamedColumns r)
    {key : List Field} (hkey : ∀ f ∈ key, f ∈ e.fields)
    {table : String} {tts : List Token} (htable : r.Reads table tts) :
    r.Reads ((Command.delete table (Entity.writtenColumns key)).text l)
      ([Token.keyword "DELETE", .keyword "FROM"] ++ (tts ++ r.keyTokens key)) := by
  have hdelete : ("DELETE FROM ", [Token.keyword "DELETE", .keyword "FROM"]) ∈ openings := by
    simp [openings]
  have hkeys := htable.separated (separates_separator hr l) (reads_keyClause hr he hkey)
  have hall := reads_opening hr hdelete hkeys
  have htext : (Command.delete table (Entity.writtenColumns key)).text l =
      "DELETE FROM " ++ (table ++ l.separator ++
        Command.keyClause (Entity.writtenColumns key)) := by
    rw [Command.text_delete]
    simp only [String.append_assoc]
  rw [htext]
  simpa using hall

theorem reads_find (hr : r.IsBuiltin) (l : Layout) (he : e.HasNamedColumns r)
    (hf : ∀ f ∈ fields, f ∈ e.fields) {key : List Field} (hkey : ∀ f ∈ key, f ∈ e.fields)
    {table : String} {tts : List Token} (htable : r.Reads table tts) :
    r.Reads ((Command.find table (Entity.writtenColumns fields)
        (Entity.writtenColumns key)).text l)
      (.keyword "SELECT" :: (r.columnTokens fields ++
        .keyword "FROM" :: (tts ++ r.keyTokens key))) := by
  have hsep := separates_separator hr l
  have hrest := hsep.reads_append (reads_keyClause hr he hkey)
  have hall := reads_query hr l (reads_columns hr he hf) htable hrest (hsep.startsApart_append _)
  have htext : (Command.find table (Entity.writtenColumns fields)
      (Entity.writtenColumns key)).text l =
      "SELECT " ++ String.intercalate ", " (Entity.writtenColumns fields) ++ l.separator ++
        ("FROM " ++ table ++ (l.separator ++ Command.keyClause (Entity.writtenColumns key))) := by
    rw [Command.text_find]
    simp only [String.append_assoc]
  rw [htext]
  exact hall

/-- The tokens of the condition of a query. -/
def filterTokens (r : Naming) : Option BoundCondition → List Token
  | some c => .keyword "WHERE" :: c.condition.parts r
  | none => []

theorem reads_filterClause {db : Database} {filter : Option BoundCondition} (l : Layout)
    (he : e.HasNamedColumns (Dialect.builtin db).naming)
    (hfilter : ∀ c ∈ filter, c.IsBuilt (Dialect.builtin db) e) :
    (Dialect.builtin db).naming.StartsApart
        (Command.filterClause l.separator (filter.map (·.condition))) ∧
      (Dialect.builtin db).naming.Reads
        (Command.filterClause l.separator (filter.map (·.condition)))
        ((Dialect.builtin db).naming.filterTokens filter) := by
  have hr := isBuiltin db
  have hsep := separates_separator hr l
  cases filter with
  | none => exact ⟨startsApart_empty, reads_empty⟩
  | some c =>
    have hwhere : ("WHERE ", [Token.keyword "WHERE"]) ∈ openings := by simp [openings]
    have hclosed : ∀ f ∈ e.fields, (Dialect.builtin db).naming.IsClosed f.column.written := by
      intro f hf
      rw [(he f hf).1]
      exact (reads_written hr.hasOwnQuotes f.column.raw).1
    have hcondition := (hfilter c rfl).reads hclosed
    have hall := hsep.reads_append (reads_opening hr hwhere hcondition)
    have htext : Command.filterClause l.separator (some c.condition) =
        l.separator ++ ("WHERE " ++ c.condition.text) := String.append_assoc
    rw [Option.map_some, htext]
    exact ⟨hsep.startsApart_append _, hall⟩

theorem compares_filterTokens {db : Database} {filter : Option BoundCondition}
    (he : e.HasNamedColumns (Dialect.builtin db).naming)
    (hfilter : ∀ c ∈ filter, c.IsBuilt (Dialect.builtin db) e) :
    Compares ((Dialect.builtin db).naming.filterTokens filter)
      ((filter.elim [] (·.parameters)).map (·.column (Dialect.builtin db).naming e)) := by
  cases filter with
  | none => exact .nil
  | some c =>
    have hwhere : Compares [.keyword "WHERE"] [] := .of_isQuiet (by simp [Token.isQuiet])
    exact hwhere.append ((hfilter c rfl).compares he)

end Naming

end SqlDialects
