import SqlDialects.Proofs.Placeholders

/-!
# The place of a window

A SELECT is built with three places where a window of its result may be written: after
`SELECT [DISTINCT]`, after the condition and at the end. A dialect writes at one of them, and the
query without a window is what is left when that text is taken out.

Results:
1. `WindowStyle.written_eq_error_iff`, `WindowStyle.written_eq_empty_iff`: when a window is refused,
   and when nothing is written for it.
2. `Query.select_windowed`: a query with a window is the query without one and the text of the
   window at its place.
3. `Query.select_window_inserted`: in each database the text of a query with a window is the text
   without it and one piece put in.
-/

namespace SqlDialects

/-! ## Places -/

/-- A place of a SELECT where a window can stand. -/
inductive WindowPlace where
  | afterSelect
  | afterWhere
  | atEnd
deriving DecidableEq, Repr

/-- Where a database has the window of a result. -/
def Database.windowPlace : Database → WindowPlace
  | .mssql => .afterSelect
  | .oracle => .afterWhere
  | .hsqldb | .postgresql | .mysql | .oracle12 => .atEnd

/-- Whether a database has windows only from the first row on. -/
def Database.refusesOffset : Database → Bool
  | .mssql | .oracle => true
  | .hsqldb | .postgresql | .mysql | .oracle12 => false

namespace WindowStyle

/-- Where the style writes. -/
def place : WindowStyle → WindowPlace
  | .top _ => .afterSelect
  | .rowNumber _ => .afterWhere
  | .limitOffset _ | .offsetFetch => .atEnd

/-- What the style writes at its place. -/
def written (w : WindowStyle) (offset limit : Nat) (hasWhere : Bool) :
    Except Error (Option String) :=
  match w.place with
  | .afterSelect => w.afterSelect offset limit
  | .afterWhere => w.afterWhere offset limit hasWhere
  | .atEnd => .ok (w.atEnd offset limit)

theorem place_builtin (db : Database) : (Dialect.builtin db).window.place = db.windowPlace := by
  cases db <;> rfl

/-- The dialect that refuses an offset, as it is named in the message. -/
def refuser? : WindowStyle → Option String
  | .top dialect | .rowNumber dialect => some dialect
  | .limitOffset _ | .offsetFetch => none

theorem refuser?_builtin (db : Database) :
    (Dialect.builtin db).window.refuser? = if db.refusesOffset then some db.name else none := by
  cases db <;> rfl

variable {offset limit : Nat} {hasWhere : Bool} {text : Option String} {err : Error}

theorem afterSelect_elsewhere {w : WindowStyle} (hw : w.place ≠ .afterSelect) :
    w.afterSelect offset limit = .ok none := by
  cases w with
  | top dialect => exact absurd rfl hw
  | rowNumber dialect | limitOffset limitRequired | offsetFetch => rfl

theorem afterWhere_elsewhere {w : WindowStyle} (hw : w.place ≠ .afterWhere) :
    w.afterWhere offset limit hasWhere = .ok none := by
  cases w with
  | rowNumber dialect => exact absurd rfl hw
  | top dialect | limitOffset limitRequired | offsetFetch => rfl

theorem atEnd_elsewhere {w : WindowStyle} (hw : w.place ≠ .atEnd) :
    w.atEnd offset limit = none := by
  cases w with
  | top dialect | rowNumber dialect => exact ite_self none
  | limitOffset limitRequired | offsetFetch => exact absurd rfl hw

theorem written_top (dialect : String) :
    (top dialect).written offset limit hasWhere =
      limitOnly dialect offset limit fun n => s!"TOP {n} " := rfl

theorem written_rowNumber (dialect : String) :
    (rowNumber dialect).written offset limit hasWhere =
      limitOnly dialect offset limit fun n =>
        " " ++ (if hasWhere then "AND" else "WHERE") ++ " ROWNUM <= " ++ toString n := rfl

theorem limitOnly_eq_error_iff {dialect : String} {write : Nat → String} :
    limitOnly dialect offset limit write = .error err ↔
      0 < offset ∧ .offsetNotSupported dialect offset = err := by
  unfold limitOnly
  split
  next hoffset => rw [Except.error.injEq, and_iff_right hoffset]
  next hoffset =>
    constructor
    · intro h
      cases h
    · rintro ⟨h, -⟩
      exact absurd h hoffset

theorem limitOnly_eq_empty_iff {dialect : String} {write : Nat → String}
    (hwrite : write limit ≠ "") (h : limitOnly dialect offset limit write = .ok text) :
    text.getD "" = "" ↔ offset = 0 ∧ limit = 0 := by
  unfold limitOnly at h
  split at h
  · cases h
  next hoffset =>
    obtain rfl := Except.ok.inj h
    have hzero : offset = 0 := Nat.eq_zero_of_not_pos hoffset
    split
    next hlimit => exact iff_of_true rfl ⟨hzero, hlimit⟩
    next hlimit => exact iff_of_false hwrite fun hand => hlimit hand.2

theorem append_ne_empty {opening rest : String} (h : opening ≠ "") : opening ++ rest ≠ "" := by
  intro hempty
  exact h (String.append_eq_empty_iff.1 hempty).1

/-- A part of a window is written for a number that is not zero. -/
theorem part_eq_empty_iff {opening ending : String} {n : Nat} (h : opening ≠ "") :
    (if 0 < n then opening ++ toString n ++ ending else "") = "" ↔ n = 0 := by
  split
  next hn => exact iff_of_false (append_ne_empty (append_ne_empty h)) hn.ne'
  next hn => exact iff_of_true rfl (Nat.eq_zero_of_not_pos hn)

theorem atEnd_eq_empty_iff {w : WindowStyle} (hw : w.place = .atEnd) :
    (w.atEnd offset limit).getD "" = "" ↔ offset = 0 ∧ limit = 0 := by
  unfold atEnd
  split
  next hzero => exact iff_of_true rfl hzero
  next hzero =>
    cases w with
    | limitOffset limitRequired =>
      refine iff_of_false (fun hempty => ?_) hzero
      obtain ⟨hlimitText, hoffsetText⟩ := String.append_eq_empty_iff.1 hempty
      rcases Nat.eq_zero_or_pos limit with hlimit | hlimit
      · have hoffset : 0 < offset := Nat.pos_of_ne_zero fun h => hzero ⟨h, hlimit⟩
        rw [if_pos hoffset] at hoffsetText
        exact append_ne_empty (by decide) hoffsetText
      · rw [if_pos hlimit] at hlimitText
        exact append_ne_empty (by decide) hlimitText
    | offsetFetch =>
      rw [Option.getD_some, String.append_eq_empty_iff]
      exact and_congr (part_eq_empty_iff (by decide)) (part_eq_empty_iff (by decide))
    | top dialect => cases hw
    | rowNumber dialect => cases hw

/-- Only a style that refuses offsets fails, and for nothing else. -/
theorem written_eq_error_iff {w : WindowStyle} :
    w.written offset limit hasWhere = .error err ↔
      0 < offset ∧ ∃ dialect ∈ w.refuser?, .offsetNotSupported dialect offset = err := by
  cases w with
  | top dialect =>
    rw [written_top, limitOnly_eq_error_iff]
    simp [refuser?]
  | rowNumber dialect =>
    rw [written_rowNumber, limitOnly_eq_error_iff]
    simp [refuser?]
  | limitOffset limitRequired => simp [written, place, refuser?]
  | offsetFetch => simp [written, place, refuser?]

theorem written_builtin_eq_error_iff {db : Database} :
    (Dialect.builtin db).window.written offset limit hasWhere = .error err ↔
      (0 < offset ∧ db.refusesOffset = true) ∧ .offsetNotSupported db.name offset = err := by
  rw [written_eq_error_iff, refuser?_builtin, and_assoc]
  cases db.refusesOffset <;> simp

/-- Nothing is written only where all rows are asked for. -/
theorem written_eq_empty_iff {w : WindowStyle} (h : w.written offset limit hasWhere = .ok text) :
    text.getD "" = "" ↔ offset = 0 ∧ limit = 0 := by
  cases w with
  | top dialect =>
    rw [written_top] at h
    exact limitOnly_eq_empty_iff (append_ne_empty (append_ne_empty (by decide))) h
  | rowNumber dialect =>
    rw [written_rowNumber] at h
    refine limitOnly_eq_empty_iff ?_ h
    exact append_ne_empty (append_ne_empty (append_ne_empty (by decide)))
  | limitOffset limitRequired =>
    obtain rfl := Except.ok.inj h
    exact atEnd_eq_empty_iff rfl
  | offsetFetch =>
    obtain rfl := Except.ok.inj h
    exact atEnd_eq_empty_iff rfl

end WindowStyle

/-! ## Queries -/

/-- A SELECT with a text at one of the places. -/
def Select.insert (s : Select) (text : String) : WindowPlace → Select
  | .afterSelect => { s with afterSelect := text }
  | .afterWhere => { s with afterWhere := text }
  | .atEnd => { s with atEnd := text }

namespace Query

variable {q : Query} {d : Dialect} {e : Entity}

/-- A query with another window. -/
def window (q : Query) (offset limit : Nat) : Query :=
  { q with offset := offset, limit := limit }

/-- The SELECT of a query with nothing written for a window. -/
def unwindowed (q : Query) (e : Entity) (fields : List Field) (order : List (String × Bool)) :
    Select where
  distinct := q.distinct
  afterSelect := ""
  columns := Entity.writtenColumns fields
  source := q.source e
  filter := q.filter.map (·.condition)
  afterWhere := ""
  order
  atEnd := ""

/-- What the dialect writes for the window stands at its place, and nothing stands at the others. -/
theorem select_eq_map {fields : List Field} {order : List (String × Bool)}
    (hfields : q.selected e = .ok fields) (hfilter : q.checkFilter e = .ok ())
    (horder : q.order e = .ok order) :
    q.select d e = (d.window.written q.offset q.limit q.filter.isSome).map fun text =>
      { command := .select ((q.unwindowed e fields order).insert (text.getD "") d.window.place)
        parameters := Entity.filterParameters q.filter
        results := Entity.results fields } := by
  unfold Query.select unwindowed WindowStyle.written
  rw [hfields, hfilter, horder]
  cases hplace : d.window.place with
  | afterSelect =>
    rw [WindowStyle.atEnd_elsewhere (by simp [hplace])]
    rw [WindowStyle.afterWhere_elsewhere (by simp [hplace])]
    obtain err | _ | text := d.window.afterSelect q.offset q.limit <;> cases q.filter <;> rfl
  | afterWhere =>
    rw [WindowStyle.atEnd_elsewhere (by simp [hplace])]
    rw [WindowStyle.afterSelect_elsewhere (by simp [hplace])]
    obtain err | _ | text := d.window.afterWhere q.offset q.limit q.filter.isSome <;>
      cases q.filter <;> rfl
  | atEnd =>
    rw [WindowStyle.afterSelect_elsewhere (by simp [hplace])]
    rw [WindowStyle.afterWhere_elsewhere (by simp [hplace])]
    cases q.filter <;> rfl

theorem insert_empty (q : Query) (e : Entity) (fields : List Field) (order : List (String × Bool))
    (place : WindowPlace) :
    (q.unwindowed e fields order).insert "" place = q.unwindowed e fields order := by
  cases place <;> rfl

/-- A query with a window is the query without one and the text of the window at its place. -/
theorem select_windowed {plain : PreparedStatement} (h : (q.window 0 0).select d e = .ok plain)
    (offset limit : Nat) :
    ∃ fields order, q.order e = .ok order ∧
      plain.command = .select (q.unwindowed e fields order) ∧
      (q.window offset limit).select d e =
        (d.window.written offset limit q.filter.isSome).map fun text =>
          { plain with
            command :=
              .select ((q.unwindowed e fields order).insert (text.getD "") d.window.place) } := by
  obtain ⟨fields, order, -, -, -, hfields, horder, -⟩ := Entity.select_eq_ok h
  obtain ⟨_, -, hrest⟩ := bind_eq_ok_iff.1 h
  obtain ⟨⟨⟩, hfilter, -⟩ := bind_eq_ok_iff.1 hrest
  have hplain := select_eq_map (d := d) hfields hfilter horder
  rw [h] at hplain
  cases hwritten : d.window.written 0 0 q.filter.isSome with
  | error err =>
    obtain ⟨hzero, -⟩ := WindowStyle.written_eq_error_iff.1 hwritten
    exact absurd hzero (Nat.lt_irrefl 0)
  | ok text =>
    have htext : text.getD "" = "" := (WindowStyle.written_eq_empty_iff hwritten).2 ⟨rfl, rfl⟩
    have hmap := hplain.trans (congrArg (Except.map _) hwritten)
    obtain rfl := Except.ok.inj hmap
    refine ⟨fields, order, horder, ?_, ?_⟩
    · show Command.select ((q.unwindowed e fields order).insert (text.getD "") _) = _
      rw [htext, insert_empty]
    · exact select_eq_map (q := q.window offset limit) hfields hfilter horder

end Query

/-! ## Texts -/

/-- Where the text of a query without a window is cut in two to put the window in: after
`SELECT [DISTINCT]`, between the condition and the order, or at the end. -/
def WindowPlace.Cuts (q : Query) (e : Entity) (l : Layout) (before after : String) :
    WindowPlace → Prop
  | .afterSelect => before = "SELECT " ++ if q.distinct then "DISTINCT " else ""
  | .afterWhere =>
    (∃ head, before = head ++ Command.filterClause l.separator (q.filter.map (·.condition))) ∧
      ∃ order, q.order e = .ok order ∧ after = Command.orderClause l.separator order
  | .atEnd => after = ""

namespace Select

/-- The text up to the first place. -/
def lead (s : Select) : String := "SELECT " ++ if s.distinct then "DISTINCT " else ""

/-- The text between the first place and the second. -/
def body (separator : String) (s : Select) : String :=
  String.intercalate ", " s.columns ++ separator ++ "FROM " ++ s.source
    ++ Command.filterClause separator s.filter

theorem text_eq (l : Layout) (s : Select) :
    (Command.select s).text l =
      s.lead ++ s.afterSelect ++ s.body l.separator ++ s.afterWhere
        ++ Command.orderClause l.separator s.order ++ s.atEnd := by
  rw [Command.text_select]
  simp only [lead, body, String.append_assoc]

/-- The text in front of a place where nothing is written. -/
def before (separator : String) (s : Select) : WindowPlace → String
  | .afterSelect => s.lead
  | .afterWhere => s.lead ++ s.body separator
  | .atEnd => s.lead ++ s.body separator ++ Command.orderClause separator s.order

/-- The text behind a place where nothing is written. -/
def after (separator : String) (s : Select) : WindowPlace → String
  | .afterSelect => s.body separator ++ Command.orderClause separator s.order
  | .afterWhere => Command.orderClause separator s.order
  | .atEnd => ""

end Select

namespace Query

variable {q : Query} {e : Entity} {fields : List Field} {order : List (String × Bool)}

/-- What is put in a SELECT stands in its text at that place. -/
theorem text_insert (l : Layout) (text : String) (place : WindowPlace) :
    (Command.select ((q.unwindowed e fields order).insert text place)).text l =
      (q.unwindowed e fields order).before l.separator place ++ text
        ++ (q.unwindowed e fields order).after l.separator place := by
  generalize hs : q.unwindowed e fields order = s
  have hempty : s.afterSelect = "" ∧ s.afterWhere = "" ∧ s.atEnd = "" := by
    subst hs
    exact ⟨rfl, rfl, rfl⟩
  obtain ⟨hselect, hwhere, hend⟩ := hempty
  rw [Select.text_eq]
  cases place with
  | afterSelect =>
    show s.lead ++ text ++ s.body _ ++ s.afterWhere ++ Command.orderClause _ s.order ++ s.atEnd = _
    rw [hwhere, hend, String.append_empty, String.append_empty, String.append_assoc]
    rfl
  | afterWhere =>
    show s.lead ++ s.afterSelect ++ s.body _ ++ text ++ Command.orderClause _ s.order ++ s.atEnd = _
    rw [hselect, hend, String.append_empty, String.append_empty]
    rfl
  | atEnd =>
    show s.lead ++ s.afterSelect ++ s.body _ ++ s.afterWhere ++ Command.orderClause _ s.order
      ++ text = _
    rw [hselect, hwhere, String.append_empty, String.append_empty]
    exact (String.append_empty).symm

theorem cuts_unwindowed (horder : q.order e = .ok order) (l : Layout) (place : WindowPlace) :
    place.Cuts q e l ((q.unwindowed e fields order).before l.separator place)
      ((q.unwindowed e fields order).after l.separator place) := by
  cases place with
  | afterSelect => rfl
  | afterWhere => exact ⟨⟨_, (String.append_assoc ..).symm⟩, order, horder, rfl⟩
  | atEnd => rfl

/-- The window of a result is written once. A query that is made without a window is refused with
one exactly where the database has no text for the offset; else the window leaves its parameters
and results as they are, and its text is one piece, empty only for all rows, at the place that the
database has for it. -/
theorem select_window_inserted {db : Database} {q : Query} {e : Entity} {plain : PreparedStatement}
    (h : (q.window 0 0).select (Dialect.builtin db) e = .ok plain) (offset limit : Nat) :
    ((q.window offset limit).select (Dialect.builtin db) e =
        .error (.offsetNotSupported db.name offset) ↔ 0 < offset ∧ db.refusesOffset = true) ∧
      (¬(0 < offset ∧ db.refusesOffset = true) →
        ∃ s, (q.window offset limit).select (Dialect.builtin db) e = .ok s ∧
          s.parameters = plain.parameters ∧ s.results = plain.results ∧
          ∃ piece, (piece = "" ↔ offset = 0 ∧ limit = 0) ∧
            ∀ l, ∃ before after, db.windowPlace.Cuts q e l before after ∧
              plain.command.text l = before ++ after ∧
              s.command.text l = before ++ piece ++ after) := by
  obtain ⟨fields, order, horder, hplain, hselect⟩ := select_windowed h offset limit
  cases hwritten : (Dialect.builtin db).window.written offset limit q.filter.isSome with
  | error err =>
    obtain ⟨hrefused, rfl⟩ := WindowStyle.written_builtin_eq_error_iff.1 hwritten
    rw [hselect, hwritten]
    exact ⟨iff_of_true rfl hrefused, fun hserved => absurd hrefused hserved⟩
  | ok text =>
    have hserved : ¬(0 < offset ∧ db.refusesOffset = true) := by
      intro hrefused
      cases hwritten.symm.trans (WindowStyle.written_builtin_eq_error_iff.2 ⟨hrefused, rfl⟩)
    rw [hselect, hwritten, WindowStyle.place_builtin]
    refine ⟨iff_of_false (fun herror => ?_) hserved, fun _ => ⟨_, rfl, rfl, rfl, text.getD "",
      WindowStyle.written_eq_empty_iff hwritten, fun l => ⟨_, _, cuts_unwindowed horder l _, ?_,
        text_insert l _ _⟩⟩⟩
    · cases herror
    · rw [hplain, ← insert_empty q e fields order db.windowPlace, text_insert, insert_empty,
        String.append_empty]

/-- Posts of a state, the latest ones first. -/
def latestPosts (c : BoundCondition) : Query :=
  { filter := some c, orderBy := [("id", false)], distinct := true }

/-- In Oracle the first ten posts of a state are asked for between the condition and the order;
posts from the sixth on are refused. -/
theorem latest_posts_inserted :
    ∃ e c plain s, Entity.ofSpec (Dialect.builtin .oracle) postSpec = .ok e ∧
      BoundCondition.restrict (Dialect.builtin .oracle) e "state" .equals 1 = .ok c ∧
      ((latestPosts c).window 0 0).select (Dialect.builtin .oracle) e = .ok plain ∧
      ((latestPosts c).window 0 10).select (Dialect.builtin .oracle) e = .ok s ∧
      s.command.text .compact =
        "SELECT DISTINCT ID, STATE, AUTHOR FROM POST"
          ++ " WHERE STATE = ? AND ROWNUM <= 10 ORDER BY ID DESC" ∧
      s.parameters = plain.parameters ∧ s.results = plain.results ∧
      ((latestPosts c).window 5 10).select (Dialect.builtin .oracle) e =
        .error (.offsetNotSupported "oracle" 5) := by
  obtain ⟨⟨e, c, plain, s⟩, hall, htext⟩ :
      ∃ p : Entity × BoundCondition × PreparedStatement × PreparedStatement, (do
      let e ← Entity.ofSpec (Dialect.builtin .oracle) postSpec
      let c ← BoundCondition.restrict (Dialect.builtin .oracle) e "state" .equals 1
      let plain ← ((latestPosts c).window 0 0).select (Dialect.builtin .oracle) e
      let s ← ((latestPosts c).window 0 10).select (Dialect.builtin .oracle) e
      return (e, c, plain, s)) = .ok p ∧ (p.2.2.2.command.text .compact ==
        "SELECT DISTINCT ID, STATE, AUTHOR FROM POST"
          ++ " WHERE STATE = ? AND ROWNUM <= 10 ORDER BY ID DESC") = true :=
    exists_ok_of_any (by decide +kernel)
  obtain ⟨e, he, hall⟩ := bind_eq_ok_iff.1 hall
  obtain ⟨c, hc, hall⟩ := bind_eq_ok_iff.1 hall
  obtain ⟨plain, hplain, hall⟩ := bind_eq_ok_iff.1 hall
  obtain ⟨s, hs, hall⟩ := bind_eq_ok_iff.1 hall
  cases pure_eq_ok_iff.1 hall
  obtain ⟨-, hserved⟩ := select_window_inserted hplain 0 10
  obtain ⟨hrefused, -⟩ := select_window_inserted hplain 5 10
  obtain ⟨s', hs', hparameters, hresults, -⟩ := hserved (by decide)
  obtain rfl := Except.ok.inj (hs.symm.trans hs')
  exact ⟨e, c, plain, s, he, hc, hplain, hs, by simpa using htext, hparameters, hresults,
    hrefused.2 (by decide)⟩

end Query

end SqlDialects
