import SqlDialects.Proofs.Transfer

/-!
# Binding and reading up to the first failure

Parameters are handed over one by one, and columns are read one by one. This module says where that
stops: at the first parameter whose value its rules refuse, or whose call the sink declines, and at
the first column that cannot be read. Nothing is asked of what comes after.

Results:
1. `ColumnRule.bindCall_eq_error_iff`: which values get no call;
   `ColumnRule.refuses_iff_of_storesAsUsual`: for the usual rules, those that do not fit the type.
2. `Binding.runFrom_eq_iff`: the calls made for parameters, and the outcome.
3. `Extraction.run_eq_iff`: the reads made for columns, and the outcome; `Extraction.run_congr`: they
   are all that a run sees of the row.
-/

namespace SqlDialects

/-! ## One parameter -/

namespace ColumnRule

variable {p : ColumnRule} {zone : UtcOffset} {index : Nat} {v : Value} {err : Error}

/-- Why there is no call for a value. -/
inductive Refuses (p : ColumnRule) (zone : UtcOffset) (v : Value) : Error → Prop
  /-- The value does not fit the type. -/
  | unfit {err : Error} : v.coerce p.columnType = .error err → Refuses p zone v err
  /-- Rules for timestamps stand for another type, and the value is one of that type. -/
  | noTimestamp {type : ColumnType} {declaration : String} {literal : CalendarLiteral} {w : Value} :
      p = .timestamp type declaration literal → v.isNull = false → v.coerce type = .ok w →
      (∀ t, w ≠ .timestamp t) → Refuses p zone v (.valueMismatch type w.kind)
  /-- A timestamp leaves the calendar on its way to UTC. -/
  | leavesCalendar {declaration : String} {literal : CalendarLiteral} {t : Timestamp} :
      p = .timestamp .timestampUtc declaration literal →
      v.coerce .timestampUtc = .ok (.timestamp t) → t.toUtc? zone = none →
      Refuses p zone v .timestampOverflow

theorem Refuses.bindCall_eq (h : p.Refuses zone v err) : p.bindCall index zone v = .error err := by
  have hnull : v.isNull = false := by
    cases v with
    | null =>
      cases h with
      | unfit hv => cases hv
      | noTimestamp _ hnull => cases hnull
      | leavesCalendar _ hv => cases hv
    | _ => rfl
  cases h with
  | unfit hv =>
    rw [bindCall, hnull, hv]
    rfl
  | @noTimestamp type declaration literal w hrule _ hv hw =>
    subst hrule
    rw [bindCall_of_coerce (p := .timestamp type declaration literal) hnull hv]
    cases w with
    | timestamp t => exact absurd rfl (hw t)
    | _ => rfl
  | @leavesCalendar declaration literal t hrule hv hutc =>
    subst hrule
    rw [bindCall_of_coerce (p := .timestamp .timestampUtc declaration literal) hnull hv, storeCall,
      if_pos rfl, hutc]

/-- A value gets one call for its parameter, or is refused. -/
theorem bindCall_cases (p : ColumnRule) (index : Nat) (zone : UtcOffset) (v : Value) :
    (∃ call, p.bindCall index zone v = .ok call ∧ call.index = index) ∨
      ∃ err, p.Refuses zone v err := by
  cases hnull : v.isNull with
  | true =>
    refine .inl ⟨.null index p.typeCode, ?_, rfl⟩
    rw [bindCall, hnull]
    rfl
  | false =>
    cases hv : v.coerce p.columnType with
    | error err => exact .inr ⟨err, .unfit hv⟩
    | ok w =>
      have hbound : p.bindCall index zone v = p.storeCall index zone w :=
        bindCall_of_coerce hnull hv
      have hkind : w.kind = p.columnType.storedKind := Value.kind_of_coerce hnull hv
      cases p with
      | character | integer | floating | decimal | date | string => exact .inl ⟨_, hbound, rfl⟩
      | boolean style =>
        cases w with
        | bool b => exact .inl ⟨_, hbound, rfl⟩
        | _ => cases hkind
      | timestamp type declaration literal =>
        cases w with
        | timestamp t =>
          by_cases htype : type = .timestampUtc
          · subst htype
            cases hutc : t.toUtc? zone with
            | some u =>
              rw [hbound, storeCall, if_pos rfl, hutc]
              exact .inl ⟨_, rfl, rfl⟩
            | none => exact .inr ⟨_, .leavesCalendar rfl hv hutc⟩
          · rw [hbound, storeCall, if_neg htype]
            exact .inl ⟨_, rfl, rfl⟩
        | _ =>
          refine .inr ⟨_, .noTimestamp rfl hnull hv ?_⟩
          intro t h
          cases h
      | clob =>
        cases w with
        | text s =>
          obtain ⟨call, hcarries⟩ := exists_carries_clob hbound
          exact .inl ⟨call, hcarries.bound, hcarries.index⟩
        | _ => cases hkind
      | blob =>
        cases w with
        | bytes b =>
          obtain ⟨call, hcarries⟩ := exists_carries_blob hbound
          exact .inl ⟨call, hcarries.bound, hcarries.index⟩
        | _ => cases hkind

theorem bindCall_eq_error_iff : p.bindCall index zone v = .error err ↔ p.Refuses zone v err := by
  constructor
  · intro h
    rcases bindCall_cases p index zone v with ⟨call, hcall, -⟩ | ⟨cause, hcause⟩
    · rw [h] at hcall
      cases hcall
    · have hsame : p.bindCall index zone v = .error cause := hcause.bindCall_eq
      rw [h] at hsame
      cases hsame
      exact hcause
  · exact Refuses.bindCall_eq

theorem index_of_bindCall {call : SinkCall} (h : p.bindCall index zone v = .ok call) :
    call.index = index := by
  rcases bindCall_cases p index zone v with ⟨call', hcall, hindex⟩ | ⟨cause, hcause⟩
  · rw [h] at hcall
    cases hcall
    exact hindex
  · rw [hcause.bindCall_eq] at h
    cases h

/-- The usual rules refuse what does not fit the type, as long as timestamps stay in the calendar. -/
theorem refuses_iff_of_storesAsUsual (hp : p.storesAsUsual = true)
    (hshift : ∀ t, v.coerce .timestampUtc = .ok (.timestamp t) → t.toUtc? zone ≠ none) :
    p.Refuses zone v err ↔ v.coerce p.columnType = .error err := by
  constructor
  · intro h
    cases h with
    | unfit hv => exact hv
    | @noTimestamp type declaration literal w hrule hnull hv hw =>
      subst hrule
      have htime : w.kind = .timestamp :=
        (Value.kind_of_coerce hnull hv).trans (beq_iff_eq.1 hp)
      cases w with
      | timestamp t => exact absurd rfl (hw t)
      | _ => cases htime
    | leavesCalendar _ hv hutc => exact absurd hutc (hshift _ hv)
  · exact .unfit

end ColumnRule

/-! ## All parameters of a statement -/

namespace Binding

variable {d : Dialect} {zone : UtcOffset} {sink : Sink}

/-- The call that the rules of a parameter make for its value. -/
def IsCallFor (d : Dialect) (zone : UtcOffset) (pair : Parameter × Value) (call : SinkCall) :
    Prop :=
  (d.columnRuleFor pair.1.type pair.1.length).bindCall pair.1.index zone pair.2 = .ok call

/-- The rules of a parameter make no call for its value. -/
def IsRefused (d : Dialect) (zone : UtcOffset) (pair : Parameter × Value) (err : Error) : Prop :=
  (d.columnRuleFor pair.1.type pair.1.length).Refuses zone pair.2 err

/-- The sink accepts each of the calls when those before it are made. -/
def AcceptsAfter (sink : Sink) (made calls : List SinkCall) : Prop :=
  ∀ before call after, calls = before ++ call :: after → sink (made ++ before) call = .ok ()

/-- How a run on the parameters ends that follows the calls `made`: each parameter had its call, or
there is a first one that is refused or whose call is declined. -/
inductive EndsAs (d : Dialect) (zone : UtcOffset) (sink : Sink) (made : List SinkCall)
    (pairs : List (Parameter × Value)) : Run → Prop
  | complete {calls : List SinkCall} :
      List.Forall₂ (IsCallFor d zone) pairs calls → AcceptsAfter sink made calls →
      EndsAs d zone sink made pairs ⟨made ++ calls, .ok ()⟩
  | refused {before after : List (Parameter × Value)} {pair : Parameter × Value}
      {calls : List SinkCall} {err : Error} :
      pairs = before ++ pair :: after → List.Forall₂ (IsCallFor d zone) before calls →
      AcceptsAfter sink made calls → IsRefused d zone pair err →
      EndsAs d zone sink made pairs ⟨made ++ calls, .error err⟩
  | declined {before after : List (Parameter × Value)} {pair : Parameter × Value}
      {calls : List SinkCall} {call : SinkCall} {err : Error} :
      pairs = before ++ pair :: after → List.Forall₂ (IsCallFor d zone) before calls →
      AcceptsAfter sink made calls → IsCallFor d zone pair call →
      sink (made ++ calls) call = .error err →
      EndsAs d zone sink made pairs ⟨made ++ calls ++ [call], .error err⟩

theorem acceptsAfter_nil (sink : Sink) (made : List SinkCall) : AcceptsAfter sink made [] := by
  intro before call after h
  cases before <;> cases h

theorem acceptsAfter_cons {made calls : List SinkCall} {call : SinkCall} :
    AcceptsAfter sink made (call :: calls) ↔
      sink made call = .ok () ∧ AcceptsAfter sink (made ++ [call]) calls := by
  constructor
  · intro h
    refine ⟨by simpa using h [] call calls rfl, ?_⟩
    intro before next after hcalls
    have hnext := h (call :: before) next after (by rw [hcalls, List.cons_append])
    rwa [List.append_cons] at hnext
  · rintro ⟨hcall, hrest⟩
    intro before next after hcalls
    cases before with
    | nil =>
      cases hcalls
      rwa [List.append_nil]
    | cons first before =>
      cases hcalls
      rw [List.append_cons]
      exact hrest before next after rfl

/-- One parameter: its call is accepted, and the rest follows. -/
theorem EndsAs.cons {made : List SinkCall} {pair : Parameter × Value} {call : SinkCall}
    {pairs : List (Parameter × Value)} {run : Run} (hcall : IsCallFor d zone pair call)
    (haccepted : sink made call = .ok ()) (h : EndsAs d zone sink (made ++ [call]) pairs run) :
    EndsAs d zone sink made (pair :: pairs) run := by
  cases h with
  | @complete calls hcalls haccepts =>
    rw [← List.append_cons]
    exact .complete (.cons hcall hcalls) (acceptsAfter_cons.2 ⟨haccepted, haccepts⟩)
  | @refused before after refused calls err hpairs hcalls haccepts hrefused =>
    rw [← List.append_cons]
    exact .refused (by rw [hpairs, List.cons_append]) (.cons hcall hcalls)
      (acceptsAfter_cons.2 ⟨haccepted, haccepts⟩) hrefused
  | @declined before after declined calls last err hpairs hcalls haccepts hlast hdeclined =>
    rw [← List.append_cons] at hdeclined ⊢
    exact .declined (by rw [hpairs, List.cons_append]) (.cons hcall hcalls)
      (acceptsAfter_cons.2 ⟨haccepted, haccepts⟩) hlast hdeclined

/-- Every run ends in one of the ways. -/
theorem endsAs_runFrom (made : List SinkCall) (pairs : List (Parameter × Value)) :
    EndsAs d zone sink made pairs (runFrom d zone sink made pairs) := by
  induction pairs generalizing made with
  | nil =>
    have h : EndsAs d zone sink made [] ⟨made ++ [], .ok ()⟩ :=
      .complete .nil (acceptsAfter_nil sink made)
    rwa [List.append_nil] at h
  | cons pair rest ih =>
    obtain ⟨slot, v⟩ := pair
    unfold runFrom
    split
    · next err herr =>
      have h : EndsAs d zone sink made ((slot, v) :: rest) ⟨made ++ [], .error err⟩ :=
        .refused (List.nil_append _).symm .nil (acceptsAfter_nil sink made)
          (ColumnRule.bindCall_eq_error_iff.1 herr)
      rwa [List.append_nil] at h
    · next call hcall =>
      split
      · next err herr =>
        have h : EndsAs d zone sink made ((slot, v) :: rest) ⟨made ++ [] ++ [call], .error err⟩ :=
          .declined (List.nil_append _).symm .nil (acceptsAfter_nil sink made) hcall
            (by rwa [List.append_nil])
        rwa [List.append_nil] at h
      · next hsink => exact .cons hcall hsink (ih _)

theorem runFrom_of_isRefused {made : List SinkCall} {pair : Parameter × Value}
    {rest : List (Parameter × Value)} {err : Error} (h : IsRefused d zone pair err) :
    runFrom d zone sink made (pair :: rest) = ⟨made, .error err⟩ := by
  obtain ⟨slot, v⟩ := pair
  rw [runFrom, ColumnRule.bindCall_eq_error_iff.2 h]

theorem runFrom_of_isCallFor {made : List SinkCall} {pair : Parameter × Value} {call : SinkCall}
    (h : IsCallFor d zone pair call) (rest : List (Parameter × Value)) :
    runFrom d zone sink made (pair :: rest) = match sink made call with
      | .error err => ⟨made ++ [call], .error err⟩
      | .ok () => runFrom d zone sink (made ++ [call]) rest := by
  obtain ⟨slot, v⟩ := pair
  unfold IsCallFor at h
  cases hsink : sink made call with
  | error err => simp only [runFrom, h, hsink]
  | ok accepted => simp only [runFrom, h, hsink]

/-- Parameters whose calls are accepted leave the run to those after them. -/
theorem runFrom_append {before after : List (Parameter × Value)} {made calls : List SinkCall}
    (hcalls : List.Forall₂ (IsCallFor d zone) before calls)
    (haccepts : AcceptsAfter sink made calls) :
    runFrom d zone sink made (before ++ after) = runFrom d zone sink (made ++ calls) after := by
  induction hcalls generalizing made with
  | nil => rw [List.nil_append, List.append_nil]
  | @cons pair call before calls hcall _ ih =>
    obtain ⟨hsink, hrest⟩ := acceptsAfter_cons.1 haccepts
    rw [List.cons_append, runFrom_of_isCallFor hcall, hsink, List.append_cons made call calls]
    exact ih hrest

/-- The run on parameters is the one that ends in one of the ways. -/
theorem runFrom_eq_iff {made : List SinkCall} {pairs : List (Parameter × Value)} {run : Run} :
    runFrom d zone sink made pairs = run ↔ EndsAs d zone sink made pairs run := by
  constructor
  · rintro rfl
    exact endsAs_runFrom made pairs
  · intro h
    cases h with
    | @complete calls hcalls haccepts =>
      have hrun : runFrom d zone sink made (pairs ++ []) = runFrom d zone sink (made ++ calls) [] :=
        runFrom_append hcalls haccepts
      rwa [List.append_nil] at hrun
    | refused hpairs hcalls haccepts hrefused =>
      rw [hpairs, runFrom_append hcalls haccepts, runFrom_of_isRefused hrefused]
    | declined hpairs hcalls haccepts hcall hdeclined =>
      rw [hpairs, runFrom_append hcalls haccepts, runFrom_of_isCallFor hcall, hdeclined]

theorem map_index_of_isCallFor {pairs : List (Parameter × Value)} {calls : List SinkCall}
    (h : List.Forall₂ (IsCallFor d zone) pairs calls) :
    calls.map (·.index) = pairs.map (·.1.index) := by
  induction h with
  | nil => rfl
  | cons hcall _ ih =>
    rw [List.map_cons, List.map_cons, ih, ColumnRule.index_of_bindCall hcall]

/-- Calls are for the parameters in their order, from the first one on, and there is one for each. -/
theorem EndsAs.index_isPrefix {pairs : List (Parameter × Value)} {run : Run}
    (h : EndsAs d zone sink [] pairs run) :
    run.calls.map (·.index) <+: pairs.map (·.1.index) := by
  cases h with
  | @complete calls hcalls =>
    show calls.map (·.index) <+: _
    rw [map_index_of_isCallFor hcalls]
  | @refused before after pair calls err hpairs hcalls =>
    show calls.map (·.index) <+: _
    rw [map_index_of_isCallFor hcalls, hpairs, List.map_append]
    exact List.prefix_append _ _
  | @declined before after pair calls call err hpairs hcalls _ hcall =>
    show (calls ++ [call]).map (·.index) <+: _
    rw [List.map_append, map_index_of_isCallFor hcalls, List.map_singleton,
      ColumnRule.index_of_bindCall hcall, hpairs, List.append_cons before pair after,
      List.map_append, List.map_append, List.map_singleton]
    exact List.prefix_append _ _

/-- A run ends well if each parameter has its call and each call is accepted. -/
theorem outcome_runFrom_eq_ok_iff {made : List SinkCall} {pairs : List (Parameter × Value)} :
    (runFrom d zone sink made pairs).outcome = .ok () ↔
      ∃ calls, List.Forall₂ (IsCallFor d zone) pairs calls ∧ AcceptsAfter sink made calls := by
  constructor
  · intro h
    have hends : EndsAs d zone sink made pairs _ := endsAs_runFrom made pairs
    generalize runFrom d zone sink made pairs = run at h hends
    cases hends with
    | complete hcalls haccepts => exact ⟨_, hcalls, haccepts⟩
    | refused => cases h
    | declined => cases h
  · rintro ⟨calls, hcalls, haccepts⟩
    rw [runFrom_eq_iff.2 (.complete hcalls haccepts)]

end Binding

/-! ## All columns of a row -/

/-- The rows answer a request alike. -/
def Row.AnswersAlike (row row' : Row) : ResultPlace × ReadRequest → Prop
  | (place, .value code) => row.value place code = row'.value place code
  | (place, .bytes) => row.bytes place = row'.bytes place
  | (place, .characters) => row.characters place = row'.characters place

/-- A column is read by its one request. -/
theorem ColumnRule.extract_congr {p : ColumnRule} {row row' : Row} {place : ResultPlace}
    {zone : UtcOffset} (h : row.AnswersAlike row' (place, p.readRequest)) :
    p.extract row' place zone = p.extract row place zone := by
  unfold extract
  cases hrequest : p.readRequest with
  | value code =>
    have hsame : row.value place code = row'.value place code := by rwa [hrequest] at h
    simp only [hsame]
  | bytes =>
    have hsame : row.bytes place = row'.bytes place := by rwa [hrequest] at h
    simp only [hsame]
  | characters =>
    have hsame : row.characters place = row'.characters place := by rwa [hrequest] at h
    simp only [hsame]

namespace Extraction

variable {d : Dialect} {zone : UtcOffset} {row : Row}

/-- What a row is asked for a column. -/
def readOf (d : Dialect) (column : ResultColumn) : ResultPlace × ReadRequest :=
  (column.column, (d.columnRuleFor column.type column.length).readRequest)

/-- What is made of the answer for a column. -/
def readColumn (d : Dialect) (zone : UtcOffset) (row : Row) (column : ResultColumn) :
    Except Error Value :=
  (d.columnRuleFor column.type column.length).extract row column.column zone

/-- The columns are read, each as its value. -/
abbrev AreRead (d : Dialect) (zone : UtcOffset) (row : Row) : List ResultColumn → List Value → Prop :=
  List.Forall₂ fun column v => readColumn d zone row column = .ok v

/-- How a run on columns ends: each one is read, or there is a first one that cannot be read. -/
inductive EndsAs (d : Dialect) (zone : UtcOffset) (row : Row) (columns : List ResultColumn) :
    Run → Prop
  | complete {values : List Value} : AreRead d zone row columns values →
      EndsAs d zone row columns ⟨columns.map (readOf d), .ok values⟩
  | failed {before after : List ResultColumn} {column : ResultColumn} {values : List Value}
      {err : Error} :
      columns = before ++ column :: after → AreRead d zone row before values →
      readColumn d zone row column = .error err →
      EndsAs d zone row columns ⟨(before ++ [column]).map (readOf d), .error err⟩

theorem run_of_error {column : ResultColumn} {err : Error}
    (h : readColumn d zone row column = .error err) (rest : List ResultColumn) :
    run d zone row (column :: rest) = ⟨[readOf d column], .error err⟩ := by
  unfold readColumn at h
  simp only [run, h, readOf]

theorem run_of_ok {column : ResultColumn} {v : Value}
    (h : readColumn d zone row column = .ok v) (rest : List ResultColumn) :
    run d zone row (column :: rest) = ⟨readOf d column :: (run d zone row rest).reads,
      (run d zone row rest).outcome.map (v :: ·)⟩ := by
  unfold readColumn at h
  simp only [run, h, readOf]

/-- Every run ends in one of the ways. -/
theorem endsAs_run (columns : List ResultColumn) :
    EndsAs d zone row columns (run d zone row columns) := by
  induction columns with
  | nil => exact .complete .nil
  | cons column rest ih =>
    cases hv : readColumn d zone row column with
    | error err =>
      rw [run_of_error hv]
      exact .failed (List.nil_append _).symm .nil hv
    | ok v =>
      rw [run_of_ok hv]
      generalize run d zone row rest = run at ih
      cases ih with
      | complete hvalues => exact .complete (.cons hv hvalues)
      | failed hrest hvalues hfailed =>
        exact .failed (by rw [hrest, List.cons_append]) (.cons hv hvalues) hfailed

/-- Columns that are read leave the run to those after them. -/
theorem run_append {before after : List ResultColumn} {values : List Value}
    (h : AreRead d zone row before values) :
    run d zone row (before ++ after) = ⟨before.map (readOf d) ++ (run d zone row after).reads,
      (run d zone row after).outcome.map (values ++ ·)⟩ := by
  induction h with
  | nil =>
    rw [List.nil_append]
    cases hrun : run d zone row after with
    | mk reads outcome => cases outcome <;> rfl
  | cons hv _ ih =>
    rw [List.cons_append, run_of_ok hv, ih]
    cases (run d zone row after).outcome <;> rfl

/-- The run on columns is the one that ends in one of the ways. -/
theorem run_eq_iff {columns : List ResultColumn} {r : Run} :
    run d zone row columns = r ↔ EndsAs d zone row columns r := by
  constructor
  · rintro rfl
    exact endsAs_run columns
  · intro h
    cases h with
    | @complete values hvalues =>
      have hrun : run d zone row (columns ++ []) =
          ⟨columns.map (readOf d) ++ [], .ok (values ++ [])⟩ := run_append hvalues
      rwa [List.append_nil, List.append_nil, List.append_nil] at hrun
    | failed hcolumns hvalues hfailed =>
      rw [hcolumns, run_append hvalues, run_of_error hfailed, List.map_append]
      rfl

/-- A row that answers alike what is asked is read alike: nothing else is seen of it. -/
theorem run_congr {row' : Row} {columns : List ResultColumn}
    (h : ∀ read ∈ (run d zone row columns).reads, row.AnswersAlike row' read) :
    run d zone row' columns = run d zone row columns := by
  induction columns with
  | nil => rfl
  | cons column rest ih =>
    have hcolumn (hread : readOf d column ∈ (run d zone row (column :: rest)).reads) :
        readColumn d zone row' column = readColumn d zone row column :=
      ColumnRule.extract_congr (h _ hread)
    cases hv : readColumn d zone row column with
    | error err =>
      have hreads := run_of_error hv rest
      rw [hreads] at hcolumn ⊢
      exact run_of_error ((hcolumn List.mem_cons_self).trans hv) rest
    | ok v =>
      have hreads := run_of_ok hv rest
      rw [hreads] at h hcolumn ⊢
      rw [run_of_ok ((hcolumn List.mem_cons_self).trans hv),
        ih fun read hread => h read (List.mem_cons_of_mem _ hread)]

end Extraction

/-! ## Both ways -/

/-- Parameters are bound by one call each, in their order and under their positions, up to the first
one that is refused or whose call is declined, which ends the run with its error. Columns are read
by one request each, in their order, up to the first one that cannot be read, and what else a row
would answer makes no difference. -/
theorem transfer_stops_at_failure (d : Dialect) (zone : UtcOffset) (sink : Binding.Sink)
    {slots : List Parameter} {values : List Value} (hlength : slots.length = values.length)
    (row : Row) (columns : List ResultColumn) :
    (∃ p, Binding.ofValues slots values = .ok p ∧
      (∀ run, p.run d zone sink = run ↔
        Binding.EndsAs d zone sink [] (slots.zip values) run) ∧
      ((p.run d zone sink).outcome = .ok () ↔ ∃ calls,
        List.Forall₂ (Binding.IsCallFor d zone) (slots.zip values) calls ∧
          Binding.AcceptsAfter sink [] calls) ∧
      (p.run d zone sink).calls.map (·.index) <+: slots.map (·.index)) ∧
    (∀ run, Extraction.run d zone row columns = run ↔
      Extraction.EndsAs d zone row columns run) ∧
    ∀ row', (∀ read ∈ (Extraction.run d zone row columns).reads, row.AnswersAlike row' read) →
      Extraction.run d zone row' columns = Extraction.run d zone row columns := by
  refine ⟨⟨⟨slots.zip values⟩, if_pos hlength, fun _ => Binding.runFrom_eq_iff,
    Binding.outcome_runFrom_eq_ok_iff, ?_⟩, fun _ => Extraction.run_eq_iff,
    fun _ => Extraction.run_congr⟩
  have hends : Binding.EndsAs d zone sink [] (slots.zip values)
      (Binding.runFrom d zone sink [] (slots.zip values)) := Binding.endsAs_runFrom [] _
  have hslots : (slots.zip values).map (·.1.index) = slots.map (·.index) := by
    show (slots.zip values).map (Parameter.index ∘ Prod.fst) = _
    rw [← List.map_map, List.map_fst_zip (by omega)]
  have hindex := hends.index_isPrefix
  rwa [hslots] at hindex

/-- Parameters of three types. -/
def threeSlots : List Parameter :=
  [⟨1, .long, 0, none⟩, ⟨2, .string, 0, none⟩, ⟨3, .boolean, 0, none⟩]

/-- A sink that declines calls for the second parameter. -/
def decliningSecond : Binding.Sink := fun _ call =>
  if call.index = 2 then .error (.driver "declined") else .ok ()

/-- The second of three calls is the last if it is declined. -/
theorem second_of_three_declined :
    threeSlots.length = [Value.int 7, .text "x", .bool true].length ∧
      ∃ p, Binding.ofValues threeSlots [.int 7, .text "x", .bool true] = .ok p ∧
        p.run (Dialect.builtin .hsqldb) .zero decliningSecond =
          ⟨[.value 1 (.long 7), .value 2 (.text "x")], .error (.driver "declined")⟩ := by
  obtain ⟨⟨p, hp, hrun, -⟩, -⟩ := @transfer_stops_at_failure (Dialect.builtin .hsqldb) .zero
    decliningSecond threeSlots [.int 7, .text "x", .bool true] rfl (.ofCells fun _ => .null) []
  have hcall : Binding.IsCallFor (Dialect.builtin .hsqldb) .zero
      (⟨1, .long, 0, none⟩, .int 7) (.value 1 (.long 7)) := rfl
  have haccepts : Binding.AcceptsAfter decliningSecond [] [.value 1 (.long 7)] :=
    Binding.acceptsAfter_cons.2 ⟨rfl, Binding.acceptsAfter_nil _ _⟩
  exact ⟨rfl, p, hp,
    (hrun _).2 (.declined List.singleton_append.symm (.cons hcall .nil) haccepts rfl rfl)⟩

/-- A dialect whose strings have the rules for timestamps. -/
def stringsAsTimestamps : DialectDraft :=
  DialectDraft.hsqldb.withColumnRule (.timestamp .string "TIMESTAMP" .quoted)

/-- A text fits a string, and no call for it is declined, but rules for timestamps make none. -/
theorem string_without_call :
    ∃ d p, stringsAsTimestamps.build = .ok d ∧
      (Value.text "x").coerce (d.columnRuleFor .string 0).columnType = .ok (.text "x") ∧
      Binding.ofValues [⟨1, .string, 0, none⟩] [.text "x"] = .ok p ∧
      p.run d .zero (fun _ _ => .ok ()) =
        ⟨[], .error (.valueMismatch .string .text)⟩ :=
  ⟨stringsAsTimestamps.complete (by decide), _, by rfl, by rfl, rfl, by rfl⟩

end SqlDialects
