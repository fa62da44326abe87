import SqlDialects.Binding.Run
import SqlDialects.Proofs.Entities
import SqlDialects.Proofs.TimeShift

/-!
# Values that are bound and read back

A value goes to the database by a call on a sink and comes back by a read from a row. The two are
written apart, for every type and with the departures of each dialect: how truth values are stored,
whether large objects are streams, the time zone of a timestamp. This module puts a driver between
them that gives back what it was given, plain values as they were and streams from their start, and
shows that a value comes back in the form that its column stores.

Results:
1. `Value.kind_of_coerce`: what kind of value a column stores.
2. `ColumnRule.exists_carries`: the call for a value, and what is read of it.
3. `Binding.extract_bound`: all parameters of a statement bound, and all columns of a row read.
-/

namespace SqlDialects

/-! ## What a column stores -/

/-- Kind of the values that a column of the type stores. -/
def ColumnType.storedKind : ColumnType → ValueKind
  | .character => .char
  | .boolean => .bool
  | .short => .short
  | .integer => .int
  | .long => .long
  | .float => .float
  | .double => .double
  | .decimal => .decimal
  | .date => .date
  | .timestamp | .timestampUtc => .timestamp
  | .clob | .string | .enumConstant => .text
  | .blob => .bytes

namespace Value

theorem kind_of_widened? {type : ColumnType} {v w : Value} (h : widened? type v = some w) :
    w.kind = type.storedKind := by
  unfold widened? at h
  split at h <;> cases h <;> rfl

theorem kind_of_holdingType? {type : ColumnType} {v : Value} (h : v.holdingType? = some type) :
    v.kind = type.storedKind := by
  cases v <;> cases h <;> rfl

theorem isNull_iff {v : Value} : v.isNull = true ↔ v = .null := by
  cases v <;> simp [isNull]

theorem isSome_holdingType? (v : Value) : v.holdingType?.isSome = !v.isNull := by
  cases v <;> rfl

/-- A value that is taken gets the kind that the column stores. -/
theorem kind_of_coerce {type : ColumnType} {v w : Value} (hv : v.isNull = false)
    (h : v.coerce type = .ok w) : w.kind = type.storedKind := by
  unfold coerce at h
  split at h
  · next hnone =>
    have hsome := isSome_holdingType? v
    rw [hnone, hv] at hsome
    cases hsome
  · next natural hnatural =>
    split at h
    · next heq =>
      cases h
      exact kind_of_holdingType? (heq ▸ hnatural)
    · split at h
      · cases h
      · split at h
        · next w' hw =>
          cases h
          exact kind_of_widened? hw
        · cases h

end Value

/-! ## A driver that gives back what it is given -/

/-- What a call hands over. -/
def SinkCall.content : SinkCall → Value
  | .null .. => .null
  | .value _ v => v
  | .bytes _ content _ => .bytes content
  | .characters _ content _ => .text content

/-- A stream is announced with its length: bytes for one of bytes, characters for one of text. -/
def SinkCall.IsAnnounced : SinkCall → Prop
  | .null .. | .value .. => True
  | .bytes _ content length => length = content.length
  | .characters _ content length => length = content.length

/-- A row of columns that hold these values: plain values as they are, and streams of those that
have any. -/
def Row.ofCells (cells : ResultPlace → Value) : Row where
  value place _ := .ok (cells place)
  bytes place := .ok (match cells place with
    | .bytes content => some content
    | _ => none)
  characters place := .ok (match cells place with
    | .text content => some (Text.toUtf8 content)
    | _ => none)

/-- A row whose columns show the parameters that were bound by these calls. -/
def Row.ofCalls (calls : List SinkCall) (parameter : ResultPlace → Nat) : Row :=
  .ofCells fun place => match calls.find? (·.index == parameter place) with
    | some call => call.content
    | none => .null

theorem Text.ofUtf8?_toUtf8 (s : String) : ofUtf8? (toUtf8 s) = some s := by
  have hbytes : (⟨(toUtf8 s).toArray⟩ : ByteArray) = s.toByteArray := by
    simp [toUtf8]
  rw [ofUtf8?, hbytes, String.fromUTF8?, dif_pos s.isValidUTF8]
  rfl

/-! ## One value -/

namespace ColumnRule

/-- Whether NULL is stored in place of nothing. -/
def storesEmptyAsNull : ColumnRule → Bool
  | .clob _ _ .streamEmptyAsNull _ | .blob _ _ .streamEmptyAsNull _ => true
  | _ => false

/-- The value that is read after one of the type is stored. -/
def readBack (p : ColumnRule) (w : Value) : Value :=
  if p.storesEmptyAsNull ∧
      (p.columnType = .clob ∧ w = .text "" ∨ p.columnType = .blob ∧ w = .bytes [])
    then .null else w

variable {p : ColumnRule} {zone : UtcOffset} {v w : Value}

/-- Truth values, timestamps and large objects are those that calls are made for in ways of their
own. -/
def storesAsUsual : ColumnRule → Bool
  | .timestamp type .. => type.storedKind == .timestamp
  | _ => true

theorem extract_ofCells (cells : ResultPlace → Value) (place : ResultPlace) :
    p.extract (.ofCells cells) place zone = match p.readRequest, cells place with
      | .value _, v => p.load zone v
      | .bytes, .bytes content => .ok (.bytes content)
      | .characters, .text content => .ok (.text content)
      | _, _ => .ok .null := by
  unfold extract
  cases p.readRequest with
  | value code => rfl
  | bytes =>
    simp only [Row.ofCells]
    cases cells place <;> rfl
  | characters =>
    simp only [Row.ofCells]
    cases cells place with
    | text content =>
      show loadCharacters (some (Text.toUtf8 content)) = .ok (.text content)
      rw [loadCharacters, Text.ofUtf8?_toUtf8]
    | _ => rfl

theorem loadBoolean_storedBoolean (style : BooleanStorage) (b : Bool) :
    loadBoolean (storedBoolean style b) = .ok (.bool b) := by
  cases style <;> cases b <;> rfl

theorem load_null : p.load zone .null = .ok .null := by
  cases p with
  | timestamp type => cases type <;> rfl
  | _ => rfl

/-- What one call hands over, read from a column of the type. -/
structure Carries (p : ColumnRule) (zone : UtcOffset) (index : Nat) (v w : Value)
    (call : SinkCall) : Prop where
  bound : p.bindCall index zone v = .ok call
  index : call.index = index
  announced : call.IsAnnounced
  read : ∀ (cells : ResultPlace → Value) (place : ResultPlace), cells place = call.content →
    p.extract (.ofCells cells) place zone = .ok (p.readBack w)

theorem carries_null (index : Nat) : p.Carries zone index .null .null (.null index p.typeCode) where
  bound := rfl
  index := rfl
  announced := trivial
  read cells place h := by
    have hback : p.readBack .null = .null := by
      unfold readBack
      split <;> rfl
    rw [extract_ofCells, h, hback]
    cases p.readRequest with
    | value code => exact load_null
    | bytes => rfl
    | characters => rfl

/-- A plain value that is read as it is stored. -/
theorem carries_value {index : Nat} {stored : Value} {code : TypeCode}
    (hbound : p.bindCall index zone v = .ok (.value index stored))
    (hrequest : p.readRequest = .value code) (hload : p.load zone stored = .ok (p.readBack w)) :
    p.Carries zone index v w (.value index stored) where
  bound := hbound
  index := rfl
  announced := trivial
  read cells place h := by
    rw [extract_ofCells, h, hrequest]
    exact hload

theorem bindCall_of_coerce {index : Nat} (hv : v.isNull = false)
    (h : v.coerce p.columnType = .ok w) : p.bindCall index zone v = p.storeCall index zone w := by
  rw [bindCall, hv, h]
  rfl

/-- Only a timestamp that is stored in UTC moves. -/
theorem exists_carries_timestamp {type : ColumnType} {declaration : String}
    {literal : CalendarLiteral} {index : Nat} {t : Timestamp}
    (hp : (timestamp type declaration literal).storesAsUsual = true)
    (hbound : (timestamp type declaration literal).bindCall index zone v =
      (timestamp type declaration literal).storeCall index zone (.timestamp t))
    (hshift : type = .timestampUtc → ∀ u, Value.timestamp t = .timestamp u →
      ¬u.time.IsLeapSecond ∧ (u.toUtc? zone).isSome = true) :
    ∃ call, (timestamp type declaration literal).Carries zone index v (.timestamp t) call := by
  cases type with
  | timestamp => exact ⟨_, carries_value hbound rfl rfl⟩
  | timestampUtc =>
    obtain ⟨hleap, hsome⟩ := hshift rfl t rfl
    obtain ⟨s, hs⟩ := Option.isSome_iff_exists.1 hsome
    have hcall : (ColumnRule.timestamp .timestampUtc declaration literal).bindCall index zone v =
        .ok (.value index (.timestamp s)) := by
      rw [hbound]
      simp only [storeCall, hs, if_true]
    have hload : (ColumnRule.timestamp .timestampUtc declaration literal).load zone (.timestamp s) =
        .ok (.timestamp t) := by
      simp only [load, Timestamp.ofUtc?_of_toUtc? hleap hs]
    exact ⟨_, carries_value hcall rfl hload⟩
  | _ => cases hp

theorem exists_carries_clob {declaration : String} {code : TypeCode} {binding : LargeObjectBinding}
    {emptyLiteral : String} {index : Nat} {s : String}
    (hbound : (clob declaration code binding emptyLiteral).bindCall index zone v =
      (clob declaration code binding emptyLiteral).storeCall index zone (.text s)) :
    ∃ call, (clob declaration code binding emptyLiteral).Carries zone index v (.text s) call := by
  have hstream (b : LargeObjectBinding) (hb : b.isStream = true) (cells : ResultPlace → Value)
      (place : ResultPlace) (h : cells place = .text s) :
      (clob declaration code b emptyLiteral).extract (.ofCells cells) place zone =
        .ok (.text s) := by
    rw [extract_ofCells, h, readRequest, hb]
    rfl
  cases binding with
  | plain => exact ⟨_, carries_value hbound rfl rfl⟩
  | stream => exact ⟨_, hbound, rfl, rfl, hstream .stream rfl⟩
  | streamEmptyAsNull =>
    by_cases hs : s = ""
    · subst hs
      refine ⟨_, hbound, rfl, trivial, fun cells place h => ?_⟩
      rw [extract_ofCells, h]
      rfl
    · have hback : (clob declaration code .streamEmptyAsNull emptyLiteral).readBack (.text s) =
          .text s := if_neg (by simp [hs])
      have hcall : (clob declaration code .streamEmptyAsNull emptyLiteral).storeCall index zone
          (.text s) = .ok (.characters index s s.length) := by
        simp [storeCall, hs, LargeObjectBinding.isStream]
      refine ⟨_, hbound.trans hcall, rfl, rfl, fun cells place h => ?_⟩
      rw [hback]
      exact hstream .streamEmptyAsNull rfl cells place h

theorem exists_carries_blob {declaration : String} {code : TypeCode} {binding : LargeObjectBinding}
    {emptyLiteral : String} {index : Nat} {b : List UInt8}
    (hbound : (blob declaration code binding emptyLiteral).bindCall index zone v =
      (blob declaration code binding emptyLiteral).storeCall index zone (.bytes b)) :
    ∃ call, (blob declaration code binding emptyLiteral).Carries zone index v (.bytes b) call := by
  have hstream (k : LargeObjectBinding) (hk : k.isStream = true) (cells : ResultPlace → Value)
      (place : ResultPlace) (h : cells place = .bytes b) :
      (blob declaration code k emptyLiteral).extract (.ofCells cells) place zone =
        .ok (.bytes b) := by
    rw [extract_ofCells, h, readRequest, hk]
    rfl
  cases binding with
  | plain => exact ⟨_, carries_value hbound rfl rfl⟩
  | stream => exact ⟨_, hbound, rfl, rfl, hstream .stream rfl⟩
  | streamEmptyAsNull =>
    cases b with
    | nil =>
      refine ⟨_, hbound, rfl, trivial, fun cells place h => ?_⟩
      rw [extract_ofCells, h]
      rfl
    | cons first rest => exact ⟨_, hbound, rfl, rfl, hstream .streamEmptyAsNull rfl⟩

/-- A value of the kind that the type stores has a call that carries it. -/
theorem exists_carries (hp : p.storesAsUsual = true) (index : Nat)
    (h : v.coerce p.columnType = .ok w)
    (hshift : p.columnType = .timestampUtc → ∀ t, w = .timestamp t →
      ¬t.time.IsLeapSecond ∧ (t.toUtc? zone).isSome = true) :
    ∃ call, p.Carries zone index v w call := by
  cases hnull : v.isNull with
  | true =>
    obtain rfl := Value.isNull_iff.1 hnull
    cases h
    exact ⟨_, carries_null index⟩
  | false =>
    have hbound : p.bindCall index zone v = p.storeCall index zone w := bindCall_of_coerce hnull h
    have hkind := Value.kind_of_coerce hnull h
    cases p with
    | character | integer | floating | decimal | date | string =>
      exact ⟨_, carries_value hbound rfl rfl⟩
    | boolean style =>
      cases w with
      | bool b => exact ⟨_, carries_value hbound rfl (loadBoolean_storedBoolean style b)⟩
      | _ => cases hkind
    | timestamp type declaration literal =>
      have htime : w.kind = .timestamp := hkind.trans (beq_iff_eq.1 hp)
      cases w with
      | timestamp t => exact exists_carries_timestamp hp hbound hshift
      | _ => cases htime
    | clob declaration code binding emptyLiteral =>
      cases w with
      | text s => exact exists_carries_clob hbound
      | _ => cases hkind
    | blob declaration code binding emptyLiteral =>
      cases w with
      | bytes b => exact exists_carries_blob hbound
      | _ => cases hkind

end ColumnRule

/-! ## All values of a statement -/

/-- In Oracle nothing is not told from NULL, in large objects. -/
def Database.readBack (db : Database) (type : ColumnType) (w : Value) : Value :=
  if (db = .oracle ∨ db = .oracle12) ∧
      (type = .clob ∧ w = .text "" ∨ type = .blob ∧ w = .bytes []) then
    .null
  else w

theorem ColumnRule.storesAsUsual_columnRule (db : Database) (type : ColumnType) :
    ((Dialect.builtin db).columnRule type).storesAsUsual = true := by
  cases db <;> cases type <;> decide

theorem ColumnRule.storesEmptyAsNull_columnRule (db : Database) (type : ColumnType) :
    ((Dialect.builtin db).columnRule type).storesEmptyAsNull = true ↔
      (db = .oracle ∨ db = .oracle12) ∧ (type = .clob ∨ type = .blob) := by
  cases db <;> cases type <;> decide

theorem ColumnRule.readBack_columnRule (db : Database) (type : ColumnType) (w : Value) :
    ((Dialect.builtin db).columnRule type).readBack w = db.readBack type w := by
  unfold readBack Database.readBack
  refine if_congr ?_ rfl rfl
  rw [storesEmptyAsNull_columnRule, Dialect.columnType_columnRule]
  constructor
  · rintro ⟨⟨hdb, _⟩, hw⟩
    exact ⟨hdb, hw⟩
  · rintro ⟨hdb, hw⟩
    exact ⟨⟨hdb, hw.imp And.left And.left⟩, hw⟩

/-- A value that is bound to a parameter and read back from a column. -/
structure Transfer where
  slot : Parameter
  column : ResultColumn
  value : Value
  /-- The value in the form that the column stores. -/
  stored : Value

namespace Transfer

/-- The type of the column. -/
def type (t : Transfer) (d : Dialect) : ColumnType := d.storedType t.slot.type t.slot.length

/-- The column shows the parameter and is of its type, the value is one of the type, and a timestamp
that is stored in UTC is no leap second and does not leave the calendar. -/
structure IsDue (t : Transfer) (d : Dialect) (zone : UtcOffset) (parameter : ResultPlace → Nat) :
    Prop where
  shown : parameter t.column.column = t.slot.index
  sameType : t.column.type = t.slot.type
  sameLength : t.column.length = t.slot.length
  coerced : t.value.coerce (t.type d) = .ok t.stored
  moves : t.type d = .timestampUtc → ∀ u, t.stored = .timestamp u →
    ¬u.time.IsLeapSecond ∧ (u.toUtc? zone).isSome = true

variable {d : Dialect} {zone : UtcOffset} {ts : List Transfer}

/-- The call for the parameter carries the value. -/
def CarriedBy (d : Dialect) (zone : UtcOffset) (t : Transfer) (call : SinkCall) : Prop :=
  (d.columnRule (t.type d)).Carries zone t.slot.index t.value t.stored call

theorem run_eq {calls : List SinkCall} (h : List.Forall₂ (CarriedBy d zone) ts calls)
    (made : List SinkCall) :
    Binding.runFrom d zone (fun _ _ => .ok ()) made (ts.map fun t => (t.slot, t.value)) =
      ⟨made ++ calls, .ok ()⟩ := by
  induction h generalizing made with
  | nil => simp [Binding.runFrom]
  | @cons t call ts calls hcall _ ih =>
    have hbound : (d.columnRuleFor t.slot.type t.slot.length).bindCall t.slot.index zone t.value =
        .ok call := hcall.bound
    simp only [List.map_cons, Binding.runFrom, hbound, ih, List.append_assoc, List.singleton_append]

theorem outcome_eq {row : Row} {read : Transfer → Value}
    (h : ∀ t ∈ ts, (d.columnRuleFor t.column.type t.column.length).extract row t.column.column
      zone = .ok (read t)) :
    (Extraction.run d zone row (ts.map (·.column))).outcome = .ok (ts.map read) := by
  induction ts with
  | nil => rfl
  | cons t rest ih =>
    obtain ⟨ht, hrest⟩ := List.forall_mem_cons.1 h
    simp only [List.map_cons, Extraction.run, ht, ih hrest]
    rfl

/-- Where no two parameters share a position, the first call for a position is its own. -/
theorem find?_of_carriedBy {calls : List SinkCall} (h : List.Forall₂ (CarriedBy d zone) ts calls)
    (hnodup : (ts.map (·.slot.index)).Nodup) {t : Transfer} (ht : t ∈ ts) :
    ∃ call, calls.find? (·.index == t.slot.index) = some call ∧ CarriedBy d zone t call := by
  have hfind : ts.find? (·.slot.index == t.slot.index) = some t := by
    cases hf : ts.find? (·.slot.index == t.slot.index) with
    | none => exact absurd (beq_self_eq_true _) (List.find?_eq_none.1 hf t ht)
    | some u =>
      have hu : u.slot.index = t.slot.index := by simpa using List.find?_some hf
      rw [List.inj_on_of_nodup_map hnodup (List.mem_of_find?_eq_some hf) ht hu]
  exact find?_of_forall₂ h (fun u call hcall => by rw [hcall.index]) hfind

end Transfer

/-- What is bound is read back, in the form that its column stores: every parameter of a statement
in whatever order the columns show them. -/
theorem Binding.extract_bound {db : Database} {zone : UtcOffset} {parameter : ResultPlace → Nat}
    {ts : List Transfer} (hnodup : (ts.map (·.slot.index)).Nodup)
    (hdue : ∀ t ∈ ts, t.IsDue (Dialect.builtin db) zone parameter) :
    ∃ b, Binding.ofValues (ts.map (·.slot)) (ts.map (·.value)) = .ok b ∧
      (b.run (Dialect.builtin db) zone fun _ _ => .ok ()).outcome = .ok () ∧
      (∀ call ∈ (b.run (Dialect.builtin db) zone fun _ _ => .ok ()).calls, call.IsAnnounced) ∧
      (Extraction.run (Dialect.builtin db) zone
        (.ofCalls (b.run (Dialect.builtin db) zone fun _ _ => .ok ()).calls parameter)
        (ts.map (·.column))).outcome =
          .ok (ts.map fun t => db.readBack (t.type (Dialect.builtin db)) t.stored) := by
  have hcarried : ∀ t ∈ ts, ∃ call, Transfer.CarriedBy (Dialect.builtin db) zone t call := by
    intro t ht
    have hcolumn := Dialect.columnType_columnRule (Dialect.builtin db) (t.type (Dialect.builtin db))
    refine ColumnRule.exists_carries (ColumnRule.storesAsUsual_columnRule db _) _ ?_ ?_
    · rw [hcolumn]
      exact (hdue t ht).coerced
    · rw [hcolumn]
      exact (hdue t ht).moves
  obtain ⟨calls, hcalls⟩ := exists_forall₂ hcarried
  have hvalues : (ts.map (·.slot)).zip (ts.map (·.value)) = ts.map fun t => (t.slot, t.value) :=
    List.zip_map'
  have hrun : Binding.run ⟨ts.map fun t => (t.slot, t.value)⟩ (Dialect.builtin db) zone
      (fun _ _ => .ok ()) = ⟨calls, .ok ()⟩ := Transfer.run_eq hcalls []
  refine ⟨⟨ts.map fun t => (t.slot, t.value)⟩, ?_, ?_, ?_, ?_⟩
  · rw [Binding.ofValues, if_pos (by simp), hvalues]
  · rw [hrun]
  · rw [hrun]
    intro call hcall
    obtain ⟨t, _, hcarries⟩ := exists_mem_of_forall₂ hcalls.flip hcall
    exact hcarries.announced
  · rw [hrun]
    refine Transfer.outcome_eq fun t ht => ?_
    obtain ⟨call, hfind, hcarries⟩ := Transfer.find?_of_carriedBy hcalls hnodup ht
    have hdue := hdue t ht
    rw [hdue.sameType, hdue.sameLength, ← ColumnRule.readBack_columnRule]
    refine hcarries.read _ _ ?_
    rw [hdue.shown, hfind]

/-! ## A day, a text and a truth value -/

/-- A day that is stored as a timestamp in UTC, an empty text that is too long for a string of
Oracle, and a letter that is stored as a truth value. -/
def mixedTransfers : List Transfer :=
  [⟨⟨1, .timestampUtc, 0, none⟩, ⟨.index 2, .timestampUtc, 0, "since"⟩,
      .date ⟨2020, 3, 1, by decide⟩, .timestamp ⟨⟨2020, 3, 1, by decide⟩, .midnight⟩⟩,
    ⟨⟨2, .string, 5000, none⟩, ⟨.label "TEXT", .string, 5000, "text"⟩, .text "", .text ""⟩,
    ⟨⟨3, .boolean, 0, none⟩, ⟨.index 1, .boolean, 0, "active"⟩, .char 't', .bool true⟩]

/-- Which parameter a column of the row shows. -/
def mixedParameter : ResultPlace → Nat
  | .index 1 => 3
  | .index _ => 1
  | .label _ => 2

/-- In Oracle the day crosses into February and back, and the empty text comes back as NULL. -/
theorem mixedTransfers_read :
    (mixedTransfers.map (·.slot.index)).Nodup ∧
    (∀ t ∈ mixedTransfers,
      t.IsDue (Dialect.builtin .oracle) ⟨19800, by decide⟩ mixedParameter) ∧
    ∃ b, Binding.ofValues (mixedTransfers.map (·.slot)) (mixedTransfers.map (·.value)) = .ok b ∧
      (b.run (Dialect.builtin .oracle) ⟨19800, by decide⟩ fun _ _ => .ok ()).outcome = .ok () ∧
      (∀ call ∈ (b.run (Dialect.builtin .oracle) ⟨19800, by decide⟩ fun _ _ => .ok ()).calls,
        call.IsAnnounced) ∧
      (Extraction.run (Dialect.builtin .oracle) ⟨19800, by decide⟩
        (.ofCalls (b.run (Dialect.builtin .oracle) ⟨19800, by decide⟩ fun _ _ => .ok ()).calls
          mixedParameter)
        (mixedTransfers.map (·.column))).outcome =
          .ok [.timestamp ⟨⟨2020, 3, 1, by decide⟩, .midnight⟩, .null, .bool true] := by
  have hnodup : (mixedTransfers.map (·.slot.index)).Nodup := by decide
  have hdue : ∀ t ∈ mixedTransfers,
      t.IsDue (Dialect.builtin .oracle) ⟨19800, by decide⟩ mixedParameter := by
    simp only [mixedTransfers, List.forall_mem_cons]
    refine ⟨⟨rfl, rfl, rfl, rfl, fun _ u hu => ?_⟩,
      ⟨rfl, rfl, rfl, rfl, fun h => absurd h (by decide)⟩,
      ⟨rfl, rfl, rfl, rfl, fun h => absurd h (by decide)⟩, fun _ h => absurd h List.not_mem_nil⟩
    cases hu
    exact ⟨by decide, by decide⟩
  exact ⟨hnodup, hdue, Binding.extract_bound hnodup hdue⟩

end SqlDialects
