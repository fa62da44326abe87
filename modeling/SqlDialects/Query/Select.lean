import SqlDialects.Query.Command

/-!
Queries over an entity: which fields, under which condition, in which order, and which rows of the
result.
-/

namespace SqlDialects

/-- A query over an entity. -/
structure Query where
  /-- Selected fields; all there are, if none is named. -/
  fields : List String := []
  filter : Option BoundCondition := none
  /-- Fields, each with whether it ascends. -/
  orderBy : List (String × Bool) := []
  offset : Nat := 0
  /-- Most rows; zero for all. -/
  limit : Nat := 0
  distinct : Bool := false
  /-- Whether to read the view, if there is one. -/
  fromView : Bool := false

namespace Query

/-- Whether the view is read. -/
def usesView (q : Query) (e : Entity) : Bool := q.fromView && e.view.isSome

/-- A field that the query can see. -/
def visibleField (q : Query) (e : Entity) (name : String) : Except Error Field :=
  if q.usesView e then e.field name else e.tableField name

/-- The selected fields. -/
def selected (q : Query) (e : Entity) : Except Error (List Field) :=
  if q.fields.isEmpty then .ok (if q.usesView e then e.fields else e.tableFields)
  else q.fields.mapM (q.visibleField e)

/-- The first field of the clause that only the view has. -/
def firstViewField (e : Entity) (c : BoundCondition) : String :=
  let names := c.parameters.filterMap (·.field)
  let isViewOnly := fun name => match e.field name with
    | .ok f => f.isViewOnly
    | .error _ => false
  (names.find? isViewOnly).getD ""

/-- A clause on fields of the view needs the view. -/
def checkFilter (q : Query) (e : Entity) : Except Error Unit :=
  match q.filter with
  | some c =>
    if c.viewOnly && !q.usesView e then e.noField (firstViewField e c) else .ok ()
  | none => .ok ()

/-- The columns to order by. -/
def order (q : Query) (e : Entity) : Except Error (List (String × Bool)) :=
  q.orderBy.mapM fun item => return ((← q.visibleField e item.1).column.written, item.2)

/-- Table or view, as it is written. -/
def source (q : Query) (e : Entity) : String :=
  match e.view with
  | some view => if q.usesView e then view.written else e.table.written
  | none => e.table.written

/-- The SELECT of a query. The window is written at the first place where the dialect has one for
it. -/
def select (q : Query) (d : Dialect) (e : Entity) : Except Error PreparedStatement := do
  let fields ← q.selected e
  q.checkFilter e
  let afterSelect ← d.window.afterSelect q.offset q.limit
  let afterWhere ←
    if afterSelect.isSome then pure none
    else d.window.afterWhere q.offset q.limit q.filter.isSome
  let order ← q.order e
  let atEnd :=
    if afterSelect.isSome || afterWhere.isSome then none else d.window.atEnd q.offset q.limit
  return {
    command := .select {
      distinct := q.distinct
      afterSelect := afterSelect.getD ""
      columns := fields.map (·.column.written)
      source := q.source e
      filter := q.filter.map (·.condition)
      afterWhere := afterWhere.getD ""
      order
      atEnd := atEnd.getD "" }
    parameters := match q.filter with
      | some c => numbered c.parameters
      | none => []
    results := fields.mapIdx fun i f => f.result (i + 1) }

end Query

end SqlDialects
