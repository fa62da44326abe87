import SqlDialects.Catalog.Basic

/-!
What can go wrong when an upgrade is planned.
-/

namespace SqlDialects

/-- Cause of a failure to plan an upgrade. -/
inductive UpgradeError where
  | generation (cause : Error)
  /-- An object has the name of a table or view, and is of the other kind. -/
  | kindConflict (name : String) (found : ObjectKind)
deriving DecidableEq, Repr

/-- Wording. -/
def UpgradeError.message : UpgradeError → String
  | .generation cause => "Generation error: " ++ cause.message
  | .kindConflict name found => s!"Cannot manage '{name}': it exists as a " ++ found.name

/-- A failure to generate a statement ends the planning. -/
def planning {α : Type} (x : Except Error α) : Except UpgradeError α :=
  x.mapError .generation

end SqlDialects
