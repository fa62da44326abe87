import SqlDialects.Catalog.Basic
import SqlDialects.Dialect.Builtin
import SqlDialects.Proofs.Text

/-!
# Names found in the case they are stored in

A dialect that folds names writes them in lower case, and that is how its catalog has them from then
on. A name is looked up as it was given, without regard to case, so that what was created under it
should be found. But folding knows the case of every script, and the lookup that of A to Z alone:
what was created under a name with a capital of another script is not found under that name.

Results:
1. `Text.sameName_lower_iff`: which texts differ from their lower case in the case of A to Z alone.
2. `Dialect.builtin_findsStored_iff`: which names a catalog finds again.
3. `Dialect.exercise_not_found`: a table and a column that it does not find.
-/

namespace SqlDialects

namespace Text

/-! ## Lower case and the letters A to Z -/

/-- Text in which only A to Z are capitals. -/
def HasAsciiCapitals (s : String) : Prop :=
  ∀ c ∈ s.toList, 0x80 ≤ c.toNat → lowerChar c = [c]

theorem toNat_lt_of_isAlpha {c : Char} (h : c.isAlpha = true) : c.toNat < 0x80 := by
  simp only [Char.isAlpha, Char.isUpper, Char.isLower, Bool.or_eq_true, Bool.and_eq_true,
    decide_eq_true_eq] at h
  rcases h with hupper | hlower
  · have hlast : c.toNat ≤ 90 := hupper.2
    omega
  · have hlast : c.toNat ≤ 122 := hlower.2
    omega

theorem toLower_of_not_isAlpha {c : Char} (h : c.isAlpha = false) : c.toLower = c := by
  simp only [Char.isAlpha, Bool.or_eq_false_iff] at h
  exact Char.toLower_eq_of_not_isUpper (by rw [h.1]; exact Bool.false_ne_true)

/-- No letter of ASCII differs from a character beyond ASCII by case alone. -/
theorem toLower_eq_toLower_iff {c d : Char} (h : 0x80 ≤ c.toNat) :
    d.toLower = c.toLower ↔ d = c := by
  constructor
  · intro hsame
    have hc : c.isAlpha = false := by
      rw [Bool.eq_false_iff]
      intro hletter
      have := toNat_lt_of_isAlpha hletter
      omega
    have hd : d.isAlpha = false := by
      rw [← Char.isAlpha_toLower_eq_isAlpha, hsame, Char.isAlpha_toLower_eq_isAlpha, hc]
    rwa [toLower_of_not_isAlpha hc, toLower_of_not_isAlpha hd] at hsame
  · rintro rfl
    rfl

/-- One letter alone becomes two characters. -/
theorem lowerChar_cases {c : Char} (h : 0x80 ≤ c.toNat) :
    c = '\u0130' ∧ lowerChar c = ['i', '\u0307'] ∨ ∃ d, lowerChar c = [d] := by
  unfold lowerChar
  rw [if_neg (by omega)]
  split
  · next hdotted => exact .inl ⟨by rw [← Char.ofNat_toNat c, hdotted], rfl⟩
  · split <;> exact .inr ⟨_, rfl⟩

/-- Of the lower case of a text, the lookup takes the first character for the same if it is one of
ASCII or has not changed. -/
theorem map_lowerFrom_cons_iff {before rest : List Char} {c : Char} :
    (lowerFrom before (c :: rest)).map Char.toLower = (c :: rest).map Char.toLower ↔
      (0x80 ≤ c.toNat → lowerChar c = [c]) ∧
        (lowerFrom (c :: before) rest).map Char.toLower = rest.map Char.toLower := by
  rw [lowerFrom]
  by_cases hsigma : c = 'Σ'
  · -- Where a word ends makes no difference: both forms of the small sigma are another letter.
    subst hsigma
    have hsmall (final : Bool) : (if final then 'ς' else 'σ').toLower ≠ 'Σ'.toLower := by
      cases final <;> decide
    have hchanged : lowerChar 'Σ' ≠ ['Σ'] := by decide +kernel
    constructor
    · intro h
      exact absurd (List.cons.inj h).1 (hsmall _)
    · intro h
      exact absurd (h.1 (by decide)) hchanged
  rw [if_neg hsigma]
  by_cases hforeign : 0x80 ≤ c.toNat
  · rcases lowerChar_cases hforeign with ⟨rfl, hlower⟩ | ⟨d, hlower⟩
    · -- The dotted capital is lost at the first of its two characters.
      rw [hlower]
      constructor
      · intro h
        exact absurd (List.cons.inj h).1 (by decide)
      · intro h
        exact absurd (h.1 hforeign) (by decide)
    · simp [hlower, hforeign, toLower_eq_toLower_iff hforeign]
  · have hlower : lowerChar c = [c.toLower] := if_pos (Nat.not_le.1 hforeign)
    simp [hlower, hforeign]

theorem map_lowerFrom_eq_iff {before cs : List Char} :
    (lowerFrom before cs).map Char.toLower = cs.map Char.toLower ↔
      ∀ c ∈ cs, 0x80 ≤ c.toNat → lowerChar c = [c] := by
  induction cs generalizing before with
  | nil => simp [lowerFrom]
  | cons c rest ih => rw [map_lowerFrom_cons_iff, ih, List.forall_mem_cons]

/-- A text is the same as its lower case, up to the case of A to Z, exactly if it has no capitals
but these. -/
theorem sameName_lower_iff {s : String} : sameName (lower s) s = true ↔ HasAsciiCapitals s := by
  rw [sameName, lower, String.toList_ofList, beq_iff_eq, map_lowerFrom_eq_iff, HasAsciiCapitals]

end Text

/-! ## What is stored under a folded name -/

/-- A table or view created under a name, which the dialect folds. -/
def CatalogObject.storedAs (o : CatalogObject) (r : Naming) (name : String) : CatalogObject :=
  { o with name := r.folded name }

/-- A column created under a name, which the dialect folds. -/
def CatalogColumn.storedAs (c : CatalogColumn) (r : Naming) (name : String) : CatalogColumn :=
  { c with name := r.folded name }

theorem Catalog.find?_singleton_iff {o : CatalogObject} {name : String} :
    Catalog.find? ⟨[o]⟩ name = some o ↔ Text.sameName o.name name = true := by
  simp [Catalog.find?]

theorem CatalogObject.column?_singleton_iff {o : CatalogObject} {c : CatalogColumn} {name : String}
    (h : o.columns = [c]) : o.column? name = some c ↔ Text.sameName c.name name = true := by
  simp [CatalogObject.column?, h]

theorem Naming.sameName_folded_iff {r : Naming} {name : String} :
    Text.sameName (r.folded name) name = true ↔
      (r.lowerCase = true → Text.HasAsciiCapitals name) := by
  unfold Naming.folded
  split
  · next hlower => simp [hlower, Text.sameName_lower_iff]
  · next hlower => simp [hlower, Text.sameName_refl]

namespace Dialect

theorem lowerCase_builtin_iff (db : Database) :
    (builtin db).naming.lowerCase = true ↔ db = .postgresql := by
  cases db <;> decide

/-- What is created under a name is found under it, be it a table, a view or a column, in all
dialects but PostgreSQL, and there exactly if the name has no capitals but A to Z. -/
theorem builtin_findsStored_iff (db : Database) (name : String) (o : CatalogObject)
    (column : CatalogColumn) :
    (Catalog.find? ⟨[o.storedAs (builtin db).naming name]⟩ name =
        some (o.storedAs (builtin db).naming name) ↔
      (db = .postgresql → Text.HasAsciiCapitals name)) ∧
    (CatalogObject.column? { o with columns := [column.storedAs (builtin db).naming name] } name =
        some (column.storedAs (builtin db).naming name) ↔
      (db = .postgresql → Text.HasAsciiCapitals name)) := by
  have hfolded : Text.sameName ((builtin db).naming.folded name) name = true ↔
      (db = .postgresql → Text.HasAsciiCapitals name) := by
    rw [Naming.sameName_folded_iff, lowerCase_builtin_iff]
  exact ⟨Catalog.find?_singleton_iff.trans hfolded,
    (CatalogObject.column?_singleton_iff rfl).trans hfolded⟩

/-- PostgreSQL stores a table of exercises and its column in lower case, and neither is found. -/
theorem exercise_not_found :
    (builtin .postgresql).naming.folded "ÜBUNG" = "übung" ∧
      Catalog.find? ⟨[{ name := "übung" }]⟩ "ÜBUNG" = none ∧
      CatalogObject.column?
        { name := "übung"
          columns := [{ name := "übung", typeCode := .varchar, nullable := true }] }
        "ÜBUNG" = none := by
  decide +kernel

end Dialect

end SqlDialects
