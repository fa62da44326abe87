import SqlDialects.Proofs.Token

/-!
# A written name in front of any text

A name is written into the middle of a statement, and what comes next may be anything. This module
takes the first token off a text and keeps the characters behind it, so that it can be said which
part of a text a name takes up.

Results:
1. `Naming.tokens_of_readToken`: taken off one by one, the tokens of a text are its tokens.
2. `Naming.readToken_written`: a name takes up all of what was written for it, and nothing else.
3. `Naming.written_faithful`: in all six dialects a written name is read as the name, folded, and a
   name in a schema as both.
-/

namespace SqlDialects

namespace Naming

variable {r : Naming}

/-! ## The first token -/

/-- The first token of a text, for a reader at a position, and the characters behind it. -/
def readToken (r : Naming) (p : Position) : List Char → Option (Token × List Char)
  | [] => (r.pending p).head?.map fun t => (t, [])
  | c :: rest =>
    match (r.readChar p c).1 with
    | [] => r.readToken (r.readChar p c).2 rest
    -- A character that ends a token is not part of it, but one that is a token itself is.
    | t :: _ => some (t, if p = .between then rest else c :: rest)

/-- A name at the start of a text, and the characters behind it. A word that is reserved is none. -/
def readName (r : Naming) (cs : List Char) : Option (String × List Char) :=
  match r.readToken .between cs with
  | some (.name text, rest) => some (text, rest)
  | _ => none

/-- A name at the start of a text after the schema that it is in, if a dot says that there is one,
and the characters behind it. -/
def readQualified (r : Naming) (cs : List Char) : Option (Option String × String × List Char) := do
  let (first, rest) ← r.readName cs
  match rest with
  | '.' :: rest =>
    let (second, rest) ← r.readName rest
    return (some first, second, rest)
  | _ => return (none, first, rest)

/-- Characters that do not go on with a name in front of them. -/
def BeginsApart (r : Naming) (cs : List Char) : Prop :=
  ∀ c ∈ cs.head?, continuesWord c = false ∧ c ≠ r.closeQuote

theorem BeginsApart.isApart {c : Char} {cs : List Char} (h : r.BeginsApart (c :: cs)) :
    r.isApart c = true := by
  obtain ⟨hword, hquote⟩ := h c rfl
  rw [Naming.isApart, hword, Bool.not_false, Bool.true_and, bne_iff_ne]
  exact hquote

/-- What is read without a token to show for it is part of the token to come. -/
theorem readToken_append {p q : Position} {cs : List Char} (h : r.scan p cs = ([], q))
    (rest : List Char) : r.readToken p (cs ++ rest) = r.readToken q rest := by
  induction cs generalizing p with
  | nil =>
    cases h
    rfl
  | cons c cs ih =>
    rw [scan, Prod.mk.injEq, List.append_eq_nil_iff] at h
    obtain ⟨⟨hnone, hscan⟩, hq⟩ := h
    have hrest : r.scan (r.readChar p c).2 cs = ([], q) := Prod.ext hscan hq
    rw [List.cons_append, readToken, hnone]
    exact ih hrest

/-- A token that has begun ends where something else does. -/
theorem readToken_pending {p : Position} {t : Token} {rest : List Char}
    (hp : p.isOutside = true) (ht : r.pending p = [t]) (h : r.BeginsApart rest) :
    r.readToken p rest = some (t, rest) := by
  have hbetween : p ≠ .between := by
    rintro rfl
    cases ht
  cases rest with
  | nil => rw [readToken, ht]; rfl
  | cons c cs => rw [readToken, readChar_of_isApart hp h.isApart, ht, if_neg hbetween]; rfl

/-! ## Token by token -/

/-- A character that shows a token is that token, or it ends the one that had begun and is read
again by a reader with nothing to finish. -/
theorem readChar_eq {p : Position} {c : Char} {t : Token} {ts : List Token}
    (h : (r.readChar p c).1 = t :: ts) :
    p = .between ∧ r.readChar p c = ([t], .between) ∨
      p ≠ .between ∧ r.readChar p c = (t :: (r.readFirst c).1, (r.readFirst c).2) := by
  cases p with
  | between =>
    rw [readChar, readFirst] at h ⊢
    refine .inl ⟨rfl, ?_⟩
    split at h
    · cases h
    · split at h
      · cases h
      · split at h
        · cases h
        · next hopen hword hblank =>
          cases h
          rw [if_neg hopen, if_neg hword, if_neg hblank]
  | word cs =>
    rw [readChar] at h ⊢
    split at h
    · cases h
    · next hword =>
      cases h
      refine .inr ⟨?_, if_neg hword⟩
      rintro ⟨⟩
  | quoted cs =>
    rw [readChar] at h
    split at h <;> cases h
  | closed cs =>
    rw [readChar] at h ⊢
    split at h
    · cases h
    · next hquote =>
      cases h
      refine .inr ⟨?_, if_neg hquote⟩
      rintro ⟨⟩

/-- The tokens of a text are its first one and those of what is behind it. -/
theorem tokens_of_readToken {p : Position} {cs rest : List Char} {t : Token}
    (h : r.readToken p cs = some (t, rest)) :
    (r.scan p cs).1 ++ r.pending (r.scan p cs).2 = t :: r.tokens (String.ofList rest) := by
  rw [tokens, String.toList_ofList]
  induction cs generalizing p with
  | nil =>
    rw [readToken, Option.map_eq_some_iff] at h
    obtain ⟨a, ha, hpair⟩ := h
    cases hpair
    cases p with
    | between => cases ha
    | word | quoted | closed => cases ha; rfl
  | cons c cs ih =>
    rw [readToken] at h
    split at h
    · next hnone => rw [scan, hnone, List.nil_append, ih h]
    · next a as hsome =>
      cases h
      rcases readChar_eq hsome with ⟨rfl, hread⟩ | ⟨hbetween, hread⟩
      · rw [scan, hread, if_pos rfl]
        rfl
      · -- The character is read again, by a reader with nothing to finish.
        rw [scan, hread, if_neg hbetween, scan]
        rfl

/-! ## Names -/

/-- A name takes up all of what was written for it, and nothing else. -/
theorem readToken_written (hq : r.HasOwnQuotes) (name : String) {rest : List Char}
    (h : r.BeginsApart rest) :
    r.readToken .between ((r.written name).toList ++ rest) =
      some (.name (r.folded name), rest) := by
  obtain ⟨p, hscan, houtside, hpending⟩ := scan_written hq name
  rw [readToken_append hscan, readToken_pending houtside hpending h]

theorem readName_written (hq : r.HasOwnQuotes) (name : String) {rest : List Char}
    (h : r.BeginsApart rest) :
    r.readName ((r.written name).toList ++ rest) = some (r.folded name, rest) := by
  rw [readName, readToken_written hq name h]

/-- The tokens of a text that starts with a written name are the name and those of the rest. -/
theorem tokens_written (hq : r.HasOwnQuotes) (name : String) {rest : List Char}
    (h : r.BeginsApart rest) :
    r.tokens (r.written name ++ String.ofList rest) =
      .name (r.folded name) :: r.tokens (String.ofList rest) := by
  have hread := tokens_of_readToken (readToken_written hq name h)
  rw [tokens, String.toList_append, String.toList_ofList, hread]

/-- What is written without quotes is not reserved. -/
theorem isReserved_written {name : String}
    (h : (r.written name).toList.head? ≠ some r.openQuote) :
    r.isReserved (r.written name) = false := by
  rcases r.written_cases name with hw | ⟨hw, -, hreserved⟩
  · rw [hw] at h
    exact absurd (by simp [quoted, Text.enclose]) h
  · rw [hw, hreserved]

/-- Names that are written alike are alike, but for what folding takes from them. -/
theorem written_eq_written_iff (hq : r.HasOwnQuotes) {a b : String} :
    r.written a = r.written b ↔ r.folded a = r.folded b := by
  constructor
  · intro h
    have hend : r.BeginsApart [] := nofun
    have ha := readName_written hq a hend
    rw [h, readName_written hq b hend, Option.some.injEq, Prod.mk.injEq] at ha
    exact ha.1.symm
  · intro h
    unfold written
    rw [h]

theorem readQualified_writtenIn (hq : r.HasOwnQuotes) (hdot : r.isApart '.' = true)
    (schema : Option String) (name : String) {rest : List Char} (h : r.BeginsApart rest)
    (hschema : schema = none → rest.head? ≠ some '.') :
    r.readQualified ((r.writtenIn schema name).toList ++ rest) =
      some (schema.map r.folded, r.folded name, rest) := by
  cases schema with
  | none =>
    simp only [writtenIn, readQualified, readName_written hq name h, Option.bind_eq_bind,
      Option.bind_some]
    split
    · exact absurd rfl (hschema rfl)
    · rfl
  | some schema =>
    have hbehind : r.BeginsApart ('.' :: ((r.written name).toList ++ rest)) := by
      intro c hc
      cases hc
      simpa [isApart] using hdot
    have htext : (r.writtenIn (some schema) name).toList ++ rest =
        (r.written schema).toList ++ '.' :: ((r.written name).toList ++ rest) := by
      simp [writtenIn]
    simp only [htext, readQualified, readName_written hq schema hbehind, readName_written hq name h,
      Option.bind_eq_bind, Option.bind_some]
    rfl

/-- In every dialect a name is written as one name, whatever follows it: the name, folded. Without
quotes it is no reserved word, names are written alike exactly if they fold alike, and a name in a
schema is read as these two. -/
theorem written_faithful (db : Database) :
    (∀ (name : String) (rest : List Char), (Dialect.builtin db).naming.BeginsApart rest →
        (Dialect.builtin db).naming.readName
            (((Dialect.builtin db).naming.written name).toList ++ rest) =
          some ((Dialect.builtin db).naming.folded name, rest) ∧
        (Dialect.builtin db).naming.tokens
            ((Dialect.builtin db).naming.written name ++ String.ofList rest) =
          .name ((Dialect.builtin db).naming.folded name) ::
            (Dialect.builtin db).naming.tokens (String.ofList rest)) ∧
      (∀ name : String, ((Dialect.builtin db).naming.written name).toList.head? ≠
          some (Dialect.builtin db).naming.openQuote →
        (Dialect.builtin db).naming.isReserved ((Dialect.builtin db).naming.written name) =
          false) ∧
      (∀ a b : String,
        (Dialect.builtin db).naming.written a = (Dialect.builtin db).naming.written b ↔
          (Dialect.builtin db).naming.folded a = (Dialect.builtin db).naming.folded b) ∧
      ∀ (schema : Option String) (name : String) (rest : List Char),
        (Dialect.builtin db).naming.BeginsApart rest →
        (schema = none → rest.head? ≠ some '.') →
        (Dialect.builtin db).naming.readQualified
            (((Dialect.builtin db).naming.writtenIn schema name).toList ++ rest) =
          some (schema.map (Dialect.builtin db).naming.folded,
            (Dialect.builtin db).naming.folded name, rest) := by
  have hq := (isBuiltin db).hasOwnQuotes
  have hdot : (Dialect.builtin db).naming.isApart '.' = true := by
    cases db <;> decide
  refine ⟨fun name rest h => ⟨readName_written hq name h, tokens_written hq name h⟩,
    fun name h => isReserved_written h, fun a b => written_eq_written_iff hq, ?_⟩
  intro schema name rest h hschema
  exact readQualified_writtenIn hq hdot schema name h hschema

/-- A closing bracket in a name is doubled in SQL Server, an opening one is not, and the name ends
before the operator that is written next to it. -/
theorem bracketed_names_read :
    (Dialect.builtin .mssql).naming.written "A]B[" = "[A]]B[]" ∧
      (Dialect.builtin .mssql).naming.writtenIn (some "dbo") "order" = "dbo.[order]" ∧
      (Dialect.builtin .mssql).naming.BeginsApart "=1".toList ∧
      (Dialect.builtin .mssql).naming.readName "[A]]B[]=1".toList =
        some ("A]B[", "=1".toList) ∧
      (Dialect.builtin .mssql).naming.readQualified "dbo.[order]=1".toList =
        some (some "dbo", "order", "=1".toList) := by
  have hwritten : (Dialect.builtin .mssql).naming.written "A]B[" = "[A]]B[]" := by decide +kernel
  have hqualified :
      (Dialect.builtin .mssql).naming.writtenIn (some "dbo") "order" = "dbo.[order]" := by
    decide +kernel
  have hbehind : (Dialect.builtin .mssql).naming.BeginsApart "=1".toList := by
    intro c hc
    cases hc
    decide
  obtain ⟨hname, -, -, hparts⟩ := written_faithful .mssql
  obtain ⟨hfirst, -⟩ := hname "A]B[" "=1".toList hbehind
  have hboth := hparts (some "dbo") "order" "=1".toList hbehind nofun
  rw [hwritten] at hfirst
  rw [hqualified] at hboth
  exact ⟨hwritten, hqualified, hbehind, hfirst, hboth⟩

end Naming

end SqlDialects
