import SqlDialects.ColumnRule.Default

/-!
Defaults as catalogs report them: each database decorates the expression in its own way, and a
reading undoes that, so that an unchanged default reads as unchanged.
-/

namespace SqlDialects

/-- Spellings of the current day and time, with the one that stands for all. -/
def defaultSynonyms : List (String × String) :=
  [("NOW()", "CURRENT_TIMESTAMP"), ("CURRENT_TIMESTAMP()", "CURRENT_TIMESTAMP"),
    ("LOCALTIMESTAMP", "CURRENT_TIMESTAMP"), ("SYSTIMESTAMP", "CURRENT_TIMESTAMP"),
    ("SYSDATE", "CURRENT_TIMESTAMP"), ("GETDATE()", "CURRENT_TIMESTAMP"),
    ("SYSDATETIME()", "CURRENT_TIMESTAMP"), ("CURDATE()", "CURRENT_DATE"),
    ("CURRENT_DATE()", "CURRENT_DATE"), ("CONVERT([DATE],GETDATE())", "CURRENT_DATE")]

/-- One spelling for all that mean the same. -/
def canonicalDefault (s : String) : String :=
  match defaultSynonyms.find? fun entry => Text.sameName s entry.1 with
  | some entry => entry.2
  | none => s

/-- Digits of any script with a sign and decimal places at most. -/
def isSignedNumber (cs : List Char) : Bool :=
  let unsigned := dropSign cs
  !(unsigned.takeWhile Text.isDecimalDigit).isEmpty
    && match unsigned.dropWhile Text.isDecimalDigit with
      | [] => true
      | '.' :: places => !places.isEmpty && places.all Text.isDecimalDigit
      | _ => false

namespace Cast

/-- A later character of the name of a type. -/
def isNameChar (c : Char) : Bool := c.isAlphanum || c == '_' || c == ' '

/-- A character of a size. -/
def isSizeChar (c : Char) : Bool := Text.isAsciiDigit c || c == ',' || c == ' '

/-- Text after a size in parentheses, if it starts with one. -/
def dropSize (cs : List Char) : List Char :=
  match cs with
  | '(' :: rest =>
    match rest.dropWhile isSizeChar with
    | ')' :: after => after
    | _ => cs
  | _ => cs

/-- Text after the brackets of an array type, if it starts with them. -/
def dropBrackets : List Char → List Char
  | '[' :: ']' :: rest => rest
  | cs => cs

/-- Text after a cast such as `::character varying(20)`, if it starts with one. -/
def drop? : List Char → Option (List Char)
  | ':' :: ':' :: c :: rest =>
    if c.isAlpha || c == '_' then
      some (dropBrackets (dropSize (rest.dropWhile isNameChar)))
    else none
  | _ => none

theorem length_dropSize_le (cs : List Char) : (dropSize cs).length ≤ cs.length := by
  unfold dropSize
  split
  · split
    · rename_i rest _ after h
      have := (List.dropWhile_suffix (l := rest) isSizeChar).length_le
      rw [h] at this
      simp only [List.length_cons] at this ⊢
      omega
    · exact Nat.le_refl _
  · exact Nat.le_refl _

theorem length_dropBrackets_le (cs : List Char) : (dropBrackets cs).length ≤ cs.length := by
  unfold dropBrackets
  split
  · simp only [List.length_cons]
    omega
  · exact Nat.le_refl _

theorem length_drop?_lt {cs rest : List Char} (h : drop? cs = some rest) :
    rest.length < cs.length := by
  unfold drop? at h
  split at h
  · rename_i c tail
    split at h
    · cases h
      have h1 := length_dropBrackets_le (dropSize (tail.dropWhile isNameChar))
      have h2 := length_dropSize_le (tail.dropWhile isNameChar)
      have h3 := (List.dropWhile_suffix (l := tail) isNameChar).length_le
      simp only [List.length_cons]
      omega
    · cases h
  · cases h

/-- Text without its casts. -/
def removeAll : List Char → List Char
  | [] => []
  | c :: cs =>
    match _h : drop? (c :: cs) with
    | some rest => removeAll rest
    | none => c :: removeAll cs
termination_by cs => cs.length
decreasing_by
  · exact length_drop?_lt ‹_›
  · simp

end Cast

/-- How a database decorates defaults. -/
inductive DefaultReading where
  /-- Not at all. -/
  | quoted
  /-- With casts: `'0'::numeric`. -/
  | castSuffix
  /-- Without the quotes of strings. -/
  | bare
  /-- In parentheses, with an `N` before strings. -/
  | parenthesized
deriving DecidableEq, Repr

namespace DefaultReading

/-- One spelling outside quotes, and for synonyms. -/
def canonicalFolded (s : String) : String := canonicalDefault (Text.canonical s)

/-- A default without casts; a number in quotes that only carried a cast loses them too. -/
def withoutCasts (s : String) : String :=
  let trimmed := Text.trimChars s.toList
  let stripped := Cast.removeAll trimmed
  let bare := Text.withoutParensChars stripped
  let number? := if stripped.length = trimmed.length then none
    else (Text.unquoteChars bare).filter isSignedNumber
  match number? with
  | some number => String.ofList number
  | none => canonicalFolded (String.ofList bare)

/-- A default without quotes; truth values are numbers and keywords are in capitals. -/
def withoutQuotes (s : String) : String :=
  let trimmed := Text.trim s
  match Text.unquote? trimmed with
  | some inner => inner
  | none =>
    let canonical := canonicalDefault trimmed
    if Text.sameName canonical "TRUE" then "1"
    else if Text.sameName canonical "FALSE" then "0"
    else if Text.sameName canonical "CURRENT_TIMESTAMP" || Text.sameName canonical "CURRENT_DATE"
    then Text.asciiUpper canonical
    else canonical

/-- A string without the `N` before its quotes. -/
def dropNationalMark : List Char → List Char
  | 'N' :: '\'' :: rest => '\'' :: rest
  | cs => cs

/-- The one spelling of a default. Empty where there is none. -/
def normalize (d : DefaultReading) (s : String) : String :=
  match d with
  | .quoted => canonicalFolded (Text.trim s)
  | .castSuffix => withoutCasts s
  | .bare => withoutQuotes s
  | .parenthesized =>
    canonicalFolded (String.ofList (dropNationalMark (Text.withoutParensChars s.toList)))

/-- The reported default in its one spelling; none for nothing and for NULL. -/
def reported? (d : DefaultReading) (observed : Option String) : Option String :=
  (observed.map d.normalize).filter fun n => !n.isEmpty && !Text.sameName n "NULL"

/-- Whether the reported default is the configured one. -/
def isMatch (d : DefaultReading) (observed configured : Option String) (p : ColumnRule) : Bool :=
  match d.reported? observed, configured.filter fun c => !Text.isAllBlank c with
  | none, none => true
  | some observed, some raw =>
    match p.defaultLiteral raw with
    | .ok rendered => d.normalize rendered == observed
    | .error _ => false
  | _, _ => false

end DefaultReading

end SqlDialects
