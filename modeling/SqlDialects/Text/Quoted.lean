import SqlDialects.Text.Blank

/-!
Text between quotes, where a closing quote inside is written twice, and expressions with their
quoted parts left alone.
-/

namespace SqlDialects.Text

/-- Every `mark` written twice. -/
def double (mark : Char) : List Char → List Char
  | [] => []
  | c :: rest => if c = mark then c :: c :: double mark rest else c :: double mark rest

/-- Every pair of `mark`s made one, from the left. -/
def undouble (mark : Char) : List Char → List Char
  | [] => []
  | [c] => [c]
  | c :: d :: rest =>
    if c = mark ∧ d = mark then mark :: undouble mark rest else c :: undouble mark (d :: rest)

/-- Text between `opening` and `closing`, with `closing` doubled inside. -/
def enclose (opening closing : Char) (s : String) : String :=
  String.ofList (opening :: double closing s.toList ++ [closing])

/-- A quoted SQL string. -/
def literal (s : String) : String :=
  enclose '\'' '\'' s

/-- The text between a first and a last single quote, with pairs of quotes made one. -/
def unquoteChars : List Char → Option (List Char)
  | '\'' :: rest => if rest.getLast? = some '\'' then some (undouble '\'' rest.dropLast) else none
  | _ => none

/-- The text of a quoted SQL string; none where a quote is missing at either end. -/
def unquote? (s : String) : Option String :=
  (unquoteChars s.toList).map String.ofList

/-- Outside single quotes, blanks dropped and letters raised; inside, as it stands. -/
def canonicalFrom (quoted : Bool) : List Char → List Char
  | [] => []
  | c :: rest =>
    if c = '\'' then c :: canonicalFrom (!quoted) rest
    else if quoted then c :: canonicalFrom quoted rest
    else if isBlank c then canonicalFrom quoted rest
    else c.toUpper :: canonicalFrom quoted rest

/-- Expression text with everything outside single quotes brought to one spelling. -/
def canonical (s : String) : String :=
  String.ofList (canonicalFrom false s.toList)

/-- Whether the opening parenthesis at the start closes at the last character: `depth` counts the
parentheses open outside quotes. -/
def enclosesFrom (depth : Nat) (quoted : Bool) : List Char → Bool
  | [] => depth == 0
  | c :: rest =>
    if c = '\'' then enclosesFrom depth (!quoted) rest
    else if quoted then enclosesFrom depth quoted rest
    else if c = '(' then enclosesFrom (depth + 1) quoted rest
    else if c = ')' then
      if depth - 1 = 0 ∧ rest ≠ [] then false else enclosesFrom (depth - 1) quoted rest
    else enclosesFrom depth quoted rest

/-- The inside of a text that starts with a parenthesis closed only by its last character. -/
def innerOfParens (cs : List Char) : Option (List Char) :=
  match cs with
  | '(' :: rest =>
    if rest.getLast? = some ')' ∧ enclosesFrom 0 false cs then some rest.dropLast else none
  | _ => none

theorem length_trimChars_le (cs : List Char) : (trimChars cs).length ≤ cs.length := by
  simp only [trimChars, List.length_reverse]
  refine Nat.le_trans (List.dropWhile_suffix _).length_le ?_
  rw [List.length_reverse]
  exact (List.dropWhile_suffix _).length_le

theorem length_innerOfParens_lt {cs inner : List Char} (h : innerOfParens cs = some inner) :
    inner.length < cs.length := by
  unfold innerOfParens at h
  split at h
  · split at h
    · cases h
      simp only [List.length_dropLast, List.length_cons]
      omega
    · cases h
  · cases h

/-- Text without the parentheses around the whole of it, however many. -/
def withoutParensChars (cs : List Char) : List Char :=
  match _h : innerOfParens (trimChars cs) with
  | some inner => withoutParensChars inner
  | none => trimChars cs
termination_by cs.length
decreasing_by
  exact Nat.lt_of_lt_of_le (length_innerOfParens_lt ‹_›) (length_trimChars_le cs)

end SqlDialects.Text
