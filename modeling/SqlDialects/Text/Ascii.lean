/-!
Letter case where only the letters A to Z have one: keywords, and names as catalogs compare them.
-/

namespace SqlDialects.Text

/-- Text with the letters a to z raised. -/
def asciiUpper (s : String) : String :=
  String.ofList (s.toList.map Char.toUpper)

/-- Text with the letters A to Z lowered. -/
def asciiLower (s : String) : String :=
  String.ofList (s.toList.map Char.toLower)

/-- Two texts that differ in the case of the letters A to Z at most. -/
def sameName (a b : String) : Bool :=
  a.toList.map Char.toLower == b.toList.map Char.toLower

/-- `VACATION_DAY` for `vacationDay`: a capital after a small letter or digit starts a new word. -/
def upperSnakeFrom (afterSmall : Bool) : List Char → List Char
  | [] => []
  | c :: rest =>
    let small := ('a' ≤ c && c ≤ 'z') || ('0' ≤ c && c ≤ '9')
    if 'A' ≤ c && c ≤ 'Z' && afterSmall then
      '_' :: c.toUpper :: upperSnakeFrom small rest
    else
      c.toUpper :: upperSnakeFrom small rest

/-- The table or column name that a camel-case name stands for. -/
def upperSnake (name : String) : String :=
  String.ofList (upperSnakeFrom false name.toList)

end SqlDialects.Text
