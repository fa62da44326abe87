import SqlDialects.Error

/-!
The window of a result: how many rows to skip and how many to take. A dialect writes it at one of
three places of a SELECT.
-/

namespace SqlDialects

/-- How a dialect writes a window. -/
inductive WindowStyle where
  /-- `LIMIT n OFFSET m`; `limitRequired` where an offset alone is refused. -/
  | limitOffset (limitRequired : Bool)
  /-- `OFFSET m ROWS FETCH NEXT n ROWS ONLY` -/
  | offsetFetch
  /-- `SELECT TOP n`, without an offset. -/
  | top (dialect : String)
  /-- `ROWNUM <= n`, without an offset. -/
  | rowNumber (dialect : String)
deriving DecidableEq, Repr

namespace WindowStyle

/-- The largest limit there is. -/
def unlimited : Nat := 18446744073709551615

/-- A window without an offset, by its limit. -/
def limitOnly (dialect : String) (offset limit : Nat) (write : Nat → String) :
    Except Error (Option String) :=
  if 0 < offset then .error (.offsetNotSupported dialect offset)
  else .ok (if limit = 0 then none else some (write limit))

/-- What is written after `SELECT`; none if nothing is. -/
def afterSelect (w : WindowStyle) (offset limit : Nat) : Except Error (Option String) :=
  match w with
  | .top dialect => limitOnly dialect offset limit fun n => s!"TOP {n} "
  | _ => .ok none

/-- What is written after the condition; none if nothing is. -/
def afterWhere (w : WindowStyle) (offset limit : Nat) (hasWhere : Bool) :
    Except Error (Option String) :=
  match w with
  | .rowNumber dialect =>
    let keyword := if hasWhere then "AND" else "WHERE"
    limitOnly dialect offset limit fun n => s!" {keyword} ROWNUM <= {n}"
  | _ => .ok none

/-- What is written at the end; none if nothing is. -/
def atEnd (w : WindowStyle) (offset limit : Nat) : Option String :=
  if offset = 0 ∧ limit = 0 then none
  else match w with
    | .limitOffset limitRequired =>
      let limitText :=
        if 0 < limit then s!" LIMIT {limit}"
        else if limitRequired then s!" LIMIT {unlimited}"
        else ""
      some (limitText ++ if 0 < offset then s!" OFFSET {offset}" else "")
    | .offsetFetch =>
      some ((if 0 < offset then s!" OFFSET {offset} ROWS" else "")
        ++ if 0 < limit then s!" FETCH NEXT {limit} ROWS ONLY" else "")
    | _ => none

end WindowStyle

end SqlDialects
