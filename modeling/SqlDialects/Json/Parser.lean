import SqlDialects.Json.Token

/-!
JSON values from tokens, with the open arrays and objects on a stack.
-/

namespace SqlDialects.Json

/-- An array or object that is still open, last part first. -/
inductive Frame where
  | array (items : List Json)
  | object (members : List (Option String × Json)) (name : Option String)

/-- What may come next. -/
inductive Expected where
  | value
  /-- After an opening bracket. -/
  | valueOrEnd
  | name
  /-- After an opening brace. -/
  | nameOrEnd
  | colon
  | commaOrEnd
  | nothing (result : Json)

/-- Open frames, innermost first, and what may come next. -/
structure ParseState where
  stack : List Frame
  expected : Expected

namespace ParseState

/-- Before the text. -/
def start : ParseState := ⟨[], .value⟩

/-- A value that is complete. -/
def complete (stack : List Frame) (v : Json) : ParseState :=
  match stack with
  | [] => ⟨[], .nothing v⟩
  | .array items :: rest => ⟨.array (v :: items) :: rest, .commaOrEnd⟩
  | .object members name :: rest => ⟨.object ((name, v) :: members) none :: rest, .commaOrEnd⟩

/-- A value where one may start. -/
def beginValue (stack : List Frame) : Token → Option ParseState
  | .openArray => some ⟨.array [] :: stack, .valueOrEnd⟩
  | .openObject => some ⟨.object [] none :: stack, .nameOrEnd⟩
  | .value v => some (complete stack v)
  | _ => none

/-- The name of a member. -/
def beginMember (stack : List Frame) : Token → Option ParseState
  | .value (.string name) =>
    match stack with
    | .object members _ :: rest => some ⟨.object members name :: rest, .colon⟩
    | _ => none
  | _ => none

/-- The end of the innermost array or object. -/
def close (stack : List Frame) : Token → Option ParseState
  | .closeArray =>
    match stack with
    | .array items :: rest => some (complete rest (.array items.reverse))
    | _ => none
  | .closeObject =>
    match stack with
    | .object members _ :: rest => some (complete rest (.object members.reverse))
    | _ => none
  | _ => none

/-- What follows a comma. -/
def afterComma : List Frame → Option ParseState
  | stack@(.array _ :: _) => some ⟨stack, .value⟩
  | stack@(.object _ _ :: _) => some ⟨stack, .name⟩
  | [] => none

/-- One more token. -/
def step (s : ParseState) (t : Token) : Option ParseState :=
  match s.expected with
  | .value => beginValue s.stack t
  | .valueOrEnd => beginValue s.stack t <|> close s.stack t
  | .name => beginMember s.stack t
  | .nameOrEnd => beginMember s.stack t <|> close s.stack t
  | .colon =>
    match t with
    | .colon => some ⟨s.stack, .value⟩
    | _ => none
  | .commaOrEnd =>
    match t with
    | .comma => afterComma s.stack
    | _ => close s.stack t
  | .nothing _ => none

/-- The value of a text that has ended. -/
def result? (s : ParseState) : Option Json :=
  match s.expected with
  | .nothing v => some v
  | _ => none

end ParseState

/-- The one value that a text holds. -/
def parse? (s : String) : Option Json := do
  let tokens ← tokens? s
  let last ← tokens.foldlM ParseState.step .start
  last.result?

end SqlDialects.Json
