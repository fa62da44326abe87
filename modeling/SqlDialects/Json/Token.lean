import SqlDialects.Json.Basic
import SqlDialects.Number.Integer
import SqlDialects.Text.Bytes

/-!
JSON text cut into tokens, one character at a time: the scanner is between tokens, or inside a
string, a number or a word.
-/

namespace SqlDialects.Json

/-- A token. -/
inductive Token where
  | openArray
  | closeArray
  | openObject
  | closeObject
  | comma
  | colon
  | value (v : Json)

/-- Place inside a string. -/
inductive StringPhase where
  | plain
  | escape
  | hex (count value : Nat)

/-- A string so far, last character first. `high` is the first half of a surrogate pair that waits
for the second; a half that stays alone breaks the string. -/
structure StringScan where
  text : List Char
  broken : Bool
  high : Option Nat
  phase : StringPhase

namespace StringScan

/-- Before the first character. -/
def start : StringScan := ⟨[], false, none, .plain⟩

/-- A string whose waiting half, if any, stays alone. -/
def settle (s : StringScan) : StringScan :=
  { s with broken := s.broken || s.high.isSome, high := none }

/-- A character added. -/
def push (s : StringScan) (c : Char) : StringScan :=
  { s.settle with text := c :: s.text, phase := .plain }

/-- A code unit added: half a surrogate pair, or a character. -/
def pushUnit (s : StringScan) (unit : Nat) : StringScan :=
  if 0xD800 ≤ unit ∧ unit < 0xDC00 then { s.settle with high := some unit, phase := .plain }
  else if 0xDC00 ≤ unit ∧ unit < 0xE000 then
    match s.high with
    | some high =>
      let c := Char.ofNat (0x10000 + (high - 0xD800) * 0x400 + (unit - 0xDC00))
      { s with text := c :: s.text, high := none, phase := .plain }
    | none => { s with broken := true, phase := .plain }
  else s.push (Char.ofNat unit)

/-- The character that a letter after a backslash stands for. -/
def escaped? : Char → Option Char
  | '"' => some '"'
  | '\\' => some '\\'
  | '/' => some '/'
  | 'b' => some '\x08'
  | 'f' => some '\x0c'
  | 'n' => some '\n'
  | 'r' => some '\r'
  | 't' => some '\t'
  | _ => none

/-- One more character, but for the closing quote. -/
def step (s : StringScan) (c : Char) : Option StringScan :=
  match s.phase with
  | .plain =>
    if c = '\\' then some { s with phase := .escape }
    else if c.toNat < 0x20 then none
    else some (s.push c)
  | .escape =>
    if c = 'u' then some { s with phase := .hex 0 0 }
    else (escaped? c).map s.push
  | .hex count value => do
    let value := value * 16 + (← Text.hexValue? c)
    if count = 3 then return s.pushUnit value
    else return { s with phase := .hex (count + 1) value }

/-- Whether a quote ends the string here. -/
def atQuote (s : StringScan) (c : Char) : Bool :=
  c == '"' && match s.phase with
    | .plain => true
    | _ => false

/-- The string read. -/
def finish (s : StringScan) : Json :=
  .string (if s.settle.broken then none else some (String.ofList s.text.reverse))

end StringScan

/-- Digits, at least one, and what follows them. -/
def takeDigits? (cs : List Char) : Option (List Char × List Char) :=
  match cs.takeWhile Text.isAsciiDigit with
  | [] => none
  | digits => some (digits, cs.dropWhile Text.isAsciiDigit)

/-- Nothing, or an exponent part. -/
def isExponent : List Char → Bool
  | [] => true
  | c :: rest =>
    let digits := match rest with
      | '+' :: ds | '-' :: ds => ds
      | ds => ds
      (c == 'e' || c == 'E') && !digits.isEmpty && digits.all Text.isAsciiDigit

/-- A number by the grammar of JSON: no zero before other digits, and digits around a point. -/
def numberOfChars? (cs : List Char) : Option Json := do
  let (negative, unsigned) := match cs with
    | '-' :: rest => (true, rest)
    | rest => (false, rest)
  let (whole, rest) ← takeDigits? unsigned
  if whole.head? = some '0' ∧ 1 < whole.length then none
  else
    let tail ← match rest with
      | '.' :: more => (takeDigits? more).map Prod.snd
      | more => some more
    if isExponent tail then
      some (.number ⟨negative, digitsValue 0 whole, rest.isEmpty⟩)
    else none

/-- A word that is a value. -/
def wordOfChars? (cs : List Char) : Option Json :=
  if cs = "null".toList then some .null
  else if cs = "true".toList then some (.bool true)
  else if cs = "false".toList then some (.bool false)
  else none

/-- What the scanner is inside of. -/
inductive ScanState where
  | between
  | string (s : StringScan)
  | number (chars : List Char)
  | word (chars : List Char)

/-- A character of a number. -/
def isNumberChar (c : Char) : Bool := Text.isAsciiDigit c || "+-.eE".toList.contains c

/-- White space between tokens. -/
def isSpace (c : Char) : Bool := c == ' ' || c == '\n' || c == '\r' || c == '\t'

/-- A mark that is a token by itself. -/
def markToken? : Char → Option Token
  | '[' => some .openArray
  | ']' => some .closeArray
  | '\x7b' => some .openObject
  | '\x7d' => some .closeObject
  | ',' => some .comma
  | ':' => some .colon
  | _ => none

/-- The first character of a token, or a character between tokens. -/
def startToken (c : Char) : Option (List Token × ScanState) :=
  if isSpace c then some ([], .between)
  else if c = '"' then some ([], .string .start)
  else if c = '-' || Text.isAsciiDigit c then some ([], .number [c])
  else if 'a' ≤ c && c ≤ 'z' then some ([], .word [c])
  else (markToken? c).map fun t => ([t], .between)

/-- The value that ends with a number or word, given last character first. -/
def endToken? : ScanState → Option (List Token)
  | .between => some []
  | .string _ => none
  | .number chars => (numberOfChars? chars.reverse).map ([.value ·])
  | .word chars => (wordOfChars? chars.reverse).map ([.value ·])

/-- The scanner's state and the tokens finished at one more character. -/
def scanStep (state : ScanState) (c : Char) : Option (List Token × ScanState) :=
  match state with
  | .between => startToken c
  | .string s =>
    if s.atQuote c then some ([.value s.finish], .between)
    else (s.step c).map fun s => ([], .string s)
  | .number chars =>
    if isNumberChar c then some ([], .number (c :: chars))
    else do
      let finished ← endToken? state
      let (more, next) ← startToken c
      return (finished ++ more, next)
  | .word chars =>
    if 'a' ≤ c && c ≤ 'z' then some ([], .word (c :: chars))
    else do
      let finished ← endToken? state
      let (more, next) ← startToken c
      return (finished ++ more, next)

/-- Tokens of a text, from a state on. -/
def tokensFrom (state : ScanState) : List Char → Option (List Token)
  | [] => endToken? state
  | c :: rest => do
    let (finished, next) ← scanStep state c
    return finished ++ (← tokensFrom next rest)

/-- Tokens of a text. -/
def tokens? (s : String) : Option (List Token) := tokensFrom .between s.toList

end SqlDialects.Json
