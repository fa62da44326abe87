/-!
Restrictions that a condition places on a column, and the number of operands each takes.
-/

namespace SqlDialects

/-- Kind of a restriction. -/
inductive Restriction where
  | equals
  | notEquals
  | less
  | lessOrEqual
  | greater
  | greaterOrEqual
  | between
  | notBetween
  | amongst
  | notAmongst
  | like
  | notLike
  | beginsWith
  | notBeginWith
  | endsWith
  | notEndWith
  | isNull
  | isNotNull
  | and
  | or
deriving DecidableEq, Repr

/-- Number of operands. -/
inductive Arity where
  | none
  | one
  | two
  /-- One or more. -/
  | many
deriving DecidableEq, Repr

namespace Arity

/-- Whether `n` operands will do. -/
def accepts (a : Arity) (n : Nat) : Bool :=
  match a with
  | .none => n == 0
  | .one => n == 1
  | .two => n == 2
  | .many => 1 ≤ n

/-- What a message says is expected. -/
def expected : Arity → String
  | .none => "0"
  | .one => "1"
  | .two => "2"
  | .many => "at least 1"

end Arity

namespace Restriction

/-- Every restriction, in order. -/
def all : List Restriction :=
  [.equals, .notEquals, .less, .lessOrEqual, .greater, .greaterOrEqual, .between, .notBetween,
    .amongst, .notAmongst, .like, .notLike, .beginsWith, .notBeginWith, .endsWith, .notEndWith,
    .isNull, .isNotNull, .and, .or]

/-- Name in descriptions and messages. -/
def name : Restriction → String
  | .equals => "EQUALS"
  | .notEquals => "NOT_EQUALS"
  | .less => "LESS"
  | .lessOrEqual => "LESS_OR_EQUAL"
  | .greater => "GREATER"
  | .greaterOrEqual => "GREATER_OR_EQUAL"
  | .between => "BETWEEN"
  | .notBetween => "NOT_BETWEEN"
  | .amongst => "AMONGST"
  | .notAmongst => "NOT_AMONGST"
  | .like => "LIKE"
  | .notLike => "NOT_LIKE"
  | .beginsWith => "BEGINS_WITH"
  | .notBeginWith => "NOT_BEGIN_WITH"
  | .endsWith => "ENDS_WITH"
  | .notEndWith => "NOT_END_WITH"
  | .isNull => "IS_NULL"
  | .isNotNull => "IS_NOT_NULL"
  | .and => "AND"
  | .or => "OR"

/-- The restriction of a name. -/
def ofName? (name : String) : Option Restriction := all.find? (·.name == name)

/-- Number of operands it takes. -/
def arity : Restriction → Arity
  | .isNull | .isNotNull => .none
  | .between | .notBetween => .two
  | .amongst | .notAmongst | .and | .or => .many
  | _ => .one

/-- Whether it joins other conditions. -/
def isCompound : Restriction → Bool
  | .and | .or => true
  | _ => false

end Restriction

end SqlDialects
