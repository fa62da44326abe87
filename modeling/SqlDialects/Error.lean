import SqlDialects.Calendar.Reading
import SqlDialects.Number.Floating
import SqlDialects.Restriction
import SqlDialects.TimeBucket
import SqlDialects.Value.Kind

/-!
What can go wrong when statements are written or values move, by cause, and the wording of each.
-/

namespace SqlDialects

/-- Why a configured default is none of its type. -/
inductive DefaultFault where
  | notOneCharacter
  | notBoolean
  | integer (fault : IntegerFault)
  | floating (fault : FloatingFault)
  | notFinite
  | notDecimal
  | calendar (fault : CalendarFault)
  | notEmpty
deriving DecidableEq, Repr

/-- Why a column cannot be altered. -/
inductive AlterationFault where
  | unknownType (typeName : String)
  | notConvertible (source target : ColumnType)
deriving DecidableEq, Repr

/-- What a restriction expected. -/
inductive ExpectedOperands where
  | count (arity : Arity)
  /-- A compound was given operands. -/
  | subClauses
  /-- Anything but a compound was given sub-clauses. -/
  | noSubClauses
deriving DecidableEq, Repr

/-- Why a description or a setting is refused. -/
inductive ConfigFault where
  | duplicateMarker (entity marker : String)
  | badVersion (entity field : String)
  | offsetOutOfRange (seconds : Int)
deriving DecidableEq, Repr

/-- Cause of a failure. The last two do not end in a report: the caller broke a promise. -/
inductive Error where
  | missingColumnRule (dialect : String) (type : ColumnType)
  | missingConditionRule (dialect : String) (restriction : Restriction)
  | offsetNotSupported (dialect : String) (offset : Nat)
  | unknownDialect (name : String)
  | operandCount (restriction : Restriction) (expected : ExpectedOperands) (actual : Nat)
  | unsupportedTimeBucket (dialect : String) (bucket : TimeBucket)
  | alreadyResolved (field : String)
  | unsupportedAlteration (table column : String) (fault : AlterationFault)
  | unknownField (entity field : String)
  | unknownEntity (name : String)
  | invalidDefault (type : ColumnType) (raw : String) (fault : DefaultFault)
  | valueMismatch (type : ColumnType) (kind : ValueKind)
  | parameterCount (expected actual : Nat)
  | driver (detail : String)
  | config (fault : ConfigFault)
  | missingFile
  | invalidUtf8
  /-- A text that is no description of the kind expected. -/
  | malformed
  /-- A timestamp that its offset moves out of the calendar. -/
  | timestampOverflow
  /-- A pattern without the operand it is to match. -/
  | missingOperand
deriving DecidableEq, Repr

/-- Name of the cause. -/
def Error.name : Error → String
  | .missingColumnRule .. => "MissingColumnRule"
  | .missingConditionRule .. => "MissingConditionRule"
  | .offsetNotSupported .. => "OffsetNotSupported"
  | .unknownDialect _ => "UnknownDialect"
  | .operandCount .. => "OperandCount"
  | .unsupportedTimeBucket .. => "UnsupportedTimeBucket"
  | .alreadyResolved _ => "AlreadyResolved"
  | .unsupportedAlteration .. => "UnsupportedAlteration"
  | .unknownField .. => "UnknownField"
  | .unknownEntity _ => "UnknownEntity"
  | .invalidDefault .. => "InvalidDefault"
  | .valueMismatch .. => "ValueMismatch"
  | .parameterCount .. => "ParameterCount"
  | .driver _ => "Driver"
  | .config _ => "Config"
  | .missingFile => "MissingFile"
  | .invalidUtf8 => "InvalidUtf8"
  | .malformed => "Malformed"
  | .timestampOverflow => "TimestampOverflow"
  | .missingOperand => "MissingOperand"

/-- Whether the caller broke a promise, and gets no report. -/
def Error.isFatal : Error → Bool
  | .timestampOverflow | .missingOperand => true
  | _ => false

/-- Wording. -/
def DefaultFault.message : DefaultFault → String
  | .notOneCharacter => "expected exactly one character"
  | .notBoolean => "expected true/false, Y/N or 1/0"
  | .integer fault => fault.message
  | .floating fault => fault.message
  | .notFinite => "not a finite number"
  | .notDecimal => "not a decimal number"
  | .calendar fault => fault.message
  | .notEmpty => "binary columns only take an empty default"

/-- Wording. -/
def AlterationFault.message : AlterationFault → String
  | .unknownType typeName => s!"unknown native type {typeName}"
  | .notConvertible source target => source.name ++ " cannot be converted to " ++ target.name

/-- Wording. -/
def ExpectedOperands.message : ExpectedOperands → String
  | .count arity => arity.expected
  | .subClauses => "sub-clauses"
  | .noSubClauses => "0 sub-clauses"

/-- Wording. -/
def ConfigFault.message : ConfigFault → String
  | .duplicateMarker entity marker =>
    s!"entity '{entity}' has duplicate field marker '{marker}'"
  | .badVersion entity field =>
    s!"entity '{entity}' needs a single integral table field as version, got '{field}'"
  | .offsetOutOfRange seconds => s!"UTC offset of {seconds} seconds is out of range"

/-- Wording. -/
def Error.message : Error → String
  | .missingColumnRule dialect type =>
    s!"Dialect '{dialect}' has no type policy for column type " ++ type.name
  | .missingConditionRule dialect restriction =>
    s!"Dialect '{dialect}' has no criteria policy for restriction " ++ restriction.name
  | .offsetNotSupported dialect offset =>
    s!"Dialect '{dialect}' does not support a result offset (requested offset {offset})"
  | .unknownDialect name => s!"Unknown dialect '{name}'"
  | .operandCount restriction expected actual =>
    "Restriction " ++ restriction.name ++ " expects " ++ expected.message
      ++ s!" operand(s), got {actual}"
  | .unsupportedTimeBucket dialect bucket =>
    s!"Dialect '{dialect}' cannot render time bucket " ++ bucket.name
  | .alreadyResolved field => s!"Field '{field}' has already been resolved"
  | .unsupportedAlteration table column fault =>
    s!"Cannot alter column '{column}' of table '{table}': " ++ fault.message
  | .unknownField entity field => s!"Entity '{entity}' has no field '{field}'"
  | .unknownEntity name => s!"Entity '{name}' is not registered"
  | .invalidDefault type raw fault =>
    s!"Invalid default '{raw}' for " ++ type.name ++ " column: " ++ fault.message
  | .valueMismatch type kind =>
    "Value of kind " ++ kind.name ++ " cannot be used as " ++ type.name
  | .parameterCount expected actual =>
    s!"Statement expects {expected} parameter(s), got {actual}"
  | .driver detail => s!"Driver error: {detail}"
  | .config fault => "Invalid configuration: " ++ fault.message
  | .missingFile => "IO error: No such file or directory (os error 2)"
  | .invalidUtf8 => "IO error: stream did not contain valid UTF-8"
  | .malformed => "Serialization error"
  | .timestampOverflow => "timestamp out of range"
  | .missingOperand => "operand missing"

end SqlDialects
