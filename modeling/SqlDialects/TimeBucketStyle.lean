import SqlDialects.TimeBucket

/-!
How databases write time buckets over a field.
-/

namespace SqlDialects

/-- The two expressions of a bucket over a field; none where a dialect has no way to say it. -/
structure TimeBucketStyle where
  truncated? : TimeBucket → String → Option String
  label? : TimeBucket → String → Option String

namespace TimeBucketStyle

/-- A function of a field and a quoted pattern. -/
def patternCall (function field pattern : String) : String :=
  function ++ "(" ++ field ++ ", '" ++ pattern ++ "')"

/-- Labels by a function of the field and a pattern. -/
def patternLabel (function : String) (pattern : TimeBucket → String) (b : TimeBucket)
    (field : String) : Option String :=
  some (patternCall function field (pattern b))

/-- Patterns of `TRUNC` and `TO_CHAR`. -/
def toCharTruncated (b : TimeBucket) (field : String) : String :=
  match b with
  | .hour => patternCall "TRUNC" field "HH24"
  | .day => patternCall "TRUNC" field "DD"
  | .week => patternCall "TRUNC" field "IW"
  | .month => patternCall "TRUNC" field "MM"
  | .year => patternCall "TRUNC" field "YYYY"
  | .dayOfWeek => patternCall "TO_CHAR" field "D"
  | .dayOfMonth => patternCall "TO_CHAR" field "DD"
  | .dayOfYear => patternCall "TO_CHAR" field "DDD"

/-- Patterns of `TO_CHAR`; the name of a day is in the case of its pattern. -/
def toCharPattern (dayName : String) : TimeBucket → String
  | .hour => "YYYY-MM-DD HH24"
  | .day => "YYYY-MM-DD"
  | .week => "IYYY-IW"
  | .month => "YYYY-MM"
  | .year => "YYYY"
  | .dayOfWeek => dayName
  | .dayOfMonth => "DD"
  | .dayOfYear => "DDD"

/-- `TRUNC` and `TO_CHAR`. -/
def truncate : TimeBucketStyle where
  truncated? b field := some (toCharTruncated b field)
  label? := patternLabel "TO_CHAR" (toCharPattern "DY")

/-- Expressions of `DATE_TRUNC` and `EXTRACT`. -/
def dateTruncTruncated (b : TimeBucket) (field : String) : String :=
  let unit := fun (name : String) => "DATE_TRUNC('" ++ name ++ "', " ++ field ++ ")"
  let part := fun (name : String) => "EXTRACT(" ++ name ++ " FROM " ++ field ++ ")"
  match b with
  | .hour => unit "hour"
  | .day => unit "day"
  | .week => unit "week"
  | .month => unit "month"
  | .year => unit "year"
  | .dayOfWeek => part "DOW"
  | .dayOfMonth => part "DAY"
  | .dayOfYear => part "DOY"

/-- `DATE_TRUNC`, `EXTRACT` and `TO_CHAR`. -/
def dateTrunc : TimeBucketStyle where
  truncated? b field := some (dateTruncTruncated b field)
  label? := patternLabel "TO_CHAR" (toCharPattern "Dy")

/-- Expressions of `DATE_FORMAT` and the functions for parts of a date. -/
def dateFormatTruncated (b : TimeBucket) (field : String) : String :=
  let call := fun (function : String) => function ++ "(" ++ field ++ ")"
  match b with
  | .hour => patternCall "DATE_FORMAT" field "%Y-%m-%d %H:00:00"
  | .day => call "DATE"
  | .week => "YEARWEEK(" ++ field ++ ", 3)"
  | .month => patternCall "DATE_FORMAT" field "%Y-%m-01"
  | .year => call "YEAR"
  | .dayOfWeek => call "DAYOFWEEK"
  | .dayOfMonth => call "DAYOFMONTH"
  | .dayOfYear => call "DAYOFYEAR"

/-- Patterns of `DATE_FORMAT`. -/
def dateFormatPattern : TimeBucket → String
  | .hour => "%Y-%m-%d %H"
  | .day => "%Y-%m-%d"
  | .week => "%x-%v"
  | .month => "%Y-%m"
  | .year => "%Y"
  | .dayOfWeek => "%a"
  | .dayOfMonth => "%d"
  | .dayOfYear => "%j"

/-- `DATE_FORMAT` and the functions for parts of a date. -/
def dateFormat : TimeBucketStyle where
  truncated? b field := some (dateFormatTruncated b field)
  label? := patternLabel "DATE_FORMAT" dateFormatPattern

/-- A part of a date. -/
def datePart (name field : String) : String := "DATEPART(" ++ name ++ ", " ++ field ++ ")"

/-- Expressions that count whole units from the first day. -/
def dateAddTruncated (b : TimeBucket) (field : String) : String :=
  let floor := fun (unit : String) =>
    "DATEADD(" ++ unit ++ ", DATEDIFF(" ++ unit ++ ", 0, " ++ field ++ "), 0)"
  match b with
  | .hour => floor "hour"
  | .day => floor "day"
  | .week => floor "week"
  | .month => floor "month"
  | .year => floor "year"
  | .dayOfWeek => datePart "weekday" field
  | .dayOfMonth => datePart "day" field
  | .dayOfYear => datePart "dayofyear" field

/-- Labels by `FORMAT`, but for weeks and days of the year, which it has no pattern for. -/
def formatLabel (b : TimeBucket) (field : String) : String :=
  match b with
  | .hour => patternCall "FORMAT" field "yyyy-MM-dd HH"
  | .day => patternCall "FORMAT" field "yyyy-MM-dd"
  | .week => "CONCAT(" ++ datePart "year" field ++ ", '-', " ++ datePart "iso_week" field ++ ")"
  | .month => patternCall "FORMAT" field "yyyy-MM"
  | .year => patternCall "FORMAT" field "yyyy"
  | .dayOfWeek => patternCall "FORMAT" field "ddd"
  | .dayOfMonth => patternCall "FORMAT" field "dd"
  | .dayOfYear => datePart "dayofyear" field

/-- `DATEADD` over `DATEDIFF`, `DATEPART` and `FORMAT`. -/
def dateAdd : TimeBucketStyle where
  truncated? b field := some (dateAddTruncated b field)
  label? b field := some (formatLabel b field)

end TimeBucketStyle

end SqlDialects
