/-!
Buckets that aggregation queries sort timestamps into.
-/

namespace SqlDialects

/-- Granularity of a bucket. -/
inductive TimeBucket where
  | hour
  | day
  | dayOfWeek
  | dayOfMonth
  | dayOfYear
  | week
  | month
  | year
deriving DecidableEq, Repr

namespace TimeBucket

/-- Every bucket, in order. -/
def all : List TimeBucket :=
  [.hour, .day, .dayOfWeek, .dayOfMonth, .dayOfYear, .week, .month, .year]

/-- Name in descriptions and messages. -/
def name : TimeBucket → String
  | .hour => "HOUR"
  | .day => "DAY"
  | .dayOfWeek => "DAY_OF_WEEK"
  | .dayOfMonth => "DAY_OF_MONTH"
  | .dayOfYear => "DAY_OF_YEAR"
  | .week => "WEEK"
  | .month => "MONTH"
  | .year => "YEAR"

/-- The bucket of a name. -/
def ofName? (name : String) : Option TimeBucket := all.find? (·.name == name)

end TimeBucket

/-- A bucket written for one field: what to group by and what to show. -/
structure TimeBucketExpression where
  truncated : String
  label : String
deriving DecidableEq, Repr

end SqlDialects
