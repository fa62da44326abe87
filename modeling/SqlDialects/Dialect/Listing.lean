import SqlDialects.Dialect.Basic
import SqlDialects.Json.Basic

/-!
The traits of a dialect in JSON.
-/

namespace SqlDialects

/-- The traits of a dialect that are facts rather than ways of writing, and what it writes in
definitions of columns. -/
def Dialect.listing (d : Dialect) : Json :=
  .record [
    ("name", .text d.name.name), ("schema", .option .text d.naming.defaultSchema),
    ("lower_case", .bool d.naming.lowerCase),
    ("max_clause_values", .option .nat d.maxListLength),
    ("max_inline_string", .option .nat d.maxStringLength),
    ("constraints_on_create", .bool d.inlineConstraints),
    ("reconstructs_views", .bool d.rebuildsViews), ("test_sql", .text d.testQuery),
    ("now_sql", .text d.localTimeQuery), ("utc_now_sql", .text d.utcTimeQuery),
    ("explicit_null", .bool d.ddl.statesNull),
    ("bundles_nullability", .bool d.ddl.alterTypeStatesNull),
    ("identity_clause", .text d.ddl.generatedKey),
    ("add_column_keyword", .text d.ddl.addColumnWords)]

end SqlDialects
