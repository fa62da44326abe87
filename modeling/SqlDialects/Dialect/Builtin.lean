import SqlDialects.Dialect.Basic

/-!
The dialects of six databases. Each starts from the usual rules and says where its database departs
from them.
-/

namespace SqlDialects

namespace DialectDraft

/-- HSQLDB, which departs least. -/
def hsqldb : DialectDraft where
  name := .hsqldb
  naming :=
    { openQuote := '"', closeQuote := '"', defaultSchema := some "PUBLIC"
      reserved := ["LIMIT", "OFFSET", "POSITION", "TOP", "VALUE"] }
  rebuildsViews := true
  testQuery := "VALUES CURRENT_TIMESTAMP"
  localTimeQuery := "VALUES LOCALTIMESTAMP"
  utcTimeQuery :=
    "VALUES TIMESTAMPADD(SQL_TSI_MINUTE, -EXTRACT(TIMEZONE_MINUTE FROM CURRENT_TIMESTAMP), "
      ++ "TIMESTAMPADD(SQL_TSI_HOUR, -EXTRACT(TIMEZONE_HOUR FROM CURRENT_TIMESTAMP), "
      ++ "CURRENT_TIMESTAMP))"

/-- PostgreSQL without its types. -/
def postgresqlTraits : DialectDraft where
  name := .postgresql
  naming :=
    { openQuote := '"', closeQuote := '"', lowerCase := true, defaultSchema := some "public"
      reserved :=
        ["ANALYSE", "ANALYZE", "ARRAY", "LIMIT", "OFFSET", "ONLY", "PLACING", "RETURNING",
          "SYMMETRIC", "VARIADIC"] }
  ddl := .postgresql
  defaults := .castSuffix
  timeBuckets := .dateTrunc
  maxStringLength := some 10485760
  rebuildsViews := true
  localTimeQuery := "SELECT LOCALTIMESTAMP"
  utcTimeQuery := "SELECT NOW() AT TIME ZONE 'utc'"

/-- PostgreSQL. -/
def postgresql : DialectDraft :=
  postgresqlTraits.withColumnRules
    [.boolean .yesNo, .floating .float "REAL" .real, .floating .double "DOUBLE PRECISION" .double,
      .clob "TEXT" .varchar .plain "CAST('' AS TEXT)",
      .blob "BYTEA" .binary .stream "CAST('' AS BYTEA)"]

/-- MySQL without its types and restrictions. -/
def mysqlTraits : DialectDraft where
  name := .mysql
  naming :=
    { openQuote := '\x60', closeQuote := '\x60'
      reserved :=
        ["DESCRIBE", "INTERVAL", "LIMIT", "RANK", "READ", "SHOW", "SIGNAL", "USAGE"] }
  ddl := .mysql
  defaults := .bare
  window := .limitOffset true
  timeBuckets := .dateFormat
  concat := .function
  maxStringLength := some 65535
  inlineConstraints := true
  localTimeQuery := "SELECT NOW()"
  utcTimeQuery := "SELECT UTC_TIMESTAMP"

/-- MySQL. -/
def mysql : DialectDraft :=
  (mysqlTraits.withColumnRules
    [.floating .float "FLOAT" .real, .timestamp .timestamp "DATETIME" .quoted,
      .timestamp .timestampUtc "DATETIME" .quoted,
      .clob "MEDIUMTEXT" .longVarchar .plain "''",
      .blob "MEDIUMBLOB" .longVarbinary .plain "''"]).withConditionRule
        (.comparison .notEquals "!=")

/-- SQL Server without its types. -/
def mssqlTraits : DialectDraft where
  name := .mssql
  naming :=
    { openQuote := '[', closeQuote := ']', defaultSchema := some "dbo"
      reserved := ["FILE", "IDENTITY", "OPEN", "PERCENT", "PLAN", "RULE", "TOP", "TRAN"] }
  ddl := .mssql
  defaults := .parenthesized
  window := .top "mssql"
  timeBuckets := .dateAdd
  concat := .operator "+"
  maxListLength := some 2000
  maxStringLength := some 8000
  localTimeQuery := "SELECT GETDATE()"
  utcTimeQuery := "SELECT GETUTCDATE()"

/-- SQL Server. -/
def mssql : DialectDraft :=
  mssqlTraits.withColumnRules
    [.boolean .bit, .floating .float "REAL" .real, .floating .double "FLOAT(53)" .double,
      .timestamp .timestamp "DATETIME" .quoted, .timestamp .timestampUtc "DATETIME" .quoted,
      .clob "VARCHAR(MAX)" .longVarchar .plain "CAST('' AS VARCHAR(MAX))",
      .blob "VARBINARY(MAX)" .longVarbinary .plain "CAST('' AS VARBINARY(MAX))"]

/-- Oracle without its types, by its release. -/
def oracleTraits (name : Database) (keys : KeyGeneration) (window : WindowStyle) :
    DialectDraft where
  name := name
  naming :=
    { openQuote := '"', closeQuote := '"'
      reserved :=
        ["ACCESS", "AUDIT", "COMMENT", "FILE", "LEVEL", "MODE", "NUMBER", "RAW", "RESOURCE",
          "ROWID", "ROWNUM", "SESSION", "SIZE", "START", "SYSDATE", "UID", "VARCHAR2"] }
  ddl := .oracle keys
  window := window
  maxListLength := some 1000
  maxStringLength := some 4000
  rebuildsViews := true
  testQuery := "SELECT 1 FROM DUAL"
  localTimeQuery := "SELECT LOCALTIMESTAMP FROM DUAL"
  utcTimeQuery := "SELECT SYS_EXTRACT_UTC(SYSTIMESTAMP) FROM DUAL"

/-- The types of Oracle. Integers are exact numbers, and nothing is told from the empty string. -/
def oracleTypes : List ColumnRule :=
  [.boolean .yesNo,
    .integer .short "NUMBER(5)" .numeric (some 5),
    .integer .integer "NUMBER(10)" .numeric (some 10),
    .integer .long "NUMBER(19)" .numeric (some 19),
    .floating .float "FLOAT" .float, .floating .double "DOUBLE PRECISION" .float,
    .decimal "NUMBER" .numeric, .date .function,
    .timestamp .timestamp "TIMESTAMP" .function, .timestamp .timestampUtc "TIMESTAMP" .function,
    .clob "CLOB" .clob .streamEmptyAsNull "EMPTY_CLOB()",
    .blob "BLOB" .blob .streamEmptyAsNull "EMPTY_BLOB()",
    .string .string "VARCHAR2" " ", .string .enumConstant "VARCHAR2" " "]

/-- Oracle before release 12. -/
def oracle : DialectDraft :=
  (oracleTraits .oracle .sequence (.rowNumber "oracle")).withColumnRules oracleTypes

/-- Oracle from release 12 on. -/
def oracle12 : DialectDraft :=
  (oracleTraits .oracle12 .identity .offsetFetch).withColumnRules oracleTypes

end DialectDraft

namespace Dialect

/-- The dialect of a database. -/
def builtin : Database → Dialect
  | .hsqldb => DialectDraft.hsqldb.complete (by decide)
  | .postgresql => DialectDraft.postgresql.complete (by decide)
  | .mysql => DialectDraft.mysql.complete (by decide)
  | .mssql => DialectDraft.mssql.complete (by decide)
  | .oracle => DialectDraft.oracle.complete (by decide)
  | .oracle12 => DialectDraft.oracle12.complete (by decide)

/-- The dialect of a database by one of its names. -/
def named (text : String) : Except Error Dialect := (Database.read text).map builtin

end Dialect

end SqlDialects
