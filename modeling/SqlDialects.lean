import SqlDialects.Binding.Basic
import SqlDialects.Binding.Run
import SqlDialects.Binding.Slots
import SqlDialects.Calendar.Date
import SqlDialects.Calendar.Reading
import SqlDialects.Calendar.Timestamp
import SqlDialects.Catalog.Basic
import SqlDialects.ColumnRule.Basic
import SqlDialects.ColumnRule.Default
import SqlDialects.ColumnRule.Described
import SqlDialects.ColumnType
import SqlDialects.ConditionRule.Basic
import SqlDialects.ConditionRule.Described
import SqlDialects.Database
import SqlDialects.Ddl.Statement
import SqlDialects.Ddl.Style
import SqlDialects.DefaultReading
import SqlDialects.Dialect.Basic
import SqlDialects.Dialect.Builtin
import SqlDialects.Dialect.Listing
import SqlDialects.Entity.Basic
import SqlDialects.Entity.Constraints
import SqlDialects.Entity.Listing
import SqlDialects.Entity.Registry
import SqlDialects.Entity.Tables
import SqlDialects.Entity.View
import SqlDialects.Error
import SqlDialects.Json.Basic
import SqlDialects.Json.Decoding
import SqlDialects.Json.Parser
import SqlDialects.Json.Printer
import SqlDialects.Json.Token
import SqlDialects.Layout
import SqlDialects.Naming
import SqlDialects.Number.Binary
import SqlDialects.Number.Floating
import SqlDialects.Number.Integer
import SqlDialects.Number.Shortest
import SqlDialects.Proofs.AbandonedDefault
import SqlDialects.Proofs.Acceptance
import SqlDialects.Proofs.AddedColumn
import SqlDialects.Proofs.Affixes
import SqlDialects.Proofs.CalendarEnds
import SqlDialects.Proofs.Cast
import SqlDialects.Proofs.ClosedLiteral
import SqlDialects.Proofs.ColumnConvergence
import SqlDialects.Proofs.ColumnPass
import SqlDialects.Proofs.ColumnSet
import SqlDialects.Proofs.ColumnStep
import SqlDialects.Proofs.ConditionText
import SqlDialects.Proofs.ConditionTree
import SqlDialects.Proofs.ConstraintPass
import SqlDialects.Proofs.ConstraintScript
import SqlDialects.Proofs.ConstraintSet
import SqlDialects.Proofs.ConstraintStep
import SqlDialects.Proofs.DefaultReading
import SqlDialects.Proofs.DefaultStep
import SqlDialects.Proofs.DraftRules
import SqlDialects.Proofs.Entities
import SqlDialects.Proofs.FieldLookup
import SqlDialects.Proofs.FilledLists
import SqlDialects.Proofs.FirstFailure
import SqlDialects.Proofs.InlineValue
import SqlDialects.Proofs.KeptIndexes
import SqlDialects.Proofs.KeyTargets
import SqlDialects.Proofs.LargeText
import SqlDialects.Proofs.LayoutContent
import SqlDialects.Proofs.ListSplitting
import SqlDialects.Proofs.MadeUpNames
import SqlDialects.Proofs.NameOrder
import SqlDialects.Proofs.NamedDefaults
import SqlDialects.Proofs.NewTable
import SqlDialects.Proofs.Numeral
import SqlDialects.Proofs.NumericDefaults
import SqlDialects.Proofs.Operands
import SqlDialects.Proofs.OuterParens
import SqlDialects.Proofs.Placeholders
import SqlDialects.Proofs.QuotedParts
import SqlDialects.Proofs.ReferenceOrder
import SqlDialects.Proofs.ReferenceReach
import SqlDialects.Proofs.RegistryRun
import SqlDialects.Proofs.Renaming
import SqlDialects.Proofs.Reported
import SqlDialects.Proofs.Resizing
import SqlDialects.Proofs.SearchCondition
import SqlDialects.Proofs.Settling
import SqlDialects.Proofs.SharedNames
import SqlDialects.Proofs.Spelling
import SqlDialects.Proofs.StatementText
import SqlDialects.Proofs.StoredNames
import SqlDialects.Proofs.StoredReferences
import SqlDialects.Proofs.Text
import SqlDialects.Proofs.TextDefaults
import SqlDialects.Proofs.Tightening
import SqlDialects.Proofs.TimeShift
import SqlDialects.Proofs.Token
import SqlDialects.Proofs.Transfer
import SqlDialects.Proofs.UnchangedVersion
import SqlDialects.Proofs.UpToDate
import SqlDialects.Proofs.UpgradeScript
import SqlDialects.Proofs.VersionScript
import SqlDialects.Proofs.VersionView
import SqlDialects.Proofs.ViewFields
import SqlDialects.Proofs.ViewJoins
import SqlDialects.Proofs.ViewRebuild
import SqlDialects.Proofs.ViewScript
import SqlDialects.Proofs.Widening
import SqlDialects.Proofs.WindowPlace
import SqlDialects.Proofs.WrappedDefaults
import SqlDialects.Proofs.WrittenName
import SqlDialects.Query.Command
import SqlDialects.Query.Condition
import SqlDialects.Query.Rows
import SqlDialects.Query.Select
import SqlDialects.Restriction
import SqlDialects.Schema.Entity
import SqlDialects.Schema.Field
import SqlDialects.Settings
import SqlDialects.Text.Ascii
import SqlDialects.Text.Blank
import SqlDialects.Text.Bytes
import SqlDialects.Text.CaseTable
import SqlDialects.Text.Digit
import SqlDialects.Text.LowerCase
import SqlDialects.Text.Quoted
import SqlDialects.TimeBucket
import SqlDialects.TimeBucketStyle
import SqlDialects.TypeCode
import SqlDialects.Upgrade.Column
import SqlDialects.Upgrade.Constraints
import SqlDialects.Upgrade.Error
import SqlDialects.Upgrade.Order
import SqlDialects.Upgrade.Plan
import SqlDialects.Upgrade.Version
import SqlDialects.Value.Basic
import SqlDialects.Value.Coercion
import SqlDialects.Value.Kind
import SqlDialects.Value.Tagged
import SqlDialects.Window
