import Reports.Json.Access
import Reports.Main
import Reports.Proofs.Filter.Conditions
import Reports.Proofs.Filter.Unset
import Reports.Proofs.Report.Confinement
import Reports.Proofs.Report.Shape
import Reports.Proofs.Report.Window
import Reports.Proofs.Sql.Delivery
import Reports.Proofs.Sql.DistinctCount
import Reports.Proofs.Sql.RowCount
import Reports.Report.Summary
import Reports.Sqlite.Scratch
import Reports.Proofs.Exchange
import Reports.Proofs.Report.Protocol
import Reports.Proofs.Sql.Memo
import Reports.Proofs.Report.Options
import Reports.Proofs.Report.Failures
import Reports.Proofs.Filter.Choices
import Reports.Proofs.Filter.Acceptance
import Reports.Proofs.Text.Trim
import Reports.Proofs.Filter.Saving
import Reports.Proofs.Sql.Embedding
import Reports.Proofs.Sql.Like
import Reports.Proofs.Sql.Scope
import Reports.Proofs.Sql.Tidy
import Reports.Proofs.Json.Exact
import Reports.Proofs.Ascending
import Reports.Proofs.Filter.Isolation
import Reports.Proofs.Filter.Options
import Reports.Proofs.Filter.Membership
import Reports.Proofs.Report.Fallback
import Reports.Proofs.Sql.Derivation
import Reports.Proofs.Report.RowIdentity
import Reports.Proofs.Report.LabelCoverage
import Reports.Proofs.Field.Markup
import Reports.Proofs.Filter.DateRange
import Reports.Proofs.Filter.Initialization
import Reports.Proofs.Filter.Changes
import Reports.Proofs.Filter.Clauses
import Reports.Proofs.Report.Tiling
import Reports.Proofs.Field.LinkUrl
import Reports.Proofs.Report.Delimiter
import Reports.Proofs.Report.Ordering
import Reports.Proofs.Sql.Building
