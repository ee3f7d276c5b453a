import GridQuery.Command.FileTree
import GridQuery.Main
import GridQuery.Proofs.Condition.Operands
import GridQuery.Proofs.Condition.UpToOrder
import GridQuery.Proofs.Filter.Registry
import GridQuery.Proofs.Filter.Script
import GridQuery.Proofs.Form.CalendarEnd
import GridQuery.Proofs.Form.Calls
import GridQuery.Proofs.Form.Cleared
import GridQuery.Proofs.Form.Omission
import GridQuery.Proofs.Form.Populated
import GridQuery.Proofs.Form.Rereading
import GridQuery.Proofs.Form.Resubmission
import GridQuery.Proofs.Form.Suggested
import GridQuery.Proofs.Form.Untouched
import GridQuery.Proofs.Paging.Cells
import GridQuery.Proofs.Paging.CursorSource
import GridQuery.Proofs.Paging.KeyPlace
import GridQuery.Proofs.Paging.Keyset
import GridQuery.Proofs.Query.BareKeys
import GridQuery.Proofs.Query.InlineForm
import GridQuery.Proofs.Query.Merge
import GridQuery.Proofs.Query.MergeRuns
import GridQuery.Proofs.Query.OrderGrammar
import GridQuery.Proofs.Query.SameRows
import GridQuery.Proofs.Query.SelectionText
import GridQuery.Proofs.Query.SiblingFilters
import GridQuery.Proofs.Query.TargetPaths
import GridQuery.Proofs.View
