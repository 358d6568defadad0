import BracketColoring.Region.Languages
import BracketColoring.Settings.Load
import BracketColoring.SyntaxTree
import BracketColoring.Workspace
import BracketColoring.Proofs.Literals.Scan
import BracketColoring.Proofs.Occurrence.Leaves
import BracketColoring.Proofs.Occurrence.Placed
import BracketColoring.Proofs.Literals.Bindings
import BracketColoring.Proofs.Settings.Valid
import BracketColoring.Proofs.LineCache.ByLine
import BracketColoring.Proofs.Session.Operation
import BracketColoring.Proofs.Session.Incremental
import BracketColoring.Proofs.Matching.Meeting
import BracketColoring.Proofs.Ordered.Sort
import BracketColoring.Proofs.Matching.Accounted
import BracketColoring.Proofs.PairIndex.Classified
import BracketColoring.Proofs.Session.Classified
import BracketColoring.Proofs.Session.Edits
import BracketColoring.Proofs.Region.Edits
import BracketColoring.Proofs.Ordered.Increasing
import BracketColoring.Proofs.Settings.Colors
import BracketColoring.Proofs.Matching.Nesting
import BracketColoring.Proofs.Matching.Colored
import BracketColoring.Proofs.ColorMap.Paint
import BracketColoring.Proofs.ColorMap.Document
import BracketColoring.Proofs.Session.Shown
import BracketColoring.Proofs.Session.Subscribers
import BracketColoring.Proofs.ColorMap.Recorded
import BracketColoring.Proofs.Session.Failed
import BracketColoring.Proofs.LineCache.Chained
import BracketColoring.Proofs.Session.Lines
import BracketColoring.Proofs.Position.Text
import BracketColoring.Proofs.Session.Lossless
import BracketColoring.Proofs.Matching.Depth
import BracketColoring.Proofs.Matching.Palette
import BracketColoring.Proofs.Matching.Balance
import BracketColoring.Proofs.Matching.Apart
import BracketColoring.Proofs.Session.OnePair
import BracketColoring.Proofs.Settings.Acceptance
import BracketColoring.Proofs.Session.InBounds
import BracketColoring.Proofs.Workspace.Product
import BracketColoring.Proofs.Scheduler.EditLog
import BracketColoring.Proofs.Workspace.Registry
import BracketColoring.Proofs.Region.Lossless
import BracketColoring.Proofs.Workspace.Deadlines
import BracketColoring.Proofs.SyntaxTree.Lossless
import BracketColoring.Proofs.SyntaxTree.WellFormed
import BracketColoring.Proofs.Literals.Searched
import BracketColoring.Proofs.Session.Nested
import BracketColoring.Proofs.Region.Lines
import BracketColoring.Proofs.PairIndex.LoneClosings
import BracketColoring.Proofs.Region.CLike
import BracketColoring.Proofs.Occurrence.Scanned
import BracketColoring.Proofs.Region.SymbolRuns
import BracketColoring.Proofs.Position.Advance
import BracketColoring.Proofs.Occurrence.Recursion
import BracketColoring.Proofs.Session.Partners
import BracketColoring.Proofs.Settings.Violations
import BracketColoring.Proofs.Literals.Spelled
import BracketColoring.Proofs.Settings.Setup
