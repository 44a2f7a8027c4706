import LoxGraph.SharedCursor
import LoxGraph.Files.Tree
import LoxGraph.Run.File
import LoxGraph.Run.Requests
import LoxGraph.Main
import LoxGraph.Proofs.Expr.Reads
import LoxGraph.Proofs.Expr.Accounting
import LoxGraph.Proofs.Expr.Grammar
import LoxGraph.Proofs.Expr.FirstParse
import LoxGraph.Proofs.Expr.Budget
import LoxGraph.Proofs.Expr.Built
import LoxGraph.Proofs.Graph.Determined
import LoxGraph.Proofs.Graph.Places
import LoxGraph.Proofs.Graph.Drawn
import LoxGraph.Proofs.Double.ReadBack
import LoxGraph.Proofs.Lexeme.Numeral
import LoxGraph.Proofs.Text.Span
import LoxGraph.Proofs.Lexeme.Grammar
import LoxGraph.Proofs.Lexeme.Munch
import LoxGraph.Proofs.Cursor.Layout
import LoxGraph.Proofs.Cursor.Passage
import LoxGraph.Proofs.Cursor.Fault
import LoxGraph.Proofs.Cursor.Sharing
import LoxGraph.Proofs.Cursor.Spacing
import LoxGraph.Proofs.Expr.Writing
import LoxGraph.Proofs.Graph.Scanned
import LoxGraph.Proofs.Stepwise.Run
import LoxGraph.Proofs.Stepwise.Resuming
import LoxGraph.Proofs.Cursor.LineBreak
import LoxGraph.Proofs.Expr.Lineless
import LoxGraph.Proofs.Run.Streams
import LoxGraph.Proofs.Graph.Marked
import LoxGraph.Proofs.Run.Outcome
import LoxGraph.Proofs.Run.Layout
import LoxGraph.Proofs.Expr.Precedence
import LoxGraph.Proofs.Expr.Items
import LoxGraph.Proofs.Expr.Diagnostics
import LoxGraph.Proofs.Run.Sessions
import LoxGraph.Proofs.Stepwise.Prompting
import LoxGraph.Proofs.Stepwise.Machine
import LoxGraph.Proofs.Stepwise.Bounds
import LoxGraph.Proofs.Expr.Guard
import LoxGraph.Proofs.Stepwise.Nesting
import LoxGraph.Proofs.Stepwise.Advancing
import LoxGraph.Proofs.Command.Arguments
import LoxGraph.Proofs.Files.Laws
import LoxGraph.Proofs.Files.Frame
import LoxGraph.Proofs.Run.Logging
import LoxGraph.Proofs.Command.Observing
import LoxGraph.Proofs.Expr.Lookahead
import LoxGraph.Proofs.Stepwise.Rounds
import LoxGraph.Proofs.Cursor.LineEnds
import LoxGraph.Proofs.Run.Listing
import LoxGraph.Proofs.Run.Requests
import LoxGraph.Proofs.Graph.Numbers
import LoxGraph.Proofs.Stepwise.Walking
