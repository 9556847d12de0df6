import Switching.Circuit.Log
import Switching.Circuit.Meaning
import Switching.Circuit.Run
import Switching.Circuit.Table
import Switching.Expr.Grammar
import Switching.Expr.Printer
import Switching.Expr.Value
import Switching.Solver
import Switching.Proofs.Reading.Readers
import Switching.Proofs.Reading.Soundness
import Switching.Proofs.Reading.Completeness
import Switching.Proofs.Reading.Sentences
import Switching.Proofs.Reading.Viability
import Switching.Proofs.Reading.Failures
import Switching.Proofs.Reading.Diagnosis
import Switching.Proofs.Reading.Writings
import Switching.Proofs.Printing.RoundTrip
import Switching.Proofs.Circuit.Listing
import Switching.Proofs.Circuit.Wiring
import Switching.Proofs.Circuit.Connections
import Switching.Proofs.Circuit.Cycle
import Switching.Proofs.Circuit.Evaluation
import Switching.Proofs.Circuit.Sharing
import Switching.Proofs.Circuit.Agreement
import Switching.Proofs.Circuit.Cone
import Switching.Proofs.Circuit.InputValues
import Switching.Proofs.Circuit.Tabulation
import Switching.Proofs.Circuit.Indifference
import Switching.Proofs.Circuit.Handles
import Switching.Proofs.Table.Layout
import Switching.Proofs.Table.Rows
import Switching.Proofs.Table.Solved
import Switching.Proofs.Table.CheckedSweep
import Switching.Proofs.Table.BreadthFirst
import Switching.Proofs.Table.FromText
import Switching.Proofs.Circuit.Rewiring
import Switching.Circuit.Session
import Switching.Proofs.Circuit.Shift
import Switching.Proofs.Circuit.Undoing
import Switching.Proofs.Expr.FirstUnbound
import Switching.Proofs.Table.Enumeration
import Switching.Proofs.Table.Insertion
import Switching.Proofs.Table.RowOrder
import Switching.Proofs.Printing.Parentheses
import Switching.Proofs.Reading.Tiling
import Switching.Proofs.Table.Alignment
import Switching.Proofs.Circuit.Progress
import Switching.Proofs.Reading.Nesting
