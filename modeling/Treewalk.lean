import Treewalk.Eval.Builtin
import Treewalk.Eval.Monad
import Treewalk.Eval.Node
import Treewalk.Eval.Operator
import Treewalk.Host.CommandLine
import Treewalk.Host.Console
import Treewalk.Host.Options
import Treewalk.Host.RecursionLimit
import Treewalk.Host.Report
import Treewalk.Host.Script
import Treewalk.Host.Settings
import Treewalk.Host.Transcript
import Treewalk.Main
import Treewalk.Number.Arithmetic
import Treewalk.Number.Basic
import Treewalk.Number.Bits
import Treewalk.Number.Decimal
import Treewalk.Number.Layout
import Treewalk.Number.Shortest
import Treewalk.Proofs.Eval.Ends
import Treewalk.Proofs.Tree.Subtree
import Treewalk.Reader.Phase
import Treewalk.Reader.Slot
import Treewalk.Session
import Treewalk.Source.Error
import Treewalk.Source.Lexeme
import Treewalk.Source.Stream
import Treewalk.Source.Token
import Treewalk.Store.Basic
import Treewalk.Store.Bindings
import Treewalk.Store.Display
import Treewalk.Text.Blank
import Treewalk.Text.Digit
import Treewalk.Text.Numeral
import Treewalk.Text.Printable
import Treewalk.Text.Quoted
import Treewalk.Text.Uppercase
import Treewalk.Tree.Node
import Treewalk.Tree.Render
import Treewalk.Value.Basic
import Treewalk.Value.Display
import Treewalk.Value.Fault
import Treewalk.Value.Kind
import Treewalk.Proofs.Store.Scopes
import Treewalk.Proofs.Value.Plain
import Treewalk.Proofs.Eval.Signals
import Treewalk.Proofs.Eval.Discipline
import Treewalk.Proofs.Eval.Frame
import Treewalk.Proofs.Reader.Grammar
import Treewalk.Proofs.Reader.Steps
import Treewalk.Proofs.Reader.Completeness
import Treewalk.Proofs.Reader.Soundness
import Treewalk.Proofs.Reader.Exact
import Treewalk.Proofs.Eval.FailFast
import Treewalk.Proofs.Reader.Viable
import Treewalk.Proofs.Reader.Shift
import Treewalk.Proofs.Source.Pieces
import Treewalk.Proofs.Source.Scan
import Treewalk.Proofs.Reader.RoundTrip
import Treewalk.Proofs.Reader.Joined
import Treewalk.Proofs.Eval.Translation
import Treewalk.Proofs.Session.Joined
import Treewalk.Proofs.Value.Lines
import Treewalk.Proofs.Session.Layout
import Treewalk.Proofs.Host.Brackets
import Treewalk.Proofs.Eval.Depth
import Treewalk.Proofs.Host.Dialogue
import Treewalk.Proofs.Value.Renaming
import Treewalk.Proofs.Eval.Both
import Treewalk.Proofs.Store.Renaming
import Treewalk.Proofs.Eval.Known
import Treewalk.Proofs.Session.Repeat
import Treewalk.Proofs.Source.Longest
import Treewalk.Proofs.Source.Partition
import Treewalk.Proofs.Reader.Marks
import Treewalk.Proofs.Eval.Blame
import Treewalk.Proofs.Value.Refusals
import Treewalk.Proofs.Eval.Heap
import Treewalk.Proofs.Session.Errors
import Treewalk.Proofs.Session.Identity
import Treewalk.Proofs.Source.Written
import Treewalk.Proofs.Reader.Verdict
import Treewalk.Proofs.Eval.HashLiteral
import Treewalk.Proofs.Store.Chains
import Treewalk.Proofs.Store.History
import Treewalk.Proofs.Session.Nesting
import Treewalk.Proofs.Reader.EndOfInput
import Treewalk.Proofs.Number.Whole
import Treewalk.Proofs.Value.Arrays
import Treewalk.Proofs.Eval.Quiet
import Treewalk.Proofs.Session.Mapping
import Treewalk.Proofs.Host.RecursionLimit
import Treewalk.Proofs.Number.Rounding
import Treewalk.Proofs.Number.Shortest
import Treewalk.Proofs.Number.Printed
import Treewalk.Proofs.Session.ReadBack
