import DelayInjection.Adapter
import DelayInjection.CommandLine.Arguments
import DelayInjection.CommandLine.Command
import DelayInjection.CommandLine.Execution
import DelayInjection.Config
import DelayInjection.Delay
import DelayInjection.Disk.Error
import DelayInjection.Disk.Path
import DelayInjection.Disk.Tree
import DelayInjection.Failure
import DelayInjection.Glob
import DelayInjection.Injection
import DelayInjection.JavaScript.Cursor
import DelayInjection.JavaScript.Expression
import DelayInjection.JavaScript.Layout
import DelayInjection.JavaScript.Scan
import DelayInjection.JavaScript.Statement
import DelayInjection.JavaScript.Token
import DelayInjection.JavaScript.Tree
import DelayInjection.Json
import DelayInjection.Json.Reader
import DelayInjection.Json.Writer
import DelayInjection.Main
import DelayInjection.Manifest
import DelayInjection.Number.Binary64
import DelayInjection.Number.Decimal
import DelayInjection.Profile
import DelayInjection.Project.Discovery
import DelayInjection.Project.Injecting
import DelayInjection.Project.Ledger
import DelayInjection.Project.Restoring
import DelayInjection.Project.Settings
import DelayInjection.Project.World
import DelayInjection.Python.Expression
import DelayInjection.Python.Layout
import DelayInjection.Python.Parse
import DelayInjection.Python.Pattern
import DelayInjection.Python.Quoted
import DelayInjection.Python.Source
import DelayInjection.Python.Statement
import DelayInjection.Python.Syntax
import DelayInjection.Python.Token
import DelayInjection.Recovery
import DelayInjection.Seed
import DelayInjection.Sha256
import DelayInjection.SupportModule.Resolver
import DelayInjection.SupportModule.Text
import DelayInjection.Text.Blank
import DelayInjection.Text.Digit
import DelayInjection.Text.Lines
import DelayInjection.Text.Name
import DelayInjection.Text.Normalization
import DelayInjection.Text.Numeral
import DelayInjection.Text.Printable
import DelayInjection.Text.Quoted
import DelayInjection.Text.Timestamp
import DelayInjection.Text.Units
import DelayInjection.Text.Utf8
import DelayInjection.Text.Word
import DelayInjection.Proofs.Recovery.Line
import DelayInjection.Proofs.Text.Utf8
import DelayInjection.Proofs.Text.Numeral
import DelayInjection.Proofs.Recovery.Call
import DelayInjection.Proofs.Injection.Splice
import DelayInjection.Proofs.Injection.Merge
import DelayInjection.Proofs.Injection.Prefix
import DelayInjection.Proofs.Recovery.Edit
import DelayInjection.Proofs.Injection.Placement
import DelayInjection.Proofs.Injection.Policy
import DelayInjection.Proofs.Recovery.Spelling
import DelayInjection.Proofs.Recovery.Insertion
import DelayInjection.Proofs.RoundTrip
import DelayInjection.Proofs.LineBreaks
import DelayInjection.Proofs.Disk.Tree
import DelayInjection.Proofs.Disk.Folder
import DelayInjection.Proofs.Disk.Frame
import DelayInjection.Proofs.Project.Discovery
import DelayInjection.Proofs.Project.World
import DelayInjection.Proofs.Project.Fate
import DelayInjection.Proofs.Project.Injecting
import DelayInjection.Proofs.Project.Restoring
import DelayInjection.Proofs.Project.RoundTrip
import DelayInjection.Proofs.Json.Scalar
import DelayInjection.Proofs.Json.RoundTrip
import DelayInjection.Proofs.Json.LongNumber
import DelayInjection.Proofs.Manifest
import DelayInjection.Proofs.Project.Ledger
import DelayInjection.Proofs.Project.Settings
import DelayInjection.Proofs.Number.Binary64
import DelayInjection.Proofs.Number.Exact
import DelayInjection.Proofs.Delay
import DelayInjection.Proofs.Injection.Bounds
import DelayInjection.Proofs.Seed
import DelayInjection.Proofs.Profile
import DelayInjection.Proofs.Project.State
import DelayInjection.Proofs.CommandLine.Session
import DelayInjection.Proofs.Disk.Narrowing
import DelayInjection.Proofs.Project.Unmarking
import DelayInjection.Proofs.CommandLine.Steps
import DelayInjection.Proofs.CommandLine.Invariant
import DelayInjection.Proofs.CommandLine.Restoration
import DelayInjection.Proofs.JavaScript.Cursor
import DelayInjection.Proofs.JavaScript.Expression
import DelayInjection.Proofs.JavaScript.Statement
import DelayInjection.Proofs.Python.Expression
import DelayInjection.Proofs.Python.Statement
import DelayInjection.Proofs.Python.Layout
import DelayInjection.Proofs.SharedLines
import DelayInjection.Proofs.Recovery.Span
import DelayInjection.Proofs.Recovery.Block
import DelayInjection.Proofs.Recovery.Repeated
import DelayInjection.Proofs.Glob
import DelayInjection.Proofs.Project.Pruning
import DelayInjection.Proofs.SupportModule.Resolver
import DelayInjection.Proofs.Idempotence
import DelayInjection.Proofs.Project.Independence
import DelayInjection.Proofs.Recovery.Preview
import DelayInjection.Proofs.Recovery.LineEndings
import DelayInjection.Proofs.Recovery.Occurrence
import DelayInjection.Proofs.Recovery.Literal
import DelayInjection.Proofs.Project.Selection
import DelayInjection.Proofs.Glob.Pieces
import DelayInjection.Proofs.Disk.Edited
import DelayInjection.Proofs.Disk.Removal
import DelayInjection.Proofs.Project.Aim
import DelayInjection.Proofs.Project.Removal
import DelayInjection.Proofs.Project.Preview
import DelayInjection.Proofs.Project.Resumption
import DelayInjection.Proofs.Project.Agreement
import DelayInjection.Proofs.Project.BrokenLedger
import DelayInjection.Proofs.Recovery.Halves
import DelayInjection.Proofs.CommentedImport
import DelayInjection.Proofs.SupportModule.Reference
import DelayInjection.Proofs.Injection.Marked
import DelayInjection.Proofs.JavaScript.Shift.Expression
import DelayInjection.Proofs.JavaScript.Shift.Layout
import DelayInjection.Proofs.Python.Block
import DelayInjection.Proofs.Python.Order
import DelayInjection.Proofs.Recovery.Renamed
import DelayInjection.Proofs.Injection.Identity
import DelayInjection.Proofs.Injection.Indent
import DelayInjection.Proofs.CarriageReturn
import DelayInjection.Proofs.Python.Generator
import DelayInjection.Proofs.SupportModule.Path
import DelayInjection.Proofs.ByteOrderMark
import DelayInjection.Proofs.Python.Lexeme
import DelayInjection.Proofs.Python.Step
import DelayInjection.Proofs.Python.Run
import DelayInjection.Proofs.Python.Line
import DelayInjection.Proofs.Python.Woven
import DelayInjection.Proofs.Python.Output
import DelayInjection.Proofs.Python.Plain
import DelayInjection.Proofs.Python.Writing
import DelayInjection.Proofs.Python.Preservation
