import SmartContract.Command
import SmartContract.Command.Outcome
import SmartContract.Command.Plan
import SmartContract.Command.Run
import SmartContract.Description.Acceptance
import SmartContract.Description.Advice
import SmartContract.Description.Basic
import SmartContract.Description.Draft
import SmartContract.Description.Draft.Faults
import SmartContract.Description.Fault
import SmartContract.Description.Form
import SmartContract.Description.Form.Published
import SmartContract.Description.Json
import SmartContract.Description.NameSite
import SmartContract.Description.NameSite.Faults
import SmartContract.Description.Slots
import SmartContract.Description.Starter
import SmartContract.Description.Symbol
import SmartContract.Description.Transcript
import SmartContract.Description.Transcript.Draft
import SmartContract.Description.Transcript.Json
import SmartContract.FileTree
import SmartContract.Json.Basic
import SmartContract.Json.Pointer
import SmartContract.Json.Reader
import SmartContract.Json.Reader.Defect
import SmartContract.Json.Reader.Number
import SmartContract.Json.Reader.Quote
import SmartContract.Json.Shape
import SmartContract.Json.Shape.Basic
import SmartContract.Json.Shape.Violation
import SmartContract.Json.Writer
import SmartContract.Main
import SmartContract.Name
import SmartContract.Numeric.Double
import SmartContract.Numeric.Notation
import SmartContract.Numeric.Numeral
import SmartContract.Numeric.Shortest
import SmartContract.Program
import SmartContract.Program.Line
import SmartContract.Proofs.Command.Advised
import SmartContract.Proofs.Command.Compare
import SmartContract.Proofs.Command.Effects
import SmartContract.Proofs.Command.Formatted
import SmartContract.Proofs.Command.Options
import SmartContract.Proofs.Command.Reporting
import SmartContract.Proofs.Command.Run
import SmartContract.Proofs.Description.Acceptance
import SmartContract.Proofs.Description.Accepted
import SmartContract.Proofs.Description.Advice
import SmartContract.Proofs.Description.Agreement
import SmartContract.Proofs.Description.Batch
import SmartContract.Proofs.Description.Causes
import SmartContract.Proofs.Description.Draft
import SmartContract.Proofs.Description.Faults
import SmartContract.Proofs.Description.NameFaults
import SmartContract.Proofs.Description.NamePlaces
import SmartContract.Proofs.Description.Normal
import SmartContract.Proofs.Description.Placed
import SmartContract.Proofs.Description.Reading
import SmartContract.Proofs.Description.Roundtrip
import SmartContract.Proofs.Description.Rules
import SmartContract.Proofs.Description.Sections
import SmartContract.Proofs.Description.Slots
import SmartContract.Proofs.Description.Spelling
import SmartContract.Proofs.Description.Transcript
import SmartContract.Proofs.Description.UnknownMember
import SmartContract.Proofs.Description.Writing
import SmartContract.Proofs.FileTree
import SmartContract.Proofs.FileTree.Overwrite
import SmartContract.Proofs.FileTree.Path
import SmartContract.Proofs.Json.Layout
import SmartContract.Proofs.Json.Members
import SmartContract.Proofs.Json.Pointer
import SmartContract.Proofs.Json.Reader.Built
import SmartContract.Proofs.Json.Reader.Number
import SmartContract.Proofs.Json.Reader.Quote
import SmartContract.Proofs.Json.Reader.Run
import SmartContract.Proofs.Json.Record
import SmartContract.Proofs.Json.Reread
import SmartContract.Proofs.Json.Roundtrip
import SmartContract.Proofs.Name
import SmartContract.Proofs.Numeric.Double
import SmartContract.Proofs.Numeric.Numeral
import SmartContract.Proofs.Program.Advised
import SmartContract.Proofs.Program.Borrowed
import SmartContract.Proofs.Program.Dispatch
import SmartContract.Proofs.Program.Expansion
import SmartContract.Proofs.Program.LinesKept
import SmartContract.Proofs.Program.Meaning
import SmartContract.Proofs.Program.Numbers
import SmartContract.Proofs.Program.Outline
import SmartContract.Proofs.Program.Parts
import SmartContract.Proofs.Program.Reader
import SmartContract.Proofs.Program.Reading
import SmartContract.Proofs.Program.Scanner
import SmartContract.Proofs.Program.StateWords
import SmartContract.Proofs.Program.Uncommented
import SmartContract.Proofs.Program.WellFormed
import SmartContract.Proofs.Program.Words
import SmartContract.Proofs.Related
import SmartContract.Proofs.Repeats
import SmartContract.Proofs.Report.Order
import SmartContract.Proofs.Report.Updates
import SmartContract.Proofs.Text.Blank
import SmartContract.Proofs.Text.LogicalLines
import SmartContract.Proofs.Text.Utf8
import SmartContract.Proofs.Text.Utf8.Order
import SmartContract.Report
import SmartContract.Report.Diagnostic
import SmartContract.Sha256
import SmartContract.Text.Blank
import SmartContract.Text.Quoted
import SmartContract.Text.Utf8
import SmartContract.Types
import SmartContract.Vocabulary
