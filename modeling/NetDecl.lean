import NetDecl.Json.Reader
import NetDecl.Main
import NetDecl.Net.Integrity
import NetDecl.Options.Encoding
import NetDecl.Outcome.Encoding
import NetDecl.Report.Preview
import NetDecl.Report.Summary
import NetDecl.Proofs.Text.Lines
import NetDecl.Proofs.Token.Pulls
import NetDecl.Proofs.Token.Rows
import NetDecl.Proofs.Net.WellFormed
import NetDecl.Proofs.Registry.Indexed
import NetDecl.Proofs.Text.Mark
import NetDecl.Proofs.LineMachine
import NetDecl.Proofs.Declaration.Lines
import NetDecl.Proofs.LineMachine.Sound
import NetDecl.Proofs.LineMachine.Body
import NetDecl.Proofs.Declaration.Members
import NetDecl.Proofs.Declaration.Groups
import NetDecl.Proofs.Compile.Turns
import NetDecl.Proofs.Compile.Refinement
import NetDecl.Proofs.Compile.Sound
import NetDecl.Proofs.Declaration.Atomic
import NetDecl.Proofs.Declaration.Refused
import NetDecl.Proofs.Compile.Atomic
import NetDecl.Proofs.LineMachine.Cut
import NetDecl.Proofs.LineMachine.Problems
import NetDecl.Proofs.Compile.Fate
import NetDecl.Proofs.Compile.Loss
import NetDecl.Proofs.Text.Extent
import NetDecl.Proofs.Compile.Diagnostics
import NetDecl.Proofs.Token.Exact
import NetDecl.Proofs.Diagram.Closed
import NetDecl.Proofs.Text.Written
import NetDecl.Proofs.Net.Written
import NetDecl.Proofs.LineMachine.Written
import NetDecl.Proofs.Compile.Written
import NetDecl.Proofs.Text.Whole
import NetDecl.Proofs.LineMachine.Alike
import NetDecl.Proofs.LineMachine.Extends
import NetDecl.Proofs.Compile.Continued
import NetDecl.Proofs.Compile.Alike
import NetDecl.Proofs.Compile.Inserted
import NetDecl.Proofs.Net.Renumbered
import NetDecl.Proofs.LineMachine.Renumbered
import NetDecl.Proofs.Compile.Exchanged
import NetDecl.Proofs.Text.Runs
import NetDecl.Proofs.LineMachine.Recorded
import NetDecl.Proofs.LineMachine.Turn
import NetDecl.Proofs.LineMachine.Sources
import NetDecl.Proofs.Compile.Visits
import NetDecl.Proofs.Compile.AtLine
import NetDecl.Proofs.Compile.Parallel
import NetDecl.Proofs.Compile.Owners
import NetDecl.Proofs.LineMachine.Anchored
import NetDecl.Proofs.Compile.Anchored
import NetDecl.Proofs.LineMachine.Ordered
import NetDecl.Proofs.Compile.Ordered
import NetDecl.Proofs.Token.Placed
import NetDecl.Proofs.Compile.Coordinates
import NetDecl.Proofs.Text.Rebroken
import NetDecl.Proofs.Token.Layout
import NetDecl.Proofs.Compile.Layout
import NetDecl.Proofs.Json.Text
import NetDecl.Proofs.Json.Number
import NetDecl.Proofs.Json.Reader
import NetDecl.Proofs.Json.Record
import NetDecl.Proofs.Json.Writer
import NetDecl.Proofs.Diagram.Encoding
import NetDecl.Proofs.Outcome.Encoding
import NetDecl.Proofs.Files.Written
import NetDecl.Proofs.Files.Tree
import NetDecl.Proofs.Command.Arguments
import NetDecl.Proofs.Command.Reads
import NetDecl.Proofs.Command.Effects
import NetDecl.Proofs.Toml.Written
import NetDecl.Proofs.Command.Agreement
import NetDecl.Proofs.Diagram.Kept
import NetDecl.Proofs.Text.Printed
import NetDecl.Proofs.Compile.Messages
import NetDecl.Proofs.Report.Listing
import NetDecl.Proofs.Command.Verdict
import NetDecl.Proofs.Options.Useful
import NetDecl.Proofs.Diagnostic.Display
import NetDecl.Proofs.Diagram.Marks
import NetDecl.Proofs.Command.Accepted
import NetDecl.Proofs.Command.Arrival
import NetDecl.Proofs.Text.Recased
import NetDecl.Proofs.Token.Words
import NetDecl.Proofs.LineMachine.Respelled
import NetDecl.Proofs.Compile.Keywords
import NetDecl.Proofs.Compile.Recased
import NetDecl.Proofs.Token.Stretch
import NetDecl.Proofs.Token.Calls
import NetDecl.Proofs.Token.LineTable
import NetDecl.Proofs.Compile.Pulled
import NetDecl.Proofs.Registry.Coherent
import NetDecl.Proofs.Compile.Registries
import NetDecl.Proofs.Text.Encoded
import NetDecl.Proofs.Token.Marked
