import CssAuthoring.Build.Cache
import CssAuthoring.Build.Options
import CssAuthoring.Builder
import CssAuthoring.CommandLine.Arguments
import CssAuthoring.CommandLine.Command
import CssAuthoring.CommandLine.Listing
import CssAuthoring.CommandLine.Run
import CssAuthoring.Component.Declaration
import CssAuthoring.Component.Delimited
import CssAuthoring.Component.Lexeme
import CssAuthoring.Component.Name
import CssAuthoring.Component.Parse
import CssAuthoring.Component.Value
import CssAuthoring.ErrorCode
import CssAuthoring.Glob
import CssAuthoring.Main
import CssAuthoring.Numeric.Binary64
import CssAuthoring.Numeric.Numeral
import CssAuthoring.Numeric.Reading
import CssAuthoring.Numeric.Shortest
import CssAuthoring.Numeric.Written
import CssAuthoring.OrderedTable
import CssAuthoring.Outcome
import CssAuthoring.Path
import CssAuthoring.Prelude.Argument
import CssAuthoring.Prelude.Scan
import CssAuthoring.Prelude.Segment
import CssAuthoring.Prelude.Token
import CssAuthoring.Project.Compile
import CssAuthoring.Project.Execute
import CssAuthoring.Project.Fault
import CssAuthoring.Project.Files
import CssAuthoring.Project.Finder
import CssAuthoring.Project.Memory
import CssAuthoring.Project.Script
import CssAuthoring.Project.Watch
import CssAuthoring.Proofs.Component.Escape
import CssAuthoring.Proofs.Component.Remainder
import CssAuthoring.Proofs.Component.Append
import CssAuthoring.Proofs.Component.Joining
import CssAuthoring.Proofs.Component.Outline
import CssAuthoring.Proofs.Component.Closed
import CssAuthoring.Proofs.Component.Squeezing
import CssAuthoring.Proofs.Prelude.Alike
import CssAuthoring.Proofs.Prelude.Piece
import CssAuthoring.Proofs.Prelude.Reread
import CssAuthoring.Proofs.Prelude.RoundTrip
import CssAuthoring.Proofs.Selector.Acceptance
import CssAuthoring.Proofs.Selector.Attribute
import CssAuthoring.Proofs.Selector.InPlace
import CssAuthoring.Proofs.Selector.Lexeme
import CssAuthoring.Proofs.Selector.Compound
import CssAuthoring.Proofs.Selector.Normalizing
import CssAuthoring.Proofs.Selector.Piece
import CssAuthoring.Proofs.Selector.RoundTrip
import CssAuthoring.Proofs.Selector.Simple
import CssAuthoring.Proofs.Selector.Spelling
import CssAuthoring.Proofs.Sheet.Invariant
import CssAuthoring.Proofs.Sheet.Merging
import CssAuthoring.Proofs.Sheet.Styling
import CssAuthoring.Proofs.Sheet.TreeMap
import CssAuthoring.Proofs.Text.Trim
import CssAuthoring.Selector.Argument
import CssAuthoring.Selector.Attribute
import CssAuthoring.Selector.Cursor
import CssAuthoring.Selector.Fault
import CssAuthoring.Selector.Name
import CssAuthoring.Selector.Readers
import CssAuthoring.Selector.Render
import CssAuthoring.Selector.Scan
import CssAuthoring.Selector.Token
import CssAuthoring.Selector.Tokenize
import CssAuthoring.Separated
import CssAuthoring.Sheet.Edit
import CssAuthoring.Sheet.Failure
import CssAuthoring.Sheet.Node
import CssAuthoring.Sheet.Property
import CssAuthoring.Sheet.Scope
import CssAuthoring.Text.Basic
import CssAuthoring.Text.Blank
import CssAuthoring.Text.Lowercase
import CssAuthoring.Text.Printable
import CssAuthoring.Text.Quoted
import CssAuthoring.Token.Any
import CssAuthoring.Token.Basic
import CssAuthoring.Token.Mixed
import CssAuthoring.Proofs.Component.Name
import CssAuthoring.Proofs.Component.Delimited
import CssAuthoring.Proofs.Component.Number
import CssAuthoring.Proofs.Component.WellFormed
import CssAuthoring.Proofs.Component.Reread
import CssAuthoring.Proofs.Component.Apart
import CssAuthoring.Proofs.Component.Declaration
import CssAuthoring.Proofs.Sheet.Declaring
import CssAuthoring.Proofs.Sheet.Growth
import CssAuthoring.Proofs.Sheet.Appending
import CssAuthoring.Proofs.Sheet.Layout
import CssAuthoring.Proofs.Selector.Adjoining
import CssAuthoring.Proofs.Builder
import CssAuthoring.Proofs.Project.Relocation
import CssAuthoring.Proofs.Project.Importing
import CssAuthoring.Proofs.Project.Footprint
import CssAuthoring.Proofs.Project.Changes
import CssAuthoring.Proofs.Project.Loading
import CssAuthoring.Proofs.Project.Coherence
import CssAuthoring.Proofs.Build.History
import CssAuthoring.Proofs.Project.Gathering
import CssAuthoring.Proofs.Project.Depth
import CssAuthoring.Proofs.Project.Isolation
import CssAuthoring.Proofs.Project.Naming
import CssAuthoring.Proofs.Project.Building
import CssAuthoring.Proofs.Project.Watching
import CssAuthoring.Proofs.Project.Recovery
import CssAuthoring.Proofs.Argument
import CssAuthoring.Proofs.Selector.Canonical
import CssAuthoring.Proofs.Selector.Culprit
import CssAuthoring.Proofs.Prelude.Number
import CssAuthoring.Proofs.Prelude.Standing
import CssAuthoring.Proofs.Prelude.Splitting
import CssAuthoring.Proofs.Builder.Steps
import CssAuthoring.Proofs.Selector.Rejoining
import CssAuthoring.Proofs.Builder.Joining
import CssAuthoring.Proofs.Builder.Negating
import CssAuthoring.Proofs.Builder.Listing
import CssAuthoring.Proofs.Text.Collapse
import CssAuthoring.Proofs.Text.Squeeze
import CssAuthoring.Proofs.Prelude.Trimming
import CssAuthoring.Proofs.Sheet.Keyword
import CssAuthoring.Proofs.Project.Sharing
import CssAuthoring.Proofs.Component.Strings
import CssAuthoring.Proofs.Component.Collapse
import CssAuthoring.Proofs.Sheet.Origin
import CssAuthoring.Proofs.Sheet.Strings
import CssAuthoring.Proofs.Separated
import CssAuthoring.Proofs.Selector.Lists
