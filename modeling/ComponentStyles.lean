import ComponentStyles.Text.Blank
import ComponentStyles.Text.Ascii
import ComponentStyles.Text.Place
import ComponentStyles.Text.Segment
import ComponentStyles.Css.Token
import ComponentStyles.Css.Name
import ComponentStyles.Css.Literal
import ComponentStyles.Css.Lexeme
import ComponentStyles.Css.Node
import ComponentStyles.Css.Reference
import ComponentStyles.Css.Declaration
import ComponentStyles.Css.Entry
import ComponentStyles.Css.Rule
import ComponentStyles.Css.Skipped
import ComponentStyles.Css.Cursor
import ComponentStyles.Css.Reader
import ComponentStyles.Bytes.LittleEndian
import ComponentStyles.Bytes.Hex
import ComponentStyles.Bytes.Blake3
import ComponentStyles.Name
import ComponentStyles.Table
import ComponentStyles.Markup.Element
import ComponentStyles.Markup.Document
import ComponentStyles.Sheet.StringTable
import ComponentStyles.Sheet.Tally
import ComponentStyles.Sheet.Layout
import ComponentStyles.HostFailure
import ComponentStyles.Sheet.Compiler
import ComponentStyles.Project.Basic
import ComponentStyles.Project.Path
import ComponentStyles.Project.BreadthFirst
import ComponentStyles.Project.Scope
import ComponentStyles.Project.Inheritors
import ComponentStyles.Project.Reference
import ComponentStyles.Project.Injection
import ComponentStyles.Settings.Sdk
import ComponentStyles.Settings.Basic
import ComponentStyles.Problem.Message
import ComponentStyles.Problem.Basic
import ComponentStyles.Artifact.Basic
import ComponentStyles.Artifact.Store
import ComponentStyles.Source.Signals
import ComponentStyles.Source.Barrier
import ComponentStyles.Pass.Failure
import ComponentStyles.Pass.Attachment
import ComponentStyles.Pass.Resolution
import ComponentStyles.Pass.Extraction
import ComponentStyles.Pass.Collection
import ComponentStyles.Json.Lexical
import ComponentStyles.Json.Skip
import ComponentStyles.Json.Reader
import ComponentStyles.Fixture.Basic
import ComponentStyles.Fixture.Reading
import ComponentStyles.Text.Binary
import ComponentStyles.Text.Numeral
import ComponentStyles.Text.Guarded
import ComponentStyles.Text.Terminal
import ComponentStyles.Json.Magnitude
import ComponentStyles.Toml.Value
import ComponentStyles.Toml.Scalar
import ComponentStyles.Toml.Statement
import ComponentStyles.Toml.Document
import ComponentStyles.Settings.FromToml
import ComponentStyles.Settings.FromJson
import ComponentStyles.Json.Printer
import ComponentStyles.CommandLine.Arguments
import ComponentStyles.CommandLine.Report
import ComponentStyles.CommandLine.Notice
import ComponentStyles.CommandLine.Retelling
import ComponentStyles.CommandLine.Run
import ComponentStyles.Main
import ComponentStyles.Proofs.Artifact.Store
import ComponentStyles.Proofs.Pass.Demand
import ComponentStyles.Proofs.Pass.Identity
import ComponentStyles.Proofs.Sheet.Layout
import ComponentStyles.Proofs.Sheet.Recording
import ComponentStyles.Proofs.Sheet.Decoding
import ComponentStyles.Proofs.Pass.Reference
import ComponentStyles.Proofs.Source.Barrier
import ComponentStyles.Proofs.Source.Readers
import ComponentStyles.Proofs.Source.Callbacks
import ComponentStyles.Proofs.Source.Interleaving
import ComponentStyles.Proofs.Source.Flushes
import ComponentStyles.Proofs.Source.Freshness
import ComponentStyles.Proofs.Pass.Refinement
import ComponentStyles.Proofs.Pass.Collection
import ComponentStyles.Proofs.Fixture.Project
import ComponentStyles.Proofs.Project.Injection
import ComponentStyles.Proofs.Project.Path
import ComponentStyles.Proofs.Project.Descent
import ComponentStyles.Proofs.Project.Search
import ComponentStyles.Proofs.Pass.Coverage
import ComponentStyles.Proofs.Pass.Restoration
import ComponentStyles.Proofs.Pass.Visits
import ComponentStyles.Proofs.Pass.Hosting
import ComponentStyles.Proofs.Pass.Counting
import ComponentStyles.Proofs.Pass.Renaming
import ComponentStyles.Proofs.Pass.Interference
import ComponentStyles.Proofs.Pass.Account
import ComponentStyles.Proofs.Pass.Reordering
import ComponentStyles.Proofs.Pass.Upgrade
import ComponentStyles.Proofs.Pass.Calls
import ComponentStyles.Proofs.Pass.Foreign
import ComponentStyles.Proofs.Pass.Compiled
import ComponentStyles.Proofs.Pass.Failing
import ComponentStyles.Proofs.Pass.Injection
import ComponentStyles.Proofs.Fixture.Loading
import ComponentStyles.Proofs.Project.Inheritance
import ComponentStyles.Proofs.Css.Literal
import ComponentStyles.Proofs.Sheet.Accounting
import ComponentStyles.Proofs.Css.Lexeme
import ComponentStyles.Proofs.Css.Joining
import ComponentStyles.Proofs.Css.Nesting
import ComponentStyles.Proofs.Css.Reference
import ComponentStyles.Proofs.Project.Dependencies
import ComponentStyles.Proofs.Css.Placement
import ComponentStyles.Proofs.Css.Stretch
import ComponentStyles.Proofs.Css.Declaration
import ComponentStyles.Proofs.Css.RuleList
import ComponentStyles.Proofs.Css.Round
import ComponentStyles.Proofs.Css.Condition
import ComponentStyles.Proofs.Css.Fault
import ComponentStyles.Proofs.Project.Reference
import ComponentStyles.Proofs.Css.Cut.Lexeme
import ComponentStyles.Proofs.Css.Cut.Lexemes
import ComponentStyles.Proofs.Css.Header
import ComponentStyles.Proofs.Css.Origin
import ComponentStyles.Proofs.Artifact.History
import ComponentStyles.Proofs.Problem.Attribution
import ComponentStyles.Proofs.Problem.Replacing
import ComponentStyles.Proofs.Problem.Message
import ComponentStyles.Proofs.Source.Access
import ComponentStyles.Proofs.Settings.Sdk
import ComponentStyles.Proofs.Sheet.Interning
import ComponentStyles.Css.Seeker
import ComponentStyles.Proofs.Css.Seeker
import ComponentStyles.Proofs.Css.Loop
import ComponentStyles.Proofs.Css.Progress
