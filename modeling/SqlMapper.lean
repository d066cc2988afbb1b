import SqlMapper.Chars.Blank
import SqlMapper.Chars.Bytes
import SqlMapper.Chars.Cut
import SqlMapper.Chars.LowerCase
import SqlMapper.Chars.Word
import SqlMapper.CommandLine.Arguments
import SqlMapper.CommandLine.Outcome
import SqlMapper.CommandLine.Request
import SqlMapper.CommandLine.Run
import SqlMapper.CommandLine.Style
import SqlMapper.Completion.Bindings
import SqlMapper.Completion.Context
import SqlMapper.Completion.Offer
import SqlMapper.Completion.Path
import SqlMapper.Completion.Walk
import SqlMapper.Datum
import SqlMapper.Document.Basic
import SqlMapper.Document.Caret
import SqlMapper.Document.Resolution
import SqlMapper.FileUri
import SqlMapper.Files.Access
import SqlMapper.Files.Tree
import SqlMapper.Glob.Expansion
import SqlMapper.Glob.Pattern
import SqlMapper.Json.Datum
import SqlMapper.Json.Parser
import SqlMapper.Json.Printer
import SqlMapper.Json.Value
import SqlMapper.LineIndex
import SqlMapper.Log.Entry
import SqlMapper.Log.Literal
import SqlMapper.Log.Template
import SqlMapper.Main
import SqlMapper.Markup.Character
import SqlMapper.Markup.Cursor
import SqlMapper.Markup.Element
import SqlMapper.Markup.Entity
import SqlMapper.Markup.Event
import SqlMapper.Markup.Fault
import SqlMapper.Markup.Reader
import SqlMapper.Markup.Tree
import SqlMapper.Model.Basic
import SqlMapper.Model.Declaration
import SqlMapper.Model.Members
import SqlMapper.Model.Parameters
import SqlMapper.Model.Reader
import SqlMapper.Model.Supertypes
import SqlMapper.Path
import SqlMapper.Position
import SqlMapper.Project.Basic
import SqlMapper.Project.Completion
import SqlMapper.Project.Diagnostics
import SqlMapper.Project.Loading
import SqlMapper.Project.Navigation
import SqlMapper.Project.Registry
import SqlMapper.Proofs.Chars.Blank
import SqlMapper.Proofs.Chars.Cut
import SqlMapper.Proofs.Completion.Bindings
import SqlMapper.Proofs.Completion.Members
import SqlMapper.Proofs.Completion.Offer
import SqlMapper.Proofs.Completion.Path
import SqlMapper.Proofs.Completion.Rejoining
import SqlMapper.Proofs.Completion.Typing
import SqlMapper.Proofs.Completion.Walk
import SqlMapper.Proofs.Project.Completion
import SqlMapper.Proofs.Project.Reachable
import SqlMapper.Proofs.Table
import SqlMapper.Sample.Builder
import SqlMapper.Sample.Caret
import SqlMapper.Sample.Labels
import SqlMapper.Sample.Users
import SqlMapper.Settings.Basic
import SqlMapper.Settings.Discovery
import SqlMapper.Settings.Reader
import SqlMapper.Table
import SqlMapper.Text
import SqlMapper.Yaml.Datum
import SqlMapper.Yaml.Node
import SqlMapper.Yaml.Parser
import SqlMapper.Yaml.Place
import SqlMapper.Yaml.Scalar
import SqlMapper.Yaml.Token
import SqlMapper.Proofs.LineIndex
import SqlMapper.Proofs.Span
import SqlMapper.Proofs.Markup.Cursor
import SqlMapper.Proofs.Markup.Reader
import SqlMapper.Proofs.Markup.Tree
import SqlMapper.Proofs.Document.Statements
import SqlMapper.Proofs.Document.Resolution
import SqlMapper.Proofs.Document.Fragment
import SqlMapper.Proofs.Document.Innermost
import SqlMapper.Proofs.Project.Resolution
import SqlMapper.Proofs.Project.Navigation
import SqlMapper.Proofs.Project.Framing
import SqlMapper.Proofs.Project.History
import SqlMapper.Proofs.Model.Index
import SqlMapper.Proofs.Model.FirstOfEach
import SqlMapper.Proofs.Model.Supertypes
import SqlMapper.Proofs.Model.Merging
import SqlMapper.Proofs.Chars.Bytes
import SqlMapper.Proofs.LineBytes
import SqlMapper.Proofs.Chars.Join
import SqlMapper.Proofs.Log.Entry
import SqlMapper.Proofs.Log.Line
import SqlMapper.Proofs.Log.Recovery
import SqlMapper.Proofs.Log.Template
import SqlMapper.Proofs.Project.Registration
import SqlMapper.Proofs.Project.Findings
import SqlMapper.Proofs.CommandLine.Check
import SqlMapper.Proofs.Glob.Expansion
import SqlMapper.Proofs.Project.Loading
import SqlMapper.Proofs.Log.Parts
import SqlMapper.Proofs.Chars.Pieces
import SqlMapper.Proofs.Completion.Segments
import SqlMapper.Proofs.Completion.Preceding
import SqlMapper.Proofs.Project.Placeholder
import SqlMapper.Proofs.First
import SqlMapper.Proofs.Document.Targets
import SqlMapper.Proofs.Markup.Address
import SqlMapper.Proofs.CommandLine.Completion
import SqlMapper.Proofs.Document.Records
import SqlMapper.Proofs.Sample.Caret
import SqlMapper.Proofs.Path
import SqlMapper.Proofs.FileUri
import SqlMapper.Proofs.Ancestors
import SqlMapper.Proofs.Files.Tree
import SqlMapper.Proofs.Settings.Discovery
