import Pdl.Analysis
import Pdl.CommandLine.Arguments
import Pdl.CommandLine.Console
import Pdl.CommandLine.Help
import Pdl.CommandLine.Run
import Pdl.Diagnostic.Basic
import Pdl.Diagnostic.Code
import Pdl.Diagnostic.Listing
import Pdl.Diagnostic.Snippet
import Pdl.Files.Access
import Pdl.Files.Path
import Pdl.Files.Tree
import Pdl.Grammar.Derivation
import Pdl.Grammar.Rule
import Pdl.Json.Reading
import Pdl.Json.Value
import Pdl.Lexing.Cursor
import Pdl.Lexing.Fault
import Pdl.Lexing.Scan
import Pdl.Lexing.Stream
import Pdl.Log.Event
import Pdl.Log.Filter
import Pdl.Log.Pattern
import Pdl.Main
import Pdl.Parsing.Goal
import Pdl.Parsing.Parser
import Pdl.Proofs.Parsing.State
import Pdl.Proofs.Grammar.Rightmost
import Pdl.Proofs.Grammar.Tree
import Pdl.Proofs.Parsing.Steps
import Pdl.Report
import Pdl.Session
import Pdl.Settings.Basic
import Pdl.Settings.Files
import Pdl.SymbolTable
import Pdl.Text.Alphanumeric
import Pdl.Text.Blank
import Pdl.Text.Escaped
import Pdl.Text.GraphemeExtend
import Pdl.Text.Position
import Pdl.Text.Reader
import Pdl.Text.Source
import Pdl.Text.Split
import Pdl.Text.Unprintable
import Pdl.Text.Utf8
import Pdl.Token.Basic
import Pdl.Token.Kind
import Pdl.Toml.Document
import Pdl.Toml.Moment
import Pdl.Toml.Number
import Pdl.Toml.Quoting
import Pdl.Toml.Reading
import Pdl.Toml.Scan
import Pdl.Toml.Value
import Pdl.Toml.Writing
import Pdl.Proofs.Parsing.Reading
import Pdl.Proofs.Parsing.Nesting
import Pdl.Proofs.Parsing.Trace
import Pdl.Proofs.Parsing.Phrases
import Pdl.Proofs.Parsing.Handling
import Pdl.Proofs.Parsing.Members
import Pdl.Proofs.Parsing.Recognition
import Pdl.Proofs.Parsing.FirstFault
import Pdl.Proofs.Parsing.Recovery
import Pdl.Proofs.Parsing.Place
import Pdl.Proofs.Parsing.Truncation
import Pdl.Proofs.Lexing.Classes
import Pdl.Proofs.Lexing.LongestMatch
import Pdl.Proofs.Text.LineIndex
import Pdl.Proofs.Lexing.Reports
import Pdl.Proofs.Lexing.Places
import Pdl.Proofs.Lexing.Tiling
import Pdl.Proofs.Parsing.Charges
import Pdl.Proofs.Lexing.Words
import Pdl.Proofs.Lexing.Lines
import Pdl.Proofs.Lexing.Spacing
import Pdl.Proofs.Reformatting
import Pdl.Proofs.Parsing.FaultOrder
import Pdl.Proofs.Parsing.Concatenation
import Pdl.Proofs.Parsing.Balance
import Pdl.Proofs.DiagnosticOrder
import Pdl.Proofs.Snippets
import Pdl.Proofs.Listing
import Pdl.Proofs.Lexing.SymbolIndex
import Pdl.Proofs.Text.Digits
import Pdl.Proofs.Json.RoundTrip
import Pdl.Proofs.JsonReport
import Pdl.Proofs.Toml.Quoting
import Pdl.Proofs.Toml.Document
import Pdl.Proofs.Files.Access
import Pdl.Proofs.Settings.RoundTrip
import Pdl.Proofs.Settings.Loading
import Pdl.Proofs.CommandLine.World
import Pdl.Proofs.Session
import Pdl.Proofs.CommandLine.Outcome
import Pdl.Proofs.Lexing.Pulls
import Pdl.Proofs.Parsing.Reruns
import Pdl.Proofs.Parsing.SameKinds
import Pdl.Proofs.StandIn
import Pdl.Proofs.Text.Lookup
import Pdl.Proofs.Lexing.Traversal
import Pdl.Proofs.Lexing.Lookahead
import Pdl.Proofs.TokenReport
import Pdl.Proofs.Parsing.Streams
import Pdl.Proofs.Parsing.Simulation
import Pdl.Proofs.Lexing.Munch
import Pdl.Proofs.Lexing.Faults
import Pdl.Proofs.Lexing.Tokens
