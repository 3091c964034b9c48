import Pigeonhole.Account.Basic
import Pigeonhole.Account.Container
import Pigeonhole.Account.Request
import Pigeonhole.Cli.Arguments
import Pigeonhole.Cli.Basic
import Pigeonhole.Cli.Input
import Pigeonhole.Cli.Query
import Pigeonhole.Config.Basic
import Pigeonhole.Config.Environment
import Pigeonhole.Config.Loader
import Pigeonhole.Config.Merge
import Pigeonhole.Error
import Pigeonhole.Files.Basic
import Pigeonhole.Files.Path
import Pigeonhole.Files.Read
import Pigeonhole.Json.Basic
import Pigeonhole.Json.Display
import Pigeonhole.Json.Key
import Pigeonhole.Json.Parser
import Pigeonhole.Json.Path
import Pigeonhole.Json.Printer
import Pigeonhole.Log.ByteSize
import Pigeonhole.Log.Correlation
import Pigeonhole.Log.Format
import Pigeonhole.Log.Record
import Pigeonhole.Log.Redaction
import Pigeonhole.Log.Rotation
import Pigeonhole.Log.Setup
import Pigeonhole.Log.Template
import Pigeonhole.Log.Timestamp
import Pigeonhole.Main
import Pigeonhole.Number.Basic
import Pigeonhole.Number.Double
import Pigeonhole.Number.Numeral
import Pigeonhole.Number.Power
import Pigeonhole.Number.Rounded
import Pigeonhole.Number.Shortest
import Pigeonhole.Query.Builder
import Pigeonhole.Query.Condition
import Pigeonhole.Query.Error
import Pigeonhole.Query.Execute
import Pigeonhole.Query.Form
import Pigeonhole.Query.Operand
import Pigeonhole.Query.Spec
import Pigeonhole.Query.Statement
import Pigeonhole.Query.Where
import Pigeonhole.Schema.Checked
import Pigeonhole.Schema.Issue
import Pigeonhole.Schema.Mapping
import Pigeonhole.Schema.Readers
import Pigeonhole.Schema.Request
import Pigeonhole.Schema.Response
import Pigeonhole.Session.Call
import Pigeonhole.Session.Connect
import Pigeonhole.Session.Options
import Pigeonhole.Store.Basic
import Pigeonhole.Text.Blank
import Pigeonhole.Text.Digit
import Pigeonhole.Text.Hex
import Pigeonhole.Text.Keyword
import Pigeonhole.Text.Lowercase
import Pigeonhole.Text.Printable
import Pigeonhole.Text.Quoted
import Pigeonhole.Text.Ranges
import Pigeonhole.Text.Similarity
import Pigeonhole.Text.Split
import Pigeonhole.Text.Word
import Pigeonhole.Yaml.Error
import Pigeonhole.Yaml.Node
import Pigeonhole.Yaml.Reader
import Pigeonhole.Yaml.Scalar
import Pigeonhole.Yaml.Token
import Pigeonhole.Proofs.Store.Invariant
import Pigeonhole.Proofs.Store.Ledger
import Pigeonhole.Proofs.Query.Fragment
import Pigeonhole.Proofs.Query.Built
import Pigeonhole.Proofs.Query.Composition
import Pigeonhole.Proofs.Store.Scope
import Pigeonhole.Proofs.Store.Entries
import Pigeonhole.Proofs.Store.Interleaving
import Pigeonhole.Proofs.Store.Removal
import Pigeonhole.Proofs.Query.Shapes
import Pigeonhole.Proofs.Number.Interval
import Pigeonhole.Proofs.Number.Shortest
import Pigeonhole.Proofs.Number.Text
import Pigeonhole.Proofs.Json.OneLine
import Pigeonhole.Proofs.Json.Same
import Pigeonhole.Proofs.Json.Reading
import Pigeonhole.Proofs.Json.Size
import Pigeonhole.Proofs.Json.Path
import Pigeonhole.Proofs.Account.Isolation
import Pigeonhole.Proofs.Account.Failure
import Pigeonhole.Proofs.Account.Definition
import Pigeonhole.Proofs.Query.Grammar
import Pigeonhole.Proofs.Query.Failures
import Pigeonhole.Proofs.Query.Inline
import Pigeonhole.Proofs.Cli.Seeded
import Pigeonhole.Proofs.Cli.Parameter
import Pigeonhole.Proofs.Session.Views
import Pigeonhole.Proofs.Session.Payload
import Pigeonhole.Proofs.Session.Telemetry
import Pigeonhole.Proofs.Session.Attempts
import Pigeonhole.Proofs.Session.Reconnect
import Pigeonhole.Proofs.Config.Precedence
import Pigeonhole.Proofs.Config.Failure
import Pigeonhole.Proofs.Config.Reload
import Pigeonhole.Proofs.Config.Secrecy
import Pigeonhole.Proofs.Query.Conjunction
import Pigeonhole.Proofs.Query.Ungrouped
import Pigeonhole.Proofs.Query.Disjunction
import Pigeonhole.Proofs.Query.SharedParameters
import Pigeonhole.Proofs.Query.WrittenValue
import Pigeonhole.Proofs.Query.Containment
import Pigeonhole.Proofs.Query.Trichotomy
import Pigeonhole.Proofs.Query.Answer
import Pigeonhole.Proofs.Log.Redaction
import Pigeonhole.Proofs.Log.JsonLine
import Pigeonhole.Proofs.Text.Quoted
import Pigeonhole.Proofs.Log.Secrecy
import Pigeonhole.Proofs.Session.Discretion
import Pigeonhole.Proofs.Json.Message
import Pigeonhole.Proofs.Log.TextLine
import Pigeonhole.Proofs.Log.Setup
import Pigeonhole.Proofs.Session.Scopes
