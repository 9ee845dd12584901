import SchemaDrift.Config.File
import SchemaDrift.Config.Json
import SchemaDrift.Main
import SchemaDrift.Proofs.Compare.Additions
import SchemaDrift.Proofs.Compare.Chains
import SchemaDrift.Proofs.Compare.ClientInput
import SchemaDrift.Proofs.Compare.Losses
import SchemaDrift.Proofs.Compare.Order
import SchemaDrift.Proofs.Compare.Verdict
import SchemaDrift.Schema.Json.Model
import SchemaDrift.Source.Table
import SchemaDrift.Proofs.Compare.Categories
import SchemaDrift.Proofs.Compare.Reversal
import SchemaDrift.Proofs.Change.Grouping
import SchemaDrift.Proofs.Report.Review
import SchemaDrift.Proofs.Report.Channels
import SchemaDrift.Proofs.Sdl.Declarations
import SchemaDrift.Proofs.Sdl.Resolution
import SchemaDrift.Proofs.Sdl.Streams
import SchemaDrift.Proofs.Sdl.Inlining
import SchemaDrift.Proofs.Sdl.Written
import SchemaDrift.Proofs.Compare.Positions
import SchemaDrift.Proofs.Schema.Coercion
import SchemaDrift.Proofs.Binary64.Integers
import SchemaDrift.Proofs.Schema.Sameness
import SchemaDrift.Proofs.Schema.NormalForm
import SchemaDrift.Proofs.Sdl.Constants
import SchemaDrift.Proofs.Sdl.Mirrored
import SchemaDrift.Proofs.Compare.Defaults
import SchemaDrift.Proofs.Compare.Severities
import SchemaDrift.Proofs.Config.Ignored
import SchemaDrift.Proofs.Report.WorkflowCommand
import SchemaDrift.Proofs.Change.Tally
import SchemaDrift.Proofs.Text.Utf8
import SchemaDrift.Proofs.Source.Contents
import SchemaDrift.Proofs.Change.Json
import SchemaDrift.Proofs.Report.Json
import SchemaDrift.Proofs.Url.PercentEncoding
import SchemaDrift.Proofs.Source.ContentsUrl
import SchemaDrift.Proofs.Toml.Strings
import SchemaDrift.Proofs.Toml.Values
import SchemaDrift.Proofs.Toml.Documents
import SchemaDrift.Proofs.Toml.Integers
import SchemaDrift.Proofs.Config.Toml
import SchemaDrift.Proofs.Json.Number
import SchemaDrift.Proofs.Json.Text
import SchemaDrift.Proofs.Schema.Json.Value
import SchemaDrift.Proofs.Schema.Json.Model
import SchemaDrift.Proofs.Change.History
import SchemaDrift.Proofs.Schema.Runs
import SchemaDrift.Proofs.Compare.Parts
import SchemaDrift.Proofs.Compare.Repetition
import SchemaDrift.Proofs.Compare.Retyped
