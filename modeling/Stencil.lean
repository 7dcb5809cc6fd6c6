import Stencil.Binary64.Basic
import Stencil.Binary64.Nearest
import Stencil.Binary64.Shortest
import Stencil.Compilation
import Stencil.ContentType
import Stencil.Dialect
import Stencil.Failure
import Stencil.Fragment
import Stencil.Fragment.Json
import Stencil.Host
import Stencil.Json.Document
import Stencil.Json.Printer
import Stencil.Json.Reader
import Stencil.Json.Record
import Stencil.Markup.Escape
import Stencil.Markup.Forbidden
import Stencil.Options.Basic
import Stencil.Options.Json
import Stencil.Options.Load
import Stencil.Options.Record
import Stencil.Options.Yaml
import Stencil.Path.Basic
import Stencil.Path.Evaluate
import Stencil.Proofs.Accounting
import Stencil.Proofs.ArrayText
import Stencil.Proofs.Batches
import Stencil.Proofs.ClaimedPlaceholders
import Stencil.Proofs.Compilation
import Stencil.Proofs.CompiledValues
import Stencil.Proofs.Continuation
import Stencil.Proofs.DataNodes
import Stencil.Proofs.Delimiters
import Stencil.Proofs.Digits
import Stencil.Proofs.DistinctKeys
import Stencil.Proofs.ElementTree
import Stencil.Proofs.EscapedText
import Stencil.Proofs.Escaping
import Stencil.Proofs.Failures
import Stencil.Proofs.ForbiddenCharacters
import Stencil.Proofs.GatheredFormatting
import Stencil.Proofs.IndexNames
import Stencil.Proofs.JsonLiterals
import Stencil.Proofs.JsonText
import Stencil.Proofs.LineBreaks
import Stencil.Proofs.LineRecovery
import Stencil.Proofs.NestedMarkup
import Stencil.Proofs.NullMembers
import Stencil.Proofs.OnePass
import Stencil.Proofs.OpenNames
import Stencil.Proofs.Outputs
import Stencil.Proofs.PathEvaluation
import Stencil.Proofs.PathGrammar
import Stencil.Proofs.Presentation
import Stencil.Proofs.Reading
import Stencil.Proofs.RecordFormats
import Stencil.Proofs.Records
import Stencil.Proofs.RegularPart
import Stencil.Proofs.RunBoundaries
import Stencil.Proofs.RunFormatting
import Stencil.Proofs.RunProperties
import Stencil.Proofs.RunStarts
import Stencil.Proofs.Sanitizing
import Stencil.Proofs.Segments
import Stencil.Proofs.SessionHistory
import Stencil.Proofs.Siblings
import Stencil.Proofs.SplitRuns
import Stencil.Proofs.Splitting
import Stencil.Proofs.StrippedSources
import Stencil.Proofs.StrippedText
import Stencil.Proofs.Suppliers
import Stencil.Proofs.WholeNumbers
import Stencil.Proofs.XmlCharacters
import Stencil.Record
import Stencil.Rendered
import Stencil.Report
import Stencil.RunFormatting
import Stencil.Session
import Stencil.Text.Alphanumeric
import Stencil.Text.Characters
import Stencil.Value.Basic
import Stencil.Value.Json
import Stencil.Value.Text
import Stencil.Yaml.Node
import Stencil.Yaml.Record
import Stencil.Yaml.Scalar
import Stencil.Yaml.Spot
import Stencil.Yaml.Token
