import Variability.Text.Blank
import Variability.Text.LowerCase
import Variability.Text.Utf8
import Variability.Text.Position
import Variability.Decimal.Layout
import Variability.Decimal.Numeral
import Variability.Json.Basic
import Variability.Hash.Parts
import Variability.Element
import Variability.Markup.Lexer
import Variability.Markup.Loader
import Variability.Script.Statement
import Variability.Script.Scope
import Variability.Script.Fingerprint
import Variability.Analysis.Survey
import Variability.Report.Json
import Variability.Report.Text
import Variability.Command.SettingsFile
import Variability.Command.Run
import Variability.Main
import Variability.Proofs.Text.Trim
import Variability.Proofs.Script.Place
import Variability.Proofs.Script.Facts
import Variability.Proofs.Script.Visibility
import Variability.Proofs.Script.Taint
import Variability.Proofs.Script.Binding
import Variability.Proofs.Script.Scopes
import Variability.Proofs.Script.Monotone
import Variability.Proofs.Analysis.Accounting
import Variability.Proofs.Analysis.Invariant
import Variability.Proofs.Markup.Scan
import Variability.Proofs.Markup.Reads
import Variability.Proofs.Markup.Grammar
import Variability.Proofs.Markup.Spelling
import Variability.Proofs.Markup.Tags
import Variability.Proofs.Markup.ReadBack
import Variability.Proofs.Markup.Phrase
import Variability.Proofs.Markup.Forest
import Variability.Proofs.Markup.Building
import Variability.Proofs.Markup.Acceptance
import Variability.Proofs.Markup.Sections
import Variability.Proofs.Markup.Spans
import Variability.Proofs.Markup.Continuation
import Variability.Proofs.Markup.Truncation
import Variability.Proofs.Markup.Pruning
import Variability.Proofs.Markup.Pending
import Variability.Proofs.Markup.WellFormed
import Variability.Proofs.Markup.Writing
import Variability.Proofs.Element.Descendants
import Variability.Proofs.Element.Position
import Variability.Proofs.Element.Removal
import Variability.Proofs.Feature.Configured
import Variability.Proofs.Feature.Combinations
import Variability.Proofs.Script.Source
import Variability.Proofs.Script.Guarding
import Variability.Proofs.Analysis.Features
import Variability.Proofs.Analysis.Duplication
import Variability.Proofs.Analysis.Library
import Variability.Proofs.Analysis.Reordering
import Variability.Proofs.Analysis.Wrapping
import Variability.Proofs.Analysis.Visited
import Variability.Proofs.Analysis.Provenance
import Variability.Proofs.Report.Listing
import Variability.Proofs.Analysis.Reading
import Variability.Proofs.Feature.Space
import Variability.Proofs.Element.Exchange
import Variability.Proofs.Markup.Displacement
import Variability.Proofs.Markup.Divergence
import Variability.Proofs.Markup.Decoding
import Variability.Proofs.Markup.Comments
import Variability.Proofs.Markup.Declaration
import Variability.Proofs.Markup.References
import Variability.Proofs.Markup.Division
import Variability.Proofs.Script.Target
import Variability.Proofs.Markup.Limit
import Variability.Proofs.Analysis.Summaries
import Variability.Proofs.Script.Fingerprint
import Variability.Proofs.Element.Traversal
import Variability.Proofs.Text.Position
