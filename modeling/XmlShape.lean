import XmlShape.Codec.Element
import XmlShape.Command.Directory
import XmlShape.Main
import XmlShape.Proofs.Document.Extension
import XmlShape.Proofs.Schema.Fields
import XmlShape.Proofs.Schema.Kernel
import XmlShape.Report.Diagnostic
import XmlShape.Proofs.Schema.Cycles
import XmlShape.Proofs.Schema.Depth
import XmlShape.Proofs.Schema.Recursion
import XmlShape.Proofs.Schema.Merging
import XmlShape.Proofs.Schema.Containers
import XmlShape.Proofs.Schema.Collapse
import XmlShape.Proofs.Schema.Relations
import XmlShape.Proofs.Schema.Containment
import XmlShape.Proofs.Document.Limit
import XmlShape.Proofs.Document.Truncation
import XmlShape.Proofs.Schema.Occurrence
import XmlShape.Proofs.Schema.Rearrangement
import XmlShape.Proofs.Schema.Majority
import XmlShape.Proofs.Schema.Reordering
import XmlShape.Proofs.Schema.Revision
import XmlShape.Proofs.Schema.Options
import XmlShape.Proofs.Document.Bracketing
import XmlShape.Proofs.Document.Trimming
import XmlShape.Proofs.Document.Numbering
import XmlShape.Proofs.Markup.Attribute
import XmlShape.Proofs.Schema.Statistics
import XmlShape.Proofs.Document.Attributes
import XmlShape.Proofs.Codec.Structure
import XmlShape.Proofs.Codec.Element
import XmlShape.Proofs.Codec.Schema
import XmlShape.Proofs.Codec.Analysis
import XmlShape.Proofs.Schema.Literal
import XmlShape.Proofs.Command.Rendering
import XmlShape.Proofs.Schema.Ascent
import XmlShape.Proofs.Schema.Sharing
import XmlShape.Proofs.Schema.Repetition
import XmlShape.Proofs.FirstOccurrence
import XmlShape.Proofs.Naming.Chain
import XmlShape.Proofs.Naming.English
import XmlShape.Proofs.Regex.Match
import XmlShape.Proofs.Regex.Search
import XmlShape.Proofs.Regex.Leftmost
import XmlShape.Proofs.Regex.Language
import XmlShape.Proofs.Schema.Bound
import XmlShape.Proofs.Text.Words
import XmlShape.Proofs.Decimal.Layout
import XmlShape.Proofs.Report.RelationTable
import XmlShape.Proofs.Report.FieldList
