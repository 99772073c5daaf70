import Segments.Main
import Segments.Catalog.Codec
import Segments.Condition.Codec
import Segments.Filter.Codec
import Segments.Filter.Statement
import Segments.Http.Api
import Segments.Proofs.ByteOrder
import Segments.Proofs.Portable
import Segments.Proofs.QueryMeaning
import Segments.Proofs.Conjunction
import Segments.Proofs.Contents
import Segments.Proofs.Guard
import Segments.Proofs.History
import Segments.Proofs.QueryText
import Segments.Proofs.Selection
import Segments.Proofs.Admission
import Segments.Proofs.Accounting
import Segments.Proofs.LastError
import Segments.Proofs.Oversize
import Segments.Proofs.Resync
import Segments.Proofs.Erasure
import Segments.Proofs.Marks
import Segments.Proofs.LastReport
import Segments.Proofs.Abandonment
import Segments.Proofs.Unattended
import Segments.Proofs.Cadence
import Segments.Proofs.Credentials
import Segments.Proofs.Answers
import Segments.Proofs.DisplayedConditions
import Segments.Proofs.Normalizing
import Segments.Proofs.SharedSyntax
import Segments.Proofs.WireFormats
import Segments.Proofs.WholeNumbers
import Segments.Proofs.WrittenPatterns
import Segments.Proofs.Compiling
import Segments.Proofs.Coercion
import Segments.Proofs.Comparisons
import Segments.Proofs.Timestamps
import Segments.Proofs.LastWritten
import Segments.Proofs.Layering
import Segments.Proofs.TextSettings
import Segments.Proofs.WholeSeconds
import Segments.Proofs.Spans
import Segments.Proofs.Offsets
