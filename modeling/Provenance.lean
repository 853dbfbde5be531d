import Provenance.Main
import Provenance.Verdict.Reader
import Provenance.Proofs.Text.Decimal
import Provenance.Proofs.Text.Utf8
import Provenance.Proofs.Text.Order
import Provenance.Proofs.Binary64.Shortest
import Provenance.Proofs.Binary64.Rounding
import Provenance.Proofs.Binary64.Closeness
import Provenance.Proofs.Json.Same
import Provenance.Proofs.Json.Writer
import Provenance.Proofs.Json.Spelling
import Provenance.Proofs.Json.Reader.Basic
import Provenance.Proofs.Json.Reader.Text
import Provenance.Proofs.Json.Reader.Numeral
import Provenance.Proofs.Json.Reader.Value
import Provenance.Proofs.Json.Reader.Causes
import Provenance.Proofs.Json.Position
import Provenance.Proofs.Json.Respelling
import Provenance.Proofs.Json.Written
import Provenance.Proofs.Json.RoundTrip
import Provenance.Proofs.Json.Scaled
import Provenance.Proofs.Json.Reread
import Provenance.Proofs.Json.Truncation
import Provenance.Proofs.Json.Accuracy
import Provenance.Proofs.Json.Integers
import Provenance.Proofs.Json.Acceptance
import Provenance.Proofs.Json.Range
import Provenance.Proofs.Json.Canonical
import Provenance.Proofs.Document.Identity
import Provenance.Proofs.Document.Field
import Provenance.Proofs.Document.Catalogue
import Provenance.Proofs.Document.Accumulation
import Provenance.Proofs.Verdict.Passing
import Provenance.Proofs.Verdict.Respelling
import Provenance.Proofs.Verdict.Predicates
import Provenance.Proofs.Verdict.Contract
import Provenance.Proofs.Verdict.Declaration
import Provenance.Proofs.Verdict.Resaved
import Provenance.Proofs.Verdict.Serialized
import Provenance.Proofs.Verdict.Invariants
import Provenance.Proofs.Verdict.Entropy
import Provenance.Proofs.Verdict.Sensitivity
import Provenance.Proofs.Command.Hash
import Provenance.Proofs.Command.Lines
import Provenance.Proofs.Command.Verify
import Provenance.Proofs.Command.Arrangement
import Provenance.Proofs.Command.Summary
