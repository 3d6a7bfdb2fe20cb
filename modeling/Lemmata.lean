import Lemmata.Main
import Lemmata.Watch
import Lemmata.Proofs.Building
import Lemmata.Proofs.Instance
import Lemmata.Proofs.Fitting
import Lemmata.Proofs.OpenOperands
import Lemmata.Proofs.Direct
import Lemmata.Proofs.Derivation
import Lemmata.Proofs.Reading
import Lemmata.Proofs.Soundness
import Lemmata.Proofs.Progress
import Lemmata.Proofs.Completeness
import Lemmata.Proofs.CutElimination
import Lemmata.Proofs.LetterReading
import Lemmata.Proofs.Compression
import Lemmata.Proofs.Unfinished
import Lemmata.Proofs.DeclarationOrder
import Lemmata.Proofs.Representation
import Lemmata.Proofs.Runnable
import Lemmata.Proofs.Locality
import Lemmata.Proofs.OptionalHypotheses
import Lemmata.Proofs.StatementContent
import Lemmata.Proofs.Fingerprints
import Lemmata.Proofs.Expansion
import Lemmata.Proofs.Rebuilding
import Lemmata.Proofs.Restating
import Lemmata.Proofs.NameClashes
import Lemmata.Proofs.SharedCache
import Lemmata.Proofs.WorkerPool
import Lemmata.Proofs.Interruption
import Lemmata.Proofs.Exactness
import Lemmata.Proofs.LetterTokens
import Lemmata.Proofs.CompressedReading
import Lemmata.Proofs.PlainForm
import Lemmata.Proofs.Verdicts
import Lemmata.Proofs.Culprit
import Lemmata.Proofs.Applications
import Lemmata.Proofs.Inspecting
import Lemmata.Proofs.Revision
import Lemmata.Proofs.Regrouping
import Lemmata.Proofs.Scoping
import Lemmata.Proofs.Violations
import Lemmata.Proofs.Permissions
import Lemmata.Proofs.Suggestions
import Lemmata.Proofs.LetterOrder
import Lemmata.Proofs.WordOffsets
import Lemmata.Proofs.Checks
import Lemmata.Proofs.Acceptance
