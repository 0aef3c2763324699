import Admission.Failure
import Admission.Metrics
import Admission.Request

/-!
# What a call leaves behind

The traces of one call are single writes, in the order the call makes them.  Calls that run at the
same time have their writes interleaved, so a write is the unit here, and everything that a run
collects is the outcome of its writes one after another.
-/

namespace Admission

/-- One write. -/
inductive Effect where
  | measure (labels : CallLabels) (took : Time.Span)
  /-- An audit annotation, dropped if the key has another value. -/
  | annotate (key value : String)
  | warn (text : String)
  | countFailOpen (labels : FailOpenLabels)
  | countRejection (labels : RejectionLabels)
  /-- An error that ends the request. -/
  | fail (e : StatusError)
  deriving DecidableEq

/-- What has been collected. -/
structure Tally where
  record : AuditRecord
  metrics : Metrics
  /-- The errors that end the request, in the order they came. -/
  errors : List StatusError := []
  deriving DecidableEq

namespace Effect

/-- What a write does. -/
def apply (tally : Tally) : Effect → Tally
  | .measure labels took => { tally with metrics := tally.metrics.observeCall labels took }
  | .annotate key value => { tally with record := tally.record.offer key value }
  | .warn text => { tally with record := tally.record.warn text }
  | .countFailOpen labels => { tally with metrics := tally.metrics.observeFailOpen labels }
  | .countRejection labels => { tally with metrics := tally.metrics.observeRejection labels }
  | .fail e => { tally with errors := tally.errors ++ [e] }

/-- Writes one after another. -/
def applyAll (tally : Tally) (effects : List Effect) : Tally := effects.foldl apply tally

end Effect

/-- The key of an annotation about the webhook at a position. -/
def annotationKey (start : String) (index : Nat) : String := s!"{start}/round_0_index_{index}"

end Admission
