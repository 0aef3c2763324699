import Admission.Decimal.Shortest
import Admission.Operation
import Admission.Webhook.Basic

/-!
# Metrics

What happened is kept as it happened: every measured call, every rejection, every webhook that was
passed over, every review received and answered, each with its labels.  A count is the number of
entries with the same labels, so counts only ever grow.  `Metrics.exposition` writes them as text,
in the order in which labels first occurred.
-/

namespace Admission

/-- Why a webhook ended a request. -/
inductive RejectionType where
  /-- It could not be asked. -/
  | calling
  /-- Something went wrong here. -/
  | internal
  /-- It said no. -/
  | noError
  deriving DecidableEq, Repr

def RejectionType.text : RejectionType → String
  | .calling => "calling_webhook_error"
  | .internal => "apiserver_internal_error"
  | .noError => "no_error"

/-- What a measured call is counted under. -/
structure CallLabels where
  name : String
  kind : WebhookKind
  operation : Operation
  rejected : Bool
  deriving DecidableEq, Repr

/-- What a rejection is counted under. -/
structure RejectionLabels where
  name : String
  kind : WebhookKind
  operation : Operation
  type : RejectionType
  code : Int
  deriving DecidableEq, Repr

/-- What a webhook that was passed over is counted under. -/
structure FailOpenLabels where
  name : String
  kind : WebhookKind
  deriving DecidableEq, Repr

/-- What a received review is counted under. -/
structure RequestLabels where
  operation : String
  resource : String
  step : String
  deriving DecidableEq, Repr

/-- What an answered review is counted under. -/
structure ResponseLabels where
  allowed : Bool
  step : String
  deriving DecidableEq, Repr

/-- Everything that was counted, in the order it happened. -/
structure Metrics where
  calls : List (CallLabels × Time.Span) := []
  rejections : List RejectionLabels := []
  failOpens : List FailOpenLabels := []
  requests : List RequestLabels := []
  responses : List ResponseLabels := []
  deriving DecidableEq, Inhabited

namespace Metrics

def observeCall (m : Metrics) (labels : CallLabels) (took : Time.Span) : Metrics :=
  { m with calls := m.calls ++ [(labels, took)] }

def observeRejection (m : Metrics) (labels : RejectionLabels) : Metrics :=
  { m with rejections := m.rejections ++ [labels] }

def observeFailOpen (m : Metrics) (labels : FailOpenLabels) : Metrics :=
  { m with failOpens := m.failOpens ++ [labels] }

def observeRequest (m : Metrics) (labels : RequestLabels) : Metrics :=
  { m with requests := m.requests ++ [labels] }

def observeResponse (m : Metrics) (labels : ResponseLabels) : Metrics :=
  { m with responses := m.responses ++ [labels] }

/-! ## text -/

/-- Each value once, in the order of first occurrence. -/
def distinct {α : Type} [DecidableEq α] (list : List α) : List α :=
  list.foldl (fun seen a => if seen.contains a then seen else seen ++ [a]) []

/-- The upper ends of the classes of durations, in milliseconds. -/
def bucketLimits : List Nat := [5, 25, 100, 250, 500, 1000, 2500, 5000, 10000, 20000, 30000]

/-- Doubles are written positionally from `1e-6` to below `1e21`, and a whole one keeps its `.0`. -/
def doubles : Decimal.Layout := ⟨-6, 21⟩

def seconds (span : Time.Span) : Float :=
  (UInt64.ofNat span.seconds).toFloat + (UInt64.ofNat span.subsecond).toFloat / 1000000000

def number (f : Float) : String := (Decimal.render? doubles f.toBits).getD "NaN"

def label (name value : String) : String := s!"{name}=\"{value}\""

def labels (list : List (String × String)) : String :=
  "\x7b" ++ ",".intercalate (list.map fun (name, value) => label name value) ++ "\x7d"

def CallLabels.list (l : CallLabels) : List (String × String) :=
  [("name", l.name), ("type", l.kind.text), ("operation", l.operation.text),
    ("rejected", toString l.rejected)]

def RejectionLabels.list (l : RejectionLabels) : List (String × String) :=
  [("name", l.name), ("type", l.kind.text), ("operation", l.operation.text),
    ("error_type", l.type.text), ("rejection_code", toString l.code)]

def FailOpenLabels.list (l : FailOpenLabels) : List (String × String) :=
  [("name", l.name), ("type", l.kind.text)]

def RequestLabels.list (l : RequestLabels) : List (String × String) :=
  [("operation", l.operation), ("resource", l.resource), ("webhook", l.step)]

def ResponseLabels.list (l : ResponseLabels) : List (String × String) :=
  [("allowed", toString l.allowed), ("webhook", l.step)]

/-- The lines that introduce a metric. -/
def heading (name help type : String) : List String :=
  [s!"# HELP {name} {help}.", s!"# TYPE {name} {type}"]

/-- The lines of a counter. -/
def counter {α : Type} [DecidableEq α] (name : String) (list : α → List (String × String))
    (entries : List α) : List String :=
  (distinct entries).map fun entry =>
    s!"{name}_total{labels (list entry)} {entries.count entry}"

/-- The lines of one series of durations: sum, count, and how many stay below each limit. -/
def series (name : String) (list : List (String × String)) (spans : List Time.Span) :
    List String :=
  let sum := spans.foldl (fun sum span => sum + seconds span) 0
  let bucket (limit : String) (count : Nat) : String :=
    let list := ("le", limit) :: list
    s!"{name}_bucket{labels list} {count}"
  [s!"{name}_sum{labels list} {number sum}", s!"{name}_count{labels list} {spans.length}"] ++
    (bucketLimits.map fun limit =>
      bucket (number (seconds (.ofMilliseconds limit)))
        (spans.countP fun span => span.nanoseconds ≤ limit * 1000000)) ++
    [bucket "+Inf" spans.length]

/-- All lines of the text form. -/
def lines (m : Metrics) : List String :=
  let duration := "webhook_admission_duration_seconds"
  heading duration
      "Admission webhook latency in seconds, by webhook name, step type and operation"
      "histogram" ++
    ((distinct (m.calls.map (·.1))).flatMap fun labels =>
      series duration (CallLabels.list labels)
        ((m.calls.filter (·.1 = labels)).map (·.2))) ++
    heading "webhook_rejection_count"
      "Admission webhook rejections, by error type and rejection code" "counter" ++
    counter "webhook_rejection_count" RejectionLabels.list m.rejections ++
    heading "webhook_fail_open_count"
      "Admission webhook calls that failed and were ignored" "counter" ++
    counter "webhook_fail_open_count" FailOpenLabels.list m.failOpens ++
    heading "admission_gateway_requests"
      "Total number of admission reviews received by the gateway" "counter" ++
    counter "admission_gateway_requests" RequestLabels.list m.requests ++
    heading "admission_gateway_responses"
      "Total number of admission reviews answered by the gateway" "counter" ++
    counter "admission_gateway_responses" ResponseLabels.list m.responses ++ ["# EOF"]

/-- The text form. -/
def exposition (m : Metrics) : String := String.join (m.lines.map (· ++ "\n"))

end Metrics

end Admission
