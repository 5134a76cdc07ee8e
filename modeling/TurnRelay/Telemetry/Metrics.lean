import TurnRelay.Admission.Queue
import TurnRelay.Stream.Session

/-!
# Service metrics

The relay counts what it does: requests by mode, model family and status; the queue's depth,
whether a turn is running, and its tasks by result; streaming sessions by outcome; events and
bytes written to clients; requests turned away by admission control. Durations are kept as
histograms, of which only the number of samples is told here, since the samples are times.

The queue's signals and a session's forwarded events and outcome update the metrics directly,
so that the counters follow the same transitions the queue and the session make.

## Main definitions

* `Metrics`, with `observe`, `eventForwarded`, `sessionFinished`, `recordRequest` and
  `rejectAdmission`.
* `Metrics.samples`: every sample, by name and labels.
-/

namespace TurnRelay.Telemetry

open TurnRelay.Admission TurnRelay.Stream

/-- Counts by key, each key once, in the order keys were first counted. -/
abbrev Tally (κ : Type) := List (κ × Nat)

/-- Adds one to the count of `k`. -/
def Tally.bump {κ : Type} [BEq κ] (t : Tally κ) (k : κ) : Tally κ :=
  if t.any (·.1 == k) then t.map fun (k', n) => if k' == k then (k', n + 1) else (k', n)
  else t ++ [(k, 1)]

/-- The counters, gauges and histogram sample counts of the relay. -/
structure Metrics where
  /-- Requests by mode, model family and status. -/
  requests : Tally (String × String × String) := []
  /-- Request-duration samples by mode. -/
  requestDurations : Tally String := []
  queueWaits : Nat := 0
  queueDepth : Nat := 0
  queueRunning : Nat := 0
  /-- Queue tasks by result: `ok`, `error` or `cancelled`. -/
  queueTasks : Tally String := []
  taskDurations : Nat := 0
  /-- Streaming sessions by outcome. -/
  sessionOutcomes : Tally String := []
  sessionDurations : Nat := 0
  /-- Events written to clients, by event name. -/
  eventsForwarded : Tally String := []
  bytesSent : Nat := 0
  admissionRejected : Nat := 0
  deriving Inhabited

namespace Metrics

/-- Follows one signal of the queue. -/
def observe (m : Metrics) : Signal → Metrics
  | .enqueued d => { m with queueDepth := d }
  | .started d => { m with queueDepth := d, queueRunning := 1, queueWaits := m.queueWaits + 1 }
  | .finished err =>
    { m with queueRunning := 0, taskDurations := m.taskDurations + 1,
             queueTasks := m.queueTasks.bump (if err.isSome then "error" else "ok") }
  | .cancelled d => { m with queueDepth := d, queueTasks := m.queueTasks.bump "cancelled" }

/-- Follows several signals of the queue, in order. -/
def observeAll (m : Metrics) (signals : List Signal) : Metrics := signals.foldl observe m

/-- One event of `bytes` bytes was written to a client. -/
def eventForwarded (m : Metrics) (name : String) (bytes : Nat) : Metrics :=
  { m with eventsForwarded := m.eventsForwarded.bump name, bytesSent := m.bytesSent + bytes }

/-- A streaming session ended with `outcome`. -/
def sessionFinished (m : Metrics) (outcome : Outcome) : Metrics :=
  { m with sessionOutcomes := m.sessionOutcomes.bump outcome.name,
           sessionDurations := m.sessionDurations + 1 }

/-- A request was answered. -/
def recordRequest (m : Metrics) (mode model status : String) : Metrics :=
  { m with requests := m.requests.bump (mode, model, status),
           requestDurations := m.requestDurations.bump mode }

/-- A request was turned away by admission control. -/
def rejectAdmission (m : Metrics) : Metrics :=
  { m with admissionRejected := m.admissionRejected + 1 }

end Metrics

/-- The value of one sample: a counter's or gauge's value, or a histogram's number of samples. -/
inductive SampleValue where
  | value (x : Float)
  | count (n : Nat)

/-- One sample: the metric's name, its labels in order, and the value. -/
structure Sample where
  name : String
  labels : List (String × String)
  value : SampleValue

/-- The metric names, with the common prefix. -/
def metricName (s : String) : String := "claude_proxy_" ++ s

/-- The samples of a labelled counter. -/
def tallySamples {κ : Type} (name : String) (labels : κ → List (String × String)) (t : Tally κ) :
    List Sample :=
  t.map fun (k, n) => ⟨metricName name, labels k, .value n.toFloat⟩

/-- Every sample of the metrics. Unlabelled metrics are always present; a labelled one has a
sample for each label set that was counted. -/
def Metrics.samples (m : Metrics) : List Sample :=
  tallySamples "request_total" (fun (mode, model, status) =>
      [("mode", mode), ("model", model), ("status", status)]) m.requests ++
  m.requestDurations.map (fun (mode, n) => ⟨metricName "request_duration_ms", [("mode", mode)], .count n⟩) ++
  [⟨metricName "queue_wait_ms", [], .count m.queueWaits⟩,
   ⟨metricName "queue_depth", [], .value m.queueDepth.toFloat⟩,
   ⟨metricName "queue_running", [], .value m.queueRunning.toFloat⟩] ++
  tallySamples "queue_tasks_total" (fun r => [("result", r)]) m.queueTasks ++
  [⟨metricName "task_duration_ms", [], .count m.taskDurations⟩] ++
  tallySamples "stream_session_total" (fun o => [("outcome", o)]) m.sessionOutcomes ++
  [⟨metricName "stream_session_duration_ms", [], .count m.sessionDurations⟩] ++
  tallySamples "events_forwarded_total" (fun e => [("event", e)]) m.eventsForwarded ++
  [⟨metricName "sse_bytes_total", [], .value m.bytesSent.toFloat⟩,
   ⟨metricName "admission_rejected_total", [], .value m.admissionRejected.toFloat⟩]

end TurnRelay.Telemetry
