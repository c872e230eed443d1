import Mathlib.Data.Rat.Defs
import Mathlib.Algebra.Order.Ring.Rat
import MernChat.Library.InsertionMap
import MernChat.Runtime.JsonText

/-!
# Metrics

Counters and histograms, each a map from the key of a label map to a series. The numbers are
those of the runtime, of which only a few operations are used.

## Main definitions

* `JsNumber`: what is used of numbers
* `MetricLabels`, `labelKey`: label maps, and the key of one
* `Metrics`, `defineCounter`, `defineHistogram`, `incrementCounter`, `observeHistogram`,
  `resetMetrics`: the state of the module and its functions
* `MetricsCall`, `moduleDefinitions`: calls, and those made when the module is loaded
* `renderMetrics`: the text of the metrics
-/

namespace MernChat

open Library

/-- What the metrics use of numbers: literals, `Number.isFinite`, `+`, `<` and `<=`. -/
class JsNumber (ν : Type) where
  literal : ℚ → ν
  isFinite : ν → Bool
  add : ν → ν → ν
  lt : ν → ν → Bool
  le : ν → ν → Bool

/-! ## Labels -/

/-- `[A-Za-z0-9_]`. -/
def labelUnit (c : UInt16) : Bool := isLetter c || isDigit c || c == 0x5F

/-- `[A-Za-z_][A-Za-z0-9_]*`. -/
def isLabelName : JsString → Bool
  | [] => false
  | c :: s => (isLetter c || c == 0x5F) && s.all labelUnit

/-- An object of labels. -/
structure MetricLabels where
  map : InsertionMap JsString JsString
  named : ∀ name ∈ map.keys, isLabelName name = true

/-- The same labels with the same values, in whatever order they are written. -/
def MetricLabels.Same (labels labels' : MetricLabels) : Prop :=
  labels.map.entries.Perm labels'.map.entries

instance (labels labels' : MetricLabels) : Decidable (labels.Same labels') :=
  inferInstanceAs (Decidable (List.Perm _ _))

section Labels

variable (localeCompare : JsString → JsString → Int)

/-- `Object.entries(labels).sort(([a], [b]) => a.localeCompare(b))`. -/
def sortedEntries (labels : InsertionMap JsString JsString) : List (JsString × JsString) :=
  labels.sortEntries fun a b => localeCompare a b ≤ 0

def labelKey (labels : InsertionMap JsString JsString) : JsString :=
  stringify (fun _ => [])
    (.arr ((sortedEntries localeCompare labels).map fun e => .arr [.str e.1, .str e.2]))

end Labels

/-! ## The state -/

structure CounterItem (ν : Type) where
  labels : MetricLabels
  value : ν

structure HistogramItem (ν : Type) where
  labels : MetricLabels
  count : Nat
  sum : ν
  buckets : List Nat

structure HistogramDefinition (ν : Type) where
  help : JsString
  buckets : List ν

/-- The four maps of the module. -/
structure Metrics (ν : Type) where
  counters : InsertionMap JsString (InsertionMap JsString (CounterItem ν))
  counterHelp : InsertionMap JsString JsString
  histograms : InsertionMap JsString (InsertionMap JsString (HistogramItem ν))
  histogramHelp : InsertionMap JsString (HistogramDefinition ν)

def Metrics.empty {ν : Type} : Metrics ν := ⟨.empty, .empty, .empty, .empty⟩

/-! ## The functions -/

section Functions

variable {ν : Type}

def defineCounter (s : Metrics ν) (name help : JsString) : Metrics ν :=
  if (s.counterHelp.get name).isSome then s
  else { s with
    counterHelp := s.counterHelp.set name help
    counters := s.counters.set name .empty }

def resetMetrics (s : Metrics ν) : Metrics ν :=
  { s with
    counters := s.counters.map fun _ => .empty
    histograms := s.histograms.map fun _ => .empty }

variable [JsNumber ν]

/-- The boundaries of a histogram: the positive finite ones, each once and in increasing order. -/
def normalizedBuckets [DecidableEq ν] (buckets : List ν) : List ν :=
  ((buckets.filter fun bucket =>
    JsNumber.isFinite bucket && JsNumber.lt (JsNumber.literal 0) bucket).eraseDups).insertionSort
      fun a b => JsNumber.le a b = true

/-- `defineHistogram`, with the message of what it throws. -/
def defineHistogram [DecidableEq ν] (s : Metrics ν) (name help : JsString) (buckets : List ν) :
    Except JsString (Metrics ν) :=
  if (s.histogramHelp.get name).isSome then .ok s
  else if normalizedBuckets buckets = [] then
    .error (js "Metric " ++ name ++ js " requires at least one positive bucket")
  else .ok { s with
    histogramHelp := s.histogramHelp.set name ⟨help, normalizedBuckets buckets⟩
    histograms := s.histograms.set name .empty }

variable (localeCompare : JsString → JsString → Int)

def incrementCounter (s : Metrics ν) (name : JsString) (labels : MetricLabels) (amount : ν) :
    Metrics ν :=
  match s.counters.get name with
  | none => s
  | some series =>
    if !JsNumber.isFinite amount || JsNumber.le amount (JsNumber.literal 0) then s
    else
      let key := labelKey localeCompare labels.map
      let item : CounterItem ν :=
        match series.get key with
        | some existing => { existing with value := JsNumber.add existing.value amount }
        | none => ⟨labels, amount⟩
      { s with counters := s.counters.set name (series.set key item) }

def observeHistogram (s : Metrics ν) (name : JsString) (value : ν) (labels : MetricLabels) :
    Metrics ν :=
  match s.histogramHelp.get name, s.histograms.get name with
  | some definition, some series =>
    if !JsNumber.isFinite value || JsNumber.lt value (JsNumber.literal 0) then s
    else
      let key := labelKey localeCompare labels.map
      let target : HistogramItem ν := (series.get key).getD
        ⟨labels, 0, JsNumber.literal 0, definition.buckets.map fun _ => 0⟩
      let target : HistogramItem ν := { target with
        count := target.count + 1
        sum := JsNumber.add target.sum value
        buckets := definition.buckets.zipWith
          (fun boundary n => if JsNumber.le value boundary then n + 1 else n) target.buckets }
      { s with histograms := s.histograms.set name (series.set key target) }
  | _, _ => s

end Functions

/-! ## Calls -/

inductive MetricsCall (ν : Type)
  | defineCounter (name help : JsString)
  | defineHistogram (name help : JsString) (buckets : List ν)
  | incrementCounter (name : JsString) (labels : MetricLabels) (amount : ν)
  | observeHistogram (name : JsString) (value : ν) (labels : MetricLabels)
  | resetMetrics

section Calls

variable {ν : Type} [JsNumber ν] [DecidableEq ν] (localeCompare : JsString → JsString → Int)

/-- One call. A definition that throws leaves the state as it is. -/
def MetricsCall.exec (s : Metrics ν) : MetricsCall ν → Metrics ν
  | .defineCounter name help => MernChat.defineCounter s name help
  | .defineHistogram name help buckets =>
    match MernChat.defineHistogram s name help buckets with
    | .ok s' => s'
    | .error _ => s
  | .incrementCounter name labels amount =>
    MernChat.incrementCounter localeCompare s name labels amount
  | .observeHistogram name value labels =>
    MernChat.observeHistogram localeCompare s name value labels
  | .resetMetrics => MernChat.resetMetrics s

/-- The state after the calls, the latest first. -/
def metricsAfter : List (MetricsCall ν) → Metrics ν
  | [] => .empty
  | call :: earlier => call.exec localeCompare (metricsAfter earlier)

/-- `[0.005, 0.01, …, 5]`. -/
def durationBuckets : List ν :=
  [0.005, 0.01, 0.025, 0.05, 0.1, 0.25, 0.5, 1, 2, 5].map JsNumber.literal

/-- The definitions at the end of the module, in their order. -/
def moduleDefinitions : List (MetricsCall ν) :=
  [ .defineCounter (js "http_requests_total") (js "Total completed HTTP requests."),
    .defineCounter (js "http_errors_total") (js "Total HTTP server errors."),
    .defineCounter (js "auth_login_success_total") (js "Successful password logins."),
    .defineCounter (js "auth_login_failure_total") (js "Failed password login attempts."),
    .defineCounter (js "messages_created_total") (js "Persisted chat messages."),
    .defineCounter (js "message_send_failures_total") (js "Message creation failures."),
    .defineCounter (js "db_operation_errors_total") (js "Database operation failures."),
    .defineCounter (js "socket_connections_total") (js "Socket.IO connections established."),
    .defineCounter (js "socket_disconnects_total") (js "Socket.IO disconnects."),
    .defineCounter (js "socket_auth_failures_total")
      (js "Rejected Socket.IO authentication attempts."),
    .defineCounter (js "socket_reconnect_recovered_total")
      (js "Socket.IO connections with state recovery."),
    .defineCounter (js "redis_errors_total") (js "Redis operation failures."),
    .defineCounter (js "kafka_initialization_failures_total")
      (js "Kafka initialization failures."),
    .defineCounter (js "kafka_publish_total") (js "Kafka publication attempts."),
    .defineCounter (js "kafka_publish_failures_total") (js "Kafka publication failures."),
    .defineCounter (js "kafka_dlq_publish_failures_total") (js "Kafka DLQ publication failures."),
    .defineCounter (js "kafka_consume_total") (js "Kafka events processed."),
    .defineCounter (js "kafka_consume_failures_total")
      (js "Kafka consumer processing or contract failures."),
    .defineCounter (js "kafka_duplicate_events_total") (js "Duplicate Kafka events ignored."),
    .defineCounter (js "outbox_published_total") (js "Outbox events published successfully."),
    .defineCounter (js "outbox_retry_total") (js "Outbox retries scheduled."),
    .defineCounter (js "outbox_dead_lettered_total")
      (js "Outbox events moved to durable dead-letter state."),
    .defineCounter (js "outbox_metrics_collection_failures_total")
      (js "Outbox metric collection failures."),
    .defineCounter (js "outbox_relay_batches_total") (js "Outbox relay batches completed."),
    .defineHistogram (js "http_request_duration_seconds") (js "HTTP request duration.")
      durationBuckets,
    .defineHistogram (js "db_operation_duration_seconds")
      (js "Selected database operation duration.") durationBuckets,
    .defineHistogram (js "redis_operation_duration_seconds")
      (js "Selected Redis operation duration.") durationBuckets,
    .defineHistogram (js "outbox_publication_duration_seconds")
      (js "Outbox Kafka publication duration.") durationBuckets,
    .defineHistogram (js "outbox_claim_duration_seconds")
      (js "Outbox claim transaction duration.") durationBuckets,
    .defineHistogram (js "outbox_mark_published_duration_seconds")
      (js "Outbox published-state update duration.") durationBuckets,
    .defineHistogram (js "outbox_relay_batch_size")
      (js "Number of events claimed per relay batch.")
      ([1, 5, 10, 20, 50, 100].map JsNumber.literal) ]

/-- The calls of a run of the program, the latest first: those made while the module is loaded come
before all others. -/
def loadedBefore (calls : List (MetricsCall ν)) : List (MetricsCall ν) :=
  calls.reverse ++ moduleDefinitions.reverse

end Calls

/-! ## The text -/

/-- `value.replaceAll(c, replacement)`, for one character. -/
def replaceUnit (c : UInt16) (replacement : JsString) (s : JsString) : JsString :=
  s.flatMap fun x => if x = c then replacement else [x]

/-- The texts joined with a separator. -/
def joinWith (separator : JsString) : List JsString → JsString
  | [] => []
  | [s] => s
  | s :: t :: rest => s ++ separator ++ joinWith separator (t :: rest)

section Text

variable {ν : Type} [JsNumber ν] (localeCompare : JsString → JsString → Int)
  (numberText : ν → JsString)

def renderLabel (e : JsString × JsString) : JsString :=
  e.1 ++ js "=\"" ++ replaceUnit 0x22 (js "\\\"") (replaceUnit 0x5C (js "\\\\") e.2) ++ js "\""

def renderLabels (labels : InsertionMap JsString JsString) : JsString :=
  let pairs := (sortedEntries localeCompare labels).map renderLabel
  if pairs.length > 0 then js "\x7b" ++ joinWith (js ",") pairs ++ js "\x7d" else []

/-- `${name}${renderLabels(labels)} ${value}`. -/
def renderSample (name : JsString) (labels : InsertionMap JsString JsString) (value : ν) :
    JsString :=
  name ++ renderLabels localeCompare labels ++ js " " ++ numberText value

/-- A number that counts. -/
def countNumber (n : Nat) : ν := JsNumber.literal n

/-- The lines of one counter. -/
def renderCounter (s : Metrics ν) (name help : JsString) : List JsString :=
  [js "# HELP " ++ name ++ js " " ++ help, js "# TYPE " ++ name ++ js " counter"] ++
    (((s.counters.get name).map InsertionMap.values).getD []).map fun item =>
      renderSample localeCompare numberText name item.labels.map item.value

/-- The buckets of a series with the labels `le` they are rendered with. -/
def renderedBuckets (definition : HistogramDefinition ν) (item : HistogramItem ν) :
    List (JsString × Nat) :=
  (definition.buckets.zip item.buckets).map (fun b => (numberText b.1, b.2)) ++
    [(js "+Inf", item.count)]

/-- The lines of one series of a histogram. -/
def renderHistogramItem (name : JsString) (definition : HistogramDefinition ν)
    (item : HistogramItem ν) : List JsString :=
  (renderedBuckets numberText definition item).map (fun b =>
    renderSample localeCompare numberText (name ++ js "_bucket") (item.labels.map.set (js "le") b.1)
      (countNumber b.2)) ++
  [renderSample localeCompare numberText (name ++ js "_sum") item.labels.map item.sum,
    renderSample localeCompare numberText (name ++ js "_count") item.labels.map
      (countNumber item.count)]

/-- The lines of one histogram. -/
def renderHistogram (s : Metrics ν) (name : JsString) (definition : HistogramDefinition ν) :
    List JsString :=
  [js "# HELP " ++ name ++ js " " ++ definition.help, js "# TYPE " ++ name ++ js " histogram"] ++
    (((s.histograms.get name).map InsertionMap.values).getD []).flatMap fun item =>
      renderHistogramItem localeCompare numberText name definition item

def renderMetrics (s : Metrics ν) : JsString :=
  joinWith (js "\n")
    ((s.counterHelp.entries.flatMap fun e => renderCounter localeCompare numberText s e.1 e.2) ++
      s.histogramHelp.entries.flatMap fun e =>
        renderHistogram localeCompare numberText s e.1 e.2) ++
    js "\n"

end Text

end MernChat
