import MernChat.Outbox.Repository

/-!
# The outbox publisher

One call of the relay claims a batch, sends it topic by topic, and marks it published. Whatever
is thrown on the way to that mark, by a send or by the mark itself, reaches one handler, which
dead-letters the events of the batch that have used up their attempts and reschedules the
others.

## Main definitions

* `OutboxRelayOptions`, `OutboxRelaySettings`: the options of a relay, and their defaults
* `topicsOf`, `topicBatch`, `kafkaRecord`: the sends of a batch
* `settleRow`: the handler's write for one event
* `publishOutboxEvents`, `runOutboxRelayOnce`: one call without interference
-/

namespace MernChat

open Library

/-! ## Options -/

structure OutboxRelayOptions where
  batchSize : Option Int := none
  leaseMs : Option Int := none
  maxAttempts : Option Int := none
  baseBackoffMs : Option Int := none
  maxBackoffMs : Option Int := none

/-- `Required<OutboxRelayOptions>`. -/
structure OutboxRelaySettings where
  batchSize : Int
  leaseMs : Int
  maxAttempts : Int
  baseBackoffMs : Int
  maxBackoffMs : Int
deriving DecidableEq

def DEFAULT_OPTIONS : OutboxRelaySettings where
  batchSize := 100
  leaseMs := 30000
  maxAttempts := 8
  baseBackoffMs := 1000
  maxBackoffMs := 60000

/-- `{ ...DEFAULT_OPTIONS, ...options }`. -/
def OutboxRelayOptions.settings (options : OutboxRelayOptions) : OutboxRelaySettings where
  batchSize := options.batchSize.getD DEFAULT_OPTIONS.batchSize
  leaseMs := options.leaseMs.getD DEFAULT_OPTIONS.leaseMs
  maxAttempts := options.maxAttempts.getD DEFAULT_OPTIONS.maxAttempts
  baseBackoffMs := options.baseBackoffMs.getD DEFAULT_OPTIONS.baseBackoffMs
  maxBackoffMs := options.maxBackoffMs.getD DEFAULT_OPTIONS.maxBackoffMs

/-! ## Sends -/

/-- A thrown value: an `Error` with its message, or anything else. -/
inductive JsError
  | error (message : JsString)
  | other
deriving DecidableEq

def errorMessage : JsError → JsString
  | .error message => message
  | .other => js "Unknown Kafka publication error"

/-- A message of a send, with the topic it goes to. -/
structure KafkaRecord where
  topic : JsString
  key : JsString
  value : MessageCreatedEvent
  headers : List (JsString × JsString)
deriving DecidableEq

def kafkaRecord (event : OutboxEvent) : KafkaRecord where
  topic := event.topic
  key := event.partitionKey
  value := event.payload
  headers := event.headers

/-- An event is sent as its row is stored. -/
theorem OutboxEvent.Of.kafkaRecord_eq {r : OutboxRow} {e : OutboxEvent} (h : e.Of r) :
    kafkaRecord e = kafkaRecord (mapOutboxEvent r) := by
  simp [kafkaRecord, mapOutboxEvent, h.topic, h.partitionKey, h.payload, h.headers]

/-- `new Set(events.map((event) => event.topic))`, in insertion order. -/
def topicsOf (events : List OutboxEvent) : List JsString :=
  (events.map OutboxEvent.topic).eraseDups

/-- The events of a batch that are sent to a topic, in one send. -/
def topicBatch (events : List OutboxEvent) (topic : JsString) : List OutboxEvent :=
  events.filter fun event => event.topic == topic

theorem mem_topicsOf {events : List OutboxEvent} {e : OutboxEvent} (h : e ∈ events) :
    e.topic ∈ topicsOf events := by
  simp only [topicsOf, List.mem_eraseDups, List.mem_map]
  exact ⟨e, h, rfl⟩

theorem mem_topicBatch {events : List OutboxEvent} {topic : JsString} {e : OutboxEvent} :
    e ∈ topicBatch events topic ↔ e ∈ events ∧ e.topic = topic := by
  simp [topicBatch]

/-! ## The handler -/

/-- The write of the handler for one event; `dateNow` is `Date.now()`. -/
def settleRow (settings : OutboxRelaySettings) (event : OutboxEvent) (message : JsString)
    (dateNow : Int) (r : OutboxRow) : OutboxRow :=
  if settings.maxAttempts ≤ event.attemptCount then deadLetterRow event.id message r
  else
    rescheduleRow event.id
      (dateNow + calculateOutboxBackoffMs event.attemptCount settings.baseBackoffMs
        settings.maxBackoffMs) message r

theorem settleRow_rowUpdate (settings : OutboxRelaySettings) (event : OutboxEvent)
    (message : JsString) (dateNow : Int) (r : OutboxRow) :
    RowUpdate r (settleRow settings event message dateNow r) := by
  unfold settleRow
  split_ifs
  · exact deadLetterRow_rowUpdate event.id message r
  · exact rescheduleRow_rowUpdate event.id _ message r

/-- The bound of the loop in `poll`. -/
def maxBatchesPerPoll : Nat := 100

/-! ## One call -/

/-- A producer decides each send: `none` accepts it. -/
abbrev Producer := JsString → List OutboxEvent → Option JsError

/-- The sends of a batch, one topic after the other: the events accepted, and what was thrown. -/
def publishOutboxEvents (producer : Producer) (events : List OutboxEvent) :
    List JsString → List OutboxEvent × Option JsError
  | [] => ([], none)
  | topic :: topics =>
    match producer topic (topicBatch events topic) with
    | some error => ([], some error)
    | none =>
      (topicBatch events topic ++ (publishOutboxEvents producer events topics).1,
        (publishOutboxEvents producer events topics).2)

/-- The clock readings of one call: the start of the claim's transaction, `NOW()` of the mark,
and `Date.now()` in the handler. -/
structure RelayClock where
  claimAt : Int
  markAt : Int
  dateNow : Int

/-- What a call leaves behind: the rows, the events accepted by a send, and its return value. -/
structure RelayResult where
  rows : List OutboxRow
  sent : List OutboxEvent
  processed : Nat

/-- One call of the relay without interference. -/
def runOutboxRelayOnce (producer : Producer) (settings : OutboxRelaySettings)
    (clock : RelayClock) (rows : List OutboxRow) : RelayResult :=
  let claim := claimPendingOutboxEvents rows clock.claimAt (fun _ => false) settings.batchSize
    settings.leaseMs
  let events := claim.2
  match publishOutboxEvents producer events (topicsOf events) with
  | (sent, none) =>
    { rows := claim.1.map (markPublishedRow (events.map OutboxEvent.id) clock.markAt)
      sent
      processed := events.length }
  | (sent, some error) =>
    { rows := events.foldl
        (fun rows event => rows.map (settleRow settings event (errorMessage error) clock.dateNow))
        claim.1
      sent
      processed := 0 }

end MernChat
