import MernChat.Events.Contracts
import MernChat.Runtime.Clock
import MernChat.Runtime.Postgres

/-!
# Rows of `outbox_events`

A row is inserted by the transaction that commits a message, `pending` and without attempts,
under the next number of the identity column. A relay works on the event it reads from the row.

## Main definitions

* `OutboxRow`, `OutboxEvent`, `mapOutboxEvent`: a row, and the event the repository returns
* `OutboxRow.unfinished`, `OutboxRow.eligible`: the tests of the claim queries
* `OutboxInsertInput`, `messageInsert`, `insertOutboxEvent`: the row an insert adds
* `OutboxEvent.Of`: an event read from a row, up to the columns that change

## Main results

* `insertOutboxEvent_fresh`: an inserted row is pending, unclaimed, and carries the envelope
-/

namespace MernChat

inductive OutboxStatus
  | pending
  | processing
  | published
  | dead_lettered
deriving DecidableEq

/-- A row of `outbox_events`. Timestamps are in microseconds. -/
structure OutboxRow where
  id : Uuid
  sequenceNumber : Nat
  aggregateType : JsString
  aggregateId : Uuid
  eventType : JsString
  eventVersion : Int
  topic : JsString
  partitionKey : JsString
  payload : MessageCreatedEvent
  headers : List (JsString × JsString)
  status : OutboxStatus
  attemptCount : Nat
  availableAt : Int
  lockedUntil : Option Int
  lastError : Option JsString
  createdAt : Int
  publishedAt : Option Int
deriving DecidableEq

/-- The event a repository call returns. Its ids are `String(row.id)`, here the values
themselves. -/
structure OutboxEvent where
  id : Uuid
  sequenceNumber : Nat
  aggregateType : JsString
  aggregateId : Uuid
  eventType : JsString
  eventVersion : Int
  topic : JsString
  partitionKey : JsString
  payload : MessageCreatedEvent
  headers : List (JsString × JsString)
  status : OutboxStatus
  attemptCount : Nat
  availableAt : JsDate
  lockedUntil : Option JsDate
  lastError : Option JsString
  createdAt : JsDate
deriving DecidableEq

def mapOutboxEvent (row : OutboxRow) : OutboxEvent where
  id := row.id
  sequenceNumber := row.sequenceNumber
  aggregateType := row.aggregateType
  aggregateId := row.aggregateId
  eventType := row.eventType
  eventVersion := row.eventVersion
  topic := row.topic
  partitionKey := row.partitionKey
  payload := row.payload
  headers := row.headers
  status := row.status
  attemptCount := row.attemptCount
  availableAt := readTimestamp row.availableAt
  lockedUntil := row.lockedUntil.map readTimestamp
  -- an empty text is falsy, and becomes null
  lastError := row.lastError.filter (· ≠ [])
  createdAt := readTimestamp row.createdAt

namespace OutboxRow

/-- `status IN ('pending', 'processing')`. -/
def unfinished (r : OutboxRow) : Bool := r.status == .pending || r.status == .processing

/-- The eligibility test of the claim queries at `NOW()`; a null `locked_until` is not
`<= NOW()`. -/
def eligible (now : Int) (r : OutboxRow) : Bool :=
  (r.status == .pending && decide (r.availableAt ≤ now)) ||
    (r.status == .processing && r.lockedUntil.any fun t => decide (t ≤ now))

theorem unfinished_iff {r : OutboxRow} :
    r.unfinished = true ↔ r.status = .pending ∨ r.status = .processing := by
  simp [unfinished]

theorem eligible_iff {now : Int} {r : OutboxRow} :
    r.eligible now = true ↔ r.status = .pending ∧ r.availableAt ≤ now ∨
      r.status = .processing ∧ ∃ t, r.lockedUntil = some t ∧ t ≤ now := by
  simp [eligible, Option.any_eq_true]

theorem unfinished_of_eligible {now : Int} {r : OutboxRow} (h : r.eligible now = true) :
    r.unfinished = true := by
  rw [unfinished_iff]
  rcases eligible_iff.mp h with ⟨h, -⟩ | ⟨h, -⟩
  · exact Or.inl h
  · exact Or.inr h

/-- Time does not undo eligibility. -/
theorem eligible_mono {now now' : Int} (hn : now ≤ now') {r : OutboxRow}
    (h : r.eligible now = true) : r.eligible now' = true := by
  rw [eligible_iff] at h ⊢
  rcases h with ⟨hs, ha⟩ | ⟨hs, t, ht, htn⟩
  · exact Or.inl ⟨hs, Int.le_trans ha hn⟩
  · exact Or.inr ⟨hs, t, ht, Int.le_trans htn hn⟩

end OutboxRow

/-! ## Inserting -/

structure OutboxInsertInput where
  event : MessageCreatedEvent
  aggregateType : JsString
  topic : JsString
  partitionKey : JsString
deriving DecidableEq

/-- The insert of `sendMessage`: the conversation is the aggregate. -/
def messageInsert (eventId occurredAt : JsString) (input : MessageCreatedInput) :
    OutboxInsertInput where
  event := createMessageCreatedEvent eventId occurredAt input
  aggregateType := js "conversation"
  topic := MESSAGE_CREATED_TOPIC
  partitionKey := input.conversationId

/-- The strings of an event, in the order they are printed. -/
def eventStrings (event : MessageCreatedEvent) : List JsString :=
  [event.eventId, event.eventType, event.aggregateId, event.occurredAt, event.correlationId,
    event.causationId.getD [], event.producer, event.data.messageId, event.data.conversationId,
    event.data.senderId, event.data.recipientId, event.data.createdAt]

/-- The strings of an event may stand in a `JSONB` value. -/
def storableEvent (event : MessageCreatedEvent) : Bool := (eventStrings event).all jsonbString

/-- `INSERT INTO outbox_events`: the partition key is also the aggregate id. There is no row when
a parameter is not a value of its column. -/
def insertOutboxEvent (input : OutboxInsertInput) (sequenceNumber : Nat) (now : Int) :
    Option OutboxRow := do
  let id ← Uuid.parse input.event.eventId
  let aggregateType ← pgVarchar 100 input.aggregateType
  let aggregateId ← Uuid.parse input.partitionKey
  let eventType ← pgVarchar 150 input.event.eventType
  let topic ← pgVarchar 249 input.topic
  let partitionKey ← pgVarchar 255 input.partitionKey
  -- `JSONB` takes no U+0000, and `event_version` has a `CHECK`
  if storableEvent input.event ∧ 0 < input.event.version then
    some
      { id, sequenceNumber, aggregateType, aggregateId, eventType
        eventVersion := input.event.version
        topic, partitionKey
        payload := input.event
        headers :=
          [(js "eventId", input.event.eventId), (js "eventType", input.event.eventType),
            (js "version", js (toString input.event.version)),
            (js "correlationId", input.event.correlationId)]
        status := .pending
        attemptCount := 0
        availableAt := now
        lockedUntil := none
        lastError := none
        createdAt := now
        publishedAt := none }
  else none

/-- What an insert fixes of its row. -/
structure FreshRow (input : OutboxInsertInput) (sequenceNumber : Nat) (now : Int)
    (r : OutboxRow) : Prop where
  id : Uuid.parse input.event.eventId = some r.id
  aggregateId : Uuid.parse input.partitionKey = some r.aggregateId
  topic : pgVarchar 249 input.topic = some r.topic
  sequenceNumber : r.sequenceNumber = sequenceNumber
  payload : r.payload = input.event
  status : r.status = .pending
  attemptCount : r.attemptCount = 0
  availableAt : r.availableAt = now
  lockedUntil : r.lockedUntil = none

/-- **An inserted row** is pending, has no attempts, and carries the envelope it was given. -/
theorem insertOutboxEvent_fresh {input : OutboxInsertInput} {n : Nat} {now : Int}
    {r : OutboxRow} (h : insertOutboxEvent input n now = some r) : FreshRow input n now r := by
  simp only [insertOutboxEvent, Option.bind_eq_bind, Option.bind_eq_some_iff] at h
  obtain ⟨id, hid, _, -, aggregateId, hagg, _, -, topic, htopic, _, -, h⟩ := h
  split_ifs at h
  obtain rfl := Option.some.inj h
  exact ⟨hid, hagg, htopic, rfl, rfl, rfl, rfl, rfl, rfl⟩

/-- **The event of a message is stored** when the texts that come from the request may stand in a
`JSONB` value. -/
theorem insertOutboxEvent_messageInsert {eventId conversationId : Uuid} {occurredAt : JsString}
    {input : MessageCreatedInput} (hmessage : Ascii input.messageId)
    (hconversation : input.conversationId = conversationId.toText)
    (hcreated : Ascii input.createdAt) (hoccurred : Ascii occurredAt) {n : Nat} {now : Int} :
    (∃ r, insertOutboxEvent (messageInsert eventId.toText occurredAt input) n now = some r) ↔
      jsonbString input.senderId = true ∧ jsonbString input.recipientId = true ∧
        jsonbString input.correlationId = true := by
  have hconst : pgVarchar 100 (js "conversation") = some (js "conversation") ∧
      pgVarchar 150 MESSAGE_CREATED_EVENT = some MESSAGE_CREATED_EVENT ∧
      pgVarchar 249 MESSAGE_CREATED_TOPIC = some MESSAGE_CREATED_TOPIC := by decide +kernel
  -- the strings that no request chooses
  have hfixed : jsonbString MESSAGE_CREATED_EVENT = true ∧ jsonbString (js "chat-api") = true ∧
      jsonbString [] = true := by decide +kernel
  have hstore : storableEvent (createMessageCreatedEvent eventId.toText occurredAt input) = true ↔
      jsonbString input.senderId = true ∧ jsonbString input.recipientId = true ∧
        jsonbString input.correlationId = true := by
    simp only [storableEvent, eventStrings, createMessageCreatedEvent, hconversation,
      List.all_cons, List.all_nil, jsonbString_of_ascii eventId.ascii_toText,
      jsonbString_of_ascii hmessage, jsonbString_of_ascii conversationId.ascii_toText,
      jsonbString_of_ascii hcreated, jsonbString_of_ascii hoccurred, hfixed, Option.getD_none,
      Bool.and_true, Bool.true_and, Bool.and_eq_true]
    constructor
    · rintro ⟨hcor, hsen, hrec⟩
      exact ⟨hsen, hrec, hcor⟩
    · rintro ⟨hsen, hrec, hcor⟩
      exact ⟨hcor, hsen, hrec⟩
  rw [← hstore]
  simp only [insertOutboxEvent, messageInsert, hconversation, Option.bind_eq_bind]
  show (∃ r, ((Uuid.parse eventId.toText).bind fun id => _) = some r) ↔ _
  simp only [Uuid.parse_toText, Option.bind_some, hconst.1,
    pgVarchar_toText conversationId (show 48 ≤ 255 by decide)]
  show (∃ r, ((pgVarchar 150 MESSAGE_CREATED_EVENT).bind fun _ =>
    (pgVarchar 249 MESSAGE_CREATED_TOPIC).bind fun _ => _) = some r) ↔ _
  simp only [hconst.2.1, hconst.2.2, Option.bind_some]
  split_ifs with h
  · simp [h.1]
  · have hversion : 0 < (createMessageCreatedEvent eventId.toText occurredAt input).version := by
      show (0 : Int) < MESSAGE_CREATED_VERSION
      decide
    simp only [exists_false, false_iff]
    intro hs
    exact h ⟨hs, hversion⟩

/-- The insert of event `n`, of message `n` in conversation `c`. -/
def sampleInsert (n c : Nat) : OutboxInsertInput :=
  messageInsert (Uuid.ofNat n).toText (js "2026-01-01T00:00:00.000Z")
    { messageId := (Uuid.ofNat (1000 + n)).toText
      conversationId := (Uuid.ofNat c).toText
      senderId := (Uuid.ofNat 1).toText
      recipientId := (Uuid.ofNat 2).toText
      createdAt := js "2026-01-01T00:00:00.000Z"
      correlationId := js "r" }

/-! ## Events and their rows -/

/-- The event `e` was read from a row with the columns of `r` that no update writes. -/
structure OutboxEvent.Of (r : OutboxRow) (e : OutboxEvent) : Prop where
  id : e.id = r.id
  sequenceNumber : e.sequenceNumber = r.sequenceNumber
  aggregateId : e.aggregateId = r.aggregateId
  topic : e.topic = r.topic
  partitionKey : e.partitionKey = r.partitionKey
  payload : e.payload = r.payload
  headers : e.headers = r.headers

theorem mapOutboxEvent_of (r : OutboxRow) : (mapOutboxEvent r).Of r :=
  ⟨rfl, rfl, rfl, rfl, rfl, rfl, rfl⟩

end MernChat
