import Mathlib.Logic.Function.Basic
import MernChat.Chat.Tables

/-!
# The notification consumer

Consumers receive `message.created` events and run one transaction for each: a marker in
`processed_events`, and, if it is new, a row in `notifications`. A row inserted is seen by the
others when its transaction commits; a statement whose row conflicts with one of an open
transaction waits for that transaction to end. A statement that throws, like a consumer that
dies, rolls its transaction back.

## Main definitions

* `ProcessedEventRow`, `NotificationRow`: rows of the two tables
* `ConsumerPhase`: how far `processMessageCreatedEvent` has come
* `ConsumerState`, `consumerStep`: the tables, the open transactions, and the steps
* `MarkerOf`, `NotificationOf`: the rows of an event
* `ConsumerStep`: the steps, case by case

## Main results

* `consumerStep_cases`: every step is one of the cases
-/

namespace MernChat

open Library

structure ProcessedEventRow where
  consumerName : JsString
  eventId : Uuid
  processedAt : Int
deriving DecidableEq

structure NotificationRow where
  id : Uuid
  recipientId : Uuid
  messageId : Uuid
  type : JsString
  createdAt : Int
deriving DecidableEq

/-- The primary key of `processed_events`. -/
def ProcessedEventRow.key (row : ProcessedEventRow) : JsString × Uuid :=
  (row.consumerName, row.eventId)

/-- The columns of the unique constraint of `notifications`. -/
def NotificationRow.key (row : NotificationRow) : Uuid × Uuid × JsString :=
  (row.recipientId, row.messageId, row.type)

/-- A call of `processMessageCreatedEvent`. -/
inductive ConsumerPhase
  | idle
  /-- After `BEGIN`, at `NOW()`. -/
  | begun (startedAt : Int) (event : MessageCreatedEvent)
  /-- The marker was there: `ROLLBACK` is next. -/
  | duplicate (event : MessageCreatedEvent)
  /-- The marker is inserted. -/
  | marked (startedAt : Int) (event : MessageCreatedEvent)
  /-- The notification is inserted, or was there. -/
  | notified (event : MessageCreatedEvent)

/-- The event a call is about. -/
def ConsumerPhase.event : ConsumerPhase → Option MessageCreatedEvent
  | .idle => none
  | .begun _ event | .duplicate event | .marked _ event | .notified event => some event

/-- The event whose marker a call has inserted. -/
def ConsumerPhase.marker : ConsumerPhase → Option MessageCreatedEvent
  | .marked _ event | .notified event => some event
  | _ => none

/-- The tables of the consumers, the rows their open transactions have inserted, and the events
whose transactions have committed. -/
structure ConsumerState where
  processed_events : List ProcessedEventRow
  notifications : List NotificationRow
  openProcessed : List (Nat × ProcessedEventRow)
  openNotifications : List (Nat × NotificationRow)
  phases : Nat → ConsumerPhase
  processed : List MessageCreatedEvent

/-- The rows that transaction `k` has inserted. -/
def openRows {α : Type} (k : Nat) (rows : List (Nat × α)) : List α :=
  (rows.filter fun r => r.1 == k).map Prod.snd

/-- Another transaction has inserted a row with this key. -/
def heldByOther {α β : Type} [DecidableEq β] (key : α → β) (k : Nat) (rows : List (Nat × α))
    (b : β) : Bool :=
  rows.any fun r => r.1 != k && key r.2 == b

namespace ConsumerState

def empty : ConsumerState where
  processed_events := []
  notifications := []
  openProcessed := []
  openNotifications := []
  phases := fun _ => .idle
  processed := []

def setPhase (s : ConsumerState) (k : Nat) (p : ConsumerPhase) : ConsumerState :=
  { s with phases := Function.update s.phases k p }

/-- The end of a transaction. -/
def close (s : ConsumerState) (k : Nat) : ConsumerState :=
  { s.setPhase k .idle with
    openProcessed := s.openProcessed.filter fun r => r.1 != k
    openNotifications := s.openNotifications.filter fun r => r.1 != k }

end ConsumerState

inductive ConsumerAction
  /-- `BEGIN`, for an event delivered, at `NOW()`. -/
  | begin (k : Nat) (now : Int) (event : MessageCreatedEvent)
  | insertProcessedEvent (k : Nat)
  /-- The id is that of `gen_random_uuid()`. -/
  | insertNotification (k : Nat) (id : Uuid)
  | commit (k : Nat)
  /-- `ROLLBACK`, of a duplicate or of a call that throws or dies. -/
  | rollback (k : Nat)

section Steps

variable (consumerName : JsString) (db : Database) (s : ConsumerState)

/-- `INSERT INTO processed_events … ON CONFLICT (consumer_name, event_id) DO NOTHING`. -/
def stepInsertProcessedEvent (k : Nat) : Option ConsumerState :=
  match s.phases k with
  | .begun startedAt event =>
    (pgVarchar 150 consumerName).bind fun consumerName =>
      (Uuid.parse event.eventId).bind fun eventId =>
        let row : ProcessedEventRow := { consumerName, eventId, processedAt := startedAt }
        -- `ON CONFLICT` waits for the transaction that has inserted the same key
        if heldByOther ProcessedEventRow.key k s.openProcessed row.key then none
        else if s.processed_events.any fun r => r.key == row.key then
          some (s.setPhase k (.duplicate event))
        else some { s.setPhase k (.marked startedAt event) with
          openProcessed := s.openProcessed ++ [(k, row)] }
  | _ => none

/-- `INSERT INTO notifications … ON CONFLICT (recipient_id, message_id, type) DO NOTHING`. The
statement throws where there is no row: an id that is taken, a recipient or a message that is
not there. -/
def stepInsertNotification (k : Nat) (id : Uuid) : Option ConsumerState :=
  match s.phases k with
  | .marked startedAt event =>
    (Uuid.parse event.data.recipientId).bind fun recipientId =>
      (Uuid.parse event.data.messageId).bind fun messageId =>
        let row : NotificationRow :=
          { id, recipientId, messageId, type := js "message", createdAt := startedAt }
        if heldByOther NotificationRow.key k s.openNotifications row.key then none
        else if s.notifications.any fun r => r.key == row.key then
          some (s.setPhase k (.notified event))
        else if (s.notifications.any fun r => r.id == id) ||
            heldByOther NotificationRow.id k s.openNotifications id then none
        else if db.hasUser recipientId && db.hasMessage messageId then
          some { s.setPhase k (.notified event) with
            openNotifications := s.openNotifications ++ [(k, row)] }
        else none
  | _ => none

def stepCommit (k : Nat) : Option ConsumerState :=
  match s.phases k with
  | .notified event =>
    some { s.close k with
      processed_events := s.processed_events ++ openRows k s.openProcessed
      notifications := s.notifications ++ openRows k s.openNotifications
      processed := s.processed ++ [event] }
  | _ => none

/-- **The steps of the consumers.** -/
def consumerStep : ConsumerAction → Option ConsumerState
  | .begin k now event =>
    match s.phases k with
    | .idle => some (s.setPhase k (.begun now event))
    | _ => none
  | .insertProcessedEvent k => stepInsertProcessedEvent consumerName s k
  | .insertNotification k id => stepInsertNotification db s k id
  | .commit k => stepCommit s k
  | .rollback k => some (s.close k)

end Steps

/-! ## The steps, case by case -/

variable {consumerName : JsString} {db : Database} {s s' : ConsumerState}

/-- The row is the marker of the event. -/
structure MarkerOf (consumerName : JsString) (event : MessageCreatedEvent)
    (row : ProcessedEventRow) : Prop where
  consumerName : pgVarchar 150 consumerName = some row.consumerName
  eventId : Uuid.parse event.eventId = some row.eventId

/-- The row is the notification of the event. -/
structure NotificationOf (event : MessageCreatedEvent) (row : NotificationRow) : Prop where
  recipientId : Uuid.parse event.data.recipientId = some row.recipientId
  messageId : Uuid.parse event.data.messageId = some row.messageId
  type : row.type = js "message"

/-- The steps of the consumers, one case for each way a statement can go. -/
inductive ConsumerStep (consumerName : JsString) (s : ConsumerState) :
    ConsumerAction → ConsumerState → Prop
  | begin {k now event} (hp : s.phases k = .idle) :
    ConsumerStep consumerName s (.begin k now event) (s.setPhase k (.begun now event))
  | duplicate {k startedAt event} (hp : s.phases k = .begun startedAt event) :
    ConsumerStep consumerName s (.insertProcessedEvent k) (s.setPhase k (.duplicate event))
  | marked {k startedAt event row} (hp : s.phases k = .begun startedAt event)
    (hrow : MarkerOf consumerName event row)
    (hheld : ∀ r ∈ s.openProcessed, r.1 ≠ k → r.2.key ≠ row.key)
    (hnew : ∀ r ∈ s.processed_events, r.key ≠ row.key) :
    ConsumerStep consumerName s (.insertProcessedEvent k)
      { s.setPhase k (.marked startedAt event) with
        openProcessed := s.openProcessed ++ [(k, row)] }
  | conflict {k id startedAt event row} (hp : s.phases k = .marked startedAt event)
    (hrow : NotificationOf event row) (hthere : ∃ r ∈ s.notifications, r.key = row.key) :
    ConsumerStep consumerName s (.insertNotification k id) (s.setPhase k (.notified event))
  | notified {k id startedAt event row} (hp : s.phases k = .marked startedAt event)
    (hrow : NotificationOf event row) :
    ConsumerStep consumerName s (.insertNotification k id)
      { s.setPhase k (.notified event) with
        openNotifications := s.openNotifications ++ [(k, row)] }
  | commit {k event} (hp : s.phases k = .notified event) :
    ConsumerStep consumerName s (.commit k)
      { s.close k with
        processed_events := s.processed_events ++ openRows k s.openProcessed
        notifications := s.notifications ++ openRows k s.openNotifications
        processed := s.processed ++ [event] }
  | rollback {k} : ConsumerStep consumerName s (.rollback k) (s.close k)

theorem heldByOther_eq_false {α β : Type} [DecidableEq β] {key : α → β} {k : Nat}
    {rows : List (Nat × α)} {b : β} :
    heldByOther key k rows b = false ↔ ∀ r ∈ rows, r.1 ≠ k → key r.2 ≠ b := by
  simp [heldByOther, List.any_eq_false]

/-- **Every step is one of the cases.** -/
theorem consumerStep_cases {a : ConsumerAction} (h : consumerStep consumerName db s a = some s') :
    ConsumerStep consumerName s a s' := by
  cases a with
  | begin k now event =>
    simp only [consumerStep] at h
    split at h
    · obtain rfl := Option.some.inj h
      exact .begin ‹_›
    · cases h
  | insertProcessedEvent k =>
    simp only [consumerStep, stepInsertProcessedEvent] at h
    split at h
    · obtain ⟨name, hname, h⟩ := Option.bind_eq_some_iff.mp h
      obtain ⟨eventId, hid, h⟩ := Option.bind_eq_some_iff.mp h
      split_ifs at h with hheld hthere <;> obtain rfl := Option.some.inj h
      · exact .duplicate ‹_›
      · rw [Bool.not_eq_true, heldByOther_eq_false] at hheld
        exact .marked ‹_› ⟨hname, hid⟩ hheld (by simpa using hthere)
    · cases h
  | insertNotification k id =>
    simp only [consumerStep, stepInsertNotification] at h
    split at h
    · obtain ⟨recipientId, hr, h⟩ := Option.bind_eq_some_iff.mp h
      obtain ⟨messageId, hm, h⟩ := Option.bind_eq_some_iff.mp h
      split_ifs at h with hheld hthere <;> obtain rfl := Option.some.inj h
      · exact .conflict ‹_› ⟨hr, hm, rfl⟩ (by simpa using hthere)
      · exact .notified ‹_› ⟨hr, hm, rfl⟩
    · cases h
  | commit k =>
    simp only [consumerStep, stepCommit] at h
    split at h
    · obtain rfl := Option.some.inj h
      exact .commit ‹_›
    · cases h
  | rollback k =>
    obtain rfl := Option.some.inj h
    exact .rollback

end MernChat
