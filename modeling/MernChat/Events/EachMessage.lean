import MernChat.Events.Envelope
import MernChat.Events.NotificationConsumer
import MernChat.Library.Transaction
import MernChat.Runtime.Encoding

/-!
# The handling of a record

The consumer decodes the value of a record, parses it and checks it. The event of a value that
passes is recorded in one transaction with its notification; a value that does not pass is sent to
`chat.message.dlq.v1`. Any of the steps may fail.

## Main definitions

* `ConsumerStore`: the database, and what the dead-letter topic has received
* `processMessageCreatedEvent`, `publishToDlq`, `eachMessage`
* `Recorded`: a marker and its notification

## Main results

* `parseRecord_eq_none`: what does not pass
* `processMessageCreatedEvent_cases`, `processMessageCreatedEvent_duplicate`: how the processing of
  an event ends
* `processMessageCreatedEvent_steps`: it is a run of a consumer that no other disturbs
-/

namespace MernChat

open Library

/-- The tables of the application together with those of its consumer. -/
structure ConsumerDatabase extends Database where
  processed_events : List ProcessedEventRow
  notifications : List NotificationRow

/-- The database, and the values that the dead-letter topic has received. -/
structure ConsumerStore where
  database : ConsumerDatabase
  dlq : List (List UInt8)

namespace ConsumerStore

def addProcessedEvent (s : ConsumerStore) (row : ProcessedEventRow) : ConsumerStore :=
  { s with database :=
    { s.database with processed_events := s.database.processed_events ++ [row] } }

def addNotification (s : ConsumerStore) (row : NotificationRow) : ConsumerStore :=
  { s with database := { s.database with notifications := s.database.notifications ++ [row] } }

def addDeadLetter (s : ConsumerStore) (value : List UInt8) : ConsumerStore :=
  { s with dlq := s.dlq ++ [value] }

end ConsumerStore

/-- The steps of the handling of a record that may fail. -/
inductive ConsumerOp
  | connect
  | begin
  | insertProcessedEvent
  /-- The `ROLLBACK` of a duplicate. -/
  | rollbackDuplicate
  | insertNotification
  | commit
  /-- The `ROLLBACK` after an error. -/
  | rollback
  | sendDlq
deriving DecidableEq

/-- What the handling of a record meets. -/
structure ConsumerEnv where
  consumerName : JsString
  dateParse : JsString → Option Int
  /-- `NOW()` of the transaction. -/
  now : Int
  /-- `gen_random_uuid()`. -/
  notificationId : Uuid
  /-- `getKafkaProducer()` is not null. -/
  producer : Bool
  fault : ConsumerOp → Option (Fault Thrown)

/-- What `processMessageCreatedEvent` answers. -/
inductive Processing
  | processed
  | duplicate
deriving DecidableEq

abbrev ConsumerTx := Tx ConsumerStore Thrown

section Handler

variable (env : ConsumerEnv)

/-- `INSERT INTO processed_events … ON CONFLICT (consumer_name, event_id) DO NOTHING`; false where
there is a conflict. -/
def insertProcessedEvent (event : MessageCreatedEvent) : ConsumerTx Bool := do
  let eventId ← Tx.ofExcept .database (uuidParam event.eventId)
  let consumerName ← Tx.ofOption (.database .string_data_right_truncation)
    (pgVarchar 150 env.consumerName)
  let s ← get
  let row : ProcessedEventRow := { consumerName, eventId, processedAt := env.now }
  if s.database.processed_events.any fun r => r.key == row.key then
    return false
  else
    set (s.addProcessedEvent row)
    return true

/-- `INSERT INTO notifications … ON CONFLICT (recipient_id, message_id, type) DO NOTHING`. -/
def insertNotification (event : MessageCreatedEvent) : ConsumerTx Unit := do
  let recipientId ← Tx.ofExcept .database (uuidParam event.data.recipientId)
  let messageId ← Tx.ofExcept .database (uuidParam event.data.messageId)
  let s ← get
  let row : NotificationRow :=
    { id := env.notificationId
      recipientId
      messageId
      type := js "message"
      createdAt := env.now }
  if s.database.notifications.any fun r => r.key == row.key then
    return ()
  else
    Tx.require (s.database.notifications.any (fun r => r.id == row.id) = false)
      (.database .unique_violation)
    Tx.require (s.database.hasUser recipientId = true ∧ s.database.hasMessage messageId = true)
      (.database .foreign_key_violation)
    set (s.addNotification row)

/-- The statements of the transaction, up to its end. -/
def recordEvent (event : MessageCreatedEvent) : ConsumerTx Processing := do
  let inserted ← statement (env.fault .insertProcessedEvent) (insertProcessedEvent env event)
  if inserted then
    statement (env.fault .insertNotification) (insertNotification env event)
    return .processed
  else
    return .duplicate

def consumerFaults : TxFaults Thrown where
  connect := env.fault .connect
  begin := env.fault .begin
  commit := env.fault .commit
  rollback := env.fault .rollback

def processMessageCreatedEvent (event : MessageCreatedEvent) :
    Prog ConsumerStore Thrown Processing :=
  transactionIf (consumerFaults env) (env.fault .rollbackDuplicate)
    (fun result => result == .processed) (recordEvent env event)

def publishToDlq (rawValue : JsString) : Prog ConsumerStore Thrown Unit := do
  require (env.producer = true)
    (.error (js "Kafka producer is unavailable for DLQ publication"))
  -- `messages: [{ value: rawValue }]` sends the text as UTF-8
  effect (env.fault .sendDlq) fun s => s.addDeadLetter (utf8Encode rawValue)

/-- `parseMessageCreatedEvent(JSON.parse(rawValue))`, by its fields; none where it throws. -/
def parseRecord (dateParse : JsString → Option Int) (rawValue : JsString) :
    Option MessageCreatedEvent :=
  (parseJson rawValue).bind fun value =>
    (parseMessageCreated dateParse value).toOption.bind readEvent

/-- **The handler of a record**, by its value. -/
def eachMessage (value : Option (List UInt8)) : Prog ConsumerStore Thrown Unit :=
  match value.map utf8Decode with
  -- `!rawValue`: nothing is sent
  | none | some [] => pure ()
  | some rawValue =>
    match parseRecord env.dateParse rawValue with
    | none => publishToDlq env rawValue
    | some event => do
      let _ ← processMessageCreatedEvent env event
      return ()

end Handler

/-- The event is marked as processed, and its notification is there. -/
structure Recorded (consumerName : JsString) (event : MessageCreatedEvent)
    (db : ConsumerDatabase) : Prop where
  marker : ∃ row ∈ db.processed_events, MarkerOf consumerName event row
  notification : ∃ row ∈ db.notifications, NotificationOf event row

/-! ## The statements -/

variable {env : ConsumerEnv} {event : MessageCreatedEvent} {s t : ConsumerStore}

/-- The markers of an event are the rows with its key. -/
theorem MarkerOf.iff_key {consumerName : JsString} {row r : ProcessedEventRow}
    (h : MarkerOf consumerName event row) : MarkerOf consumerName event r ↔ r.key = row.key := by
  constructor
  · intro hr
    have hname := Option.some.inj (hr.consumerName.symm.trans h.consumerName)
    have hid := Option.some.inj (hr.eventId.symm.trans h.eventId)
    exact Prod.ext hname hid
  · intro hkey
    obtain ⟨hname, hid⟩ := Prod.mk.inj hkey
    exact ⟨h.consumerName.trans (congrArg some hname.symm),
      h.eventId.trans (congrArg some hid.symm)⟩

/-- The notifications of an event are the rows with its key. -/
theorem NotificationOf.iff_key {row r : NotificationRow} (h : NotificationOf event row) :
    NotificationOf event r ↔ r.key = row.key := by
  constructor
  · intro hr
    have hrecipient := Option.some.inj (hr.recipientId.symm.trans h.recipientId)
    have hmessage := Option.some.inj (hr.messageId.symm.trans h.messageId)
    exact Prod.ext hrecipient (Prod.ext hmessage (hr.type.trans h.type.symm))
  · intro hkey
    obtain ⟨hrecipient, hkey⟩ := Prod.mk.inj hkey
    obtain ⟨hmessage, htype⟩ := Prod.mk.inj hkey
    exact ⟨h.recipientId.trans (congrArg some hrecipient.symm),
      h.messageId.trans (congrArg some hmessage.symm), htype.trans h.type⟩

/-- What does not pass is what `JSON.parse` or the checks throw for. -/
theorem parseRecord_eq_none {dateParse : JsString → Option Int} {rawValue : JsString} :
    parseRecord dateParse rawValue = none ↔ parseJson rawValue = none ∨
      ∃ value e, parseJson rawValue = some value ∧
        parseMessageCreated dateParse value = .error e := by
  unfold parseRecord
  cases parseJson rawValue with
  | none => simp
  | some value =>
    rw [Option.bind_some]
    cases hparse : parseMessageCreated dateParse value with
    | error e => simp [Except.toOption, hparse]
    | ok value' =>
      -- a value that passes has the fields of an event
      obtain rfl := parseMessageCreated_eq_ok hparse
      obtain ⟨event, hevent, -⟩ := parseMessageCreated_iff.mp ⟨_, hparse⟩
      simp [Except.toOption, hevent, hparse]

/-- **The marker**: it is there, or it is inserted. -/
theorem insertProcessedEvent_eq_ok {b : Bool} :
    insertProcessedEvent env event s = .ok (b, t) ↔
      ∃ row, MarkerOf env.consumerName event row ∧ row.processedAt = env.now ∧
        ((b = false ∧ t = s ∧ ∃ r ∈ s.database.processed_events, r.key = row.key) ∨
          (b = true ∧ t = s.addProcessedEvent row ∧
            ∀ r ∈ s.database.processed_events, r.key ≠ row.key)) := by
  have hif (row : ProcessedEventRow) :
      (if (s.database.processed_events.any fun r => r.key == row.key) = true then
          (pure false : ConsumerTx Bool)
        else set (s.addProcessedEvent row) >>= fun _ => pure true) s = .ok (b, t) ↔
      (b = false ∧ t = s ∧ ∃ r ∈ s.database.processed_events, r.key = row.key) ∨
        (b = true ∧ t = s.addProcessedEvent row ∧
          ∀ r ∈ s.database.processed_events, r.key ≠ row.key) := by
    -- the conflict is with a row of the same key
    split_ifs with hany
    · have hthere : ∃ r ∈ s.database.processed_events, r.key = row.key := by simpa using hany
      have hnot : ¬ ∀ r ∈ s.database.processed_events, r.key ≠ row.key := by
        simpa using hthere
      simp only [hnot, and_false, or_false, Tx.pure_eq_ok]
      constructor
      · rintro ⟨rfl, rfl⟩
        exact ⟨rfl, rfl, hthere⟩
      · rintro ⟨rfl, rfl, -⟩
        exact ⟨rfl, rfl⟩
    · have hnew : ∀ r ∈ s.database.processed_events, r.key ≠ row.key := by simpa using hany
      have hnot : ¬ ∃ r ∈ s.database.processed_events, r.key = row.key := by simpa using hnew
      simp only [hnot, and_false, false_or, Tx.bind_eq_ok, Tx.set_eq_ok, Tx.pure_eq_ok]
      constructor
      · rintro ⟨-, r, rfl, rfl, rfl⟩
        exact ⟨rfl, rfl, hnew⟩
      · rintro ⟨rfl, rfl, -⟩
        exact ⟨(), _, rfl, rfl, rfl⟩
  unfold insertProcessedEvent
  simp only [Tx.bind_eq_ok, Tx.ofExcept_eq_ok, Tx.ofOption_eq_ok, uuidParam_eq_ok, Tx.get_eq_ok]
  constructor
  · rintro ⟨eventId, _, ⟨hid, rfl⟩, name, _, ⟨hname, rfl⟩, _, _, ⟨rfl, rfl⟩, h⟩
    exact ⟨_, ⟨hname, hid⟩, rfl, (hif _).mp h⟩
  · rintro ⟨⟨name, eventId, at'⟩, ⟨hname, hid⟩, hat, h⟩
    obtain rfl : at' = env.now := hat
    exact ⟨eventId, _, ⟨hid, rfl⟩, name, _, ⟨hname, rfl⟩, _, _, ⟨rfl, rfl⟩, (hif _).mpr h⟩

/-- **The notification**: it is there, or it is inserted. -/
theorem insertNotification_eq_ok :
    insertNotification env event s = .ok ((), t) ↔
      ∃ row, NotificationOf event row ∧ row.id = env.notificationId ∧ row.createdAt = env.now ∧
        ((t = s ∧ ∃ r ∈ s.database.notifications, r.key = row.key) ∨
          (t = s.addNotification row ∧ (∀ r ∈ s.database.notifications, r.key ≠ row.key) ∧
            (∀ r ∈ s.database.notifications, r.id ≠ row.id) ∧
            s.database.hasUser row.recipientId = true ∧
            s.database.hasMessage row.messageId = true)) := by
  have hif (row : NotificationRow) :
      (if (s.database.notifications.any fun r => r.key == row.key) = true then
          (pure () : ConsumerTx Unit)
        else do
          Tx.require (s.database.notifications.any (fun r => r.id == row.id) = false)
            (.database .unique_violation)
          Tx.require (s.database.hasUser row.recipientId = true ∧
            s.database.hasMessage row.messageId = true) (.database .foreign_key_violation)
          set (s.addNotification row)) s = .ok ((), t) ↔
      (t = s ∧ ∃ r ∈ s.database.notifications, r.key = row.key) ∨
        (t = s.addNotification row ∧ (∀ r ∈ s.database.notifications, r.key ≠ row.key) ∧
          (∀ r ∈ s.database.notifications, r.id ≠ row.id) ∧
          s.database.hasUser row.recipientId = true ∧
          s.database.hasMessage row.messageId = true) := by
    -- without a conflict the other constraints of the table are checked
    split_ifs with hany
    · have hthere : ∃ r ∈ s.database.notifications, r.key = row.key := by simpa using hany
      have hnot : ¬ ∀ r ∈ s.database.notifications, r.key ≠ row.key := by simpa using hthere
      simp only [hnot, false_and, and_false, or_false, Tx.pure_eq_ok, true_and]
      constructor
      · rintro rfl
        exact ⟨rfl, hthere⟩
      · rintro ⟨rfl, -⟩
        rfl
    · have hnew : ∀ r ∈ s.database.notifications, r.key ≠ row.key := by simpa using hany
      have hnot : ¬ ∃ r ∈ s.database.notifications, r.key = row.key := by simpa using hnew
      simp only [hnot, and_false, false_or, Tx.bind_eq_ok, Tx.set_eq_ok]
      constructor
      · rintro ⟨⟨⟩, _, hunique, ⟨⟩, _, hforeign, rfl⟩
        obtain ⟨hfree, rfl⟩ := Tx.require_eq_ok.mp hunique
        obtain ⟨hreferenced, rfl⟩ := Tx.require_eq_ok.mp hforeign
        have hid : ∀ r ∈ s.database.notifications, r.id ≠ row.id := by simpa using hfree
        exact ⟨rfl, hnew, hid, hreferenced⟩
      · rintro ⟨rfl, -, hid, hreferenced⟩
        have hfree : (s.database.notifications.any fun r => r.id == row.id) = false := by
          simpa using hid
        exact ⟨(), _, Tx.require_eq_ok.mpr ⟨hfree, rfl⟩, (), _,
          Tx.require_eq_ok.mpr ⟨hreferenced, rfl⟩, rfl⟩
  unfold insertNotification
  simp only [Tx.bind_eq_ok, Tx.ofExcept_eq_ok, uuidParam_eq_ok, Tx.get_eq_ok]
  constructor
  · rintro ⟨recipientId, _, ⟨hr, rfl⟩, messageId, _, ⟨hm, rfl⟩, _, _, ⟨rfl, rfl⟩, h⟩
    exact ⟨⟨env.notificationId, recipientId, messageId, js "message", env.now⟩, ⟨hr, hm, rfl⟩, rfl,
      rfl, (hif _).mp h⟩
  · rintro ⟨⟨id, recipientId, messageId, type, at'⟩, ⟨hr, hm, htype⟩, hid, hat, h⟩
    obtain rfl : type = js "message" := htype
    obtain rfl : id = env.notificationId := hid
    obtain rfl : at' = env.now := hat
    exact ⟨recipientId, _, ⟨hr, rfl⟩, messageId, _, ⟨hm, rfl⟩, _, _, ⟨rfl, rfl⟩, (hif _).mpr h⟩

/-- **A duplicate** is found where there is a marker, and leaves everything as it is. -/
theorem recordEvent_duplicate :
    recordEvent env event s = .ok (.duplicate, t) ↔ t = s ∧
      env.fault .insertProcessedEvent = none ∧
      ∃ row ∈ s.database.processed_events, MarkerOf env.consumerName event row := by
  unfold recordEvent
  rw [Tx.bind_eq_ok]
  simp only [statement_eq_ok, insertProcessedEvent_eq_ok]
  constructor
  -- the first insert finds a marker, or goes on to the second one
  · rintro ⟨inserted, u, ⟨hfault, row, hrow, -, ⟨rfl, rfl, r, hr, hkey⟩ | ⟨rfl, -, -⟩⟩, h⟩
    · obtain ⟨-, rfl⟩ := Tx.pure_eq_ok.mp h
      exact ⟨rfl, hfault, r, hr, hrow.iff_key.mpr hkey⟩
    · obtain ⟨_, _, -, h⟩ := Tx.bind_eq_ok.mp h
      cases (Tx.pure_eq_ok.mp h).1
  · rintro ⟨rfl, hfault, r, hr, hmarker⟩
    exact ⟨false, _, ⟨hfault, { r with processedAt := env.now },
      ⟨hmarker.consumerName, hmarker.eventId⟩, rfl, Or.inl ⟨rfl, rfl, r, hr, rfl⟩⟩, rfl⟩

/-- What is processed is marked anew. -/
theorem recordEvent_processed (h : recordEvent env event s = .ok (.processed, t)) :
    ∃ row, MarkerOf env.consumerName event row ∧ row.processedAt = env.now ∧
      (∀ r ∈ s.database.processed_events, r.key ≠ row.key) ∧
      insertNotification env event (s.addProcessedEvent row) = .ok ((), t) := by
  obtain ⟨inserted, u, hinserted, h⟩ := Tx.bind_eq_ok.mp h
  obtain ⟨-, hinserted⟩ := statement_eq_ok.mp hinserted
  obtain ⟨row, hrow, hat, ⟨rfl, -, -⟩ | ⟨rfl, rfl, hnew⟩⟩ := insertProcessedEvent_eq_ok.mp hinserted
  · cases (Tx.pure_eq_ok.mp h).1
  · obtain ⟨_, v, hnotified, h⟩ := Tx.bind_eq_ok.mp h
    obtain ⟨-, rfl⟩ := Tx.pure_eq_ok.mp h
    exact ⟨row, hrow, hat, hnew, (statement_eq_ok.mp hnotified).2⟩

/-- **What is processed is recorded.** -/
theorem recorded_of_processed (h : recordEvent env event s = .ok (.processed, t)) :
    Recorded env.consumerName event t.database := by
  obtain ⟨row, hrow, -, -, hnotified⟩ := recordEvent_processed h
  -- the notification is there before, or is inserted now
  have hmarked : row ∈ (s.addProcessedEvent row).database.processed_events :=
    List.mem_append_right _ (List.mem_singleton_self row)
  obtain ⟨notification, hof, -, -, ⟨rfl, r, hr, hkey⟩ | ⟨rfl, -⟩⟩ :=
    insertNotification_eq_ok.mp hnotified
  · exact ⟨⟨row, hmarked, hrow⟩, r, hr, hof.iff_key.mpr hkey⟩
  · exact ⟨⟨row, hmarked, hrow⟩, notification,
      List.mem_append_right _ (List.mem_singleton_self notification), hof⟩

/-! ## The handling -/

theorem processing_eq_duplicate {result : Processing} (h : (result == .processed) = false) :
    result = .duplicate := by
  cases result with
  | processed => cases h
  | duplicate => rfl

/-- **When the answer is "duplicate"**: there is a marker, and no step fails until the duplicate is
rolled back. -/
theorem processMessageCreatedEvent_duplicate :
    exec (processMessageCreatedEvent env event) s = (.ok .duplicate, t) ↔ t = s ∧
      (∀ op ∈ [ConsumerOp.connect, .begin, .insertProcessedEvent, .rollbackDuplicate],
        env.fault op = none) ∧
      ∃ row ∈ s.database.processed_events, MarkerOf env.consumerName event row := by
  rw [processMessageCreatedEvent, exec_transactionIf_undone rfl]
  simp only [recordEvent_duplicate, consumerFaults, List.forall_mem_cons, List.not_mem_nil,
    false_implies, implies_true, and_true]
  constructor
  · rintro ⟨rfl, hconnect, hbegin, hundo, _, rfl, hinsert, hmarker⟩
    exact ⟨rfl, ⟨hconnect, hbegin, hinsert, hundo⟩, hmarker⟩
  · rintro ⟨rfl, ⟨hconnect, hbegin, hinsert, hundo⟩, hmarker⟩
    exact ⟨rfl, hconnect, hbegin, hundo, _, rfl, hinsert, hmarker⟩

/-- **How the processing ends**: the event is recorded, or it is a duplicate, or an error is thrown
and nothing is changed. -/
theorem processMessageCreatedEvent_cases {o : Except Thrown Processing}
    (h : exec (processMessageCreatedEvent env event) s = (o, t)) :
    Recorded env.consumerName event t.database ∨ (o = .ok .duplicate) ∨
      (∃ e, o = .error e) ∧ t = s := by
  rcases exec_transactionIf_cases h with ⟨rfl, he⟩ | ⟨a, hkeep, hbody, -⟩ | ⟨a, r, hkeep, -, -, rfl⟩
  · exact Or.inr (Or.inr ⟨he, rfl⟩)
  · -- the transaction is kept even if its COMMIT is not acknowledged
    obtain rfl : a = .processed := eq_of_beq hkeep
    exact Or.inl (recorded_of_processed hbody)
  · rw [processing_eq_duplicate hkeep]
    exact Or.inr (Or.inl rfl)

/-- **How the sending ends**: the text is sent, or an error is thrown, where the text may have been
sent too. -/
theorem publishToDlq_cases {rawValue : JsString} {o : Except Thrown Unit}
    (h : exec (publishToDlq env rawValue) s = (o, t)) :
    (env.producer = true ∧ env.fault .sendDlq = none ∧ o = .ok () ∧
        t = s.addDeadLetter (utf8Encode rawValue)) ∨
      (env.producer = false ∨ env.fault .sendDlq ≠ none) ∧ (∃ e, o = .error e) ∧
        t.database = s.database := by
  unfold publishToDlq at h
  cases hproducer : env.producer with
  | false =>
    -- nothing is sent without a producer
    have hthrows := exec_require_neg (p := env.producer = true) (σ := ConsumerStore)
      (by rw [hproducer]; exact Bool.false_ne_true)
      (.error (js "Kafka producer is unavailable for DLQ publication") : Thrown) s
    rw [exec_bind_error hthrows] at h
    obtain ⟨rfl, rfl⟩ := Prod.mk.inj h
    exact Or.inr ⟨Or.inl rfl, ⟨_, rfl⟩, rfl⟩
  | true =>
    rw [exec_bind_ok (exec_require_pos hproducer _ s)] at h
    rcases exec_effect_cases h with ⟨hfault, rfl, rfl⟩ | ⟨hfault, he, rfl | rfl⟩
    · exact Or.inl ⟨rfl, hfault, rfl, rfl⟩
    -- an error of the producer does not tell whether the topic has the text
    · exact Or.inr ⟨Or.inr hfault, he, rfl⟩
    · exact Or.inr ⟨Or.inr hfault, he, rfl⟩

/-! ## The processing, step by step -/

/-- The tables of the store, as the open transaction of consumer `k` sees them, where no other
consumer has one. -/
structure ConsumerState.HoldsTables (c : ConsumerState) (k : Nat) (s : ConsumerStore) : Prop where
  processed_events : s.database.processed_events =
    c.processed_events ++ openRows k c.openProcessed
  notifications : s.database.notifications = c.notifications ++ openRows k c.openNotifications
  ownProcessed : ∀ r ∈ c.openProcessed, r.1 = k
  ownNotifications : ∀ r ∈ c.openNotifications, r.1 = k

/-- The tables of the store, where no consumer has a transaction open. -/
structure ConsumerState.HoldsSettled (c : ConsumerState) (k : Nat) (s : ConsumerStore) : Prop
    extends c.HoldsTables k s where
  idle : c.phases k = .idle
  openProcessed : c.openProcessed = []
  openNotifications : c.openNotifications = []

section Steps

variable {c : ConsumerState} {k : Nat}

theorem setPhase_phases_self (c : ConsumerState) (k : Nat) (p : ConsumerPhase) :
    (c.setPhase k p).phases k = p := Function.update_self ..

theorem heldByOther_own {α β : Type} [DecidableEq β] {key : α → β} {rows : List (Nat × α)} {b : β}
    (h : ∀ r ∈ rows, r.1 = k) : heldByOther key k rows b = false :=
  heldByOther_eq_false.mpr fun r hr hne => absurd (h r hr) hne

/-- The first insert. -/
theorem consumerStep_marked (db : Database) {row : ProcessedEventRow} (h : c.HoldsTables k s)
    (hphase : c.phases k = .begun env.now event) (hopen : c.openProcessed = [])
    (hrow : MarkerOf env.consumerName event row) (hat : row.processedAt = env.now)
    (hnew : ∀ r ∈ s.database.processed_events, r.key ≠ row.key) :
    ∃ c', consumerStep env.consumerName db c (.insertProcessedEvent k) = some c' ∧
      c'.HoldsTables k (s.addProcessedEvent row) ∧ c'.phases k = .marked env.now event ∧
      c'.openNotifications = c.openNotifications := by
  -- nothing of the consumer's own is open yet
  have hmarkers : c.processed_events = s.database.processed_events := by
    rw [h.processed_events, hopen]
    exact (List.append_nil _).symm
  obtain ⟨name, id, at'⟩ := row
  obtain rfl : at' = env.now := hat
  simp only [consumerStep, stepInsertProcessedEvent, hphase, hrow.consumerName, hrow.eventId,
    Option.bind_some, heldByOther_own h.ownProcessed, hmarkers, Bool.false_eq_true, if_false]
  rw [if_neg (by simpa using hnew)]
  refine ⟨_, rfl, ?_, setPhase_phases_self .., rfl⟩
  constructor
  · show _ = c.processed_events ++ openRows k (c.openProcessed ++ _)
    rw [hmarkers, hopen]
    simp [openRows, ConsumerStore.addProcessedEvent]
  · exact h.notifications
  · show ∀ r ∈ c.openProcessed ++ _, r.1 = k
    simp [hopen]
  · exact h.ownNotifications

/-- The second insert. -/
theorem consumerStep_notified (h : c.HoldsTables k s)
    (hphase : c.phases k = .marked env.now event) (hopen : c.openNotifications = [])
    (hinsert : insertNotification env event s = .ok ((), t)) :
    ∃ c', consumerStep env.consumerName s.database.toDatabase c
        (.insertNotification k env.notificationId) = some c' ∧
      c'.HoldsTables k t ∧ c'.phases k = .notified event := by
  have hnotifications : c.notifications = s.database.notifications := by
    rw [h.notifications, hopen]
    exact (List.append_nil _).symm
  obtain ⟨row, hrow, hid, hat, hcases⟩ := insertNotification_eq_ok.mp hinsert
  obtain ⟨id, recipientId, messageId, type, at'⟩ := row
  obtain rfl : type = js "message" := hrow.type
  obtain rfl : id = env.notificationId := hid
  obtain rfl : at' = env.now := hat
  have hr : Uuid.parse event.data.recipientId = some recipientId := hrow.recipientId
  have hm : Uuid.parse event.data.messageId = some messageId := hrow.messageId
  simp only [consumerStep, stepInsertNotification, hphase, hr, hm, Option.bind_some,
    heldByOther_own h.ownNotifications, hnotifications, Bool.false_eq_true, if_false,
    Bool.or_false]
  -- the insert does nothing where the notification is there
  rcases hcases with ⟨rfl, hthere⟩ | ⟨rfl, hnew, hfree, huser, hmessage⟩
  · rw [if_pos (by simpa using hthere)]
    exact ⟨_, rfl, ⟨h.processed_events, h.notifications, h.ownProcessed, h.ownNotifications⟩,
      setPhase_phases_self ..⟩
  · rw [if_neg (by simpa using hnew), if_neg (by simpa using hfree),
      if_pos (by rw [huser, hmessage]; rfl)]
    refine ⟨_, rfl, ?_, setPhase_phases_self ..⟩
    constructor
    · exact h.processed_events
    · show _ = c.notifications ++ openRows k (c.openNotifications ++ _)
      rw [hnotifications, hopen]
      simp [openRows, ConsumerStore.addNotification]
    · exact h.ownProcessed
    · show ∀ r ∈ c.openNotifications ++ _, r.1 = k
      simp [hopen]

/-- The commit. -/
theorem consumerStep_committed (consumerName : JsString) (db : Database) (h : c.HoldsTables k s)
    (hphase : c.phases k = .notified event) :
    ∃ c', consumerStep consumerName db c (.commit k) = some c' ∧ c'.HoldsSettled k s := by
  -- all that is open is the consumer's own
  have hprocessed : (c.openProcessed.filter fun r => r.1 != k) = [] := by
    simpa using h.ownProcessed
  have hnotifications : (c.openNotifications.filter fun r => r.1 != k) = [] := by
    simpa using h.ownNotifications
  simp only [consumerStep, stepCommit, hphase, ConsumerState.close, hprocessed, hnotifications]
  refine ⟨_, rfl, ?_⟩
  exact {
    processed_events := h.processed_events.trans (List.append_nil _).symm
    notifications := h.notifications.trans (List.append_nil _).symm
    ownProcessed := by simp
    ownNotifications := by simp
    idle := setPhase_phases_self c k .idle
    openProcessed := rfl
    openNotifications := rfl }

/-- **The processing is a run of a consumer** whom no other disturbs: what it leaves in the tables
is what the steps of the consumer leave. -/
theorem processMessageCreatedEvent_steps {o : Except Thrown Processing}
    (hc : c.HoldsSettled k s) (h : exec (processMessageCreatedEvent env event) s = (o, t)) :
    ∃ (actions : List ConsumerAction) (c' : ConsumerState),
      actions.foldlM (consumerStep env.consumerName s.database.toDatabase) c = some c' ∧
        c'.HoldsSettled k t := by
  rcases exec_transactionIf_cases h with ⟨rfl, -⟩ | ⟨a, hkeep, hbody, -⟩ | ⟨a, r, -, -, rfl, -⟩
  · exact ⟨[], c, rfl, hc⟩
  · -- BEGIN, the two inserts and the COMMIT
    obtain rfl : a = .processed := eq_of_beq hkeep
    obtain ⟨row, hrow, hat, hnew, hnotified⟩ := recordEvent_processed hbody
    have hbegin : consumerStep env.consumerName s.database.toDatabase c
        (.begin k env.now event) = some (c.setPhase k (.begun env.now event)) := by
      simp only [consumerStep, hc.idle]
    have hbegun : (c.setPhase k (.begun env.now event)).HoldsTables k s :=
      ⟨hc.processed_events, hc.notifications, hc.ownProcessed, hc.ownNotifications⟩
    obtain ⟨c₁, hstep₁, hc₁, hphase₁, hopen₁⟩ := consumerStep_marked s.database.toDatabase
      hbegun (setPhase_phases_self ..) hc.openProcessed hrow hat hnew
    obtain ⟨c₂, hstep₂, hc₂, hphase₂⟩ := consumerStep_notified hc₁ hphase₁
      (hopen₁.trans hc.openNotifications) hnotified
    obtain ⟨c₃, hstep₃, hc₃⟩ := consumerStep_committed env.consumerName s.database.toDatabase
      hc₂ hphase₂
    refine ⟨[.begin k env.now event, .insertProcessedEvent k,
      .insertNotification k env.notificationId, .commit k], c₃, ?_, hc₃⟩
    have hstep₂' : consumerStep env.consumerName s.database.toDatabase c₁
      (.insertNotification k env.notificationId) = some c₂ := hstep₂
    simp only [List.foldlM_cons, List.foldlM_nil, hbegin, hstep₁, hstep₂', hstep₃,
      Option.bind_eq_bind, Option.bind_some]
    rfl
  · exact ⟨[], c, rfl, hc⟩

end Steps

end MernChat
