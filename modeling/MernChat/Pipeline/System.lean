import MernChat.Chat.SendTransactions
import MernChat.Events.NotificationConsumer
import MernChat.Outbox.System

/-!
# From a message to its notification

Calls of `sendMessage`, relay workers and consumers run side by side. A call looks up the
receiver and the conversation, creates the conversation if there is none, and stores the message
and its outbox event; it may end at any of its statements. What Kafka has accepted is delivered
to the consumers in any order and any number of times.

A creation is one step, as PostgreSQL makes it: the conversation of another call that commits in
the meantime is the one it finds. The two inserts of a store are visible to others when they
commit.

## Main definitions

* `CallPhase`: how far a call of `sendMessage` has come
* `PipelineState`, `pipelineStep`, `pipelineSystem`: the state, the steps, and all runs
* `PipelineStep`: the steps, case by case
* `pipelineRelay`: the relay of a run of the pipeline is a run of the relay

## Main results

* `pipelineStep_cases`: every step is one of the cases
* `storeMessage_of_inserts`: the inserts of a call are those of `storeMessage`
-/

namespace MernChat

open Library

/-- What a deployment configures. -/
structure PipelineSettings where
  relay : Nat → OutboxRelaySettings
  consumerName : JsString
  dateParse : JsString → Option Int

/-- A call of `sendMessage`, with what it draws from its environment. -/
inductive CallPhase
  | idle
  /-- The receiver is there. -/
  | checked (env : SendEnv) (input : SendMessageInput)
  /-- No conversation was found. -/
  | unresolved (env : SendEnv) (input : SendMessageInput)
  | resolved (env : SendEnv) (input : SendMessageInput) (conversation : PostgresConversation)
  /-- After `BEGIN` of the store. -/
  | begun (env : SendEnv) (input : SendMessageInput) (conversation : PostgresConversation)
  | messageInserted (env : SendEnv) (input : SendMessageInput)
    (conversation : PostgresConversation) (row : MessageRow)
  /-- The outbox event is inserted too. -/
  | stored (row : MessageRow)

/-- The message a call has inserted, which is not visible yet. -/
def CallPhase.message : CallPhase → Option MessageRow
  | .messageInserted _ _ _ row | .stored row => some row
  | _ => none

/-- The conversation a call sends its message to. -/
def CallPhase.conversation : CallPhase → Option (SendMessageInput × PostgresConversation)
  | .resolved _ input conversation | .begun _ input conversation
  | .messageInserted _ input conversation _ => some (input, conversation)
  | _ => none

/-- The shared state; the outbox is that of the relay. -/
structure PipelineState where
  users : List UserRow
  conversations : List ConversationRow
  conversation_members : List MemberRow
  messages : List MessageRow
  issuedMessageIds : List Uuid
  calls : Nat → CallPhase
  relay : RelayState
  consumers : ConsumerState

namespace PipelineState

/-- The empty tables at time `now`. -/
def empty (now : Int) : PipelineState where
  users := []
  conversations := []
  conversation_members := []
  messages := []
  issuedMessageIds := []
  calls := fun _ => .idle
  relay := .empty now
  consumers := .empty

/-- The tables as a statement sees them. -/
def database (s : PipelineState) : Database where
  users := s.users
  conversations := s.conversations
  conversation_members := s.conversation_members
  messages := s.messages
  outbox_events := s.relay.rows

/-- The tables after statements that do not insert messages. -/
def withTables (s : PipelineState) (db : Database) : PipelineState :=
  { s with
    users := db.users
    conversations := db.conversations
    conversation_members := db.conversation_members }

def setCall (s : PipelineState) (k : Nat) (p : CallPhase) : PipelineState :=
  { s with calls := Function.update s.calls k p }

@[simp] theorem setCall_calls_self (s : PipelineState) (k : Nat) (p : CallPhase) :
    (s.setCall k p).calls k = p := Function.update_self ..

theorem setCall_calls_of_ne (s : PipelineState) {j k : Nat} (hj : j ≠ k) (p : CallPhase) :
    (s.setCall k p).calls j = s.calls j := Function.update_of_ne hj _ _

end PipelineState

inductive PipelineAction
  | createUser (row : UserRow)
  | checkReceiver (k : Nat) (env : SendEnv) (input : SendMessageInput)
  | findConversation (k : Nat)
  | createConversation (k : Nat)
  | beginStore (k : Nat)
  | insertMessage (k : Nat)
  | insertOutboxEvent (k : Nat)
  | commitStore (k : Nat)
  /-- The call throws; an open transaction is rolled back. -/
  | fail (k : Nat)
  /-- A step of a relay worker, or of the clock. -/
  | relay (a : RelayAction)
  /-- A consumer begins with an event that Kafka has accepted. -/
  | deliver (k : Nat) (event : OutboxEvent)
  | consume (a : ConsumerAction)

/-- The sender that takes a step. -/
def RelayAction.sender : RelayAction → Option Nat
  | .beginTx tx | .insertOutbox tx _ | .commitTx tx | .abortTx tx => some tx
  | _ => none

/-- A consumer begins with what is delivered. -/
def ConsumerAction.isBegin : ConsumerAction → Bool
  | .begin _ _ _ => true
  | _ => false

/-- The input of `insertOutboxEvent` for a message inserted. -/
def outboxInput (env : SendEnv) (input : SendMessageInput) (conversation : PostgresConversation)
    (row : MessageRow) : Option OutboxInsertInput := do
  let newMessage := mapMessage row
  let createdAt ← toISOString newMessage.createdAt
  let occurredAt ← toISOString (timeClip env.dateNow)
  return messageInsert env.eventId.toText occurredAt
    { messageId := newMessage.id
      conversationId := conversation.id
      senderId := input.senderId
      recipientId := input.receiverId
      createdAt
      correlationId := input.correlationId }

section Steps

variable (settings : PipelineSettings) (s : PipelineState)

/-- `findUserById` of the receiver, and the checks before and after it. -/
def stepCheckReceiver (k : Nat) (env : SendEnv) (input : SendMessageInput) :
    Option PipelineState :=
  match s.calls k with
  | .idle =>
    if input.senderId = input.receiverId then none
    else
      match findUserById input.receiverId s.database with
      | .ok (some _, _) => some (s.setCall k (.checked env input))
      | _ => none
  | _ => none

def stepFindConversation (k : Nat) : Option PipelineState :=
  match s.calls k with
  | .checked env input =>
    match findDirectConversation input.senderId input.receiverId s.database with
    | .ok (some conversation, _) => some (s.setCall k (.resolved env input conversation))
    | .ok (none, _) => some (s.setCall k (.unresolved env input))
    | .error _ => none
  | _ => none

/-- `createDirectConversation`, with its failures. -/
def stepCreateConversation (k : Nat) : Option PipelineState :=
  match s.calls k with
  | .unresolved env input =>
    match exec (createDirectConversation { env with createAt := s.relay.now } input.senderId
        input.receiverId) s.database with
    | (.ok conversation, db) =>
      some ((s.withTables db).setCall k (.resolved env input conversation))
    | (.error _, db) => some ((s.withTables db).setCall k .idle)
  | _ => none

def stepBeginStore (k : Nat) : Option PipelineState :=
  match s.calls k with
  | .resolved env input conversation =>
    (relayStep settings.relay s.relay (.beginTx k)).map fun relay =>
      { s.setCall k (.begun env input conversation) with relay }
  | _ => none

/-- `createMessageWithClient`, with an id that was not drawn before. -/
def stepInsertMessage (k : Nat) : Option PipelineState :=
  match s.calls k, s.relay.senders k with
  | .begun env input conversation, .begun startedAt =>
    if s.issuedMessageIds.contains env.messageId then none
    else
      -- the row is in the transaction, and in no table before the commit
      match insertMessage env.messageId.toText conversation.id input.senderId (trim input.message)
          startedAt s.database with
      | .ok (row, _) =>
        some { s.setCall k (.messageInserted env input conversation row) with
          issuedMessageIds := env.messageId :: s.issuedMessageIds }
      | .error _ => none
  | _, _ => none

def stepInsertOutboxEvent (k : Nat) : Option PipelineState :=
  match s.calls k with
  | .messageInserted env input conversation row =>
    (outboxInput env input conversation row).bind fun outbox =>
      (relayStep settings.relay s.relay (.insertOutbox k outbox)).map fun relay =>
        { s.setCall k (.stored row) with relay }
  | _ => none

def stepCommitStore (k : Nat) : Option PipelineState :=
  match s.calls k with
  | .stored row =>
    (relayStep settings.relay s.relay (.commitTx k)).map fun relay =>
      { s.setCall k .idle with relay, messages := s.messages ++ [row] }
  | _ => none

/-- `eachMessage`: an event that fails its checks goes to the dead-letter topic. -/
def stepDeliver (k : Nat) (event : OutboxEvent) : Option PipelineState :=
  if s.relay.accepted.contains event && (kafkaRecord event).topic == MESSAGE_CREATED_TOPIC then
    match parseMessageCreatedEvent settings.dateParse (kafkaRecord event).value with
    | .ok value =>
      (consumerStep settings.consumerName s.database s.consumers
        (.begin k s.relay.now value)).map fun consumers => { s with consumers }
    | .error _ => none
  else none

/-- **The steps of the pipeline.** -/
def pipelineStep : PipelineAction → Option PipelineState
  | .createUser row =>
    match insertUser row s.database with
    | .ok (_, db) => some (s.withTables db)
    | .error _ => none
  | .checkReceiver k env input => stepCheckReceiver s k env input
  | .findConversation k => stepFindConversation s k
  | .createConversation k => stepCreateConversation s k
  | .beginStore k => stepBeginStore settings s k
  | .insertMessage k => stepInsertMessage s k
  | .insertOutboxEvent k => stepInsertOutboxEvent settings s k
  | .commitStore k => stepCommitStore settings s k
  | .fail k =>
    (relayStep settings.relay s.relay (.abortTx k)).map fun relay =>
      { s.setCall k .idle with relay }
  | .relay a =>
    -- the steps of a sender are those of the calls above
    if a.sender = none then
      (relayStep settings.relay s.relay a).map fun relay => { s with relay }
    else none
  | .deliver k event => stepDeliver settings s k event
  | .consume a =>
    -- a consumer begins with a delivery
    if a.isBegin then none
    else (consumerStep settings.consumerName s.database s.consumers a).map fun consumers =>
      { s with consumers }

end Steps

/-- The runs of the pipeline from the empty tables. -/
def pipelineSystem (settings : PipelineSettings) :
    TransitionSystem PipelineState PipelineAction where
  init s := ∃ now, s = PipelineState.empty now
  step := pipelineStep settings

/-! ## The steps, case by case -/

/-- The steps of the pipeline, one case for each way a statement can go. -/
inductive PipelineStep (settings : PipelineSettings) (s : PipelineState) :
    PipelineAction → PipelineState → Prop
  | createUser {row db} (h : insertUser row s.database = .ok ((), db)) :
    PipelineStep settings s (.createUser row) (s.withTables db)
  | checkReceiver {k env input} :
    PipelineStep settings s (.checkReceiver k env input) (s.setCall k (.checked env input))
  | foundConversation {k env input conversation} (hp : s.calls k = .checked env input)
    (h : findDirectConversation input.senderId input.receiverId s.database =
      .ok (some conversation, s.database)) :
    PipelineStep settings s (.findConversation k)
      (s.setCall k (.resolved env input conversation))
  | noConversation {k env input} :
    PipelineStep settings s (.findConversation k) (s.setCall k (.unresolved env input))
  | createdConversation {k env input conversation db} (hp : s.calls k = .unresolved env input)
    (h : exec (createDirectConversation { env with createAt := s.relay.now } input.senderId
      input.receiverId) s.database = (.ok conversation, db)) :
    PipelineStep settings s (.createConversation k)
      ((s.withTables db).setCall k (.resolved env input conversation))
  | creationFailed {k env input error db} (hp : s.calls k = .unresolved env input)
    (h : exec (createDirectConversation { env with createAt := s.relay.now } input.senderId
      input.receiverId) s.database = (.error error, db)) :
    PipelineStep settings s (.createConversation k) ((s.withTables db).setCall k .idle)
  | beginStore {k env input conversation relay} (hp : s.calls k = .resolved env input conversation)
    (hr : relayStep settings.relay s.relay (.beginTx k) = some relay) :
    PipelineStep settings s (.beginStore k)
      { s.setCall k (.begun env input conversation) with relay }
  | insertMessage {k env input conversation startedAt row db}
    (hp : s.calls k = .begun env input conversation)
    (hfresh : env.messageId ∉ s.issuedMessageIds)
    (h : MernChat.insertMessage env.messageId.toText conversation.id input.senderId
      (trim input.message) startedAt s.database = .ok (row, db)) :
    PipelineStep settings s (.insertMessage k)
      { s.setCall k (.messageInserted env input conversation row) with
        issuedMessageIds := env.messageId :: s.issuedMessageIds }
  | insertOutboxEvent {k env input conversation row outbox relay}
    (hp : s.calls k = .messageInserted env input conversation row)
    (ho : outboxInput env input conversation row = some outbox)
    (hr : relayStep settings.relay s.relay (.insertOutbox k outbox) = some relay) :
    PipelineStep settings s (.insertOutboxEvent k) { s.setCall k (.stored row) with relay }
  | commitStore {k row relay} (hp : s.calls k = .stored row)
    (hr : relayStep settings.relay s.relay (.commitTx k) = some relay) :
    PipelineStep settings s (.commitStore k)
      { s.setCall k .idle with relay, messages := s.messages ++ [row] }
  | fail {k relay} (hr : relayStep settings.relay s.relay (.abortTx k) = some relay) :
    PipelineStep settings s (.fail k) { s.setCall k .idle with relay }
  | relay {a relay} (ha : a.sender = none) (hr : relayStep settings.relay s.relay a = some relay) :
    PipelineStep settings s (.relay a) { s with relay }
  | deliver {k event consumers} (he : event ∈ s.relay.accepted)
    (hc : ConsumerStep settings.consumerName s.consumers
      (.begin k s.relay.now event.payload) consumers) :
    PipelineStep settings s (.deliver k event) { s with consumers }
  | consume {a consumers} (ha : a.isBegin = false)
    (hc : ConsumerStep settings.consumerName s.consumers a consumers) :
    PipelineStep settings s (.consume a) { s with consumers }

variable {settings : PipelineSettings} {s s' : PipelineState}

/-- **Every step is one of the cases.** -/
theorem pipelineStep_cases {a : PipelineAction} (h : pipelineStep settings s a = some s') :
    PipelineStep settings s a s' := by
  cases a with
  | createUser row =>
    simp only [pipelineStep] at h
    split at h
    · obtain rfl := Option.some.inj h
      exact .createUser ‹_›
    · cases h
  | checkReceiver k env input =>
    simp only [pipelineStep, stepCheckReceiver] at h
    split at h
    · split_ifs at h
      split at h
      · obtain rfl := Option.some.inj h
        exact .checkReceiver
      · cases h
    · cases h
  | findConversation k =>
    simp only [pipelineStep, stepFindConversation] at h
    split at h
    · split at h
      · next hfind =>
        obtain rfl := Option.some.inj h
        obtain ⟨_, _, _, _, _, rfl⟩ := selectDirectConversation_eq_ok.mp hfind
        exact .foundConversation ‹_› hfind
      · obtain rfl := Option.some.inj h
        exact .noConversation
      · cases h
    · cases h
  | createConversation k =>
    simp only [pipelineStep, stepCreateConversation] at h
    split at h
    · split at h <;> obtain rfl := Option.some.inj h
      · exact .createdConversation ‹_› ‹_›
      · exact .creationFailed ‹_› ‹_›
    · cases h
  | beginStore k =>
    simp only [pipelineStep, stepBeginStore] at h
    split at h
    · obtain ⟨relay, hr, rfl⟩ := Option.map_eq_some_iff.mp h
      exact .beginStore ‹_› hr
    · cases h
  | insertMessage k =>
    simp only [pipelineStep, stepInsertMessage] at h
    split at h
    · split_ifs at h with hfresh
      split at h
      · obtain rfl := Option.some.inj h
        exact .insertMessage ‹_› (by simpa using hfresh) ‹_›
      · cases h
    · cases h
  | insertOutboxEvent k =>
    simp only [pipelineStep, stepInsertOutboxEvent] at h
    split at h
    · obtain ⟨outbox, ho, h⟩ := Option.bind_eq_some_iff.mp h
      obtain ⟨relay, hr, rfl⟩ := Option.map_eq_some_iff.mp h
      exact .insertOutboxEvent ‹_› ho hr
    · cases h
  | commitStore k =>
    simp only [pipelineStep, stepCommitStore] at h
    split at h
    · obtain ⟨relay, hr, rfl⟩ := Option.map_eq_some_iff.mp h
      exact .commitStore ‹_› hr
    · cases h
  | fail k =>
    simp only [pipelineStep] at h
    obtain ⟨relay, hr, rfl⟩ := Option.map_eq_some_iff.mp h
    exact .fail hr
  | relay a =>
    simp only [pipelineStep] at h
    split_ifs at h with ha
    obtain ⟨relay, hr, rfl⟩ := Option.map_eq_some_iff.mp h
    exact .relay ha hr
  | deliver k event =>
    simp only [pipelineStep, stepDeliver] at h
    split_ifs at h with he
    rw [Bool.and_eq_true, List.contains_iff_mem] at he
    split at h
    · next value hparse =>
      obtain ⟨consumers, hc, rfl⟩ := Option.map_eq_some_iff.mp h
      -- the consumer reads the payload that the relay has sent
      obtain rfl := parseMessageCreatedEvent_eq_ok hparse
      exact .deliver he.1 (consumerStep_cases hc)
    · cases h
  | consume a =>
    simp only [pipelineStep] at h
    split_ifs at h with ha
    obtain ⟨consumers, hc, rfl⟩ := Option.map_eq_some_iff.mp h
    exact .consume (by simpa using ha) (consumerStep_cases hc)

/-! ## The relay of a run -/

/-- The relay's part in a step. -/
def relayAction (s : PipelineState) : PipelineAction → Option RelayAction
  | .beginStore k => some (.beginTx k)
  | .insertOutboxEvent k =>
    match s.calls k with
    | .messageInserted env input conversation row =>
      (outboxInput env input conversation row).map (.insertOutbox k)
    | _ => none
  | .commitStore k => some (.commitTx k)
  | .fail k => some (.abortTx k)
  | .relay a => some a
  | _ => none

/-- **The relay of a run of the pipeline** is that of a run of the relay. -/
def pipelineRelay (settings : PipelineSettings) :
    Simulation (pipelineSystem settings) (relaySystem settings.relay) where
  state := PipelineState.relay
  action := relayAction
  init := by
    rintro s ⟨now, rfl⟩
    exact ⟨now, rfl⟩
  visible s a t b h hb := by
    have hstep := pipelineStep_cases h
    cases hstep with
    | beginStore hp hr | commitStore hp hr | fail hr | relay ha hr =>
      obtain rfl := Option.some.inj hb
      exact hr
    | insertOutboxEvent hp ho hr =>
      simp only [relayAction, hp, ho, Option.map_some, Option.some.injEq] at hb
      subst hb
      exact hr
    | _ => cases hb
  silent s a t h hb := by
    have hstep := pipelineStep_cases h
    cases hstep with
    | beginStore hp hr | commitStore hp hr | fail hr | relay ha hr => cases hb
    | insertOutboxEvent hp ho hr => simp [relayAction, hp, ho] at hb
    | _ => rfl

/-! ## The store of a call -/

/-- **The two inserts of a call** are the transaction `storeMessage` with the number and the time
they draw. -/
theorem storeMessage_of_inserts {env : SendEnv} {input : SendMessageInput} {c : ConversationRow}
    {db db' : Database} {startedAt : Int} {row : MessageRow} {outbox : OutboxInsertInput}
    {n : Nat} {r : OutboxRow} (hfault : ∀ op, env.fault op = none)
    (hrow : insertMessage env.messageId.toText (mapConversation c).id input.senderId
      (trim input.message) startedAt db = .ok (row, db'))
    (ho : outboxInput env input (mapConversation c) row = some outbox)
    (hr : insertOutboxEvent outbox n startedAt = some r) (hfresh : db.hasOutboxEvent r = false) :
    storeMessage { env with storeAt := startedAt, sequenceNumber := n } input
      (mapConversation c) db = .ok (mapMessage row, db.withMessage row r) := by
  obtain ⟨id, d, u, content, hid, hd, hu, ht, hmes, hc, huser, rfl, -⟩ :=
    insertMessage_eq_ok.mp hrow
  -- the ids are printed for the statements, which read them back
  obtain rfl := Option.some.inj ((Uuid.parse_toText _).symm.trans hid)
  obtain rfl := Option.some.inj ((Uuid.parse_toText _).symm.trans hd)
  simp only [outboxInput, Option.bind_eq_bind, Option.bind_eq_some_iff] at ho
  obtain ⟨createdAt, hcreated, occurredAt, hoccurred, ho⟩ := ho
  obtain rfl := Option.some.inj ho
  apply (storeMessage_eq_ok hc).mpr
  refine ⟨hfault _, hfault _, _, r, ?_, rfl, rfl⟩
  exact ⟨⟨u, content, hu, huser, ht, rfl⟩, hmes, ⟨createdAt, occurredAt, hcreated, hoccurred, hr⟩,
    hfresh⟩

end MernChat
