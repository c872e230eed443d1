import MernChat.Chat.Atomicity
import MernChat.Events.NotificationTables
import MernChat.Outbox.Invariants
import MernChat.Pipeline.System

/-!
# Notifications of messages

The event of a message is stored with it, names it, and names the other member of its
conversation as the recipient. Events keep their envelope on their way through the outbox and
Kafka, so that whatever is delivered to a consumer announces a message that is stored.

## Main definitions

* `Announces`: an event that names a message and the other member of its conversation
* `PipelineState.Consistent`: the invariant of the pipeline
* `NotificationSafety`: what notifications are, in a state

## Main results

* `consistent_of_reachable`
* `notification_safety`: every reachable state is safe, and its tables are those of the set of
  events processed
-/

namespace MernChat

open Library Library.TransitionSystem

variable {settings : PipelineSettings} {s s' : PipelineState}

/-! ## Messages and their events -/

/-- The row is that of a message from the sender to the conversation. -/
structure MessageOf (input : SendMessageInput) (conversation : PostgresConversation)
    (row : MessageRow) : Prop where
  conversationId : Uuid.parse conversation.id = some row.conversationId
  senderId : Uuid.parse input.senderId = some row.senderId

/-- The event names the message, and the other member of its conversation. -/
structure Announces (conversations : List ConversationRow) (event : MessageCreatedEvent)
    (m : MessageRow) : Prop where
  messageId : Uuid.parse event.data.messageId = some m.id
  recipient : ∃ c ∈ conversations, c.id = m.conversationId ∧
    ∃ v, Uuid.parse event.data.recipientId = some v ∧ c.isBetween m.senderId v = true

/-- The outbox row holds the event of the message, under the id of the event. -/
structure EventRow (conversations : List ConversationRow) (r : OutboxRow) (m : MessageRow) :
    Prop where
  eventId : Uuid.parse r.payload.eventId = some r.id
  announces : Announces conversations r.payload m

theorem EventRow.mono {cs cs' : List ConversationRow} (hsub : ∀ c ∈ cs, c ∈ cs') {r : OutboxRow}
    {m : MessageRow} (h : EventRow cs r m) : EventRow cs' r m := by
  obtain ⟨c, hc, hrecipient⟩ := h.announces.recipient
  exact ⟨h.eventId, h.announces.messageId, c, hsub c hc, hrecipient⟩

/-- Updates of a row keep its event. -/
theorem EventRow.update {cs : List ConversationRow} {r r' : OutboxRow} {m : MessageRow}
    (h : EventRow cs r m) (hu : RowUpdate r r') : EventRow cs r' m := by
  refine ⟨?_, ?_⟩
  · rw [hu.payload, hu.id]
    exact h.eventId
  · rw [hu.payload]
    exact h.announces

/-- The event inserted for a message announces it. -/
theorem EventRow.of_insert {cs : List ConversationRow} {env : SendEnv} {input : SendMessageInput}
    {conversation : PostgresConversation} {m : MessageRow} {outbox : OutboxInsertInput}
    (hresolved : Resolved cs input conversation) (hm : MessageOf input conversation m)
    (ho : outboxInput env input conversation m = some outbox) {n : Nat} {now : Int}
    {r : OutboxRow} (hr : FreshRow outbox n now r) : EventRow cs r m := by
  simp only [outboxInput, Option.bind_eq_bind, Option.bind_eq_some_iff] at ho
  obtain ⟨createdAt, -, occurredAt, -, ho⟩ := ho
  obtain rfl := Option.some.inj ho
  obtain ⟨c, hc, rfl, u, v, hu, hv, hbetween⟩ := hresolved
  have hid : c.id = m.conversationId :=
    Option.some.inj ((Uuid.parse_toText c.id).symm.trans hm.conversationId)
  have hsender : u = m.senderId := Option.some.inj (hu.symm.trans hm.senderId)
  refine ⟨?_, ?_, c, hc, hid, v, ?_, hsender ▸ hbetween⟩
  · rw [hr.payload]
    exact hr.id
  · rw [hr.payload]
    exact Uuid.parse_toText m.id
  · rw [hr.payload]
    exact hv

/-! ## The invariant -/

/-- The events stored. -/
def PipelineState.IsEvent (s : PipelineState) (e : MessageCreatedEvent) : Prop :=
  ∃ r ∈ s.relay.rows, r.payload = e

/-- **The invariant of the pipeline**: calls have resolved the conversation of their users, a
message is stored once and with its event, and the consumers hold rows of events stored. -/
structure PipelineState.Consistent (settings : PipelineSettings) (s : PipelineState) : Prop where
  tables : s.database.WellFormed
  resolved : ∀ k input conversation, (s.calls k).conversation = some (input, conversation) →
    Resolved s.conversations input conversation
  inserted : ∀ k env input conversation row,
    s.calls k = .messageInserted env input conversation row → MessageOf input conversation row
  stored : ∀ k row, s.calls k = .stored row →
    ∃ r, s.relay.senders k = .inserted r ∧ EventRow s.conversations r row
  issued : ∀ m ∈ s.messages, m.id ∈ s.issuedMessageIds
  hidden : ∀ k m, (s.calls k).message = some m →
    m.id ∈ s.issuedMessageIds ∧ ∀ m' ∈ s.messages, m'.id ≠ m.id
  distinct : ∀ k k' m m', (s.calls k).message = some m → (s.calls k').message = some m' →
    m.id = m'.id → k = k'
  events : ∀ r ∈ s.relay.rows, ∃ m ∈ s.messages, EventRow s.conversations r m
  messageIds : (s.relay.rows.map fun r => Uuid.parse r.payload.data.messageId).Nodup
  consumers : s.consumers.Consistent settings.consumerName s.IsEvent

/-- Events are told apart by their ids and by their messages. -/
theorem PipelineState.Consistent.uniqueEvents (h : s.Consistent settings)
    (hr : s.relay.WellFormed) : UniqueEvents s.IsEvent where
  eventId e e' he he' heq := by
    obtain ⟨r, hmem, rfl⟩ := he
    obtain ⟨r', hmem', rfl⟩ := he'
    obtain ⟨m, -, hm⟩ := h.events r hmem
    obtain ⟨m', -, hm'⟩ := h.events r' hmem'
    rw [hm.eventId, hm'.eventId] at heq
    rw [hr.eq_of_id hmem hmem' (Option.some.inj heq)]
  messageId e e' he he' heq := by
    obtain ⟨r, hmem, rfl⟩ := he
    obtain ⟨r', hmem', rfl⟩ := he'
    rw [eq_of_key h.messageIds hmem hmem' heq]

namespace PipelineState.Consistent

/-! ### Parts of steps -/

/-- A call moves to a phase that fits the state. -/
theorem setCall (h : s.Consistent settings) {k : Nat} {p : CallPhase}
    (hresolved : ∀ input conversation, p.conversation = some (input, conversation) →
      Resolved s.conversations input conversation)
    (hinserted : ∀ env input conversation row,
      p = .messageInserted env input conversation row → MessageOf input conversation row)
    (hstored : ∀ row, p = .stored row →
      ∃ r, s.relay.senders k = .inserted r ∧ EventRow s.conversations r row)
    (hmessage : ∀ m, p.message = some m → m.id ∈ s.issuedMessageIds ∧
      (∀ m' ∈ s.messages, m'.id ≠ m.id) ∧
        ∀ j m', (s.calls j).message = some m' → m'.id = m.id → j = k) :
    (s.setCall k p).Consistent settings where
  tables := h.tables
  resolved j input conversation hj := by
    simp only [PipelineState.setCall, Function.update_apply] at hj
    split_ifs at hj with hjk
    · exact hresolved input conversation hj
    · exact h.resolved j input conversation hj
  inserted j env input conversation row hj := by
    simp only [PipelineState.setCall, Function.update_apply] at hj
    split_ifs at hj with hjk
    · exact hinserted env input conversation row hj
    · exact h.inserted j env input conversation row hj
  stored j row hj := by
    simp only [PipelineState.setCall, Function.update_apply] at hj
    split_ifs at hj with hjk
    · rw [hjk]
      exact hstored row hj
    · exact h.stored j row hj
  issued := h.issued
  hidden j m hj := by
    simp only [PipelineState.setCall, Function.update_apply] at hj
    split_ifs at hj with hjk
    · exact ⟨(hmessage m hj).1, (hmessage m hj).2.1⟩
    · exact h.hidden j m hj
  distinct i j m m' hi hj heq := by
    simp only [PipelineState.setCall, Function.update_apply] at hi hj
    -- two calls of one message: both, one or neither is the call that moves
    split_ifs at hi hj with hik hjk hjk
    · rw [hik, hjk]
    · rw [hik, (hmessage m hi).2.2 j m' hj heq.symm]
    · rw [hjk, (hmessage m' hj).2.2 i m hi heq]
    · exact h.distinct i j m m' hi hj heq
  events := h.events
  messageIds := h.messageIds
  consumers := h.consumers

/-- A call moves to a phase without a message of its own. -/
theorem setCall_of_message_none (h : s.Consistent settings) {k : Nat} {p : CallPhase}
    (hresolved : ∀ input conversation, p.conversation = some (input, conversation) →
      Resolved s.conversations input conversation) (hp : p.message = none) :
    (s.setCall k p).Consistent settings := by
  apply h.setCall hresolved
  · rintro env input conversation row rfl
    cases hp
  · rintro row rfl
    cases hp
  · intro m hm
    rw [hp] at hm
    cases hm

/-- Users and conversations are added. -/
theorem withTables (h : s.Consistent settings) {db : Database} (hw : db.WellFormed)
    (hsub : ∀ c ∈ s.conversations, c ∈ db.conversations) :
    (s.withTables db).Consistent settings where
  tables := ⟨⟨hw.userIds, hw.conversationIds, hw.pairs, hw.canonical, hw.belongs⟩, hw.members⟩
  resolved k input conversation hk := (h.resolved k input conversation hk).mono hsub
  inserted := h.inserted
  stored k row hk := by
    obtain ⟨r, hr, hrow⟩ := h.stored k row hk
    exact ⟨r, hr, hrow.mono hsub⟩
  issued := h.issued
  hidden := h.hidden
  distinct := h.distinct
  events r hr := by
    obtain ⟨m, hm, hrow⟩ := h.events r hr
    exact ⟨m, hm, hrow.mono hsub⟩
  messageIds := h.messageIds
  consumers := h.consumers

theorem withConsumers (h : s.Consistent settings) {consumers : ConsumerState}
    (hc : consumers.Consistent settings.consumerName s.IsEvent) :
    ({ s with consumers } : PipelineState).Consistent settings :=
  { h with consumers := hc }

/-! ### Steps of the relay -/

/-- A step moves no sender but the one that takes it. -/
theorem senders_eq {a : RelayAction} {relay : RelayState}
    (hr : RelayStep settings.relay s.relay a relay) {k : Nat} (hk : a.sender ≠ some k) :
    relay.senders k = s.relay.senders k := by
  cases hr <;> first
    | rfl
    | exact Function.update_of_ne (fun hkk => hk (congrArg some hkk.symm)) _ _

/-- Events stay stored. -/
theorem isEvent_of_relayStep {a : RelayAction} {relay : RelayState}
    (hr : RelayStep settings.relay s.relay a relay) {e : MessageCreatedEvent} (he : s.IsEvent e) :
    ∃ r ∈ relay.rows, r.payload = e := by
  obtain ⟨r, hmem, rfl⟩ := he
  exact ⟨_, hr.row_kept hmem, (rowEffect_rowUpdate r).payload⟩

/-- The relay takes a step that makes no row visible. -/
theorem withRelay (h : s.Consistent settings) {a : RelayAction} {relay : RelayState}
    (hr : RelayStep settings.relay s.relay a relay) (hc : committedBy s.relay a = [])
    (ha : ∀ k row, s.calls k = .stored row → a.sender ≠ some k) :
    ({ s with relay } : PipelineState).Consistent settings where
  tables := ⟨⟨h.tables.userIds, h.tables.conversationIds, h.tables.pairs, h.tables.canonical,
    h.tables.belongs⟩, h.tables.members⟩
  resolved := h.resolved
  inserted := h.inserted
  stored k row hk := by
    obtain ⟨r, hsender, hrow⟩ := h.stored k row hk
    refine ⟨r, ?_, hrow⟩
    rw [← hsender]
    exact senders_eq hr (ha k row hk)
  issued := h.issued
  hidden := h.hidden
  distinct := h.distinct
  events r hmem := by
    have hmem' : r ∈ relay.rows := hmem
    -- no row is new, and a row that was there keeps its event
    rw [hr.rows_eq, hc, List.append_nil, List.mem_map] at hmem'
    obtain ⟨r₀, hr₀, rfl⟩ := hmem'
    obtain ⟨m, hm, hrow⟩ := h.events r₀ hr₀
    exact ⟨m, hm, hrow.update (rowEffect_rowUpdate r₀)⟩
  messageIds := by
    show (relay.rows.map fun r => Uuid.parse r.payload.data.messageId).Nodup
    rw [hr.rows_eq, hc, List.append_nil, map_key_map]
    · exact h.messageIds
    · intro r
      rw [(rowEffect_rowUpdate r).payload]
  consumers := h.consumers.mono fun e he => isEvent_of_relayStep hr he

/-- **The commit of a store** makes the message and its event visible together. -/
theorem commitStore (h : s.Consistent settings) {k : Nat} {row : MessageRow} {relay : RelayState}
    (hp : s.calls k = .stored row) (hr : RelayStep settings.relay s.relay (.commitTx k) relay) :
    ({ s.setCall k .idle with relay, messages := s.messages ++ [row] } : PipelineState).Consistent
      settings := by
  obtain ⟨r, hsender, hrow⟩ := h.stored k row hp
  have hmessage : (s.calls k).message = some row := by
    rw [hp]
    rfl
  have hrows : relay.rows = s.relay.rows.map (rowEffect settings.relay s.relay (.commitTx k)) ++
      [r] := by
    rw [hr.rows_eq]
    simp only [committedBy, hsender]
  -- the phases of the others are theirs from before
  have hother : ∀ j (m : MessageRow), ((s.setCall k .idle).calls j).message = some m →
      j ≠ k ∧ (s.calls j).message = some m := by
    intro j m hj
    by_cases hjk : j = k
    · rw [hjk, PipelineState.setCall_calls_self] at hj
      cases hj
    · exact ⟨hjk, s.setCall_calls_of_ne hjk .idle ▸ hj⟩
  have hidle := h.setCall_of_message_none (k := k) (p := .idle) (by intro i c hic; cases hic) rfl
  constructor
  case tables =>
    exact ⟨⟨h.tables.userIds, h.tables.conversationIds, h.tables.pairs, h.tables.canonical,
      h.tables.belongs⟩, h.tables.members⟩
  case resolved => exact hidle.resolved
  case inserted => exact hidle.inserted
  case stored =>
    intro j row' hj
    have hjk : j ≠ k := (hother j row' (by rw [hj]; rfl)).1
    obtain ⟨r', hsender', hrow'⟩ := h.stored j row' (s.setCall_calls_of_ne hjk .idle ▸ hj)
    refine ⟨r', ?_, hrow'⟩
    rw [← hsender']
    exact senders_eq hr fun hkj => hjk (Option.some.inj hkj).symm
  case issued =>
    intro m hm
    rcases List.mem_append.mp hm with hm | hm
    · exact h.issued m hm
    · rw [List.mem_singleton.mp hm]
      exact (h.hidden k row hmessage).1
  case hidden =>
    intro j m hj
    obtain ⟨hjk, hj⟩ := hother j m hj
    refine ⟨(h.hidden j m hj).1, ?_⟩
    intro m' hm'
    rcases List.mem_append.mp hm' with hm' | hm'
    · exact (h.hidden j m hj).2 m' hm'
    · rw [List.mem_singleton.mp hm']
      exact fun heq => hjk (h.distinct j k m row hj hmessage heq.symm)
  case distinct => exact hidle.distinct
  case events =>
    intro r' hr'
    have hmem : r' ∈ relay.rows := hr'
    rw [hrows, List.mem_append, List.mem_map] at hmem
    rcases hmem with ⟨r₀, hr₀, rfl⟩ | hmem
    · obtain ⟨m, hm, hrow⟩ := h.events r₀ hr₀
      exact ⟨m, List.mem_append_left _ hm, hrow.update (rowEffect_rowUpdate r₀)⟩
    · rw [List.mem_singleton.mp hmem]
      exact ⟨row, List.mem_append_right _ (List.mem_singleton.mpr rfl), hrow⟩
  case messageIds =>
    show (relay.rows.map fun r => Uuid.parse r.payload.data.messageId).Nodup
    rw [hrows, List.map_append, map_key_map, List.nodup_append]
    · -- the event committed is of a message that was hidden until now
      refine ⟨h.messageIds, List.nodup_singleton _, ?_⟩
      intro a ha b hb hab
      obtain ⟨r₀, hr₀, rfl⟩ := List.mem_map.mp ha
      obtain ⟨m, hm, hrow₀⟩ := h.events r₀ hr₀
      rw [List.map_singleton, List.mem_singleton] at hb
      rw [hb, hrow₀.announces.messageId, hrow.announces.messageId] at hab
      exact (h.hidden k row hmessage).2 m hm (Option.some.inj hab)
    · intro r₀
      rw [(rowEffect_rowUpdate r₀).payload]
  case consumers => exact h.consumers.mono fun e he => isEvent_of_relayStep hr he

/-! ### Steps of calls -/

/-- The id of a message is drawn. -/
theorem withIssued (h : s.Consistent settings) (id : Uuid) :
    ({ s with issuedMessageIds := id :: s.issuedMessageIds } : PipelineState).Consistent settings :=
  { h with
    issued := fun m hm => List.mem_cons_of_mem id (h.issued m hm)
    hidden := fun k m hk => ⟨List.mem_cons_of_mem id (h.hidden k m hk).1, (h.hidden k m hk).2⟩ }

theorem createUser (h : s.Consistent settings) {row : UserRow} {db : Database}
    (hdb : insertUser row s.database = .ok ((), db)) : (s.withTables db).Consistent settings := by
  have hw := h.tables.createUser row
  rw [exec_query_ok rfl hdb] at hw
  apply h.withTables hw
  obtain ⟨-, rfl⟩ := Database.insertUser_eq_ok hdb
  exact fun c hc => hc

theorem insertMessage (h : s.Consistent settings) {k : Nat} {env : SendEnv}
    {input : SendMessageInput} {conversation : PostgresConversation} {startedAt : Int}
    {row : MessageRow} {db : Database} (hp : s.calls k = .begun env input conversation)
    (hfresh : env.messageId ∉ s.issuedMessageIds)
    (hrow : MernChat.insertMessage env.messageId.toText conversation.id input.senderId
      (trim input.message) startedAt s.database = .ok (row, db)) :
    ({ s.setCall k (.messageInserted env input conversation row) with
      issuedMessageIds := env.messageId :: s.issuedMessageIds } : PipelineState).Consistent
        settings := by
  obtain ⟨id, c, u, content, hid, hc, hu, -, -, -, -, rfl, -⟩ := insertMessage_eq_ok.mp hrow
  obtain rfl := Option.some.inj ((Uuid.parse_toText _).symm.trans hid)
  apply (h.withIssued env.messageId).setCall
  · intro input' conversation' heq
    obtain ⟨rfl, rfl⟩ := Prod.mk.inj (Option.some.inj heq)
    exact h.resolved k input conversation (by rw [hp]; rfl)
  · intro env' input' conversation' row' heq
    obtain ⟨rfl, rfl, rfl, rfl⟩ := CallPhase.messageInserted.inj heq
    exact ⟨hc, hu⟩
  · intro row' heq
    cases heq
  · intro m hm
    obtain rfl := Option.some.inj hm
    -- a fresh id is that of no message, visible or not
    refine ⟨List.mem_cons_self, ?_, ?_⟩
    · intro m' hm' heq
      have hid : m'.id = env.messageId := heq
      exact hfresh (hid ▸ h.issued m' hm')
    · intro j m' hj heq
      have hid : m'.id = env.messageId := heq
      exact absurd (hid ▸ (h.hidden j m' hj).1) hfresh

theorem insertOutboxEvent (h : s.Consistent settings) {k : Nat} {env : SendEnv}
    {input : SendMessageInput} {conversation : PostgresConversation} {row : MessageRow}
    {outbox : OutboxInsertInput} {relay : RelayState}
    (hp : s.calls k = .messageInserted env input conversation row)
    (ho : outboxInput env input conversation row = some outbox)
    (hr : RelayStep settings.relay s.relay (.insertOutbox k outbox) relay) :
    ({ s.setCall k (.stored row) with relay } : PipelineState).Consistent settings := by
  -- the relay first: its step touches no call that is stored
  have hrelay : ({ s with relay } : PipelineState).Consistent settings := by
    apply h.withRelay hr rfl
    intro j row' hj hjk
    rw [← Option.some.inj hjk, hp] at hj
    cases hj
  have hmessage : (s.calls k).message = some row := by
    rw [hp]
    rfl
  apply hrelay.setCall
  · intro input' conversation' heq
    cases heq
  · intro env' input' conversation' row' heq
    cases heq
  · intro row' heq
    obtain rfl := CallPhase.stored.inj heq
    -- the row of the event is the one the relay has just inserted
    obtain ⟨r, n, now, hsender, hfresh⟩ : ∃ r n now, relay.senders k = .inserted r ∧
        FreshRow outbox n now r := by
      cases hr with
      | insertOutbox hs hins hf =>
        exact ⟨_, _, _, Function.update_self .., insertOutboxEvent_fresh hins⟩
    have hresolved := h.resolved k input conversation (by rw [hp]; rfl)
    exact ⟨r, hsender, .of_insert hresolved (h.inserted k env input conversation row hp) ho hfresh⟩
  · intro m hm
    obtain rfl := Option.some.inj hm
    refine ⟨(h.hidden k row hmessage).1, (h.hidden k row hmessage).2, ?_⟩
    intro j m' hj heq
    exact h.distinct j k m' row hj hmessage heq

theorem committedBy_of_sender_none {s : RelayState} {a : RelayAction} (ha : a.sender = none) :
    committedBy s a = [] := by
  cases a with
  | commitTx tx => cases ha
  | _ => rfl

/-- **Every step keeps the invariant.** -/
theorem step (h : s.Consistent settings) (hr : s.relay.WellFormed) {a : PipelineAction}
    (hst : PipelineStep settings s a s') : s'.Consistent settings := by
  cases hst with
  | createUser hdb => exact h.createUser hdb
  | checkReceiver | noConversation =>
    apply h.setCall_of_message_none _ rfl
    intro input conversation heq
    cases heq
  | foundConversation hp hfind =>
    apply h.setCall_of_message_none _ rfl
    intro input conversation heq
    obtain ⟨rfl, rfl⟩ := Prod.mk.inj (Option.some.inj heq)
    -- the `SELECT` returns a conversation of the two ids it has parsed
    obtain ⟨a, b, ha, hb, hmap, -⟩ := selectDirectConversation_eq_ok.mp hfind
    obtain ⟨c, hc, rfl⟩ := Option.map_eq_some_iff.mp hmap.symm
    obtain ⟨hmem, rfl, rfl⟩ := Database.conversationOf_eq_some hc
    exact .of_parsedPair hmem ⟨ha, hb⟩
  | createdConversation hp hexec =>
    obtain ⟨hw, hsub, hresult⟩ := exec_createDirectConversation_cases h.tables hexec
    apply (h.withTables hw hsub).setCall_of_message_none _ rfl
    intro input conversation heq
    obtain ⟨rfl, rfl⟩ := Prod.mk.inj (Option.some.inj heq)
    obtain ⟨c, hmem, rfl, hpair⟩ := hresult _ rfl
    exact .of_parsedPair hmem hpair
  | creationFailed hp hexec =>
    obtain ⟨hw, hsub, -⟩ := exec_createDirectConversation_cases h.tables hexec
    apply (h.withTables hw hsub).setCall_of_message_none _ rfl
    intro input conversation heq
    cases heq
  | @beginStore k env input conversation relay hp hbegin =>
    -- the call moves before the relay does: it is not one that is stored
    have hcall : (s.setCall k (.begun env input conversation)).Consistent settings := by
      apply h.setCall_of_message_none _ rfl
      intro input' conversation' heq
      obtain ⟨rfl, rfl⟩ := Prod.mk.inj (Option.some.inj heq)
      exact h.resolved k input conversation (by rw [hp]; rfl)
    apply hcall.withRelay (relayStep_cases hbegin) rfl
    intro j row hj hjk
    rw [← Option.some.inj hjk, PipelineState.setCall_calls_self] at hj
    cases hj
  | insertMessage hp hfresh hrow => exact h.insertMessage hp hfresh hrow
  | insertOutboxEvent hp ho hins => exact h.insertOutboxEvent hp ho (relayStep_cases hins)
  | commitStore hp hcommit => exact h.commitStore hp (relayStep_cases hcommit)
  | @fail k relay habort =>
    have hcall : (s.setCall k .idle).Consistent settings := by
      apply h.setCall_of_message_none _ rfl
      intro input conversation heq
      cases heq
    apply hcall.withRelay (relayStep_cases habort) rfl
    intro j row hj hjk
    rw [← Option.some.inj hjk, PipelineState.setCall_calls_self] at hj
    cases hj
  | relay ha hrelay =>
    apply h.withRelay (relayStep_cases hrelay) (committedBy_of_sender_none ha)
    intro j row hj hjk
    rw [ha] at hjk
    cases hjk
  | @deliver k event consumers he hc =>
    apply h.withConsumers
    apply h.consumers.step (h.uniqueEvents hr) _ hc
    intro j now e heq
    obtain ⟨-, -, rfl⟩ := ConsumerAction.begin.inj heq
    -- what Kafka has accepted is the event of a row
    obtain ⟨r, hmem, hof⟩ := hr.accepted_row event he
    exact ⟨r, hmem, hof.payload.symm⟩
  | consume ha hc =>
    apply h.withConsumers
    apply h.consumers.step (h.uniqueEvents hr) _ hc
    rintro j now e rfl
    cases ha

theorem empty (now : Int) : (PipelineState.empty now).Consistent settings where
  tables := Database.WellFormed.empty
  resolved k input conversation hk := by cases hk
  inserted k env input conversation row hk := by cases hk
  stored k row hk := by cases hk
  issued m hm := by cases hm
  hidden k m hk := by cases hk
  distinct k k' m m' hk := by cases hk
  events r hr := by cases hr
  messageIds := List.nodup_nil
  consumers := .empty

end PipelineState.Consistent

/-- Every reachable state satisfies the invariant. -/
theorem consistent_of_reachable (h : (pipelineSystem settings).Reachable Guard.all s) :
    s.Consistent settings ∧ s.relay.WellFormed := by
  have hrelay : ∀ t, (pipelineSystem settings).Reachable Guard.all t → t.relay.WellFormed :=
    fun t ht => wellFormed_of_reachable ((pipelineRelay settings).reachable ht)
  refine ⟨?_, hrelay s h⟩
  -- a delivery needs what the relay keeps, so that comes first
  refine h.invariant_of hrelay ?_ ?_
  · rintro s ⟨now, rfl⟩
    exact .empty now
  · intro s a t hs _ hinv _ hst
    exact hinv.step hs (pipelineStep_cases hst)

/-! ## Safety of notifications -/

/-- **What notifications are**: a message has at most one, its recipient is the member of the
conversation who is not the sender, and an event has its marker exactly when its message has its
notification; markers are of events stored. -/
structure NotificationSafety (settings : PipelineSettings) (s : PipelineState) : Prop where
  atMostOne : (s.consumers.notifications.map NotificationRow.messageId).Nodup
  recipient : ∀ n ∈ s.consumers.notifications, ∃ m ∈ s.messages, m.id = n.messageId ∧
    ∀ u, u ∈ s.database.membersOf m.conversationId ∧ u ≠ m.senderId ↔ u = n.recipientId
  marker_iff : ∀ r ∈ s.relay.rows,
    (∃ p ∈ s.consumers.processed_events,
      pgVarchar 150 settings.consumerName = some p.consumerName ∧ p.eventId = r.id) ↔
      ∃ n ∈ s.consumers.notifications,
        Uuid.parse r.payload.data.messageId = some n.messageId
  marker : ∀ p ∈ s.consumers.processed_events,
    pgVarchar 150 settings.consumerName = some p.consumerName ∧ ∃ r ∈ s.relay.rows, r.id = p.eventId

/-- The other member of a conversation. -/
theorem Database.WellFormed.other_member {db : Database} (hw : db.WellFormed) {c : ConversationRow}
    (hc : c ∈ db.conversations) {u v : Uuid} (hb : c.isBetween u v = true) (w : Uuid) :
    w ∈ db.membersOf c.id ∧ w ≠ u ↔ w = v := by
  have hlt := hw.canonical c hc
  rw [hw.members c hc]
  simp only [List.mem_cons, List.not_mem_nil, or_false]
  rcases ConversationRow.isBetween_iff.mp hb with ⟨rfl, rfl⟩ | ⟨rfl, rfl⟩
  · constructor
    · rintro ⟨h | h, hne⟩
      · exact absurd h hne
      · exact h
    · rintro rfl
      exact ⟨Or.inr rfl, hlt.ne'⟩
  · constructor
    · rintro ⟨h | h, hne⟩
      · exact h
      · exact absurd h hne
    · rintro rfl
      exact ⟨Or.inl rfl, hlt.ne⟩

/-- The recipient of a notification. -/
theorem PipelineState.Consistent.recipient (h : s.Consistent settings) {n : NotificationRow}
    (hn : n ∈ s.consumers.notifications) : ∃ m ∈ s.messages, m.id = n.messageId ∧
      ∀ u, u ∈ s.database.membersOf m.conversationId ∧ u ≠ m.senderId ↔ u = n.recipientId := by
  -- from the notification to its event, to the row of the outbox, to the message
  obtain ⟨e, he, hne⟩ := (exists_mem_of_forall₂ h.consumers.notifications).2 n hn
  obtain ⟨r, hr, rfl⟩ := h.consumers.processed e he
  obtain ⟨m, hm, hrow⟩ := h.events r hr
  obtain ⟨c, hc, hcm, v, hv, hbetween⟩ := hrow.announces.recipient
  refine ⟨m, hm, Option.some.inj (hrow.announces.messageId.symm.trans hne.messageId), ?_⟩
  obtain rfl := Option.some.inj (hv.symm.trans hne.recipientId)
  rw [← hcm]
  exact h.tables.other_member hc hbetween

/-- The marker of an event, and its notification. -/
theorem PipelineState.Consistent.marker_iff (h : s.Consistent settings)
    (hrelay : s.relay.WellFormed) {r : OutboxRow} (hr : r ∈ s.relay.rows) :
    (∃ p ∈ s.consumers.processed_events,
      pgVarchar 150 settings.consumerName = some p.consumerName ∧ p.eventId = r.id) ↔
      ∃ n ∈ s.consumers.notifications,
        Uuid.parse r.payload.data.messageId = some n.messageId := by
  have hevent : s.IsEvent r.payload := ⟨r, hr, rfl⟩
  obtain ⟨m, -, hrow⟩ := h.events r hr
  rw [h.consumers.notification_iff (h.uniqueEvents hrelay) hevent,
    ← h.consumers.marker_iff (h.uniqueEvents hrelay) hevent]
  constructor
  · rintro ⟨p, hp, hname, hid⟩
    exact ⟨p, hp, hname, hid ▸ hrow.eventId⟩
  · rintro ⟨p, hp, hm⟩
    exact ⟨p, hp, hm.consumerName, Option.some.inj (hm.eventId.symm.trans hrow.eventId)⟩

theorem PipelineState.Consistent.notificationSafety (h : s.Consistent settings)
    (hrelay : s.relay.WellFormed) : NotificationSafety settings s where
  atMostOne := h.consumers.nodup_messageId (h.uniqueEvents hrelay)
  recipient n hn := h.recipient hn
  marker_iff r hr := h.marker_iff hrelay hr
  marker p hp := by
    obtain ⟨e, he, hm⟩ := (exists_mem_of_forall₂ h.consumers.markers).2 p hp
    obtain ⟨r, hr, rfl⟩ := h.consumers.processed e he
    obtain ⟨m, -, hrow⟩ := h.events r hr
    exact ⟨hm.consumerName, r, hr, Option.some.inj (hrow.eventId.symm.trans hm.eventId)⟩

/-- **Notifications are safe** in every reachable state, and the tables are those of the set of
events processed: two states reached with the same set, in whatever order the events were
delivered and however often, have the same rows. -/
theorem notification_safety (settings : PipelineSettings) {s : PipelineState}
    (h : (pipelineSystem settings).Reachable Guard.all s) :
    NotificationSafety settings s ∧
      ∀ t, (pipelineSystem settings).Reachable Guard.all t →
        (∀ e, e ∈ s.consumers.processed ↔ e ∈ t.consumers.processed) →
          s.consumers.SameTables t.consumers := by
  obtain ⟨hs, hrelay⟩ := consistent_of_reachable h
  refine ⟨hs.notificationSafety hrelay, ?_⟩
  intro t ht hprocessed
  obtain ⟨htc, -⟩ := consistent_of_reachable ht
  exact hs.consumers.sameTables htc.consumers hprocessed

/-! ### A message on its way, delivered once and once more -/

def sampleSettings : PipelineSettings where
  relay _ := DEFAULT_OPTIONS
  consumerName := js "message-notifications"
  dateParse := parseISOString

/-- Two users, a message of the first to the second, and its publication. -/
def messageRun : List PipelineAction :=
  [.createUser (sampleUser 1), .createUser (sampleUser 0xAB),
    .checkReceiver 0 (sampleEnv fun _ => none) sampleInput, .findConversation 0,
    .createConversation 0, .beginStore 0, .insertMessage 0, .insertOutboxEvent 0, .commitStore 0] ++
  (claimRun 0).map .relay ++ [.relay (.send 0 .acknowledged)]

/-- Consumer 0 processes what Kafka has accepted. -/
def processRun (s : PipelineState) : List PipelineAction :=
  s.relay.accepted.flatMap fun event =>
    [.deliver 0 event, .consume (.insertProcessedEvent 0),
      .consume (.insertNotification 0 (sampleId 0x20)), .consume (.commit 0)]

/-- Consumer 1 receives it again. -/
def reprocessRun (s : PipelineState) : List PipelineAction :=
  s.relay.accepted.flatMap fun event =>
    [.deliver 1 event, .consume (.insertProcessedEvent 1), .consume (.rollback 1)]

theorem notification_safety_sample :
    ∃ s t : PipelineState, s.consumers.notifications.length = 1 ∧
      NotificationSafety sampleSettings s ∧ s.consumers.SameTables t.consumers := by
  let system := pipelineSystem sampleSettings
  have hruns : (system.runFrom (.empty 1767225600000000) messageRun).any (fun s =>
      (system.runFrom s (processRun s)).any fun t =>
        (system.runFrom t (reprocessRun t)).any fun u =>
          decide (t.consumers.notifications.length = 1 ∧
            t.consumers.processed = u.consumers.processed)) = true := by
    decide +kernel
  obtain ⟨s, hs, hruns⟩ := (Option.any_eq_true _ _).mp hruns
  obtain ⟨t, ht, hruns⟩ := (Option.any_eq_true _ _).mp hruns
  obtain ⟨u, hu, hruns⟩ := (Option.any_eq_true _ _).mp hruns
  obtain ⟨hlength, hprocessed⟩ := of_decide_eq_true hruns
  have hinit : system.Reachable Guard.all (.empty 1767225600000000) := .init ⟨_, rfl⟩
  have hreach : system.Reachable Guard.all t := (hinit.of_runFrom hs).of_runFrom ht
  obtain ⟨hsafe, hsame⟩ := notification_safety sampleSettings hreach
  refine ⟨t, u, hlength, hsafe, hsame u (hreach.of_runFrom hu) ?_⟩
  intro e
  rw [hprocessed]

end MernChat
