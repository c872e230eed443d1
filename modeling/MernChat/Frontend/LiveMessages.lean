import MernChat.Frontend.LiveSession

/-!
# The messages of an open page

Every message of a page comes from the server: the listener, the pages and the responses bring what
is in the tables. An event that the open conversation waits for is from the other user, and what the
user's own requests are answered is not waited for.

## Main definitions

* `MessagingState.messageIds`, `ConversationState.idsOf`: the ids of the tables, and of a list
* `LiveState.Known`: every message of the page has one of the ids
* `LiveState.Wired`: what ties the page to the server

## Main results

* `Returns.fresh`: a message that is returned is new
* `LiveState.Known.step`, `LiveState.Wired.step`: every step keeps the ties
-/

namespace MernChat

open Library Library.TransitionSystem

/-! ## The server -/

namespace MessagingState

/-- The ids of the messages, as they are printed. -/
def messageIds (server : MessagingState) : List JsString :=
  server.db.messages.map fun row => row.id.toText

/-- The requests of the calls, in the order they began. -/
def inputs (server : MessagingState) : List SendMessageInput := server.calls.map SendCall.input

variable {server server' : MessagingState} {a : MessagingAction}

/-- The tables of messages grow at their end, and so do the calls. -/
theorem step_grows (hs : server.Attributed) (h : messagingStep server a = some server') :
    server.messageIds <+: server'.messageIds ∧ server.inputs <+: server'.inputs := by
  have hsame (db : Database) (hmessages : db.messages = server.db.messages) :
      server.messageIds <+: messageIds ⟨db, server.calls⟩ := by
    have hids : messageIds ⟨db, server.calls⟩ = server.messageIds :=
      congrArg (List.map _) hmessages
    exact hids ▸ List.prefix_refl _
  cases a with
  | register row =>
    -- the row of a user, or nothing
    obtain rfl := Option.some.inj h
    refine ⟨hsame _ ?_, List.prefix_refl _⟩
    have hquery : exec (query none (insertUser row)) server.db = _ := rfl
    rcases exec_query hquery with ⟨r, db, -, hx, hq⟩ | ⟨-, e, hq⟩
    · obtain ⟨-, rfl⟩ := Database.insertUser_eq_ok hx
      rw [hq]
    · rw [hq]
  | createDirectConversation env userA userB =>
    obtain rfl := Option.some.inj h
    exact ⟨hsame _ (exec_createDirectConversation_messages hs.wellFormed rfl), List.prefix_refl _⟩
  | send env input =>
    -- the call begins as the last one
    obtain rfl := Option.some.inj h
    refine ⟨List.prefix_refl _, ?_⟩
    rw [inputs, inputs, List.map_append]
    exact List.prefix_append _ _
  | proceed n =>
    obtain ⟨call, hn, hst⟩ := Option.bind_eq_some_iff.mp h
    obtain ⟨⟨phase, db⟩, hstep, rfl⟩ := Option.map_eq_some_iff.mp hst
    have heffect := call.proceed_effect hs.wellFormed (hs.resolved call (List.mem_of_getElem? hn))
      hstep
    constructor
    · -- an operation of a call adds one message at most
      rcases heffect.messages with hmessages | ⟨x, y, row, -, -, -, hmessages⟩
      · exact hsame db hmessages
      · rw [messageIds, messageIds, hmessages, List.map_append]
        exact List.prefix_append _ _
    · -- the phase of a call is no part of its request
      have hinputs : inputs ⟨db, server.calls.set n { call with phase }⟩ = server.inputs := by
        have hsends := congrArg (List.map Prod.snd) (sends_set hn phase db)
        rw [sends, sends, List.map_map, List.map_map] at hsends
        exact hsends
      exact hinputs ▸ List.prefix_refl _

end MessagingState

section Server

variable {server server' : MessagingState} {u : CommittedSend}

/-- **A message that is returned is new**, and in the tables from then on. -/
theorem Returns.fresh (hs : server.Attributed) (h : Returns server u server') :
    u.message._id ∉ server.messageIds ∧ u.message._id ∈ server'.messageIds := by
  obtain ⟨call, hcall, -, hreturned⟩ := h.call
  have hstep := h.step
  simp only [messagingStep, hcall, Option.bind_some] at hstep
  obtain ⟨⟨phase, db⟩, hproceed, rfl⟩ := Option.map_eq_some_iff.mp hstep
  -- only the last operation of a call returns, and only when its transaction commits
  cases hphase : call.phase with
  | storeMessage conversation =>
    obtain ⟨c, hmem, rfl, -⟩ := hs.resolved call (List.mem_of_getElem? hcall) _ hphase
    have hthere := Database.hasConversation_iff.mpr ⟨c, hmem, rfl⟩
    simp only [SendCall.returned, hphase] at hreturned
    simp only [SendCall.proceed, hphase, Option.some.injEq, Prod.mk.injEq] at hproceed
    obtain ⟨-, rfl⟩ := hproceed
    by_cases hcommits : StoreCommits call.env call.input server.db
    · obtain ⟨m, row, hrows, ⟨-, d, hexec⟩ | ⟨-, e, hexec⟩⟩ := exec_store_of_commits hthere hcommits
      · rw [hexec] at hreturned
        obtain hmessage := Option.some.inj hreturned
        have hid : u.message._id = m.id.toText := by rw [← hmessage]
        obtain ⟨_, _, -, -, -, rfl⟩ := hrows.message
        rw [hid]
        constructor
        · -- the table has no two messages of one id
          intro hold
          obtain ⟨old, hold, heq⟩ := List.mem_map.mp hold
          have hfresh := hrows.messageId
          rw [Database.hasMessage, List.any_eq_false] at hfresh
          exact hfresh old hold (beq_iff_eq.mpr (Uuid.toText_injective heq))
        · show _ ∈ List.map _ (exec _ server.db).2.messages
          rw [hexec]
          exact List.mem_map_of_mem (List.mem_append_right _ (List.mem_singleton_self _))
      · rw [hexec] at hreturned
        cases hreturned
    · obtain ⟨e, hexec⟩ := exec_store_of_not_commits hthere hcommits
      rw [hexec] at hreturned
      cases hreturned
  | _ =>
    simp only [SendCall.returned, hphase] at hreturned
    cases hreturned

/-- The request of a call that returns. -/
theorem Returns.input (h : Returns server u server') : server.inputs[u.call]? = some u.input := by
  obtain ⟨call, hcall, hinput, -⟩ := h.call
  rw [MessagingState.inputs, List.getElem?_map, hcall, ← hinput]
  rfl

/-- A serialized message has the id of its row. -/
theorem id_of_serializeMessage {message : PostgresMessage} {receiverId : JsString}
    {m : SerializedMessage} (h : serializeMessage message receiverId = some m) :
    m._id = message.id := by
  simp only [serializeMessage, Option.bind_eq_bind, Option.bind_eq_some_iff] at h
  obtain ⟨_, -, _, -, h⟩ := h
  obtain rfl := Option.some.inj h
  rfl

/-- The messages that are returned are in the tables. -/
theorem id_mem_of_getMessages {input : GetMessagesInput} {result : MessagePageResult}
    {db db' : Database} (h : exec (getMessages input) db = (.ok result, db')) {m : Message}
    (hm : m ∈ result.messages) : ∃ row ∈ db.messages, m._id = row.id.toText := by
  -- the checks and the two lookups before the page leave the tables alone
  unfold getMessages at h
  obtain ⟨_, _, hself, h₁⟩ := exec_bind_eq_ok.mp h
  obtain ⟨-, rfl⟩ := exec_require_eq_ok.mp hself
  obtain ⟨_, _, huser, h₂⟩ := exec_bind_eq_ok.mp h₁
  obtain ⟨_, -, -, rfl⟩ := findUserById_eq_ok.mp (exec_query_eq_ok.mp huser)
  obtain ⟨_, _, hthere, h₃⟩ := exec_bind_eq_ok.mp h₂
  obtain ⟨-, rfl⟩ := exec_require_eq_ok.mp hthere
  obtain ⟨found, _, hfound, h₄⟩ := exec_bind_eq_ok.mp h₃
  obtain ⟨a, b, -, -, rfl, rfl⟩ := selectDirectConversation_eq_ok.mp (exec_query_eq_ok.mp hfound)
  cases hc : Database.conversationOf _ a b with
  | none =>
    rw [hc] at h₄
    cases h₄
  | some c =>
    rw [hc] at h₄
    simp only [Option.map_some] at h₄
    split at h₄
    · cases h₄
    · -- each message of the page is a row, serialized
      obtain ⟨page, _, hpage, h₅⟩ := exec_bind_eq_ok.mp h₄
      split at h₅
      · rename_i result' hresult
        obtain rfl : result' = result := Except.ok.inj (Prod.mk.inj h₅).1
        obtain ⟨row, hrow, -, hserialized⟩ :=
          exists_row_of_serialized (exec_query_eq_ok.mp hpage) hresult hm
        exact ⟨row, hrow, id_of_serializeMessage hserialized⟩
      · cases h₅

/-- **The messages of a page** are in the tables. -/
theorem page_messageIds {userId id : JsString} {statusCode : Nat} {page : MessagePageResult}
    (h : getMessageRoute userId id .absent .absent server.db = .data statusCode page) :
    ∀ m ∈ page.messages, m._id ∈ server.messageIds := by
  intro m hm
  unfold getMessageRoute at h
  split at h
  · cases h
  · unfold Controller.getMessage at h
    split at h
    · rename_i result hok
      obtain ⟨-, rfl⟩ := ApiResponse.data.inj h
      obtain ⟨row, hrow, hid⟩ := id_mem_of_getMessages (Prod.ext hok rfl) hm
      rw [hid]
      exact List.mem_map_of_mem hrow
    · cases h

end Server

/-! ## The ids of a list -/

/-- The ids of the messages that are stored for a conversation. -/
def ConversationState.idsOf (state : ConversationState) (c : JsString) : List JsString :=
  (state.messagesOf c).map SerializedMessage._id

section Store

variable {dateParse : JsString → JsDate} {state : ConversationState} {c d id : JsString}

theorem mem_idsOf_mergeMessages {messages : List Message} :
    id ∈ (mergeMessages dateParse c messages state).idsOf d ↔
      id ∈ state.idsOf d ∨ d = c ∧ id ∈ messages.map SerializedMessage._id := by
  rw [ConversationState.idsOf, messagesOf_mergeMessages]
  by_cases hd : d = c
  · -- sorting and replacing change no id
    rw [if_pos hd, ((perm_mergeUniqueMessages _ messages).map _).mem_iff, map_key_foldl_upsert,
      mem_foldl_insertNew, List.map_append, List.mem_append, hd]
    simp [ConversationState.idsOf]
  · rw [if_neg hd]
    simp [hd, ConversationState.idsOf]

theorem mem_idsOf_appendMessage {message : Message} :
    id ∈ (appendMessage c message state).idsOf d ↔
      id ∈ state.idsOf d ∨ d = c ∧ id = message._id := by
  rw [ConversationState.idsOf, messagesOf_appendMessage]
  by_cases hd : d = c
  · rw [if_pos hd, map_key_insertNew, mem_insertNew, hd]
    simp [ConversationState.idsOf]
  · rw [if_neg hd]
    simp [hd, ConversationState.idsOf]

/-- The listener stores what is of the selected conversation. -/
theorem mem_idsOf_handleNewMessage {message : Message} :
    id ∈ (handleNewMessage message state).idsOf d ↔ id ∈ state.idsOf d ∨
      ∃ selected, state.selectedConversation = some selected ∧
        (message.senderId = selected._id ∨ message.receiverId = selected._id) ∧
          d = selected._id ∧ id = message._id := by
  rcases handleNewMessage_cases message state with ⟨selected, hsel, hfor, hstep⟩ | ⟨hnot, hstep⟩
  · rw [hstep, mem_idsOf_appendMessage]
    refine or_congr_right ?_
    constructor
    · rintro ⟨rfl, rfl⟩
      exact ⟨selected, hsel, hfor, rfl, rfl⟩
    · rintro ⟨selected', hsel', -, rfl, rfl⟩
      obtain rfl := Option.some.inj (hsel.symm.trans hsel')
      exact ⟨rfl, rfl⟩
  · rw [hstep]
    refine (or_iff_left ?_).symm
    rintro ⟨selected, hsel, hfor, -⟩
    exact hnot selected hsel hfor

theorem selectedConversation_handleNewMessage (message : Message) (state : ConversationState) :
    (handleNewMessage message state).selectedConversation = state.selectedConversation := by
  rcases handleNewMessage_cases message state with ⟨selected, -, -, hstep⟩ | ⟨-, hstep⟩
  · rw [hstep, selectedConversation_appendMessage]
  · rw [hstep]

/-- The list that is shown is that of the selected conversation. -/
theorem mem_ids_useMessages :
    id ∈ (useMessages state).map SerializedMessage._id ↔
      ∃ selected, state.selectedConversation = some selected ∧ id ∈ state.idsOf selected._id := by
  unfold useMessages
  cases state.selectedConversation with
  | none => simp
  | some selected => simp [ConversationState.idsOf]

end Store

theorem getUserRoomName_eq_iff {x y : JsString} :
    getUserRoomName x = getUserRoomName y ↔ x = y := List.append_right_inj _

/-! ## Where messages come from -/

/-- Every message of the page, and every message on its way, has one of the ids. -/
structure LiveState.Known (s : LiveState) (ids : List JsString) : Prop where
  stored : ∀ c, ∀ id ∈ s.conversationStore.idsOf c, id ∈ ids
  page : ∀ request statusCode page, s.history = some request →
    request.response = some (.data statusCode page) → ∀ m ∈ page.messages, m._id ∈ ids
  responses : ∀ request ∈ s.sends, ∀ m, request.response = some m → m._id ∈ ids
  unsent : ∀ u ∈ s.unsent, u.message._id ∈ ids
  channel : ∀ m ∈ s.channel, m._id ∈ ids
  since : ∀ m ∈ s.since, m._id ∈ ids
  paged : ∀ m ∈ s.paged, m._id ∈ ids
  lost : ∀ m ∈ s.lost, m._id ∈ ids

section Known

variable {me : PublicUser} {dateParse : JsString → JsDate} {s t : LiveState}
  {ids ids' : List JsString}

theorem LiveState.Known.mono (h : s.Known ids) (hsub : ids ⊆ ids') : s.Known ids' where
  stored c id hid := hsub (h.stored c id hid)
  page request statusCode page hr hresponse m hm :=
    hsub (h.page request statusCode page hr hresponse m hm)
  responses request hr m hm := hsub (h.responses request hr m hm)
  unsent u hu := hsub (h.unsent u hu)
  channel m hm := hsub (h.channel m hm)
  since m hm := hsub (h.since m hm)
  paged m hm := hsub (h.paged m hm)
  lost m hm := hsub (h.lost m hm)

theorem mem_since_commit {u : CommittedSend} {m : Message} (h : m ∈ (s.commit me u).since) :
    m ∈ s.since ∨ m = u.message := by
  unfold LiveState.commit at h
  simp only at h
  split_ifs at h
  · rw [List.mem_append, List.mem_singleton] at h
    exact h
  · exact Or.inl h

theorem response_answer {u : CommittedSend} {request : SendRequest} {m : Message}
    (h : (request.answer u).response = some m) :
    request.response = some m ∨ request.call = some u.call ∧ m = u.message := by
  unfold SendRequest.answer at h
  split_ifs at h with hcall
  · exact Or.inr ⟨hcall, (Option.some.inj h).symm⟩
  · exact Or.inl h

/-- **Every message comes from the server.** -/
theorem LiveState.Known.step (hs : s.server.Attributed) (h : s.Known s.server.messageIds)
    (hstep : LiveStep me dateParse s t) : t.Known t.server.messageIds := by
  cases hstep with
  | server hserver => exact { h.mono (MessagingState.step_grows hs hserver).1.subset with }
  | @commit u server hreturns =>
    -- the new message is in the tables after the step
    have hk := h.mono (MessagingState.step_grows hs hreturns.step).1.subset
    have hnew := (hreturns.fresh hs).2
    refine { hk with unsent := ?_, since := ?_ }
    · intro u' hu'
      rcases List.mem_append.mp hu' with hu' | hu'
      · exact hk.unsent u' hu'
      · rw [List.mem_singleton.mp hu']
        exact hnew
    · intro m hm
      rcases mem_since_commit hm with hm | rfl
      · exact hk.since m hm
      · exact hnew
  | @emit k u hu =>
    -- the message was known before it was emitted
    have hnew := h.unsent u (List.mem_of_getElem? hu)
    have hemit : (s.emit me u).Known s.server.messageIds := by
      unfold LiveState.emit
      split_ifs
      · refine { h with channel := ?_ }
        exact List.forall_mem_append.mpr ⟨h.channel, List.forall_mem_singleton.mpr hnew⟩
      · refine { h with lost := ?_ }
        exact List.forall_mem_append.mpr ⟨h.lost, List.forall_mem_singleton.mpr hnew⟩
      · exact h
    show LiveState.Known _ (s.emit me u).server.messageIds
    rw [server_emit]
    refine { hemit with responses := ?_, unsent := ?_ }
    · intro request hr m hm
      obtain ⟨asked, hasked, rfl⟩ := List.mem_map.mp hr
      rcases response_answer hm with hm | ⟨-, rfl⟩
      · exact h.responses asked hasked m hm
      · exact hnew
    · intro u' hu'
      exact h.unsent u' (List.mem_of_mem_eraseIdx hu')
  | reselect hid => exact { h with }
  | select conversation =>
    -- the new request has no response yet
    refine { h with page := ?_, since := ?_, paged := ?_ }
    · intro request statusCode page hr hresponse
      obtain ⟨id, -, rfl⟩ := Option.map_eq_some_iff.mp hr
      cases hresponse
    · intro m hm
      cases hm
    · intro m hm
      cases hm
  | retry =>
    refine { h with page := ?_ }
    intro request statusCode page hr hresponse
    obtain ⟨id, -, rfl⟩ := Option.map_eq_some_iff.mp hr
    cases hresponse
  | getMessage hr =>
    -- the page is read from the tables
    refine { h with page := ?_ }
    intro request statusCode page hr' hresponse
    obtain rfl := Option.some.inj hr'
    exact page_messageIds (Option.some.inj hresponse)
  | historyLoaded hr hresponse =>
    have hpage := h.page _ _ _ hr hresponse
    refine { h with stored := ?_, page := ?_, paged := ?_ }
    · intro c id hid
      rcases mem_idsOf_mergeMessages.mp hid with hid | ⟨-, hid⟩
      · exact h.stored c id hid
      · obtain ⟨m, hm, rfl⟩ := List.mem_map.mp hid
        exact hpage m hm
    · intro request statusCode page hr'
      cases hr'
    · exact List.forall_mem_append.mpr ⟨h.paged, hpage⟩
  | historyFailed =>
    refine { h with page := ?_ }
    intro request statusCode page hr'
    cases hr'
  | sendMessage request hcall hresponse =>
    refine { h with responses := ?_ }
    refine List.forall_mem_append.mpr ⟨h.responses, List.forall_mem_singleton.mpr ?_⟩
    intro m hm
    rw [hresponse] at hm
    cases hm
  | @beginSend i request env correlationId server hr hserver =>
    have hk := h.mono (MessagingState.step_grows hs hserver).1.subset
    refine { hk with responses := ?_ }
    intro request' hr' m hm
    rcases List.mem_or_eq_of_mem_set hr' with hr' | rfl
    · exact hk.responses request' hr' m hm
    · exact hk.responses request (List.mem_of_getElem? hr) m hm
  | @messageSent i request message hr hresponse =>
    refine { h with stored := ?_, responses := ?_ }
    · intro c id hid
      rcases mem_idsOf_appendMessage.mp hid with hid | ⟨-, rfl⟩
      · exact h.stored c id hid
      · exact h.responses request (List.mem_of_getElem? hr) message hresponse
    · intro request' hr'
      exact h.responses request' (List.mem_of_mem_eraseIdx hr')
  | sendFailed i =>
    refine { h with responses := ?_ }
    intro request' hr'
    exact h.responses request' (List.mem_of_mem_eraseIdx hr')
  | connect => exact { h with }
  | disconnect =>
    -- what was on its way is lost
    refine { h with channel := ?_, lost := ?_ }
    · intro m hm
      cases hm
    · exact List.forall_mem_append.mpr ⟨h.lost, h.channel⟩
  | @newMessage message channel hc =>
    have hchannel := h.channel
    rw [hc, List.forall_mem_cons] at hchannel
    refine { h with stored := ?_, channel := hchannel.2 }
    intro c id hid
    rcases mem_idsOf_handleNewMessage.mp hid with hid | ⟨-, -, -, -, rfl⟩
    · exact h.stored c id hid
    · exact hchannel.1

end Known

/-! ## Whose messages are whose -/

/-- What ties the requests of the page to the calls of the server, and the messages on their way to
the selected conversation. -/
structure LiveState.Wired (me : PublicUser) (s : LiveState) : Prop where
  known : s.Known s.server.messageIds
  history : ∀ request, s.history = some request →
    s.selectedConversationId = some request.conversationId
  /-- An event that the open conversation waits for is from the other user. -/
  peer : ∀ m, m ∈ s.unsent.map CommittedSend.message ∨ m ∈ s.channel →
    m._id ∈ s.since.map SerializedMessage._id → s.selectedConversationId = some m.senderId
  calls : ∀ u ∈ s.unsent, s.server.inputs[u.call]? = some u.input
  own : ∀ request ∈ s.sends, ∀ n, request.call = some n →
    ∃ input, s.server.inputs[n]? = some input ∧ input.senderId = me._id
  ownUnsent : ∀ u ∈ s.unsent, u.input.senderId = me._id →
    u.message._id ∉ s.since.map SerializedMessage._id
  ownResponses : ∀ request ∈ s.sends, ∀ m, request.response = some m →
    m._id ∉ s.since.map SerializedMessage._id

section Wired

variable {me : PublicUser} {dateParse : JsString → JsDate} {s t : LiveState}

theorem getElem?_of_prefix {α : Type} {l l' : List α} (h : l <+: l') {n : ℕ} {a : α}
    (ha : l[n]? = some a) : l'[n]? = some a := by
  obtain ⟨hn, rfl⟩ := List.getElem?_eq_some_iff.mp ha
  exact List.prefix_iff_getElem?.mp h n hn

/-- The server goes on. -/
theorem LiveState.Wired.server (hs : s.server.Attributed) (h : s.Wired me) {a : MessagingAction}
    {server : MessagingState} (hstep : messagingStep s.server a = some server) :
    Wired me { s with server } := by
  obtain ⟨hids, hinputs⟩ := MessagingState.step_grows hs hstep
  -- the calls keep their requests, and their numbers
  refine { h with known := ?_, calls := ?_, own := ?_ }
  · exact { h.known.mono hids.subset with }
  · intro u hu
    exact getElem?_of_prefix hinputs (h.calls u hu)
  · intro request hr n hn
    obtain ⟨input, hinput, hsender⟩ := h.own request hr n hn
    exact ⟨input, getElem?_of_prefix hinputs hinput, hsender⟩

theorem mem_since_ids_commit {u : CommittedSend} {id : JsString}
    (h : id ∈ (s.commit me u).since.map SerializedMessage._id) :
    id ∈ s.since.map SerializedMessage._id ∨ s.FromPeer me u ∧ id = u.message._id := by
  unfold LiveState.commit at h
  simp only at h
  split_ifs at h with hpeer
  · rw [List.map_append, List.mem_append, List.map_singleton, List.mem_singleton] at h
    exact h.imp_right fun hid => ⟨hpeer, hid⟩
  · exact Or.inl h

/-- A message is committed. -/
theorem LiveState.Wired.commit (hs : s.server.Attributed) (h : s.Wired me) {u : CommittedSend}
    {server : MessagingState} (hreturns : Returns s.server u server)
    (hknown : Known { s.commit me u with server } server.messageIds) :
    Wired me { s.commit me u with server } := by
  have hw := h.server hs hreturns.step
  have hnew := (hreturns.fresh hs).1
  -- the selection has not been told of the new message
  have hsince : u.message._id ∉ s.since.map SerializedMessage._id := by
    intro hmem
    obtain ⟨m, hm, heq⟩ := List.mem_map.mp hmem
    exact hnew (heq ▸ h.known.since m hm)
  constructor
  · exact hknown
  · exact h.history
  · intro m hm hid
    have hold : m ∈ s.unsent.map CommittedSend.message ∨ m ∈ s.channel ∨ m = u.message := by
      rcases hm with hm | hm
      · rw [LiveState.commit, List.map_append, List.mem_append, List.map_singleton,
          List.mem_singleton] at hm
        exact hm.elim Or.inl fun hm => Or.inr (Or.inr hm)
      · exact Or.inr (Or.inl hm)
    rcases mem_since_ids_commit hid with hid | ⟨hpeer, hid⟩
    · rcases hold with hm | hm | rfl
      · exact h.peer m (Or.inl hm) hid
      · exact h.peer m (Or.inr hm) hid
      · exact absurd hid hsince
    · -- no other message has the id of the new one
      rcases hold with hm | hm | rfl
      · obtain ⟨u', hu', rfl⟩ := List.mem_map.mp hm
        exact absurd (hid ▸ h.known.unsent u' hu') hnew
      · exact absurd (hid ▸ h.known.channel m hm) hnew
      · exact hpeer.1
  · refine List.forall_mem_append.mpr ⟨hw.calls, List.forall_mem_singleton.mpr ?_⟩
    exact getElem?_of_prefix (MessagingState.step_grows hs hreturns.step).2 hreturns.input
  · exact hw.own
  · -- what the user has sent is not from the other user
    intro u' hu' hown hid
    rcases List.mem_append.mp hu' with hu' | hu'
    · rcases mem_since_ids_commit hid with hid | ⟨-, hid⟩
      · exact h.ownUnsent u' hu' hown hid
      · exact hnew (hid ▸ h.known.unsent u' hu')
    · obtain rfl := List.mem_singleton.mp hu'
      rcases mem_since_ids_commit hid with hid | ⟨hpeer, -⟩
      · exact hsince hid
      · exact hpeer.2.2 hown
  · intro request hr m hm hid
    rcases mem_since_ids_commit hid with hid | ⟨-, hid⟩
    · exact h.ownResponses request hr m hm hid
    · exact hnew (hid ▸ h.known.responses request hr m hm)

/-- The selected id is read off the selected conversation. -/
theorem selectedConversationId_congr (h : t.conversationStore.selectedConversation =
    s.conversationStore.selectedConversation) :
    t.selectedConversationId = s.selectedConversationId := congrArg (Option.map PublicUser._id) h

theorem call_answer (u : CommittedSend) (request : SendRequest) :
    (request.answer u).call = request.call := by
  unfold SendRequest.answer
  split_ifs <;> rfl

/-- What an emission leaves alone. -/
theorem emit_frame (me : PublicUser) (s : LiveState) (u : CommittedSend) :
    (s.emit me u).conversationStore = s.conversationStore ∧ (s.emit me u).history = s.history ∧
      (s.emit me u).since = s.since ∧ (s.emit me u).paged = s.paged ∧
      ∀ m ∈ (s.emit me u).channel, m ∈ s.channel ∨ m = u.message := by
  unfold LiveState.emit
  split_ifs
  · refine ⟨rfl, rfl, rfl, rfl, ?_⟩
    intro m hm
    rwa [List.mem_append, List.mem_singleton] at hm
  · exact ⟨rfl, rfl, rfl, rfl, fun m hm => Or.inl hm⟩
  · exact ⟨rfl, rfl, rfl, rfl, fun m hm => Or.inl hm⟩

/-- A message is emitted, and the request for it answered. -/
theorem LiveState.Wired.emit (h : s.Wired me) {k : ℕ} {u : CommittedSend}
    (hu : s.unsent[k]? = some u)
    (hknown : Known { s.emit me u with
      unsent := s.unsent.eraseIdx k
      sends := s.sends.map (SendRequest.answer u) } s.server.messageIds) :
    Wired me { s.emit me u with
      unsent := s.unsent.eraseIdx k
      sends := s.sends.map (SendRequest.answer u) } := by
  have hmem := List.mem_of_getElem? hu
  obtain ⟨hstore, hhistory, hsince, -, hchannel⟩ := emit_frame me s u
  have hselected : (s.emit me u).selectedConversationId = s.selectedConversationId :=
    selectedConversationId_congr (by rw [hstore])
  constructor
  · show Known _ (s.emit me u).server.messageIds
    rw [server_emit]
    exact hknown
  · intro request hr
    exact hselected.trans (h.history request (hhistory ▸ hr))
  · intro m hm hid
    refine hselected.trans (h.peer m ?_ (hsince ▸ hid))
    rcases hm with hm | hm
    · obtain ⟨u', hu', rfl⟩ := List.mem_map.mp hm
      exact Or.inl (List.mem_map_of_mem (List.mem_of_mem_eraseIdx hu'))
    · rcases hchannel m hm with hm | rfl
      · exact Or.inr hm
      · exact Or.inl (List.mem_map_of_mem hmem)
  · intro u' hu'
    rw [server_emit]
    exact h.calls u' (List.mem_of_mem_eraseIdx hu')
  · intro request hr n hn
    obtain ⟨asked, hasked, rfl⟩ := List.mem_map.mp hr
    rw [server_emit]
    exact h.own asked hasked n (call_answer u asked ▸ hn)
  · intro u' hu' hown
    rw [hsince]
    exact h.ownUnsent u' (List.mem_of_mem_eraseIdx hu') hown
  · intro request hr m hm
    rw [hsince]
    obtain ⟨asked, hasked, rfl⟩ := List.mem_map.mp hr
    rcases response_answer hm with hm | ⟨hcall, rfl⟩
    · exact h.ownResponses asked hasked m hm
    · -- the call that answers is the user's own
      obtain ⟨input, hinput, hsender⟩ := h.own asked hasked u.call hcall
      obtain rfl := Option.some.inj ((h.calls u hmem).symm.trans hinput)
      exact h.ownUnsent u hmem hsender

/-- **Every step keeps the ties.** -/
theorem LiveState.Wired.step (hs : s.server.Attributed) (h : s.Wired me)
    (hstep : LiveStep me dateParse s t) : t.Wired me := by
  have hknown := h.known.step hs hstep
  cases hstep with
  | server hserver => exact h.server hs hserver
  | commit hreturns => exact h.commit hs hreturns hknown
  | emit hu =>
    rw [server_emit] at hknown
    exact h.emit hu hknown
  | @reselect conversation hid =>
    have hselected : selectedConversationId { s with
        conversationStore := setSelectedConversation conversation s.conversationStore } =
        s.selectedConversationId := hid
    refine { h with known := hknown, history := ?_, peer := ?_ }
    · intro request hr
      exact hselected.trans (h.history request hr)
    · intro m hm hid'
      exact hselected.trans (h.peer m hm hid')
  | select conversation =>
    -- nothing was committed since a selection that is made now
    refine { h with
      known := hknown, history := ?_, peer := ?_, ownUnsent := ?_, ownResponses := ?_ }
    · intro request hr
      obtain ⟨id, hid, rfl⟩ := Option.map_eq_some_iff.mp hr
      exact hid
    · intro m hm hid
      cases hid
    · intro u hu hown hid
      cases hid
    · intro request hr m hm hid
      cases hid
  | retry =>
    refine { h with known := hknown, history := ?_ }
    intro request hr
    obtain ⟨id, hid, rfl⟩ := Option.map_eq_some_iff.mp hr
    exact hid
  | getMessage hr =>
    refine { h with known := hknown, history := ?_ }
    intro request hr'
    obtain rfl := Option.some.inj hr'
    have hid := h.history _ hr
    exact hid
  | historyLoaded hr hresponse =>
    refine { h with known := hknown, history := ?_ }
    intro request hr'
    cases hr'
  | historyFailed =>
    refine { h with known := hknown, history := ?_ }
    intro request hr'
    cases hr'
  | sendMessage request hcall hresponse =>
    -- the request has neither reached the server nor been answered
    refine { h with known := hknown, own := ?_, ownResponses := ?_ }
    · refine List.forall_mem_append.mpr ⟨h.own, List.forall_mem_singleton.mpr ?_⟩
      intro n hn
      rw [hcall] at hn
      cases hn
    · refine List.forall_mem_append.mpr ⟨h.ownResponses, List.forall_mem_singleton.mpr ?_⟩
      intro m hm
      rw [hresponse] at hm
      cases hm
  | @beginSend i request env correlationId server hr hserver =>
    have hw := h.server hs hserver
    refine { hw with known := hknown, own := ?_, ownResponses := ?_ }
    · intro request' hr' n hn
      rcases List.mem_or_eq_of_mem_set hr' with hr' | rfl
      · exact hw.own request' hr' n hn
      · -- the call begins as the last one
        obtain rfl := Option.some.inj hserver
        obtain rfl := Option.some.inj hn
        refine ⟨⟨me._id, request.conversationId, request.message, correlationId⟩, ?_, rfl⟩
        show (List.map SendCall.input (s.server.calls ++ [_]))[_]? = _
        rw [List.getElem?_map, List.getElem?_concat_length]
        rfl
    · intro request' hr' m hm
      rcases List.mem_or_eq_of_mem_set hr' with hr' | rfl
      · exact h.ownResponses request' hr' m hm
      · exact h.ownResponses request (List.mem_of_getElem? hr) m hm
  | @messageSent i request message hr hresponse =>
    -- the response may be stored for a conversation that was left
    have hselected : selectedConversationId { s with
        conversationStore := appendMessage request.conversationId message s.conversationStore
        sends := s.sends.eraseIdx i } = s.selectedConversationId :=
      selectedConversationId_congr (selectedConversation_appendMessage ..)
    constructor
    · exact hknown
    · intro request' hr'
      exact hselected.trans (h.history request' hr')
    · intro m hm hid
      exact hselected.trans (h.peer m hm hid)
    · exact h.calls
    · intro request' hr'
      exact h.own request' (List.mem_of_mem_eraseIdx hr')
    · exact h.ownUnsent
    · intro request' hr'
      exact h.ownResponses request' (List.mem_of_mem_eraseIdx hr')
  | sendFailed i =>
    refine { h with known := hknown, own := ?_, ownResponses := ?_ }
    · intro request' hr'
      exact h.own request' (List.mem_of_mem_eraseIdx hr')
    · intro request' hr'
      exact h.ownResponses request' (List.mem_of_mem_eraseIdx hr')
  | connect => exact { h with known := hknown }
  | disconnect =>
    refine { h with known := hknown, peer := ?_ }
    rintro m (hm | hm) hid
    · exact h.peer m (Or.inl hm) hid
    · cases hm
  | @newMessage message channel hc =>
    -- the listener selects nothing, and the channel is shorter
    have hselected : selectedConversationId { s with
        conversationStore := handleNewMessage message s.conversationStore
        channel } = s.selectedConversationId :=
      selectedConversationId_congr (selectedConversation_handleNewMessage ..)
    constructor
    · exact hknown
    · intro request hr
      exact hselected.trans (h.history request hr)
    · rintro m (hm | hm) hid
      · exact hselected.trans (h.peer m (Or.inl hm) hid)
      · exact hselected.trans (h.peer m (Or.inr (hc ▸ List.mem_cons_of_mem _ hm)) hid)
    · exact h.calls
    · exact h.own
    · exact h.ownUnsent
    · exact h.ownResponses

end Wired

end MernChat
