import MernChat.Chat.Api
import MernChat.Chat.Confidentiality
import MernChat.Frontend.Accounts

/-!
# A page that stays open

A user has the application open: conversations are selected, their history is loaded, messages are
sent, and the socket comes and goes. On the server the calls of all users run side by side. What is
committed is emitted to the room of its receiver afterwards, and reaches the page only if its socket
is connected then, and until it arrives.

## Main definitions

* `LiveState`, `LiveAction`, `liveStep`, `liveSystem`: the page and the server
* `LiveState.Shows`, `LiveState.Lost`, `LiveState.Loaded`: what becomes of a message
* `LiveState.Quiet`: nothing is in flight
* `LiveStep`: the steps, case by case

## Main results

* `liveStep_cases`: every step is one of the cases
* `server_reachable`: the server of a page is the one of all users
-/

namespace MernChat

open Library Library.TransitionSystem

/-! ## The state -/

/-- A call that has returned its message, which is neither emitted nor answered yet. -/
structure CommittedSend where
  call : ℕ
  input : SendMessageInput
  message : Message

/-- The request of the effect of `useMessages`, with its response once the server has made it. -/
structure HistoryRequest where
  conversationId : JsString
  response : Option (ApiResponse MessagePageResult)

/-- A request of `useSendMessage`, with the call that handles it, and its response. -/
structure SendRequest where
  conversationId : JsString
  message : JsString
  call : Option ℕ
  response : Option Message

/-- The server, the page, and what is in flight between them. -/
structure LiveState where
  server : MessagingState
  unsent : List CommittedSend
  conversationStore : ConversationState
  /-- `useMessages` is loading while there is a request. -/
  history : Option HistoryRequest
  error : Bool
  sends : List SendRequest
  connected : Bool
  /-- The events on their way to the socket, in order. -/
  channel : List Message
  /-- The messages that the other user has committed since the selection, the messages of the pages
  loaded since then, and the events lost so far. No step reads them. -/
  since : List Message
  paged : List Message
  lost : List Message

namespace LiveState

def selectedConversation (s : LiveState) : Option PublicUser :=
  s.conversationStore.selectedConversation

/-- `state.selectedConversation?._id`. -/
def selectedConversationId (s : LiveState) : Option JsString := s.selectedConversation.map (·._id)

/-- The message is in the list that `useMessages` returns. -/
def Shows (s : LiveState) (m : Message) : Prop :=
  m._id ∈ (useMessages s.conversationStore).map SerializedMessage._id

/-- The event of the message was emitted while the socket was not connected, or was on its way when
the socket disconnected. -/
def Lost (s : LiveState) (m : Message) : Prop := m._id ∈ s.lost.map SerializedMessage._id

/-- A page that was loaded since the selection contains the message. -/
def Loaded (s : LiveState) (m : Message) : Prop := m._id ∈ s.paged.map SerializedMessage._id

/-- No request, response or event is in flight. -/
structure Quiet (s : LiveState) : Prop where
  unsent : s.unsent = []
  history : s.history = none
  sends : s.sends = []
  channel : s.channel = []

/-- A page that was just loaded, of an application that has just started. -/
def initial : LiveState where
  server := ⟨Database.empty, []⟩
  unsent := []
  conversationStore := .initial
  history := none
  error := false
  sends := []
  connected := false
  channel := []
  since := []
  paged := []
  lost := []

end LiveState

/-! ## The steps -/

/-- What a call returns with its next operation. -/
def SendCall.returned (call : SendCall) (db : Database) : Option Message :=
  match call.phase with
  | .storeMessage conversation =>
    match (exec (storeAndSerialize call.env call.input conversation) db).1 with
    | .ok result => some result.message
    | .error _ => none
  | _ => none

/-- What the server has to emit after a step. -/
def returnedBy (server : MessagingState) : MessagingAction → Option CommittedSend
  | .proceed n => server.calls[n]?.bind fun call =>
    (call.returned server.db).map fun message => ⟨n, call.input, message⟩
  | _ => none

section Steps

variable (me : PublicUser) (s : LiveState)

/-- The message is one that the other user has sent to this one. -/
def LiveState.FromPeer (u : CommittedSend) : Prop :=
  s.selectedConversationId = some u.message.senderId ∧ u.input.receiverId = me._id ∧
    u.input.senderId ≠ me._id

instance (u : CommittedSend) : Decidable (s.FromPeer me u) :=
  inferInstanceAs (Decidable (_ ∧ _))

/-- A message is committed. -/
def LiveState.commit (u : CommittedSend) : LiveState :=
  { s with
    unsent := s.unsent ++ [u]
    since := if s.FromPeer me u then s.since ++ [u.message] else s.since }

/-- `io.to(getUserRoomName(receiverId)).emit("newMessage", message)`. -/
def LiveState.emit (u : CommittedSend) : LiveState :=
  if getUserRoomName u.input.receiverId = getUserRoomName me._id then
    if s.connected then { s with channel := s.channel ++ [u.message] }
    else { s with lost := s.lost ++ [u.message] }
  else s

/-- The response to the request that the call handles. -/
def SendRequest.answer (u : CommittedSend) (request : SendRequest) : SendRequest :=
  if request.call = some u.call then { request with response := some u.message } else request

/-- The effect of `useMessages`, which is run again when the id changes: the request before is
aborted, and the new one is sent. -/
def LiveState.select (conversation : Option PublicUser) : LiveState :=
  if conversation.map (·._id) = s.selectedConversationId then
    { s with conversationStore := setSelectedConversation conversation s.conversationStore }
  else
    { s with
      conversationStore := setSelectedConversation conversation s.conversationStore
      history := (conversation.map (·._id)).map fun id => ⟨id, none⟩
      error := false
      since := []
      paged := [] }

end Steps

inductive LiveAction
  /-- A step of the server, for whichever user. -/
  | server (a : MessagingAction)
  /-- The handler of the `k`-th of the messages that are committed emits it and answers. -/
  | emit (k : ℕ)
  | setSelectedConversation (conversation : Option PublicUser)
  /-- A click on `Retry`, which is shown for an error. -/
  | retry
  /-- The server makes the page. -/
  | getMessage
  /-- The page arrives, or what stands for it if the request failed. -/
  | historyLoaded
  | historyFailed
  | sendMessage (message : JsString)
  /-- The `i`-th of the requests arrives at the server. -/
  | beginSend (i : ℕ) (env : SendEnv) (correlationId : JsString)
  /-- The response to the `i`-th of the requests arrives. -/
  | messageSent (i : ℕ)
  | sendFailed (i : ℕ)
  | connect
  | disconnect
  /-- The next event arrives at the socket. -/
  | newMessage

/-- The steps of the page and its server. -/
def liveStep (me : PublicUser) (dateParse : JsString → JsDate) (s : LiveState) :
    LiveAction → Option LiveState
  | .server a => (messagingStep s.server a).map fun server =>
    match returnedBy s.server a with
    | some u => { s.commit me u with server }
    | none => { s with server }
  | .emit k => s.unsent[k]?.map fun u =>
    { s.emit me u with
      unsent := s.unsent.eraseIdx k
      sends := s.sends.map (SendRequest.answer u) }
  | .setSelectedConversation conversation => some (s.select conversation)
  | .retry =>
    if s.error then
      some { s with
        history := s.selectedConversationId.map fun id => ⟨id, none⟩
        error := false }
    else none
  | .getMessage => s.history.bind fun request =>
    if request.response.isNone then
      some { s with history := some { request with
        response := some (getMessageRoute me._id request.conversationId .absent .absent
          s.server.db) } }
    else none
  | .historyLoaded => s.history.bind fun request => request.response.map fun response =>
    match response with
    | .data _ page =>
      { s with
        conversationStore :=
          mergeMessages dateParse request.conversationId page.messages s.conversationStore
        history := none
        paged := s.paged ++ page.messages }
    | .error _ => { s with history := none, error := true }
  | .historyFailed => s.history.map fun _ => { s with history := none, error := true }
  | .sendMessage message => s.selectedConversationId.bind fun conversationId =>
    if trim message = [] then none
    else some { s with sends := s.sends ++ [⟨conversationId, trim message, none, none⟩] }
  | .beginSend i env correlationId => s.sends[i]?.bind fun request =>
    -- a request that is not valid is answered with an error
    if request.call.isNone ∧
        sendMessageSchema request.conversationId (some request.message) = [] then
      (messagingStep s.server (.send env
        { senderId := me._id
          receiverId := request.conversationId
          message := request.message
          correlationId })).map fun server =>
        { s with
          server
          sends := s.sends.set i { request with call := some s.server.calls.length } }
    else none
  | .messageSent i => s.sends[i]?.bind fun request => request.response.map fun message =>
    { s with
      -- the conversation of a request is that of its start
      conversationStore := appendMessage request.conversationId message s.conversationStore
      sends := s.sends.eraseIdx i }
  | .sendFailed i => s.sends[i]?.map fun _ => { s with sends := s.sends.eraseIdx i }
  | .connect => if s.connected then none else some { s with connected := true }
  | .disconnect =>
    if s.connected then
      some { s with
        connected := false
        channel := []
        lost := s.lost ++ s.channel }
    else none
  | .newMessage =>
    match s.channel with
    | [] => none
    | message :: channel =>
      some { s with
        conversationStore := handleNewMessage message s.conversationStore
        channel }

/-- The runs of a page of the user `me`. -/
def liveSystem (me : PublicUser) (dateParse : JsString → JsDate) :
    TransitionSystem LiveState LiveAction where
  init s := s = .initial
  step := liveStep me dateParse

/-! ## The steps, case by case -/

section Cases

variable {me : PublicUser} {dateParse : JsString → JsDate} {s t : LiveState}

/-- A step of the server by which a call returns its message. -/
structure Returns (server : MessagingState) (u : CommittedSend) (server' : MessagingState) :
    Prop where
  step : messagingStep server (.proceed u.call) = some server'
  call : ∃ call, server.calls[u.call]? = some call ∧ call.input = u.input ∧
    call.returned server.db = some u.message

/-- The steps, one case for each way they can go. -/
inductive LiveStep (me : PublicUser) (dateParse : JsString → JsDate) (s : LiveState) :
    LiveState → Prop
  | server {a server} (h : messagingStep s.server a = some server) :
    LiveStep me dateParse s { s with server }
  | commit {u server} (h : Returns s.server u server) :
    LiveStep me dateParse s { s.commit me u with server }
  | emit {k u} (h : s.unsent[k]? = some u) :
    LiveStep me dateParse s { s.emit me u with
      unsent := s.unsent.eraseIdx k
      sends := s.sends.map (SendRequest.answer u) }
  | reselect {conversation : Option PublicUser}
    (h : conversation.map (·._id) = s.selectedConversationId) :
    LiveStep me dateParse s { s with
      conversationStore := setSelectedConversation conversation s.conversationStore }
  | select (conversation : Option PublicUser) : LiveStep me dateParse s { s with
      conversationStore := setSelectedConversation conversation s.conversationStore
      history := (conversation.map (·._id)).map fun id => ⟨id, none⟩
      error := false
      since := []
      paged := [] }
  | retry : LiveStep me dateParse s { s with
      history := s.selectedConversationId.map fun id => ⟨id, none⟩
      error := false }
  | getMessage {request} (h : s.history = some request) :
    LiveStep me dateParse s { s with history := some { request with
      response := some (getMessageRoute me._id request.conversationId .absent .absent
        s.server.db) } }
  | historyLoaded {request statusCode page} (h : s.history = some request)
    (hresponse : request.response = some (.data statusCode page)) :
    LiveStep me dateParse s { s with
      conversationStore :=
        mergeMessages dateParse request.conversationId page.messages s.conversationStore
      history := none
      paged := s.paged ++ page.messages }
  | historyFailed : LiveStep me dateParse s { s with history := none, error := true }
  | sendMessage (request : SendRequest) (hcall : request.call = none)
    (hresponse : request.response = none) :
    LiveStep me dateParse s { s with sends := s.sends ++ [request] }
  | beginSend {i request env correlationId server} (h : s.sends[i]? = some request)
    (hstep : messagingStep s.server (.send env
      { senderId := me._id
        receiverId := request.conversationId
        message := request.message
        correlationId }) = some server) :
    LiveStep me dateParse s { s with
      server
      sends := s.sends.set i { request with call := some s.server.calls.length } }
  | messageSent {i request message} (h : s.sends[i]? = some request)
    (hresponse : request.response = some message) :
    LiveStep me dateParse s { s with
      conversationStore := appendMessage request.conversationId message s.conversationStore
      sends := s.sends.eraseIdx i }
  | sendFailed (i : ℕ) : LiveStep me dateParse s { s with sends := s.sends.eraseIdx i }
  | connect : LiveStep me dateParse s { s with connected := true }
  | disconnect : LiveStep me dateParse s { s with
      connected := false
      channel := []
      lost := s.lost ++ s.channel }
  | newMessage {message channel} (h : s.channel = message :: channel) :
    LiveStep me dateParse s { s with
      conversationStore := handleNewMessage message s.conversationStore
      channel }

/-- **Every step is one of the cases.** -/
theorem liveStep_cases {a : LiveAction} (h : liveStep me dateParse s a = some t) :
    LiveStep me dateParse s t := by
  cases a with
  | server a =>
    obtain ⟨server, hstep, rfl⟩ := Option.map_eq_some_iff.mp h
    -- only an operation of a call returns a message
    cases hret : returnedBy s.server a with
    | none => exact .server hstep
    | some u =>
      cases a with
      | proceed n =>
        obtain ⟨call, hcall, hret⟩ := Option.bind_eq_some_iff.mp hret
        obtain ⟨message, hmessage, rfl⟩ := Option.map_eq_some_iff.mp hret
        exact .commit ⟨hstep, call, hcall, rfl, hmessage⟩
      | register row => cases hret
      | createDirectConversation env userA userB => cases hret
      | send env input => cases hret
  | emit k =>
    obtain ⟨u, hu, rfl⟩ := Option.map_eq_some_iff.mp h
    exact .emit hu
  | setSelectedConversation conversation =>
    obtain rfl := Option.some.inj h
    -- the effect runs again when the id is another
    unfold LiveState.select
    split_ifs with hid
    · exact .reselect hid
    · exact .select conversation
  | retry =>
    simp only [liveStep, Option.ite_none_right_eq_some, Option.some.injEq] at h
    obtain ⟨-, rfl⟩ := h
    exact .retry
  | getMessage =>
    obtain ⟨request, hrequest, h⟩ := Option.bind_eq_some_iff.mp h
    simp only [Option.ite_none_right_eq_some, Option.some.injEq] at h
    obtain ⟨-, rfl⟩ := h
    exact .getMessage hrequest
  | historyLoaded =>
    obtain ⟨request, hrequest, h⟩ := Option.bind_eq_some_iff.mp h
    obtain ⟨response, hresponse, rfl⟩ := Option.map_eq_some_iff.mp h
    -- an error of the server is a failed request
    cases response with
    | data statusCode page => exact .historyLoaded hrequest hresponse
    | error response => exact .historyFailed
  | historyFailed =>
    obtain ⟨request, -, rfl⟩ := Option.map_eq_some_iff.mp h
    exact .historyFailed
  | sendMessage message =>
    obtain ⟨conversationId, -, h⟩ := Option.bind_eq_some_iff.mp h
    simp only [Option.ite_none_left_eq_some, Option.some.injEq] at h
    obtain ⟨-, rfl⟩ := h
    exact .sendMessage _ rfl rfl
  | beginSend i env correlationId =>
    obtain ⟨request, hrequest, h⟩ := Option.bind_eq_some_iff.mp h
    simp only [Option.ite_none_right_eq_some] at h
    obtain ⟨server, hstep, rfl⟩ := Option.map_eq_some_iff.mp h.2
    exact .beginSend hrequest hstep
  | messageSent i =>
    obtain ⟨request, hrequest, h⟩ := Option.bind_eq_some_iff.mp h
    obtain ⟨message, hresponse, rfl⟩ := Option.map_eq_some_iff.mp h
    exact .messageSent hrequest hresponse
  | sendFailed i =>
    obtain ⟨request, -, rfl⟩ := Option.map_eq_some_iff.mp h
    exact .sendFailed i
  | connect =>
    simp only [liveStep, Option.ite_none_left_eq_some, Option.some.injEq] at h
    obtain ⟨-, rfl⟩ := h
    exact .connect
  | disconnect =>
    simp only [liveStep, Option.ite_none_right_eq_some, Option.some.injEq] at h
    obtain ⟨-, rfl⟩ := h
    exact .disconnect
  | newMessage =>
    simp only [liveStep] at h
    split at h
    · cases h
    · obtain rfl := Option.some.inj h
      exact .newMessage ‹_›

/-! ## The server of a page -/

@[simp] theorem server_emit (me : PublicUser) (s : LiveState) (u : CommittedSend) :
    (s.emit me u).server = s.server := by
  unfold LiveState.emit
  split_ifs <;> rfl

/-- The server of a page makes the steps of the server. -/
theorem LiveStep.server_eq (h : LiveStep me dateParse s t) :
    t.server = s.server ∨ ∃ a, messagingStep s.server a = some t.server := by
  cases h with
  | server hserver => exact Or.inr ⟨_, hserver⟩
  | commit hreturns => exact Or.inr ⟨_, hreturns.step⟩
  | emit hu => exact Or.inl (server_emit me s _)
  | beginSend hr hserver => exact Or.inr ⟨_, hserver⟩
  | _ => exact Or.inl rfl

/-- **The server of a page** is the one of all users. -/
theorem server_reachable {G : Guard LiveState LiveAction}
    (h : (liveSystem me dateParse).Reachable G s) :
    messagingSystem.Reachable Guard.all s.server := by
  induction h with
  | init hinit =>
    obtain rfl := hinit
    exact .init rfl
  | @step s a t _ _ hstep ih =>
    rcases (liveStep_cases hstep).server_eq with hserver | ⟨b, hserver⟩
    · rw [hserver]
      exact ih
    · exact ih.step trivial hserver

end Cases

end MernChat
