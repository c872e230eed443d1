import MernChat.Frontend.LiveMessages
import MernChat.Library.Feed

/-!
# What the open conversation shows

An event that is lost is lost for good: nothing is asked for again when the socket comes back, and
the list is loaded when a conversation is selected, or for `Retry`. So the messages committed since
the selection are shown, except for those whose event was lost, unless a page has brought them.

## Main definitions

* `LiveState.feed`: the page as a feed
* `LiveState.Tracked`: the invariant

## Main results

* `feed_step`: every step of the page is a step of its feed
* `open_conversation_keeps_up`: what is shown when nothing is in flight
* `open_conversation_falls_behind`: a run that misses a message
-/

namespace MernChat

open Library Library.TransitionSystem

/-! ## The page as a feed -/

/-- The page of the user `me`, by the ids of the messages. -/
def LiveState.feed (me : PublicUser) (s : LiveState) : Feed JsString where
  waiting := (s.unsent.filter fun u => u.input.receiverId == me._id).map fun u => u.message._id
  channel := s.channel.map SerializedMessage._id
  lost := s.lost.map SerializedMessage._id
  since := s.since.map SerializedMessage._id
  brought := s.paged.map SerializedMessage._id
  shown := {id | id ∈ (useMessages s.conversationStore).map SerializedMessage._id}

section Feed

variable {me : PublicUser} {dateParse : JsString → JsDate} {s t : LiveState}

theorem mem_shown {id : JsString} : id ∈ (s.feed me).shown ↔
    ∃ c, s.selectedConversationId = some c ∧ id ∈ s.conversationStore.idsOf c := by
  show id ∈ (useMessages s.conversationStore).map SerializedMessage._id ↔ _
  rw [mem_ids_useMessages, LiveState.selectedConversationId, LiveState.selectedConversation]
  simp [Option.map_eq_some_iff]

/-- An element taken out of its list. -/
theorem exists_append_of_eraseIdx {α : Type} {l : List α} {k : ℕ} {a : α} (h : l[k]? = some a) :
    ∃ l₁ l₂, l = l₁ ++ a :: l₂ ∧ l.eraseIdx k = l₁ ++ l₂ := by
  obtain ⟨hk, rfl⟩ := List.getElem?_eq_some_iff.mp h
  refine ⟨l.take k, l.drop (k + 1), ?_, List.eraseIdx_eq_take_drop_succ ..⟩
  rw [← List.drop_eq_getElem_cons hk, List.take_append_drop]

/-- What is known is outstanding or shown. -/
theorem LiveState.Known.not_mem_feed {ids : List JsString} (h : s.Known ids) (me : PublicUser)
    {id : JsString} (hid : id ∉ ids) : id ∉ (s.feed me).outstanding ∧ id ∉ (s.feed me).since ∧
      id ∉ (s.feed me).shown := by
  refine ⟨?_, ?_, ?_⟩
  · intro hmem
    rcases List.mem_append.mp hmem with hmem | hmem
    · rcases List.mem_append.mp hmem with hmem | hmem
      · obtain ⟨u, hu, rfl⟩ := List.mem_map.mp hmem
        exact hid (h.unsent u (List.mem_filter.mp hu).1)
      · obtain ⟨m, hm, rfl⟩ := List.mem_map.mp hmem
        exact hid (h.channel m hm)
    · obtain ⟨m, hm, rfl⟩ := List.mem_map.mp hmem
      exact hid (h.lost m hm)
  · intro hmem
    obtain ⟨m, hm, rfl⟩ := List.mem_map.mp hmem
    exact hid (h.since m hm)
  · intro hmem
    obtain ⟨c, -, hmem⟩ := mem_shown.mp hmem
    exact hid (h.stored c id hmem)

/-- A message is committed. -/
theorem feed_commit (hs : s.server.Attributed) (h : s.Wired me) {u : CommittedSend}
    {server : MessagingState} (hreturns : Returns s.server u server)
    (ht : t = { s.commit me u with server }) :
    Relation.ReflGen Feed.Step (s.feed me) (t.feed me) := by
  subst ht
  obtain ⟨hout, hsince, hshown⟩ := h.known.not_mem_feed me (hreturns.fresh hs).1
  by_cases hme : u.input.receiverId = me._id
  · have hwaiting : (LiveState.feed me { s.commit me u with server }).waiting =
        (s.feed me).waiting ++ [u.message._id] := by
      simp [LiveState.feed, LiveState.commit, hme]
    by_cases hpeer : s.FromPeer me u
    · -- the other user has sent it in the open conversation
      have hfeed : LiveState.feed me { s.commit me u with server } = { s.feed me with
          waiting := (s.feed me).waiting ++ [u.message._id]
          since := (s.feed me).since ++ [u.message._id] } := by
        ext1
        · exact hwaiting
        · rfl
        · rfl
        · simp [LiveState.feed, LiveState.commit, hpeer]
        · rfl
        · rfl
      rw [hfeed]
      exact .single (.publishForView hout hshown)
    · have hfeed : LiveState.feed me { s.commit me u with server } = { s.feed me with
          waiting := (s.feed me).waiting ++ [u.message._id] } := by
        ext1
        · exact hwaiting
        · rfl
        · rfl
        · simp [LiveState.feed, LiveState.commit, hpeer]
        · rfl
        · rfl
      rw [hfeed]
      exact .single (.publish hout hsince)
  · -- the message goes to someone else
    have hpeer : ¬ s.FromPeer me u := fun hpeer => hme hpeer.2.1
    have hfeed : LiveState.feed me { s.commit me u with server } = s.feed me := by
      ext1
      · simp [LiveState.feed, LiveState.commit, hme]
      · rfl
      · rfl
      · simp [LiveState.feed, LiveState.commit, hpeer]
      · rfl
      · rfl
    rw [hfeed]

/-- A message is emitted: to the room of its receiver, where the socket of the page is if it is
connected. -/
theorem feed_emit {k : ℕ} {u : CommittedSend} (hu : s.unsent[k]? = some u)
    (ht : t = { s.emit me u with
      unsent := s.unsent.eraseIdx k
      sends := s.sends.map (SendRequest.answer u) }) :
    Relation.ReflGen Feed.Step (s.feed me) (t.feed me) := by
  subst ht
  -- the message is somewhere among those that are not emitted
  obtain ⟨l₁, l₂, hl, herase⟩ := exists_append_of_eraseIdx hu
  rw [herase]
  unfold LiveState.emit
  simp only [getUserRoomName_eq_iff]
  by_cases hme : u.input.receiverId = me._id
  · have hperm : (s.feed me).waiting.Perm (u.message._id ::
        ((l₁ ++ l₂).filter fun u => u.input.receiverId == me._id).map fun u => u.message._id) := by
      simp only [LiveState.feed, hl, List.filter_append, List.filter_cons, hme, beq_self_eq_true,
        if_true, List.map_append, List.map_cons]
      exact List.perm_middle
    rw [if_pos hme]
    by_cases hconnected : s.connected = true
    · rw [if_pos hconnected]
      have hstep := Feed.Step.emit hperm
      refine .single ?_
      convert hstep using 1
      ext1 <;> simp [LiveState.feed]
    · -- nobody is in the room
      rw [if_neg hconnected]
      have hstep := Feed.Step.emitLost hperm
      refine .single ?_
      convert hstep using 1
      ext1 <;> simp [LiveState.feed]
  · rw [if_neg hme]
    have hfeed : LiveState.feed me { s with
        unsent := l₁ ++ l₂
        sends := s.sends.map (SendRequest.answer u) } = s.feed me := by
      ext1 <;> simp [LiveState.feed, hl, hme]
    rw [hfeed]

/-- The page of a request is the one of the selected conversation. -/
theorem feed_historyLoaded (h : s.Wired me) {request : HistoryRequest} {messages : List Message}
    (hr : s.history = some request) :
    (s.feed me).Step (LiveState.feed me { s with
      conversationStore :=
        mergeMessages dateParse request.conversationId messages s.conversationStore
      history := none
      paged := s.paged ++ messages }) := by
  -- the request was made for the conversation that is selected
  have hselected := h.history request hr
  have hfeed : LiveState.feed me { s with
      conversationStore :=
        mergeMessages dateParse request.conversationId messages s.conversationStore
      history := none
      paged := s.paged ++ messages } = { s.feed me with
        brought := (s.feed me).brought ++ messages.map SerializedMessage._id
        shown := (s.feed me).shown ∪ {id | id ∈ messages.map SerializedMessage._id} } := by
    refine Feed.ext rfl rfl rfl rfl List.map_append ?_
    ext id
    rw [mem_shown, Set.mem_union, mem_shown]
    constructor
    · rintro ⟨c, hc, hid⟩
      rcases mem_idsOf_mergeMessages.mp hid with hid | ⟨-, hid⟩
      · exact Or.inl ⟨c, hc, hid⟩
      · exact Or.inr hid
    · rintro (⟨c, hc, hid⟩ | hid)
      · exact ⟨c, hc, mem_idsOf_mergeMessages.mpr (Or.inl hid)⟩
      · exact ⟨_, hselected, mem_idsOf_mergeMessages.mpr (Or.inr ⟨rfl, hid⟩)⟩
  rw [hfeed]
  exact .bring _

/-- A response is stored, and shown if its conversation is still the selected one. -/
theorem feed_messageSent (h : s.Wired me) {i : ℕ} {request : SendRequest} {message : Message}
    (hr : s.sends[i]? = some request) (hresponse : request.response = some message)
    (ht : t = { s with
      conversationStore := appendMessage request.conversationId message s.conversationStore
      sends := s.sends.eraseIdx i }) :
    Relation.ReflGen Feed.Step (s.feed me) (t.feed me) := by
  have hselected : t.selectedConversationId = s.selectedConversationId := by
    rw [ht]
    exact selectedConversationId_congr (selectedConversation_appendMessage ..)
  have hshown (id : JsString) : id ∈ (t.feed me).shown ↔ id ∈ (s.feed me).shown ∨
      s.selectedConversationId = some request.conversationId ∧ id = message._id := by
    rw [mem_shown, mem_shown, hselected, ht]
    constructor
    · rintro ⟨c, hc, hid⟩
      rcases mem_idsOf_appendMessage.mp hid with hold | ⟨rfl, heq⟩
      · exact Or.inl ⟨c, hc, hold⟩
      · exact Or.inr ⟨hc, heq⟩
    · rintro (⟨c, hc, hid⟩ | ⟨hc, hid⟩)
      · exact ⟨c, hc, mem_idsOf_appendMessage.mpr (Or.inl hid)⟩
      · exact ⟨_, hc, mem_idsOf_appendMessage.mpr (Or.inr ⟨rfl, hid⟩)⟩
  by_cases hopen : s.selectedConversationId = some request.conversationId
  · -- the message is the user's own
    have hsince : message._id ∉ (s.feed me).since :=
      h.ownResponses request (List.mem_of_getElem? hr) message hresponse
    have hfeed : t.feed me = { s.feed me with shown := insert message._id (s.feed me).shown } := by
      ext1
      case shown =>
        ext id
        rw [hshown, Set.mem_insert_iff, Or.comm]
        exact or_congr_left (and_iff_right hopen)
      all_goals subst ht; rfl
    rw [hfeed]
    exact .single (.add hsince)
  · have hfeed : t.feed me = s.feed me := by
      ext1
      case shown =>
        ext id
        rw [hshown]
        exact or_iff_left fun hid => hopen hid.1
      all_goals subst ht; rfl
    rw [hfeed]

/-- An event arrives. The listener has no use for it if it is not of the selected conversation. -/
theorem feed_newMessage (h : s.Wired me) {message : Message} {channel : List Message}
    (hc : s.channel = message :: channel)
    (ht : t = { s with
      conversationStore := handleNewMessage message s.conversationStore
      channel }) : (s.feed me).Step (t.feed me) := by
  have hchannel : (s.feed me).channel = message._id :: (t.feed me).channel := by
    show s.channel.map _ = _
    rw [hc, ht]
    rfl
  have hselected : t.selectedConversationId = s.selectedConversationId := by
    rw [ht]
    exact selectedConversationId_congr (selectedConversation_handleNewMessage ..)
  have hshown (id : JsString) : id ∈ (t.feed me).shown ↔ id ∈ (s.feed me).shown ∨
      (∃ c, s.selectedConversationId = some c ∧
        (message.senderId = c ∨ message.receiverId = c)) ∧ id = message._id := by
    rw [mem_shown, mem_shown, hselected, ht]
    constructor
    · rintro ⟨c, hsel, hid⟩
      rcases mem_idsOf_handleNewMessage.mp hid with hold | ⟨selected, -, hfor, rfl, heq⟩
      · exact Or.inl ⟨c, hsel, hold⟩
      · exact Or.inr ⟨⟨_, hsel, hfor⟩, heq⟩
    · rintro (⟨c, hsel, hid⟩ | ⟨⟨c, hsel, hfor⟩, hid⟩)
      · exact ⟨c, hsel, mem_idsOf_handleNewMessage.mpr (Or.inl hid)⟩
      · obtain ⟨selected, hstored, rfl⟩ := Option.map_eq_some_iff.mp hsel
        exact ⟨_, hsel, mem_idsOf_handleNewMessage.mpr
          (Or.inr ⟨selected, hstored, hfor, rfl, hid⟩)⟩
  by_cases hfor : ∃ c, s.selectedConversationId = some c ∧
      (message.senderId = c ∨ message.receiverId = c)
  · have hfeed : t.feed me = { s.feed me with
        channel := (t.feed me).channel
        shown := insert message._id (s.feed me).shown } := by
      ext1
      case shown =>
        ext id
        rw [hshown, Set.mem_insert_iff, Or.comm]
        exact or_congr_left (and_iff_right hfor)
      all_goals subst ht; rfl
    rw [hfeed]
    exact .arrive hchannel
  · -- what the open conversation waits for is from the other user
    have hsince : message._id ∉ (s.feed me).since := by
      intro hmem
      have hhead : message ∈ s.channel := hc ▸ List.mem_cons_self
      exact hfor ⟨message.senderId, h.peer message (Or.inr hhead) hmem, Or.inl rfl⟩
    have hfeed : t.feed me = { s.feed me with channel := (t.feed me).channel } := by
      ext1
      case shown =>
        ext id
        rw [hshown]
        exact or_iff_left fun hid => hfor hid.1
      all_goals subst ht; rfl
    rw [hfeed]
    exact .ignore hchannel hsince

/-- **Every step of the page is a step of its feed**, or leaves the feed alone. -/
theorem feed_step (hs : s.server.Attributed) (h : s.Wired me) (hstep : LiveStep me dateParse s t) :
    Relation.ReflGen Feed.Step (s.feed me) (t.feed me) := by
  cases hstep with
  | server hserver => exact .refl
  | commit hreturns => exact feed_commit hs h hreturns rfl
  | emit hu => exact feed_emit hu rfl
  | @reselect conversation hid =>
    -- the same list is shown
    have hfeed : LiveState.feed me { s with
        conversationStore := setSelectedConversation conversation s.conversationStore } =
        s.feed me := by
      refine Feed.ext rfl rfl rfl rfl rfl ?_
      have hselected : LiveState.selectedConversationId { s with
          conversationStore := setSelectedConversation conversation s.conversationStore } =
          s.selectedConversationId := hid
      ext id
      rw [mem_shown, mem_shown, hselected]
      rfl
    rw [hfeed]
  | select conversation => exact .single (.reopen _)
  | retry => exact .refl
  | getMessage hr => exact .refl
  | historyLoaded hr hresponse => exact .single (feed_historyLoaded h hr)
  | historyFailed => exact .refl
  | sendMessage request hcall hresponse => exact .refl
  | beginSend hr hserver => exact .refl
  | messageSent hr hresponse => exact feed_messageSent h hr hresponse rfl
  | sendFailed i => exact .refl
  | connect => exact .refl
  | disconnect =>
    have hclose := Feed.Step.close (f := s.feed me)
    refine .single ?_
    convert hclose using 1
    exact Feed.ext rfl rfl List.map_append rfl rfl rfl
  | newMessage hc => exact .single (feed_newMessage h hc rfl)

end Feed

/-! ## Runs -/

section Runs

variable {me : PublicUser} {dateParse : JsString → JsDate} {s t : LiveState}

variable {G : Guard LiveState LiveAction}

/-- **The invariant**: the ties of the page, and its feed. -/
structure LiveState.Tracked (me : PublicUser) (s : LiveState) : Prop where
  wired : s.Wired me
  followed : (s.feed me).Followed

theorem LiveState.Known.initial (ids : List JsString) : LiveState.initial.Known ids where
  stored c id hid := by
    rw [ConversationState.idsOf, LiveState.initial, ConversationState.messagesOf_initial] at hid
    cases hid
  page request statusCode page hr := by cases hr
  responses := List.forall_mem_nil _
  unsent := List.forall_mem_nil _
  channel := List.forall_mem_nil _
  since := List.forall_mem_nil _
  paged := List.forall_mem_nil _
  lost := List.forall_mem_nil _

theorem LiveState.Tracked.initial : LiveState.initial.Tracked me where
  wired := {
    known := .initial _
    history := fun request hr => by cases hr
    peer := fun m _ hid => by cases hid
    calls := List.forall_mem_nil _
    own := List.forall_mem_nil _
    ownUnsent := List.forall_mem_nil _
    ownResponses := List.forall_mem_nil _ }
  followed := {
    nodup := List.nodup_nil
    arrived := List.forall_mem_nil _
    brought := List.forall_mem_nil _
    early := List.forall_mem_nil _ }

/-- **Every step keeps the invariant.** -/
theorem LiveState.Tracked.step (hs : s.server.Attributed) (h : s.Tracked me)
    (hstep : LiveStep me dateParse s t) : t.Tracked me where
  wired := h.wired.step hs hstep
  followed := by
    rcases (Relation.reflGen_iff Feed.Step _ _).mp (feed_step hs h.wired hstep) with hfeed | hfeed
    · rw [hfeed]
      exact h.followed
    · exact h.followed.step hfeed

theorem tracked_of_reachable (h : (liveSystem me dateParse).Reachable G s) : s.Tracked me := by
  -- the invariant of the server holds in all states, and the steps rest on it
  refine h.invariant_of (J := fun s => s.server.Attributed) ?_ ?_ ?_
  · intro s hs
    exact MessagingState.attributed_of_reachable (server_reachable hs)
  · rintro s rfl
    exact .initial
  · intro s a t hs _ ih _ hstep
    exact ih.step hs (liveStep_cases hstep)

/-- **The open conversation keeps up** with the other user: when nothing is in flight, a message
that was committed since the selection is shown unless its event was lost, and then if and only if a
page that was loaded since the selection contains it. -/
theorem open_conversation_keeps_up (h : (liveSystem me dateParse).Reachable G s) (hq : s.Quiet) :
    ∀ m ∈ s.since, s.Shows m ↔ ¬ s.Lost m ∨ s.Loaded m := by
  intro m hm
  -- nothing is on its way in the feed
  have hwaiting : (s.feed me).waiting = [] := by
    rw [LiveState.feed, hq.unsent]
    rfl
  have hchannel : (s.feed me).channel = [] := by
    rw [LiveState.feed, hq.channel]
    rfl
  exact (tracked_of_reachable h).followed.shown_iff hwaiting hchannel (List.mem_map_of_mem hm)

end Runs

/-! ### A socket that comes and goes -/

def samplePeer : PublicUser := ⟨(sampleId 1).toText, js "User", js "1"⟩

def sampleReader : PublicUser := ⟨(sampleId 0xAB).toText, js "User", js "171"⟩

/-- The second message of a call. -/
def secondEnv : SendEnv :=
  { sampleEnv fun _ => none with
    messageId := sampleId 0x13
    eventId := sampleId 0x14
    sequenceNumber := 2 }

/-- The conversation is open. The first message of the other user arrives; the second is committed
and emitted while the socket is not connected. Then it connects again. -/
def interruptedRun : List LiveAction :=
  [.server (.register (sampleUser 1)), .server (.register (sampleUser 0xAB)),
    .server (.createDirectConversation (sampleEnv fun _ => none) samplePeer._id sampleReader._id),
    .connect, .setSelectedConversation (some samplePeer), .getMessage, .historyLoaded,
    .server (.send (sampleEnv fun _ => none) sampleInput),
    .server (.proceed 0), .server (.proceed 0), .server (.proceed 0), .emit 0, .newMessage,
    .disconnect, .server (.send secondEnv sampleInput),
    .server (.proceed 1), .server (.proceed 1), .server (.proceed 1), .emit 0, .connect]

/-- The state after the run: the page is loaded, and shows the first message. -/
theorem interruptedRun_ends : ∃ s, (liveSystem sampleReader parseISOString).runFrom
    .initial interruptedRun = some s ∧ ((s.connected = true ∧ s.error = false) ∧ (s.unsent = [] ∧
      s.history = none ∧ s.sends = [] ∧ s.channel = []) ∧ s.since.map SerializedMessage._id =
        [(sampleId 0x11).toText, (sampleId 0x13).toText] ∧
      (useMessages s.conversationStore).map SerializedMessage._id = [(sampleId 0x11).toText]) :=
  exists_of_any _ (by decide +kernel)

/-- One message that arrives, and one that is lost. -/
theorem open_conversation_keeps_up_sample : ∃ s : LiveState,
    s.since.map SerializedMessage._id = [(sampleId 0x11).toText, (sampleId 0x13).toText] ∧
      ∀ m ∈ s.since, s.Shows m ↔ ¬ s.Lost m ∨ s.Loaded m := by
  obtain ⟨s, hrun, -, ⟨hunsent, hhistory, hsends, hchannel⟩, hsince, -⟩ := interruptedRun_ends
  have hreach := Reachable.of_runFrom (S := liveSystem sampleReader parseISOString) (.init rfl) hrun
  exact ⟨s, hsince, open_conversation_keeps_up hreach ⟨hunsent, hhistory, hsends, hchannel⟩⟩

/-- **The open conversation falls behind.** The socket is connected and nothing is in flight, and
the message that was emitted before is not shown. -/
theorem open_conversation_falls_behind :
    ∃ s, (liveSystem sampleReader parseISOString).Reachable Guard.all s ∧ s.connected = true ∧
      s.error = false ∧ s.Quiet ∧ ∃ m ∈ s.since, ¬ s.Shows m := by
  obtain ⟨s, hrun, ⟨hconnected, herror⟩, ⟨hunsent, hhistory, hsends, hchannel⟩, hsince, hshown⟩ :=
    interruptedRun_ends
  have hreach := Reachable.of_runFrom (S := liveSystem sampleReader parseISOString) (.init rfl) hrun
  refine ⟨s, hreach, hconnected, herror, ⟨hunsent, hhistory, hsends, hchannel⟩, ?_⟩
  -- the second message was committed since, and the list ends with the first
  have hmissed : (sampleId 0x13).toText ∈ s.since.map SerializedMessage._id := by
    rw [hsince]
    exact List.mem_cons_of_mem _ List.mem_cons_self
  obtain ⟨m, hm, hid⟩ := List.mem_map.mp hmissed
  refine ⟨m, hm, ?_⟩
  rw [LiveState.Shows, hid, hshown, List.mem_singleton]
  decide +kernel

end MernChat
