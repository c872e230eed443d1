import MernChat.Chat.SendMessage
import MernChat.Library.Arrivals

/-!
# The conversation store of the client

The browser keeps the messages of each conversation under the id of the other user. A history
page is merged into the list and the list sorted by `createdAt`; a message from the socket, or
the answer to one's own send, goes to the end of the list. Ids are texts of UUIDs, never a name
that an object literal inherits, so the record is a map of its own properties.

## Main definitions

* `mergeUniqueMessages`, `mergeMessages`, `appendMessage`, `clearMessages`: the store
* `handleNewMessage`: the listener of the socket
* `StoreOp`, `runStore`: the operations on the messages, and a sequence of them

## Main results

* `messagesOf_mergeMessages`, `messagesOf_appendMessage`, `messagesOf_clearMessages`: what an
  operation does to each list
-/

namespace MernChat

open Library

/-- A message as the client has it: what the service serialized. -/
abbrev Message := SerializedMessage

structure ConversationState where
  selectedConversation : Option PublicUser
  messagesByConversation : JsString → Option (List Message)

/-- The state of a page that was just loaded. -/
def ConversationState.initial : ConversationState where
  selectedConversation := none
  messagesByConversation := fun _ => none

namespace ConversationState

/-- `state.messagesByConversation[conversationId] ?? []`. -/
def messagesOf (state : ConversationState) (conversationId : JsString) : List Message :=
  (state.messagesByConversation conversationId).getD []

/-- `{ ...state.messagesByConversation, [conversationId]: messages }`. -/
def setMessages (state : ConversationState) (conversationId : JsString)
    (messages : List Message) : ConversationState :=
  { state with
    messagesByConversation := fun id =>
      if id = conversationId then some messages else state.messagesByConversation id }

@[simp] theorem messagesOf_initial (c : JsString) : initial.messagesOf c = [] := rfl

@[simp] theorem messagesOf_setMessages (state : ConversationState) (c d : JsString)
    (messages : List Message) :
    (state.setMessages c messages).messagesOf d =
      if d = c then messages else state.messagesOf d := by
  unfold messagesOf setMessages
  by_cases hd : d = c
  · simp [hd]
  · simp [hd]

@[simp] theorem selectedConversation_setMessages (state : ConversationState) (c : JsString)
    (messages : List Message) :
    (state.setMessages c messages).selectedConversation = state.selectedConversation := rfl

end ConversationState

section Store

-- `new Date(text).getTime()`, none for `NaN`
variable (dateParse : JsString → JsDate)

/-- The comparison of the sort puts `left` after `right` when the difference of the times is
positive; `NaN` counts as zero. -/
def sortsBefore (left right : Message) : Bool :=
  match dateParse left.createdAt, dateParse right.createdAt with
  | some l, some r => decide (l - r ≤ 0)
  | _, _ => true

/-- The messages by id in a `Map`, which keeps the place of a key that is set again, sorted. -/
def mergeUniqueMessages (currentMessages incomingMessages : List Message) : List Message :=
  let messagesById := incomingMessages.foldl (upsert SerializedMessage._id)
    (currentMessages.foldl (upsert SerializedMessage._id) [])
  messagesById.mergeSort (sortsBefore dateParse)

def setSelectedConversation (conversation : Option PublicUser) (state : ConversationState) :
    ConversationState :=
  { state with selectedConversation := conversation }

def mergeMessages (conversationId : JsString) (messages : List Message)
    (state : ConversationState) : ConversationState :=
  state.setMessages conversationId
    (mergeUniqueMessages dateParse (state.messagesOf conversationId) messages)

def appendMessage (conversationId : JsString) (message : Message) (state : ConversationState) :
    ConversationState :=
  let currentMessages := state.messagesOf conversationId
  if currentMessages.any fun current => current._id == message._id then state
  else state.setMessages conversationId (currentMessages ++ [message])

def clearMessages (conversationId : JsString) (state : ConversationState) : ConversationState :=
  state.setMessages conversationId []

/-- The listener of `newMessage` appends the messages of the selected conversation. -/
def handleNewMessage (message : Message) (state : ConversationState) : ConversationState :=
  match state.selectedConversation with
  | none => state
  | some selected =>
    if message.senderId = selected._id ∨ message.receiverId = selected._id then
      appendMessage selected._id message state
    else state

/-- The messages the page shows. -/
def useMessages (state : ConversationState) : List Message :=
  match state.selectedConversation with
  | some selected => state.messagesOf selected._id
  | none => []

/-! ## Sequences of operations -/

/-- An operation on the messages of a conversation. -/
inductive StoreOp where
  | merge (conversationId : JsString) (messages : List Message)
  | append (conversationId : JsString) (message : Message)
  | clear (conversationId : JsString)

namespace StoreOp

/-- The conversation an operation names. -/
def conversationId : StoreOp → JsString
  | merge c _ => c
  | append c _ => c
  | clear c => c

def apply (state : ConversationState) : StoreOp → ConversationState
  | merge c messages => mergeMessages dateParse c messages state
  | append c message => appendMessage c message state
  | clear c => clearMessages c state

end StoreOp

/-- The state of the store after a sequence of operations. -/
def runStore (ops : List StoreOp) : ConversationState :=
  ops.foldl (StoreOp.apply dateParse) .initial

/-! ## What the operations do -/

variable {dateParse}

theorem messagesOf_mergeMessages (c d : JsString) (messages : List Message)
    (state : ConversationState) :
    (mergeMessages dateParse c messages state).messagesOf d =
      if d = c then mergeUniqueMessages dateParse (state.messagesOf c) messages
      else state.messagesOf d := by
  simp [mergeMessages]

theorem any_id_iff {messages : List Message} {id : JsString} :
    (messages.any fun current => current._id == id) = true ↔
      id ∈ messages.map SerializedMessage._id := by
  simp [List.any_eq_true]

/-- A message that is there is not appended again. -/
theorem appendMessage_of_mem {c : JsString} {message : Message} {state : ConversationState}
    (h : message._id ∈ (state.messagesOf c).map SerializedMessage._id) :
    appendMessage c message state = state := by
  unfold appendMessage
  exact if_pos (any_id_iff.mpr h)

theorem appendMessage_of_not_mem {c : JsString} {message : Message} {state : ConversationState}
    (h : message._id ∉ (state.messagesOf c).map SerializedMessage._id) :
    appendMessage c message state = state.setMessages c (state.messagesOf c ++ [message]) := by
  unfold appendMessage
  exact if_neg fun hany => h (any_id_iff.mp hany)

theorem messagesOf_appendMessage (c d : JsString) (message : Message)
    (state : ConversationState) :
    (appendMessage c message state).messagesOf d =
      if d = c then insertNew SerializedMessage._id (state.messagesOf c) message
      else state.messagesOf d := by
  by_cases h : message._id ∈ (state.messagesOf c).map SerializedMessage._id
  · rw [appendMessage_of_mem h, insertNew_of_mem _ h]
    split_ifs with hd
    · rw [hd]
    · rfl
  · rw [appendMessage_of_not_mem h, insertNew_of_not_mem _ h,
      ConversationState.messagesOf_setMessages]

theorem messagesOf_clearMessages (c d : JsString) (state : ConversationState) :
    (clearMessages c state).messagesOf d = if d = c then [] else state.messagesOf d := by
  simp [clearMessages]

@[simp] theorem selectedConversation_mergeMessages (c : JsString) (messages : List Message)
    (state : ConversationState) : (mergeMessages dateParse c messages state).selectedConversation =
      state.selectedConversation := rfl

@[simp] theorem selectedConversation_appendMessage (c : JsString) (message : Message)
    (state : ConversationState) :
    (appendMessage c message state).selectedConversation = state.selectedConversation := by
  by_cases h : message._id ∈ (state.messagesOf c).map SerializedMessage._id
  · rw [appendMessage_of_mem h]
  · rw [appendMessage_of_not_mem h]
    rfl

/-- The sort of a merge moves the messages, and drops none. -/
theorem perm_mergeUniqueMessages (current incoming : List Message) :
    (mergeUniqueMessages dateParse current incoming).Perm
      ((current ++ incoming).foldl (upsert SerializedMessage._id) []) := by
  rw [List.foldl_append]
  exact List.mergeSort_perm _ _

end Store

/-- A message that is, or is not, of the selected conversation. -/
theorem handleNewMessage_cases (message : Message) (state : ConversationState) :
    (∃ selected, state.selectedConversation = some selected ∧
      (message.senderId = selected._id ∨ message.receiverId = selected._id) ∧
        handleNewMessage message state = appendMessage selected._id message state) ∨
    (∀ selected, state.selectedConversation = some selected →
      ¬ (message.senderId = selected._id ∨ message.receiverId = selected._id)) ∧
        handleNewMessage message state = state := by
  unfold handleNewMessage
  cases state.selectedConversation with
  | none => exact .inr ⟨by simp, rfl⟩
  | some selected =>
    by_cases hfor : message.senderId = selected._id ∨ message.receiverId = selected._id
    · exact .inl ⟨selected, rfl, hfor, if_pos hfor⟩
    · refine .inr ⟨?_, if_neg hfor⟩
      intro other hother
      obtain rfl := Option.some.inj hother
      exact hfor

end MernChat
