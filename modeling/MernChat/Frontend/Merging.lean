import MernChat.Frontend.ConversationStore

/-!
# Copies of one message

A message may reach the client several times: in history pages, from the socket, and as the
answer to a send. Merging replaces the copy that is there, appending drops the new one. Either
way the ids in the list of a conversation are those delivered for it since it was last cleared,
each once.

## Main definitions

* `deliveredSinceClear`: the ids delivered for a conversation since its last clear
* `HoldsExactly`: a list of messages holds exactly some ids, each once

## Main results

* `messages_exact`: every list holds exactly what was delivered for it
-/

namespace MernChat

open Library

/-- The messages hold exactly the ids, each once. -/
structure HoldsExactly (messages : List Message) (ids : List JsString) : Prop where
  nodup : (messages.map SerializedMessage._id).Nodup
  mem : ∀ id, id ∈ messages.map SerializedMessage._id ↔ id ∈ ids

/-- The ids delivered for `c` since its last clear, after one more operation. -/
def deliver (c : JsString) (ids : List JsString) : StoreOp → List JsString
  | .merge d messages => if d = c then ids ++ messages.map SerializedMessage._id else ids
  | .append d message => if d = c then ids ++ [message._id] else ids
  | .clear d => if d = c then [] else ids

/-- The ids delivered for `c` since its last clear. -/
def deliveredSinceClear (c : JsString) (ops : List StoreOp) : List JsString :=
  ops.foldl (deliver c) []

theorem deliver_of_ne {c : JsString} {op : StoreOp} (h : op.conversationId ≠ c)
    (ids : List JsString) : deliver c ids op = ids := by
  cases op <;> exact if_neg h

section Merging

variable {dateParse : JsString → JsDate} {messages : List Message} {ids : List JsString}

theorem HoldsExactly.nil : HoldsExactly [] [] := ⟨List.nodup_nil, by simp⟩

/-- A merge keeps what is there and adds what comes. -/
theorem HoldsExactly.merge (h : HoldsExactly messages ids) (incoming : List Message) :
    HoldsExactly (mergeUniqueMessages dateParse messages incoming)
      (ids ++ incoming.map SerializedMessage._id) := by
  have hperm : ((mergeUniqueMessages dateParse messages incoming).map SerializedMessage._id).Perm
      (((messages ++ incoming).foldl (upsert SerializedMessage._id) []).map
        SerializedMessage._id) := (perm_mergeUniqueMessages messages incoming).map _
  rw [map_key_foldl_upsert, List.map_append, List.map_nil] at hperm
  constructor
  · apply hperm.nodup_iff.mpr
    exact nodup_foldl_insertNew List.nodup_nil _
  · intro id
    rw [hperm.mem_iff, mem_foldl_insertNew, List.mem_append, List.mem_append, h.mem]
    simp

/-- An append adds what is not there. -/
theorem HoldsExactly.append (h : HoldsExactly messages ids) (message : Message) :
    HoldsExactly (insertNew SerializedMessage._id messages message) (ids ++ [message._id]) := by
  constructor
  · rw [map_key_insertNew]
    exact nodup_insertNew h.nodup _
  · intro id
    rw [map_key_insertNew, mem_insertNew, h.mem, List.mem_append, List.mem_singleton]

/-- **An operation leaves the other conversations alone.** -/
theorem messagesOf_apply_of_ne {c : JsString} {op : StoreOp} (h : op.conversationId ≠ c)
    (state : ConversationState) :
    (op.apply dateParse state).messagesOf c = state.messagesOf c := by
  have hc : c ≠ op.conversationId := Ne.symm h
  cases op with
  | merge d messages =>
    rw [StoreOp.apply, messagesOf_mergeMessages]
    exact if_neg hc
  | append d message =>
    rw [StoreOp.apply, messagesOf_appendMessage]
    exact if_neg hc
  | clear d =>
    rw [StoreOp.apply, messagesOf_clearMessages]
    exact if_neg hc

/-- **One operation** keeps the list of a conversation exact. -/
theorem HoldsExactly.apply {c : JsString} {state : ConversationState}
    (h : HoldsExactly (state.messagesOf c) ids) (op : StoreOp) :
    HoldsExactly ((op.apply dateParse state).messagesOf c) (deliver c ids op) := by
  by_cases hc : op.conversationId = c
  · cases op with
    | merge d incoming =>
      obtain rfl : d = c := hc
      rw [StoreOp.apply, messagesOf_mergeMessages, if_pos rfl, deliver, if_pos rfl]
      exact h.merge incoming
    | append d message =>
      obtain rfl : d = c := hc
      rw [StoreOp.apply, messagesOf_appendMessage, if_pos rfl, deliver, if_pos rfl]
      exact h.append message
    | clear d =>
      obtain rfl : d = c := hc
      rw [StoreOp.apply, messagesOf_clearMessages, if_pos rfl, deliver, if_pos rfl]
      exact HoldsExactly.nil
  · rw [messagesOf_apply_of_ne hc, deliver_of_ne hc]
    exact h

end Merging

/-- Every list holds exactly what was delivered for it. -/
theorem holds_runStore (dateParse : JsString → JsDate) (ops : List StoreOp) (c : JsString) :
    HoldsExactly ((runStore dateParse ops).messagesOf c) (deliveredSinceClear c ops) := by
  induction ops using List.reverseRecOn with
  | nil => exact HoldsExactly.nil
  | append_singleton ops op ih =>
    unfold runStore deliveredSinceClear at ih ⊢
    rw [List.foldl_append, List.foldl_append]
    exact ih.apply op

/-- **Copies merge without loss or duplication**: after any operations the ids in the list of
every conversation are distinct, and are those delivered for it since its last clear; and an
operation changes the list of its own conversation only. -/
theorem messages_exact (dateParse : JsString → JsDate) (ops : List StoreOp) (c : JsString) :
    (((runStore dateParse ops).messagesOf c).map SerializedMessage._id).Nodup ∧
      (∀ id, id ∈ ((runStore dateParse ops).messagesOf c).map SerializedMessage._id ↔
        id ∈ deliveredSinceClear c ops) ∧
      ∀ op : StoreOp, op.conversationId ≠ c →
        (op.apply dateParse (runStore dateParse ops)).messagesOf c =
          (runStore dateParse ops).messagesOf c := by
  have h := holds_runStore dateParse ops c
  exact ⟨h.nodup, h.mem, fun op hop => messagesOf_apply_of_ne hop _⟩

/-- A message with the id. -/
def copiedMessage (id : JsString) : Message := ⟨id, js "a", js "b", js "hi", js "", js ""⟩

/-- A message from the socket and in a page, which has another one as well; the list is cleared, and
the second one comes twice. -/
def copiesRun : List StoreOp :=
  [.append (js "a") (copiedMessage (js "1")),
    .merge (js "a") [copiedMessage (js "1"), copiedMessage (js "2")],
    .clear (js "a"), .append (js "a") (copiedMessage (js "2")),
    .merge (js "a") [copiedMessage (js "2")]]

/-- Both messages before the list is cleared, and the second one after it; clearing another
conversation leaves the list. -/
theorem messages_exact_sample :
    let ids (ops : List StoreOp) :=
      ((runStore (fun _ => none) ops).messagesOf (js "a")).map SerializedMessage._id
    (ids (copiesRun.take 2)).Nodup ∧ js "1" ∈ ids (copiesRun.take 2) ∧
      js "2" ∈ ids (copiesRun.take 2) ∧ (ids copiesRun).Nodup ∧ js "1" ∉ ids copiesRun ∧
      js "2" ∈ ids copiesRun ∧
      ((StoreOp.clear (js "b")).apply (fun _ => none)
        (runStore (fun _ => none) copiesRun)).messagesOf (js "a") =
          (runStore (fun _ => none) copiesRun).messagesOf (js "a") := by
  obtain ⟨hnodup, hmem, -⟩ := messages_exact (fun _ => none) (copiesRun.take 2) (js "a")
  obtain ⟨hnodup', hmem', hother⟩ := messages_exact (fun _ => none) copiesRun (js "a")
  exact ⟨hnodup, (hmem _).mpr (by decide), (hmem _).mpr (by decide), hnodup',
    fun h => absurd ((hmem' _).mp h) (by decide), (hmem' _).mpr (by decide),
    hother (.clear (js "b")) (by decide)⟩

end MernChat
