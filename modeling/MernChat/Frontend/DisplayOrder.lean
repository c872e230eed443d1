import MernChat.Chat.MessageHistory
import MernChat.Frontend.ConversationStore

/-!
# The order of the messages on the screen

The server orders the messages of a conversation by `(created_at, id)`. The client sorts by the
serialized `createdAt`, which has whole seconds, and only when it merges a history page. So a
message that arrives after one the server puts behind it stays behind it: until the next page,
and for good if the two have one `createdAt`.

## Main definitions

* `ReadsISO`: a parser of dates that reads what `toISOString` prints
* `serializedTime`: the time of a message as it is serialized
* `deliveryOp`: the operation a delivery of messages amounts to
* `EndsInOrder`: every pair of messages is delivered such that it ends in the server's order

## Main results

* `messagesOf_deliveries`: the list of a conversation after some deliveries
* `displayed_in_order_iff`: when the list is in the server's order
-/

namespace MernChat

open Library

/-- `new Date(text)` reads what `toISOString` prints. -/
def ReadsISO (dateParse : JsString → JsDate) : Prop :=
  ∀ t, -MAX_TIME ≤ t → t ≤ MAX_TIME → dateParse (isoText t) = some t

theorem readsISO_parseISOString : ReadsISO parseISOString :=
  fun _ h h' => parseISOString_isoText ⟨h, h'⟩

/-- The time of the serialized `createdAt`. -/
def serializedTime (row : MessageRow) : Int := (readTimestamp row.createdAt).getD 0

/-- The messages as the client gets them: each row of the history has its copy. -/
structure Served (history : List MessageRow) (receiver : MessageRow → JsString)
    (copy : MessageRow → Message) : Prop where
  distinct : (history.map MessageRow.id).Nodup
  copy_eq : ∀ row ∈ history, serializeMessage (mapMessage row) (receiver row) = some (copy row)

/-- A history page is merged, a message from the socket or a send is appended. -/
def deliveryOp (c : JsString) (copy : MessageRow → Message) : Delivery MessageRow → StoreOp
  | .batch rows => .merge c (rows.map copy)
  | .one row => .append c (copy row)

/-- Two messages end in the server's order: where they differ in `createdAt` and a page came
when both were there, that order is the order of `createdAt`; otherwise it is the order in
which they arrived. -/
def EndsInOrder (ds : List (Delivery MessageRow)) : Prop :=
  ∀ x ∈ arrivals ds, ∀ y ∈ arrivals ds, messageKey x < messageKey y →
    EndsBefore serializedTime ds x y

instance (ds : List (Delivery MessageRow)) : Decidable (EndsInOrder ds) :=
  inferInstanceAs (Decidable (∀ x ∈ arrivals ds, ∀ y ∈ arrivals ds, _))

section Served

variable {dateParse : JsString → JsDate} {history : List MessageRow}
  {receiver : MessageRow → JsString} {copy : MessageRow → Message}

/-- What is served carries the id of its row and the printed time. -/
theorem Served.fields (h : Served history receiver copy) {row : MessageRow} (hrow : row ∈ history) :
    (copy row)._id = row.id.toText ∧ (copy row).createdAt = isoText (serializedTime row) ∧
      ∃ t, readTimestamp row.createdAt = some t ∧ serializedTime row = t := by
  have hcopy := h.copy_eq row hrow
  unfold serializeMessage toISOString at hcopy
  obtain ⟨createdAt, hcreated, hcopy⟩ := Option.bind_eq_some_iff.mp hcopy
  obtain ⟨updatedAt, -, hcopy⟩ := Option.bind_eq_some_iff.mp hcopy
  obtain ⟨t, ht, rfl⟩ := Option.map_eq_some_iff.mp hcreated
  have htime : serializedTime row = t := by
    rw [serializedTime, show readTimestamp row.createdAt = some t from ht]
    rfl
  have hmessage := Option.some.inj hcopy
  exact ⟨by rw [← hmessage]; rfl, by rw [← hmessage, htime], t, ht, htime⟩

/-- The copies are told apart by their ids. -/
theorem Served.id_injective (h : Served history receiver copy) :
    ∀ x ∈ history, ∀ y ∈ history, (copy x)._id = (copy y)._id → x = y := by
  intro x hx y hy hxy
  rw [(h.fields hx).1, (h.fields hy).1] at hxy
  exact eq_of_key h.distinct hx hy (Uuid.toText_injective hxy)

/-- The comparison of the sort compares the serialized times. -/
theorem Served.sortsBefore_eq (h : Served history receiver copy) (hparse : ReadsISO dateParse)
    {x y : MessageRow} (hx : x ∈ history) (hy : y ∈ history) :
    sortsBefore dateParse (copy x) (copy y) = decide (serializedTime x ≤ serializedTime y) := by
  have htime : ∀ row ∈ history,
      dateParse (copy row).createdAt = some (serializedTime row) := by
    intro row hrow
    obtain ⟨-, hcreated, t, ht, htime⟩ := h.fields hrow
    -- a time that was read from a row is one that `toISOString` prints
    obtain ⟨hlow, hhigh, -⟩ := readTimestamp_bounds ht
    rw [hcreated, htime]
    apply hparse t _ hhigh
    simp only [YEAR_0, DAY, MAX_TIME] at hlow ⊢
    omega
  simp only [sortsBefore, htime x hx, htime y hy]
  rw [decide_eq_decide]
  omega

/-- **A merge** of served messages collects them by id and sorts them by their time. -/
theorem Served.mergeUniqueMessages_eq (h : Served history receiver copy)
    (hparse : ReadsISO dateParse) {l rows : List MessageRow} (hl : ∀ y ∈ l, y ∈ history)
    (hnodup : l.Nodup) (hrows : ∀ y ∈ rows, y ∈ history) :
    mergeUniqueMessages dateParse (l.map copy) (rows.map copy) =
      (sortByRank serializedTime (rows.foldl (insertNew id) l)).map copy := by
  -- what is there has distinct ids, and stays as it is
  have hself : (l.map copy).foldl (upsert SerializedMessage._id) [] = l.map copy := by
    have hnil := foldl_upsert_map h.id_injective (l := []) (by simp) hl
    rw [List.map_nil] at hnil
    rw [hnil, foldl_insertNew_self hnodup]
  have hmem : ∀ y ∈ rows.foldl (insertNew id) l, y ∈ history := by
    intro y hy
    exact (mem_foldl_insertNew.mp hy).elim (hl y) (hrows y)
  unfold mergeUniqueMessages
  rw [hself, foldl_upsert_map h.id_injective hl hrows]
  symm
  apply List.map_mergeSort
  intro x hx y hy
  exact (h.sortsBefore_eq hparse (hmem x hx) (hmem y hy)).symm

/-- **The list of a conversation** after some deliveries. -/
theorem messagesOf_deliveries (h : Served history receiver copy) (hparse : ReadsISO dateParse)
    (c : JsString) (ds : List (Delivery MessageRow)) (hds : ∀ x ∈ arrivals ds, x ∈ history) :
    (runStore dateParse (ds.map (deliveryOp c copy))).messagesOf c =
      (display serializedTime ds).map copy := by
  induction ds using List.reverseRecOn with
  | nil => rfl
  | append_singleton ds d ih =>
    simp only [arrivals_append, mem_foldl_insertNew] at hds
    have hold : ∀ x ∈ arrivals ds, x ∈ history := fun x hx => hds x (Or.inl hx)
    have hl : ∀ x ∈ display serializedTime ds, x ∈ history := fun x hx =>
      hold x ((perm_display ds).mem_iff.mp hx)
    have hrun : runStore dateParse ((ds ++ [d]).map (deliveryOp c copy)) =
        (deliveryOp c copy d).apply dateParse
          (runStore dateParse (ds.map (deliveryOp c copy))) := by
      simp [runStore]
    rw [hrun]
    cases d with
    | batch rows =>
      have hrows : ∀ y ∈ rows, y ∈ history := fun y hy => hds y (Or.inr hy)
      rw [deliveryOp, StoreOp.apply, messagesOf_mergeMessages, if_pos rfl, ih hold,
        display_append_batch]
      exact h.mergeUniqueMessages_eq hparse hl (nodup_display ds) hrows
    | one row =>
      have hrow : row ∈ history := hds row (Or.inr (List.mem_singleton_self row))
      rw [deliveryOp, StoreOp.apply, messagesOf_appendMessage, if_pos rfl, ih hold,
        display_append_one]
      exact insertNew_map h.id_injective hl hrow

end Served

/-- The messages delivered, in the server's order. -/
def inServerOrder (copy : MessageRow → Message) (ds : List (Delivery MessageRow)) : List Message :=
  (sortBy messageKey (arrivals ds)).map copy

/-- **When the screen shows the server's order**: exactly when every pair of messages is
delivered such that it ends in that order. Then any two deliveries of the same messages end in
the same list. -/
theorem displayed_in_order_iff {dateParse : JsString → JsDate} (hparse : ReadsISO dateParse)
    {history : List MessageRow} {receiver : MessageRow → JsString} {copy : MessageRow → Message}
    (h : Served history receiver copy) (c : JsString) {ds ds' : List (Delivery MessageRow)}
    (hds : ∀ x ∈ arrivals ds, x ∈ history) (hds' : ∀ x, x ∈ arrivals ds' ↔ x ∈ arrivals ds) :
    ((runStore dateParse (ds.map (deliveryOp c copy))).messagesOf c = inServerOrder copy ds ↔
      EndsInOrder ds) ∧
    (EndsInOrder ds → EndsInOrder ds' →
      (runStore dateParse (ds.map (deliveryOp c copy))).messagesOf c =
        (runStore dateParse (ds'.map (deliveryOp c copy))).messagesOf c) := by
  have hkey : ∀ x ∈ history, ∀ y ∈ history, messageKey x = messageKey y → x = y := by
    intro x hx y hy hxy
    have hid : x.id = y.id := congrArg (fun k => (ofLex k).2) hxy
    exact eq_of_key h.distinct hx hy hid
  have hcopy : ∀ x ∈ history, ∀ y ∈ history, copy x = copy y → x = y := fun x hx y hy hxy =>
    h.id_injective x hx y hy (congrArg SerializedMessage._id hxy)
  have hlist : ∀ es : List (Delivery MessageRow), (∀ x ∈ arrivals es, x ∈ history) →
      ((runStore dateParse (es.map (deliveryOp c copy))).messagesOf c = inServerOrder copy es ↔
        EndsInOrder es) := by
    intro es hes
    have hmem : ∀ x ∈ display serializedTime es, x ∈ history := fun x hx =>
      hes x ((perm_display es).mem_iff.mp hx)
    have hiff : display serializedTime es = sortBy messageKey (arrivals es) ↔ EndsInOrder es :=
      display_eq_sortBy_iff fun x hx y hy => hkey x (hes x hx) y (hes y hy)
    rw [messagesOf_deliveries h hparse c es hes, inServerOrder]
    refine Iff.trans ⟨fun heq => ?_, fun heq => by rw [heq]⟩ hiff
    -- rows with equal copies are equal
    apply eq_of_map_key _ heq
    intro x hx y hy
    exact hcopy x (hmem x hx) y (hes y (mem_sortBy.mp hy))
  refine ⟨hlist ds hds, fun hord hord' => ?_⟩
  have hperm : (arrivals ds').Perm (arrivals ds) :=
    (List.perm_ext_iff_of_nodup (nodup_arrivals ds') (nodup_arrivals ds)).mpr hds'
  -- the server's order of the same messages is one list
  have hsort : sortBy messageKey (arrivals ds') = sortBy messageKey (arrivals ds) := by
    apply eq_sortBy _ ((perm_sortBy messageKey _).trans hperm)
    apply pairwise_lt_sortBy
    apply List.Nodup.map_on _ (nodup_arrivals ds')
    intro x hx y hy
    exact hkey x (hds x ((hds' x).mp hx)) y (hds y ((hds' y).mp hy))
  rw [(hlist ds hds).mpr hord, (hlist ds' fun x hx => hds x ((hds' x).mp hx)).mpr hord',
    inServerOrder, inServerOrder, hsort]

/-- A message `n` of a conversation of the users 1 and 2, `us` microseconds into the year 2026. -/
def shownRow (n sender : Nat) (us : Int) : MessageRow where
  id := Uuid.ofNat n
  conversationId := Uuid.ofNat 0x10
  senderId := Uuid.ofNat sender
  content := js "hi"
  createdAt := 1767225600000000 + us
  updatedAt := 1767225600000000 + us

/-- The other user of the conversation. -/
def shownReceiver (row : MessageRow) : JsString :=
  if row.senderId = Uuid.ofNat 1 then (Uuid.ofNat 2).toText else (Uuid.ofNat 1).toText

def shownCopy (row : MessageRow) : Message where
  _id := row.id.toText
  senderId := row.senderId.toText
  receiverId := shownReceiver row
  message := row.content
  createdAt := isoText (serializedTime row)
  updatedAt := isoText (serializedTime row)

theorem served_shownRows :
    Served [shownRow 3 2 0, shownRow 4 1 1000000] shownReceiver shownCopy where
  distinct := by decide +kernel
  copy_eq := by decide +kernel

/-- The older message arrives last, in a page with the newer one; and first. -/
theorem displayed_in_order_iff_sample :
    ((runStore parseISOString ([.one (shownRow 4 1 1000000),
        .batch [shownRow 3 2 0, shownRow 4 1 1000000]].map
          (deliveryOp (Uuid.ofNat 1).toText shownCopy))).messagesOf (Uuid.ofNat 1).toText =
      inServerOrder shownCopy [.one (shownRow 4 1 1000000),
        .batch [shownRow 3 2 0, shownRow 4 1 1000000]]) ∧
    (runStore parseISOString ([.one (shownRow 4 1 1000000),
        .batch [shownRow 3 2 0, shownRow 4 1 1000000]].map
          (deliveryOp (Uuid.ofNat 1).toText shownCopy))).messagesOf (Uuid.ofNat 1).toText =
      (runStore parseISOString ([.one (shownRow 3 2 0), .one (shownRow 4 1 1000000)].map
          (deliveryOp (Uuid.ofNat 1).toText shownCopy))).messagesOf (Uuid.ofNat 1).toText := by
  have hshown : ∀ x ∈ arrivals [.one (shownRow 4 1 1000000),
      .batch [shownRow 3 2 0, shownRow 4 1 1000000]],
      x ∈ [shownRow 3 2 0, shownRow 4 1 1000000] := by decide +kernel
  have hsame : ∀ x, x ∈ arrivals [.one (shownRow 3 2 0), .one (shownRow 4 1 1000000)] ↔
      x ∈ arrivals [.one (shownRow 4 1 1000000),
        .batch [shownRow 3 2 0, shownRow 4 1 1000000]] := by
    have harr : arrivals [.one (shownRow 4 1 1000000),
        .batch [shownRow 3 2 0, shownRow 4 1 1000000]] =
          [shownRow 4 1 1000000, shownRow 3 2 0] := by decide +kernel
    have harr' : arrivals [.one (shownRow 3 2 0), .one (shownRow 4 1 1000000)] =
        [shownRow 3 2 0, shownRow 4 1 1000000] := by decide +kernel
    intro x
    rw [harr, harr', List.mem_pair, List.mem_pair, or_comm]
  have h := displayed_in_order_iff readsISO_parseISOString served_shownRows (Uuid.ofNat 1).toText
    hshown hsame
  exact ⟨h.1.mpr (by decide +kernel), h.2 (by decide +kernel) (by decide +kernel)⟩

/-- The answer to a send of the user 2 comes after a newer message from the socket: the list ends in
the order of arrival, and two orders of delivery end in two lists. -/
theorem displayed_out_of_order :
    ∃ ds ds' : List (Delivery MessageRow),
      (∀ x, x ∈ arrivals ds' ↔ x ∈ arrivals ds) ∧
      (∀ x ∈ arrivals ds, x ∈ [shownRow 3 2 0, shownRow 4 1 1000000]) ∧
      (runStore parseISOString (ds.map (deliveryOp (Uuid.ofNat 1).toText shownCopy))).messagesOf
        (Uuid.ofNat 1).toText ≠ inServerOrder shownCopy ds ∧
      (runStore parseISOString (ds.map (deliveryOp (Uuid.ofNat 1).toText shownCopy))).messagesOf
        (Uuid.ofNat 1).toText ≠
      (runStore parseISOString (ds'.map (deliveryOp (Uuid.ofNat 1).toText shownCopy))).messagesOf
        (Uuid.ofNat 1).toText := by
  refine ⟨[.one (shownRow 4 1 1000000), .one (shownRow 3 2 0)],
    [.one (shownRow 3 2 0), .one (shownRow 4 1 1000000)], ?_, ?_, ?_, ?_⟩
  · intro x
    rw [mem_arrivals, mem_arrivals]
    simp [Delivery.values, or_comm]
  · decide +kernel
  · decide +kernel
  · decide +kernel

end MernChat
