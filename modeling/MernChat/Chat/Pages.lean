import MernChat.Chat.Pagination

/-!
# What a page holds

A request names a conversation, a number of messages and possibly a key. Its page is the messages
of the conversation with the greatest keys below that key, in increasing order, and tells
whether there are messages below them.

## Main definitions

* `CursorKey`: the key a cursor stands for
* `availableMessages`: the messages a page may be made of

## Main results

* `findMessagesByConversation_greatest`: the page of a request
-/

namespace MernChat

open Library

variable {db : Database}

/-- The cursor stands for the key: its date in whole milliseconds and its id. Without a cursor there
is no key. -/
def CursorKey : Option MessageCursor → Option (Int ×ₗ Uuid) → Prop
  | none, none => True
  | some cursor, some key =>
    ∃ ms id, parseISOString cursor.createdAt = some ms ∧ MIN_TIMESTAMP ≤ ms ∧
      Uuid.parse cursor.id = some id ∧ key = toLex (pgTimestamp ms, id)
  | _, _ => False

/-- The messages of a conversation with keys below `bound`, or all of them. -/
def availableMessages (rows : List MessageRow) (c : Uuid) (bound : Option (Int ×ₗ Uuid)) :
    List MessageRow :=
  rows.filter fun row => row.conversationId == c && bound.all fun b => decide (messageKey row < b)

/-- The parameters of a cursor that stands for a key are that key. -/
theorem readBound_of_cursorKey {cursor : Option MessageCursor} {bound : Option (Int ×ₗ Uuid)}
    (h : CursorKey cursor bound) (db : Database) : readBound cursor db = .ok (bound, db) := by
  match cursor, bound, h with
  | none, none, _ => rfl
  | some cursor, some key, ⟨ms, id, hdate, hmin, hid, hkey⟩ =>
    have hread : readCursor cursor db = .ok (key, db) := by
      unfold readCursor
      rw [Tx.bind_of_ok (Tx.ofOption_eq_ok.mpr ⟨hdate, rfl⟩),
        Tx.bind_of_ok (a := ()) (constraint_eq_ok.mpr ⟨hmin, rfl⟩),
        Tx.bind_of_ok (readUuid_eq_ok.mpr ⟨hid, rfl⟩), hkey]
      rfl
    show (readCursor cursor >>= fun key => pure (some key)) db = _
    rw [Tx.bind_of_ok hread]
    rfl

/-- The query reads the available messages, newest first. -/
theorem pairwise_rowsBefore (h : (db.messages.map MessageRow.id).Nodup) (c : Uuid)
    (bound : Option (Int ×ₗ Uuid)) :
    (rowsBefore db.messages c bound).Pairwise fun a b => messageKey b < messageKey a := by
  have hkeys : ((availableMessages db.messages c bound).map messageKey).Nodup :=
    (nodup_map_messageKey h).sublist (List.filter_sublist.map _)
  exact List.pairwise_reverse.mpr (pairwise_lt_sortBy hkeys)

theorem perm_rowsBefore (rows : List MessageRow) (c : Uuid) (bound : Option (Int ×ₗ Uuid)) :
    (rowsBefore rows c bound).Perm (availableMessages rows c bound) :=
  (List.reverse_perm _).trans (perm_sortBy messageKey _)

/-- **What a page holds.** The page of a conversation, with a cursor that stands for a key or
without one, is the messages with the greatest keys below it, as many as the limit between 1
and 100 says or as there are, in increasing order; there is one such list. `hasMore` tells whether a
message of the conversation lies below them all. -/
theorem findMessagesByConversation_greatest (hids : (db.messages.map MessageRow.id).Nodup)
    {conversationId : JsString} {c : Uuid} (hc : Uuid.parse conversationId = some c)
    {cursor : Option MessageCursor} {bound : Option (Int ×ₗ Uuid)} (hkey : CursorKey cursor bound)
    (limit : Int) :
    ∃ page rows, findMessagesByConversation conversationId limit cursor db = .ok (page, db) ∧
      page.messages = rows.map mapMessage ∧
      (∀ rows', Greatest messageKey (availableMessages db.messages c bound) rows'
        (boundedLimit limit) ↔ rows' = rows) ∧
      (page.hasMore = true ↔ ∃ b ∈ availableMessages db.messages c bound,
        ∀ a ∈ rows, messageKey b < messageKey a) := by
  have hperm := perm_rowsBefore db.messages c bound
  have hpage : Greatest messageKey (availableMessages db.messages c bound)
      ((rowsBefore db.messages c bound).take (boundedLimit limit)).reverse (boundedLimit limit) :=
    (greatest_reverse_take (pairwise_rowsBefore hids c bound) _).of_perm hperm
  have hnodup : (availableMessages db.messages c bound).Nodup :=
    hids.of_map.filter _
  refine ⟨_, _, findMessagesByConversation_eq hc (readBound_of_cursorKey hkey db) limit,
    List.map_reverse.symm, ?_, ?_⟩
  · intro rows'
    constructor
    · exact fun h => h.unique hpage
    · rintro rfl
      exact hpage
  · rw [decide_eq_true_iff, hperm.length_eq]
    exact (hpage.exists_lt_iff hnodup).symm

/-- Of two messages in a second, the page before the newer one is the older one. -/
theorem findMessagesByConversation_greatest_sample :
    ∃ page rows, findMessagesByConversation (sampleId 0x10).toText 5
        (some { createdAt := js "2026-01-01T00:00:00.900Z", id := (sampleId 2).toText })
        (sampleTables [sampleMessage 1 100000, sampleMessage 2 900000]) =
          .ok (page, sampleTables [sampleMessage 1 100000, sampleMessage 2 900000]) ∧
      page.messages = rows.map mapMessage ∧ rows = [sampleMessage 1 100000] := by
  have hids : ((sampleTables [sampleMessage 1 100000, sampleMessage 2 900000]).messages.map
      MessageRow.id).Nodup := by decide +kernel
  have hkey : CursorKey
      (some { createdAt := js "2026-01-01T00:00:00.900Z", id := (sampleId 2).toText })
      (some (messageKey (sampleMessage 2 900000))) :=
    ⟨1767225600900, sampleId 2, by decide +kernel, by decide, Uuid.parse_toText _,
      by decide +kernel⟩
  obtain ⟨page, rows, hpage, hrows, hgreatest, -⟩ :=
    findMessagesByConversation_greatest hids (Uuid.parse_toText (sampleId 0x10)) hkey 5
  refine ⟨page, rows, hpage, hrows, ?_⟩
  have havailable : availableMessages
      (sampleTables [sampleMessage 1 100000, sampleMessage 2 900000]).messages (sampleId 0x10)
      (some (messageKey (sampleMessage 2 900000))) = [sampleMessage 1 100000] := by
    decide +kernel
  rw [havailable] at hgreatest
  exact ((hgreatest _).mp (greatest_reverse_take (List.pairwise_singleton _ _) _)).symm

end MernChat
