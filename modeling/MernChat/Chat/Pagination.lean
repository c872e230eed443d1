import MernChat.Chat.Atomicity
import MernChat.Chat.MessageHistory
import MernChat.Library.Keyset

/-!
# Reading a conversation page by page

A client reads the newest page, then the page before its cursor, and so on, putting each page
before the ones it has. Meanwhile newer messages are stored. The cursor is made of the date of
the oldest message of the page as the repository read it, to the second, while the query
compares the column itself; and an id must match the application's regular expression.

## Main definitions

* `History`: the tables at each request of a traversal
* `History.followCursors`: the pages the client is given
* `History.Complete`: they are the messages at the first request, each once and in order
* `PagesSeparated`: what every page boundary needs

## Main results

* `pagination_complete_iff`: a traversal is complete exactly when the boundaries of its pages are
  separated
* `pagination_loses_message`: two messages within a second, of which the older is never read
-/

namespace MernChat

open Library

variable {db : Database}

/-! ## The traversal -/

/-- The messages of a conversation, newest first. -/
def newestFirst (db : Database) (c : Uuid) : List MessageRow :=
  (sortBy messageKey (db.messages.filter fun row => row.conversationId == c)).reverse

/-- The tables at each request of a traversal, in which `senderId` reads the conversation with
`chatUserId`. Between the requests the tables change: the conversation stays, and messages it
gains are newer than those it had at the first request. -/
structure History where
  senderId : JsString
  chatUserId : JsString
  tables : Nat → Database
  conversation : ConversationRow
  distinct : senderId ≠ chatUserId
  user : ∀ k, ∃ v, Uuid.parse chatUserId = some v ∧ (tables k).hasUser v = true
  found : ∀ k, (tables k).conversationFor senderId chatUserId = some conversation
  ids : ∀ k, ((tables k).messages.map MessageRow.id).Nodup
  newer : ∀ k, ∃ rows,
    (newestFirst (tables k) conversation.id).Perm (newestFirst (tables 0) conversation.id ++ rows) ∧
      ∀ r ∈ rows, ∀ m ∈ newestFirst (tables 0) conversation.id, messageKey m < messageKey r

namespace History

variable (hist : History) (limit : Int)

/-- The messages at request `k`, newest first. -/
def rows (k : Nat) : List MessageRow := newestFirst (hist.tables k) hist.conversation.id

def request (cursor : Option JsString) : GetMessagesInput where
  senderId := hist.senderId
  chatUserId := hist.chatUserId
  limit := limit
  cursor := cursor

/-- The pages from request `k` on, following `nextCursor` until `hasMore` is false. A request that
throws ends the traversal without a result, as does running out of fuel. -/
def followCursors : Nat → Nat → Option JsString → Option (List MessagePageResult)
  | 0, _, _ => none
  | fuel + 1, k, cursor =>
    match (exec (getMessages (hist.request limit cursor)) (hist.tables k)).1 with
    | .error _ => none
    | .ok page =>
      if page.hasMore then
        (followCursors fuel (k + 1) page.nextCursor).map fun pages => page :: pages
      else some [page]

/-- **The traversal is complete**: it ends, and the pages, each put before the previous ones, are
the messages at the first request in increasing order. -/
def Complete : Prop :=
  ∃ fuel pages, hist.followCursors limit fuel 0 none = some pages ∧
    (pages.reverse.flatMap MessagePageResult.messages).map SerializedMessage._id =
      (hist.rows 0).reverse.map fun row => row.id.toText

end History

/-- What a traversal needs of the messages, newest first: their dates can be read, and where a page
ends at `a` with `b` before it, the regular expression accepts the id of `a`, and its date as it
was read separates the two. -/
structure PagesSeparated (limit : Nat) (rows : List MessageRow) : Prop where
  readable : ∀ row ∈ rows,
    (readTimestamp row.createdAt).isSome = true ∧ (readTimestamp row.updatedAt).isSome = true
  boundary : ∀ j a b, 0 < j → rows[j * limit - 1]? = some a → rows[j * limit]? = some b →
    isUuid a.id.toText = true ∧ ∃ ms, readTimestamp a.createdAt = some ms ∧
      messageKey b < toLex (pgTimestamp ms, a.id) ∧ toLex (pgTimestamp ms, a.id) ≤ messageKey a

/-! ## Messages as rows to be paged -/

def readableRow (row : MessageRow) : Bool :=
  (readTimestamp row.createdAt).isSome && (readTimestamp row.updatedAt).isSome

/-- The bound that the cursor made of `row` stands for. -/
def cursorBound (row : MessageRow) : Option (Int ×ₗ Uuid) :=
  if isUuid row.id.toText then
    (readTimestamp row.createdAt).map fun ms => toLex (pgTimestamp ms, row.id)
  else none

/-- Messages in pages of `limit`. -/
def messagePaging (limit : Nat) : Paging MessageRow (Int ×ₗ Uuid) where
  key := messageKey
  readable := readableRow
  cursor := cursorBound
  limit := limit

theorem traversable_messagePaging {limit : Nat} {rows : List MessageRow} :
    (messagePaging limit).Traversable rows ↔ PagesSeparated limit rows := by
  have hsep : ∀ a b, (messagePaging limit).Separates a b ↔
      isUuid a.id.toText = true ∧ ∃ ms, readTimestamp a.createdAt = some ms ∧
        messageKey b < toLex (pgTimestamp ms, a.id) ∧
          toLex (pgTimestamp ms, a.id) ≤ messageKey a := by
    intro a b
    show (∃ c, cursorBound a = some c ∧ messageKey b < c ∧ c ≤ messageKey a) ↔ _
    unfold cursorBound
    by_cases hid : isUuid a.id.toText = true
    · simp only [hid, if_true, true_and, Option.map_eq_some_iff]
      constructor
      · rintro ⟨_, ⟨ms, hms, rfl⟩, hb, ha⟩
        exact ⟨ms, hms, hb, ha⟩
      · rintro ⟨ms, hms, hb, ha⟩
        exact ⟨_, ⟨ms, hms, rfl⟩, hb, ha⟩
    · simp [hid]
  constructor
  · rintro ⟨hread, hboundary⟩
    refine ⟨?_, fun j a b hj ha hb => (hsep a b).mp (hboundary j a b hj ha hb)⟩
    intro row hrow
    have h : readableRow row = true := hread row hrow
    rwa [readableRow, Bool.and_eq_true] at h
  · rintro ⟨hread, hboundary⟩
    refine ⟨?_, fun j a b hj ha hb => (hsep a b).mpr (hboundary j a b hj ha hb)⟩
    intro row hrow
    show readableRow row = true
    rw [readableRow, Bool.and_eq_true]
    exact hread row hrow

theorem mem_of_mem_newestFirst {c : Uuid} {row : MessageRow} (h : row ∈ newestFirst db c) :
    row ∈ db.messages := by
  rw [newestFirst, List.mem_reverse, mem_sortBy] at h
  exact (List.mem_filter.mp h).1

/-- Distinct ids make distinct keys. -/
theorem nodup_map_messageKey {l : List MessageRow} (h : (l.map MessageRow.id).Nodup) :
    (l.map messageKey).Nodup := by
  have hid : (l.map messageKey).map (fun key => (ofLex key).2) = l.map MessageRow.id := by
    rw [List.map_map]
    rfl
  rw [← hid] at h
  exact h.of_map _

/-- The query selects among the messages of the conversation. -/
theorem rowsBefore_eq (h : (db.messages.map MessageRow.id).Nodup) (c : Uuid)
    (bound : Option (Int ×ₗ Uuid)) (limit : Nat) :
    rowsBefore db.messages c bound =
      (newestFirst db c).filter ((messagePaging limit).below bound) := by
  have hkeys : ((db.messages.filter fun row => row.conversationId == c).map messageKey).Nodup :=
    (nodup_map_messageKey h).sublist ((List.filter_sublist).map _)
  unfold newestFirst
  rw [List.filter_reverse, ← sortBy_filter hkeys, List.filter_filter, rowsBefore]
  congr 2
  apply List.filter_congr
  intro row _
  exact Bool.and_comm _ _

/-- The messages of a history grow at the new end. -/
theorem History.growing (hist : History) (limit : Nat) :
    (messagePaging limit).Growing hist.rows (hist.rows 0) := by
  have hnewest : ∀ k, (messagePaging limit).Newest (hist.rows k) := by
    intro k
    have hkeys := (nodup_map_messageKey (hist.ids k)).sublist ((List.filter_sublist
      (p := fun row => row.conversationId == hist.conversation.id)).map messageKey)
    exact List.pairwise_reverse.mpr (pairwise_lt_sortBy hkeys)
  refine ⟨hnewest, ?_⟩
  intro k
  obtain ⟨newer, hperm, hlt⟩ := hist.newer k
  refine ⟨(sortBy messageKey newer).reverse, ?_⟩
  have hkeys : ((hist.rows 0 ++ newer).map messageKey).Nodup := by
    apply ((hperm.map messageKey).nodup_iff).mp
    exact List.pairwise_map.mpr ((hnewest k).imp fun h => (ne_of_lt h).symm)
  -- what comes later sorts behind all that is there
  have hsorted : ((hist.rows 0).reverse ++ sortBy messageKey newer).Pairwise
      fun a b => messageKey a < messageKey b := by
    rw [List.map_append] at hkeys
    rw [List.pairwise_append]
    refine ⟨List.pairwise_reverse.mpr (hnewest 0), pairwise_lt_sortBy hkeys.of_append_right, ?_⟩
    intro m hm r hr
    exact hlt r (mem_sortBy.mp hr) m (List.mem_reverse.mp hm)
  have hrows : (hist.rows k).reverse = (hist.rows 0).reverse ++ sortBy messageKey newer := by
    show (sortBy messageKey _).reverse.reverse = _
    rw [List.reverse_reverse]
    symm
    apply eq_sortBy hsorted
    exact ((hist.rows 0).reverse_perm.append (perm_sortBy messageKey newer)).trans
      (hperm.symm.trans ((List.reverse_perm _).trans (perm_sortBy messageKey _)))
  rw [← List.reverse_reverse (hist.rows k), hrows, List.reverse_append, List.reverse_reverse]

/-! ## One page -/

theorem length_boundedLimit {limit : Int} (h : 1 ≤ limit ∧ limit ≤ 100) :
    boundedLimit limit = limit.toNat := by
  unfold boundedLimit
  rw [max_eq_left h.1, min_eq_left h.2]

/-- The row more that is asked for tells whether there are more. -/
theorem lt_length_page (rows : List MessageRow) (n : Nat) :
    n < ((rows.take (n + 1)).map mapMessage).length ↔ n < rows.length := by
  rw [List.length_map, List.length_take]
  omega

theorem page_of_take (rows : List MessageRow) (n : Nat) :
    (if n < rows.length then ((rows.take (n + 1)).map mapMessage).take n
      else (rows.take (n + 1)).map mapMessage) = (rows.take n).map mapMessage := by
  split_ifs with h
  · rw [← List.map_take, List.take_take, Nat.min_eq_left (Nat.le_succ n)]
  · rw [List.take_of_length_le (by omega), List.take_of_length_le (by omega)]

/-- The page of the first rows. One row more is asked for than the page holds. -/
theorem findMessagesByConversation_eq {s : JsString} {c : Uuid} {cursor : Option MessageCursor}
    {bound : Option (Int ×ₗ Uuid)} (hc : Uuid.parse s = some c)
    (hbound : readBound cursor db = .ok (bound, db)) (limit : Int) :
    findMessagesByConversation s limit cursor db = .ok
      ({ messages := (((rowsBefore db.messages c bound).take (boundedLimit limit)).map
            mapMessage).reverse
         hasMore := decide (boundedLimit limit < (rowsBefore db.messages c bound).length) },
        db) := by
  unfold findMessagesByConversation
  rw [Tx.bind_of_ok (readUuid_eq_ok.mpr ⟨hc, rfl⟩), Tx.bind_of_ok hbound]
  show Except.ok (MessagePage.mk _ _, db) = _
  simp only [decide_eq_true_eq, lt_length_page, page_of_take]

/-- A message is serialized when its dates can be printed. -/
theorem serializeMessage_eq (row : MessageRow) (receiverId : JsString) :
    (serializeMessage (mapMessage row) receiverId).map SerializedMessage._id =
      if readableRow row then some row.id.toText else none := by
  unfold serializeMessage mapMessage readableRow toISOString
  cases readTimestamp row.createdAt <;> cases readTimestamp row.updatedAt <;> rfl

/-- A page is serialized when all its messages are. -/
theorem mapM_serializeMessage (rows : List MessageRow) (receiver : PostgresMessage → JsString) :
    (((rows.map mapMessage).mapM fun message => serializeMessage message (receiver message)).map
      fun messages => messages.map SerializedMessage._id) =
        if rows.all readableRow then some (rows.map fun row => row.id.toText) else none := by
  induction rows with
  | nil => rfl
  | cons row rows ih =>
    have hrow := serializeMessage_eq row (receiver (mapMessage row))
    rw [List.map_cons, List.mapM_cons, List.all_cons]
    cases hs : serializeMessage (mapMessage row) (receiver (mapMessage row)) with
    | none =>
      rw [hs, Option.map_none] at hrow
      have hread : readableRow row = false := by
        by_contra h
        rw [if_pos (Bool.not_eq_false _ ▸ h)] at hrow
        cases hrow
      rw [hread, Bool.false_and, if_neg Bool.false_ne_true]
      rfl
    | some message =>
      rw [hs, Option.map_some] at hrow
      split_ifs at hrow with hread
      have hid := Option.some.inj hrow
      rw [hread, Bool.true_and, List.map_cons, ← hid]
      split_ifs at ih ⊢ with hall
      · obtain ⟨messages, hmessages, hids⟩ := Option.map_eq_some_iff.mp ih
        rw [hmessages, ← hids]
        rfl
      · rw [Option.map_eq_none_iff.mp ih]
        rfl

/-- What is seen of a page: its messages' ids, whether there are more, and its cursor. -/
def MessagePageResult.view (page : MessagePageResult) : List JsString × Bool × Option JsString :=
  (page.messages.map SerializedMessage._id, page.hasMore, page.nextCursor)

/-- The cursor of a page whose oldest message is `row`. -/
def rowCursor (row : MessageRow) : Option JsString :=
  (readTimestamp row.createdAt).map fun ms =>
    encodeMessageCursor { createdAt := isoText ms, id := row.id.toText }

/-- A page is returned when all its messages can be serialized. -/
theorem serializePage_view (senderId chatUserId : JsString) (limit : Int) (rows : List MessageRow)
    (hasMore : Bool) :
    (serializePage senderId chatUserId limit
      { messages := (rows.map mapMessage).reverse, hasMore }).map MessagePageResult.view =
        if rows.all readableRow then
          some ((rows.map fun row => row.id.toText).reverse, hasMore,
            if hasMore then rows.getLast?.bind rowCursor else none)
        else none := by
  have hids := mapM_serializeMessage rows.reverse fun message =>
    if message.senderId = senderId then chatUserId else senderId
  have hhead : (rows.map mapMessage).reverse.head? = rows.getLast?.map mapMessage := by
    rw [List.head?_reverse, List.getLast?_map]
  rw [List.map_reverse, List.map_reverse, List.all_reverse] at hids
  unfold serializePage
  simp only [Option.bind_eq_bind]
  by_cases hall : rows.all readableRow = true
  · rw [if_pos hall] at hids ⊢
    obtain ⟨messages, hmessages, hids⟩ := Option.map_eq_some_iff.mp hids
    rw [hmessages, Option.bind_some, hhead, ← hids]
    cases hlast : rows.getLast? with
    | none => cases hasMore <;> rfl
    | some row =>
      -- the date of the oldest message can be printed, as its page is
      have hread := List.all_eq_true.mp hall row (List.mem_of_getLast? hlast)
      rw [readableRow, Bool.and_eq_true] at hread
      obtain ⟨ms, hms⟩ := Option.isSome_iff_exists.mp hread.1
      simp only [Option.bind_some, Option.map_some, rowCursor, mapMessage, hms]
      cases hasMore <;> rfl
  · rw [if_neg hall] at hids ⊢
    rw [Option.map_eq_none_iff.mp hids]
    rfl

/-! ## Cursors -/

/-- The cursor stands for the bound. -/
structure Stands (cursor : Option JsString) (bound : Option (Int ×ₗ Uuid)) : Prop where
  decode : ∃ decoded, decodeCursor cursor = some decoded ∧
    ∀ db : Database, readBound decoded db = .ok (bound, db)

theorem Stands.none : Stands none none := ⟨Option.none, rfl, fun _ => rfl⟩

theorem decodeCursor_some {s : JsString} (h : s ≠ []) :
    decodeCursor (some s) = (decodeMessageCursor s).map some := if_neg h

theorem decodeCursor_rowCursor {row : MessageRow} {ms : Int}
    (hms : readTimestamp row.createdAt = some ms) :
    decodeCursor (rowCursor row) = if isUuid row.id.toText then
      some (some { createdAt := isoText ms, id := row.id.toText }) else none := by
  have hbounds := readTimestamp_bounds hms
  have htime : -MAX_TIME ≤ ms ∧ ms ≤ MAX_TIME := by
    simp only [YEAR_0, DAY, MAX_TIME] at hbounds ⊢
    omega
  rw [rowCursor, hms, Option.map_some]
  -- an empty cursor would be read as none
  rw [decodeCursor_some (encodeMessageCursor_ne_nil (plain_isoText ms) row.id.plain_toText),
    decodeMessageCursor_encode htime]
  split_ifs <;> rfl

/-- The cursor of a page stands for the date of its oldest message as it was read. -/
theorem stands_rowCursor {row : MessageRow} {b : Int ×ₗ Uuid} (h : cursorBound row = some b) :
    Stands (rowCursor row) (some b) := by
  unfold cursorBound at h
  split_ifs at h with hid
  obtain ⟨ms, hms, rfl⟩ := Option.map_eq_some_iff.mp h
  have hbounds := readTimestamp_bounds hms
  have hdecode := decodeCursor_rowCursor hms
  rw [if_pos hid] at hdecode
  refine ⟨_, hdecode, ?_⟩
  intro db
  have htime : -MAX_TIME ≤ ms ∧ ms ≤ MAX_TIME := by
    simp only [YEAR_0, DAY, MAX_TIME] at hbounds ⊢
    omega
  have hmin : MIN_TIMESTAMP ≤ ms := by
    simp only [YEAR_0, DAY, MIN_TIMESTAMP] at hbounds ⊢
    omega
  have hread : readCursor { createdAt := isoText ms, id := row.id.toText } db =
      .ok (toLex (pgTimestamp ms, row.id), db) := by
    unfold readCursor
    rw [Tx.bind_of_ok (Tx.ofOption_eq_ok.mpr ⟨parseISOString_isoText htime, rfl⟩),
      Tx.bind_of_ok (a := ()) (constraint_eq_ok.mpr ⟨hmin, rfl⟩),
      Tx.bind_of_ok (readUuid_eq_ok.mpr ⟨Uuid.parse_toText row.id, rfl⟩)]
    rfl
  show (readCursor _ >>= fun key => pure (some key)) db = _
  rw [Tx.bind_of_ok hread]
  rfl

/-- A page whose oldest message makes no bound gives a cursor that is rejected. -/
theorem decodeCursor_of_no_bound {row : MessageRow} (hread : readableRow row = true)
    (h : cursorBound row = none) : decodeCursor (rowCursor row) = none := by
  rw [readableRow, Bool.and_eq_true] at hread
  obtain ⟨ms, hms⟩ := Option.isSome_iff_exists.mp hread.1
  rw [decodeCursor_rowCursor hms]
  unfold cursorBound at h
  split_ifs at h ⊢ with hid
  · rw [hms] at h
    cases h
  · rfl

/-! ## Requests -/

section Requests

variable {input : GetMessagesInput} {v : Uuid}

/-- A request about a user gets as far as the conversation. -/
theorem exec_getMessages_of_user (hne : input.senderId ≠ input.chatUserId)
    (hv : Uuid.parse input.chatUserId = some v) (huser : db.hasUser v = true) {a b : Uuid}
    (hp : ParsedPair input.senderId input.chatUserId a b) :
    exec (getMessages input) db =
      match db.conversationOf a b with
      | none => (.error conversationNotFound, db)
      | some c =>
        match decodeCursor input.cursor with
        | none => (.error invalidCursor, db)
        | some cursor =>
          exec (do
            let page ← query none (findMessagesByConversation c.id.toText input.limit cursor)
            match serializePage input.senderId input.chatUserId input.limit page with
            | some result => pure result
            | none => throw invalidTime) db := by
  have hfind : exec (query none (findUserById input.chatUserId)) db =
      (.ok ((db.users.find? fun row => row.id == v).map mapUser), db) :=
    exec_query_ok rfl (findUserById_eq_ok.mpr ⟨v, hv, rfl, rfl⟩)
  have hconv : exec (query none (findDirectConversation input.senderId input.chatUserId)) db =
      (.ok ((db.conversationOf a b).map mapConversation), db) :=
    exec_query_ok rfl (selectDirectConversation_eq_ok.mpr ⟨a, b, hp.fst, hp.snd, rfl, rfl⟩)
  unfold getMessages
  rw [exec_bind_ok (exec_require_pos hne _ _), exec_bind_ok hfind,
    exec_bind_ok (exec_require_pos (hasUser_iff_find.mpr huser) _ _), exec_bind_ok hconv]
  cases db.conversationOf a b with
  | none => rfl
  | some c => cases decodeCursor input.cursor <;> rfl

end Requests

/-! ## The traversal as one of rows -/

section Traversal

variable {hist : History} {limit : Int}

/-- A request gets as far as its cursor. -/
theorem exec_getMessages (k : Nat) (cursor : Option JsString) :
    exec (getMessages (hist.request limit cursor)) (hist.tables k) =
      match decodeCursor cursor with
      | none => (.error invalidCursor, hist.tables k)
      | some decoded =>
        exec (do
          let page ← query none
            (findMessagesByConversation hist.conversation.id.toText limit decoded)
          match serializePage hist.senderId hist.chatUserId limit page with
          | some result => pure result
          | none => throw invalidTime) (hist.tables k) := by
  obtain ⟨v, hv, huser⟩ := hist.user k
  obtain ⟨a, ha, b, hb, hc⟩ : ∃ a, Uuid.parse _ = some a ∧ ∃ b, Uuid.parse _ = some b ∧
      (hist.tables k).conversationOf a b = some hist.conversation := by
    simpa only [Database.conversationFor, Option.bind_eq_some_iff] using hist.found k
  have hdistinct : (hist.request limit cursor).senderId ≠
      (hist.request limit cursor).chatUserId := hist.distinct
  have hexec := exec_getMessages_of_user hdistinct hv huser ⟨ha, hb⟩
  rw [hc] at hexec
  exact hexec

/-- A rejected cursor ends the traversal. -/
theorem followCursors_of_rejected {cursor : Option JsString} (h : decodeCursor cursor = none)
    (fuel k : Nat) : hist.followCursors limit fuel k cursor = none := by
  cases fuel with
  | zero => rfl
  | succ fuel =>
    unfold History.followCursors
    rw [exec_getMessages, h]

/-- The pages do not depend on the fuel. -/
theorem followCursors_unique {fuel fuel' k : Nat} {cursor : Option JsString}
    {pages pages' : List MessagePageResult}
    (h : hist.followCursors limit fuel k cursor = some pages)
    (h' : hist.followCursors limit fuel' k cursor = some pages') : pages = pages' := by
  induction fuel generalizing fuel' k cursor pages pages' with
  | zero => cases h
  | succ fuel ih =>
    cases fuel' with
    | zero => cases h'
    | succ fuel' =>
      unfold History.followCursors at h h'
      cases hexec : (exec (getMessages (hist.request limit cursor)) (hist.tables k)).1 with
      | error e =>
        rw [hexec] at h
        cases h
      | ok page =>
        rw [hexec] at h h'
        simp only at h h'
        split_ifs at h h' with hmore
        · obtain ⟨rest, hrest, rfl⟩ := Option.map_eq_some_iff.mp h
          obtain ⟨rest', hrest', rfl⟩ := Option.map_eq_some_iff.mp h'
          rw [ih hrest hrest']
        · exact Option.some.inj (h.symm.trans h')

/-- **A request is a step** of the traversal of the rows. -/
theorem view_getMessages (hist : History) (hlimit : 1 ≤ limit ∧ limit ≤ 100)
    {cursor : Option JsString} {bound : Option (Int ×ₗ Uuid)} (h : Stands cursor bound) (k : Nat) :
    let P := messagePaging limit.toNat
    let found := (hist.rows k).filter (P.below bound)
    let page := found.take P.limit
    (exec (getMessages (hist.request limit cursor)) (hist.tables k)).1.toOption.map
        MessagePageResult.view =
      if page.all P.readable then
        some ((page.map fun row => row.id.toText).reverse, decide (P.limit < found.length),
          if P.limit < found.length then page.getLast?.bind rowCursor else none)
      else none := by
  intro P found page
  obtain ⟨decoded, hdecode, hbound⟩ := h.decode
  have hfind := findMessagesByConversation_eq (Uuid.parse_toText hist.conversation.id)
    (hbound (hist.tables k)) limit
  rw [rowsBefore_eq (hist.ids k) _ _ limit.toNat, length_boundedLimit hlimit] at hfind
  have hview := serializePage_view hist.senderId hist.chatUserId limit page
    (decide (P.limit < found.length))
  rw [exec_getMessages, hdecode]
  show (exec (_ >>= _) _).1.toOption.map _ = _
  rw [exec_bind_ok (exec_query_ok rfl hfind)]
  simp only [decide_eq_true_eq] at hview
  refine Eq.trans ?_ hview
  show (exec (match serializePage hist.senderId hist.chatUserId limit
      { messages := (page.map mapMessage).reverse, hasMore := decide (P.limit < found.length) } with
    | some result => (pure result : Prog Database Thrown MessagePageResult)
    | none => throw invalidTime) _).1.toOption.map _ = _
  cases serializePage hist.senderId hist.chatUserId limit
      { messages := (page.map mapMessage).reverse, hasMore := decide (P.limit < found.length) } with
  | none => rfl
  | some result => rfl

/-- A request with a view has returned. -/
theorem exists_ok_of_view {α β : Type} {r : Except Thrown α} {view : α → β} {b : β}
    (h : r.toOption.map view = some b) : ∃ a, r = .ok a ∧ view a = b := by
  cases r with
  | error e => cases h
  | ok a => exact ⟨a, rfl, Option.some.inj h⟩

theorem exists_error_of_view {α β : Type} {r : Except Thrown α} {view : α → β}
    (h : r.toOption.map view = none) : ∃ e, r = .error e := by
  cases r with
  | error e => exact ⟨e, rfl⟩
  | ok a => cases h

/-- **The ids of the pages are those of the rows**, from any request on. -/
theorem followCursors_ids (hist : History) (hlimit : 1 ≤ limit ∧ limit ≤ 100) (fuel : Nat) :
    ∀ k cursor bound, Stands cursor bound →
      (hist.followCursors limit fuel k cursor).map
          (List.map fun page => page.messages.map SerializedMessage._id) =
        ((messagePaging limit.toNat).follow hist.rows fuel k bound).map
          (List.map fun page => (page.map fun row => row.id.toText).reverse) := by
  induction fuel with
  | zero =>
    intro k cursor bound _
    rfl
  | succ fuel ih =>
    intro k cursor bound h
    have hview := view_getMessages hist hlimit h k
    simp only at hview
    unfold History.followCursors
    simp only [Paging.follow]
    generalize hfound : (hist.rows k).filter ((messagePaging limit.toNat).below bound) = found
      at hview ⊢
    generalize hpage : found.take (messagePaging limit.toNat).limit = page at hview ⊢
    by_cases hread : page.all (messagePaging limit.toNat).readable = true
    · rw [if_pos hread] at hview ⊢
      obtain ⟨result, hexec, hview⟩ := exists_ok_of_view hview
      obtain ⟨hids, hmore, hcursor⟩ : _ ∧ _ ∧ _ := by
        simpa only [MessagePageResult.view, Prod.mk.injEq] using hview
      rw [hexec]
      simp only [hmore, decide_eq_true_eq]
      by_cases hlt : (messagePaging limit.toNat).limit < found.length
      · -- the oldest message of the page is its last row
        rw [if_pos hlt] at hcursor
        rw [if_pos hlt, if_pos hlt]
        obtain ⟨a, ha⟩ : ∃ a, page.getLast? = some a := by
          apply Option.isSome_iff_exists.mp
          rw [List.getLast?_isSome, ← hpage, ← List.length_pos_iff, List.length_take]
          show 0 < min limit.toNat _
          omega
        rw [ha, Option.bind_some] at hcursor ⊢
        rw [hcursor]
        -- its cursor is the bound of the next request, or is rejected there
        cases hbound : cursorBound a with
        | none =>
          have hrow := List.all_eq_true.mp hread a (List.mem_of_getLast? ha)
          rw [followCursors_of_rejected (decodeCursor_of_no_bound hrow hbound),
            show (messagePaging limit.toNat).cursor a = none from hbound]
          rfl
        | some b =>
          have hnext := ih (k + 1) (rowCursor a) (some b) (stands_rowCursor hbound)
          rw [show (messagePaging limit.toNat).cursor a = some b from hbound, Option.bind_some]
          revert hnext
          cases hist.followCursors limit fuel (k + 1) (rowCursor a) with
          | none =>
            intro hnext
            rw [Option.map_eq_none_iff.mp hnext.symm]
            rfl
          | some pages =>
            intro hnext
            obtain ⟨rest, hrest, hpages⟩ := Option.map_eq_some_iff.mp hnext.symm
            rw [hrest, Option.map_some, Option.map_some, Option.map_some, Option.map_some,
              List.map_cons, List.map_cons, hids, hpages]
      · rw [if_neg hlt, if_neg hlt, Option.map_some, Option.map_some, List.map_singleton,
          List.map_singleton, hids]
    · -- a row that cannot be read fails the request
      rw [if_neg hread] at hview ⊢
      obtain ⟨e, herror⟩ := exists_error_of_view hview
      rw [herror]
      rfl

/-- A complete traversal is one that reads every row once. -/
theorem complete_iff_follow (hist : History) (hlimit : 1 ≤ limit ∧ limit ≤ 100) :
    hist.Complete limit ↔ ∃ fuel pages,
      (messagePaging limit.toNat).follow hist.rows fuel 0 none = some pages ∧
        pages.flatten = hist.rows 0 := by
  -- the ids of all pages, put together as the client does
  have hjoin : ∀ (pages : List MessagePageResult) (rows : List (List MessageRow)),
      pages.map (fun page => page.messages.map SerializedMessage._id) =
        rows.map (fun page => (page.map fun row => row.id.toText).reverse) →
      (pages.reverse.flatMap MessagePageResult.messages).map SerializedMessage._id =
        (rows.flatten.map fun row => row.id.toText).reverse := by
    intro pages rows h
    rw [List.map_flatMap, List.flatMap_def, List.map_reverse, h, List.map_flatten,
      List.reverse_flatten, List.map_map]
    rfl
  have hids := followCursors_ids hist hlimit
  constructor
  · rintro ⟨fuel, pages, hpages, hcomplete⟩
    have h := hids fuel 0 none none .none
    rw [hpages, Option.map_some] at h
    obtain ⟨rows, hrows, heq⟩ := Option.map_eq_some_iff.mp h.symm
    refine ⟨fuel, rows, hrows, ?_⟩
    rw [hjoin pages rows heq.symm, List.map_reverse, List.reverse_inj] at hcomplete
    refine eq_of_map_key ?_ hcomplete
    intro a ha b hb hab
    obtain ⟨page, hpage, ha⟩ := List.mem_flatten.mp ha
    obtain ⟨k, hk⟩ := Paging.mem_of_follow hrows page hpage a ha
    obtain ⟨newer, hnewer⟩ := (hist.growing limit.toNat).suffix k
    have hb' : b ∈ hist.rows k := by
      rw [hnewer]
      exact List.mem_append_right _ hb
    exact eq_of_key (hist.ids k) (mem_of_mem_newestFirst hk) (mem_of_mem_newestFirst hb')
      (Uuid.toText_injective hab)
  · rintro ⟨fuel, rows, hrows, hflat⟩
    have h := hids fuel 0 none none .none
    rw [hrows, Option.map_some] at h
    obtain ⟨pages, hpages, heq⟩ := Option.map_eq_some_iff.mp h
    refine ⟨fuel, pages, hpages, ?_⟩
    rw [hjoin pages rows heq, hflat, List.map_reverse]

end Traversal

/-! ## Completeness, exactly -/

/-- **When a traversal is complete**: exactly when every date can be read, and at each page boundary
the cursor separates the two messages. -/
theorem pagination_complete_iff (hist : History) (limit : Int) (h : 1 ≤ limit ∧ limit ≤ 100) :
    hist.Complete limit ↔ PagesSeparated limit.toNat (hist.rows 0) := by
  have hpos : 0 < (messagePaging limit.toNat).limit := by
    show 0 < limit.toNat
    omega
  rw [complete_iff_follow hist h,
    Paging.follow_flatten_iff (hist.growing limit.toNat) hpos rfl, traversable_messagePaging]

/-! ### A traversal that is complete, and one that is not -/

def sampleConversation : ConversationRow where
  id := sampleId 0x10
  memberAId := sampleId 1
  memberBId := sampleId 0xAB
  createdAt := 1767225600000000
  updatedAt := 1767225600000000

/-- Message `n` of the conversation, `us` microseconds later. -/
def sampleMessage (n : Nat) (us : Int) : MessageRow where
  id := sampleId n
  conversationId := sampleId 0x10
  senderId := sampleId 1
  content := js "hi"
  createdAt := 1767225600000000 + us
  updatedAt := 1767225600000000 + us

def sampleTables (messages : List MessageRow) : Database :=
  { sampleDatabase with conversations := [sampleConversation], messages }

theorem hasUser_sampleTables (messages : List MessageRow) :
    (sampleTables messages).hasUser (sampleId 0xAB) = true := by
  have h : (sampleTables []).hasUser (sampleId 0xAB) = true := by decide +kernel
  exact h

theorem conversationFor_sampleTables (messages : List MessageRow) :
    (sampleTables messages).conversationFor (sampleId 1).toText (sampleId 0xAB).toText =
      some sampleConversation := by
  have h : (sampleTables []).conversationFor (sampleId 1).toText (sampleId 0xAB).toText =
      some sampleConversation := by decide +kernel
  exact h

/-- Two messages in seconds of their own; a third is stored after the first request. -/
def spacedMessages : Nat → List MessageRow
  | 0 => [sampleMessage 1 0, sampleMessage 2 2000000]
  | _ + 1 => [sampleMessage 1 0, sampleMessage 2 2000000, sampleMessage 3 3000000]

def spacedHistory : History where
  senderId := (sampleId 1).toText
  chatUserId := (sampleId 0xAB).toText
  tables k := sampleTables (spacedMessages k)
  conversation := sampleConversation
  distinct := by decide +kernel
  user k := ⟨sampleId 0xAB, Uuid.parse_toText _, hasUser_sampleTables _⟩
  found k := conversationFor_sampleTables _
  ids
    | 0 => by decide +kernel
    | _ + 1 => by
      show ((spacedMessages 1).map MessageRow.id).Nodup
      decide +kernel
  newer
    | 0 => ⟨[], by decide +kernel, by decide +kernel⟩
    | _ + 1 => by
      refine ⟨[sampleMessage 3 3000000], ?_, by decide +kernel⟩
      show (newestFirst (sampleTables (spacedMessages 1)) sampleConversation.id).Perm _
      decide +kernel

theorem pagination_complete_iff_sample : spacedHistory.Complete 1 := by
  have hrows : spacedHistory.rows 0 = [sampleMessage 2 2000000, sampleMessage 1 0] := by
    decide +kernel
  apply (pagination_complete_iff spacedHistory 1 (by decide)).mpr
  rw [hrows]
  refine ⟨by decide +kernel, ?_⟩
  intro j a b hj ha hb
  -- the only boundary is that after the first row
  obtain rfl : j = 1 := by
    have hlt := (List.getElem?_eq_some_iff.mp hb).1
    simp only [Int.toNat_one, Nat.mul_one, List.length_cons, List.length_nil] at hlt
    omega
  obtain rfl := Option.some.inj ha
  obtain rfl := Option.some.inj hb
  exact ⟨by decide +kernel, 1767225602000, by decide +kernel, by decide +kernel, by decide +kernel⟩

/-- Two messages within a second. -/
def crowdedHistory : History where
  senderId := (sampleId 1).toText
  chatUserId := (sampleId 0xAB).toText
  tables _ := sampleTables [sampleMessage 1 100000, sampleMessage 2 900000]
  conversation := sampleConversation
  distinct := by decide +kernel
  user _ := ⟨sampleId 0xAB, Uuid.parse_toText _, hasUser_sampleTables _⟩
  found _ := conversationFor_sampleTables _
  ids _ := by decide +kernel
  newer _ := ⟨[], by decide +kernel, by decide +kernel⟩

/-- Read one by one, the traversal ends with the older message unread. -/
theorem pagination_loses_message :
    ∃ (hist : History) (limit : Int), 1 ≤ limit ∧ limit ≤ 100 ∧ ¬ hist.Complete limit := by
  refine ⟨crowdedHistory, 1, by decide, by decide, ?_⟩
  rintro ⟨fuel, pages, hpages, hcomplete⟩
  have hrun : (crowdedHistory.followCursors 1 2 0 none).map
      (fun pages => (pages.reverse.flatMap MessagePageResult.messages).map SerializedMessage._id) =
        some [(sampleId 2).toText] := by
    decide +kernel
  obtain ⟨found, hfound, hids⟩ := Option.map_eq_some_iff.mp hrun
  rw [followCursors_unique hpages hfound, hids] at hcomplete
  revert hcomplete
  decide +kernel

end MernChat
