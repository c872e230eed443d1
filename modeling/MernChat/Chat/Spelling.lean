import MernChat.Chat.Api
import MernChat.Chat.Atomicity

/-!
# The spelling of a user id

The routes accept an id in any spelling, and the database reads it by value. The service
compares and orders the strings themselves, and the controller makes the room name and the
answer of them: an id that has a letter and belongs to a user is not treated as the value it
spells.

## Main definitions

* `FreshEnv`: a call that meets no failure, with ids that are not taken
* `SpellingIrrelevant`: nothing a request does depends on the spelling of its id

## Main results

* `spelling_irrelevant_iff`: exactly when that holds
-/

namespace MernChat

open Library Library.TransitionSystem

variable {env : SendEnv} {input : SendMessageInput} {db db' : Database} {u v : Uuid}
  {x y : JsString}

/-- The environment of a call without failures: fresh random ids, a fresh sequence number, and
clocks in the range of dates. -/
structure FreshEnv (env : SendEnv) (db : Database) : Prop where
  fault : ∀ op, env.fault op = none
  conversationId : db.hasConversation env.conversationId = false
  messageId : db.hasMessage env.messageId = false
  event : ∀ r ∈ db.outbox_events, r.id ≠ env.eventId ∧ r.sequenceNumber ≠ env.sequenceNumber
  storeAt : ModernTimestamp env.storeAt
  dateNow : -MAX_TIME ≤ env.dateNow ∧ env.dateNow ≤ MAX_TIME

/-- **Nothing depends on the spelling**: with every spelling of the id, sending a message has the
same answer, emits the same event to the same room and leaves the same tables, and reading a
page has the same answer; and the event goes to the room of the receiver's sockets. -/
structure SpellingIrrelevant (env : SendEnv) (userId : JsString) (db : Database) (x : JsString) :
    Prop where
  send : ∀ y, CaseVariant x y → ∀ correlationId message,
    sendMessageRoute env userId correlationId y message db =
      sendMessageRoute env userId correlationId x message db
  get : ∀ y, CaseVariant x y → ∀ limit cursor,
    getMessageRoute userId y limit cursor db = getMessageRoute userId x limit cursor db
  room : ∀ y, CaseVariant x y → ∀ correlationId message room payload,
    (sendMessageRoute env userId correlationId y message db).emitted = some (room, payload) →
      ∃ v, Uuid.parse y = some v ∧ room = getUserRoomName v.toText

/-! ## An id that no user has -/

/-- A user is not one that no user is. -/
theorem ne_of_not_hasUser (hu : db.hasUser u = true) (hv : db.hasUser v = false)
    (hy : Uuid.parse y = some v) : u.toText ≠ y := by
  rintro rfl
  obtain rfl := Option.some.inj ((Uuid.parse_toText u).symm.trans hy)
  rw [hu] at hv
  cases hv

theorem find_eq_none (hv : db.hasUser v = false) :
    (db.users.find? fun row => row.id == v).map mapUser = none := by
  rw [← Option.not_isSome_iff_eq_none, hasUser_iff_find, hv]
  exact Bool.false_ne_true

theorem exec_sendMessage_of_not_hasUser (hfault : env.fault .findUserById = none)
    (hne : input.senderId ≠ input.receiverId) (hy : Uuid.parse input.receiverId = some v)
    (hv : db.hasUser v = false) :
    exec (sendMessage env input) db = (.error receiverNotFound, db) := by
  have hfind : exec (query (env.fault .findUserById) (findUserById input.receiverId)) db =
      (.ok none, db) :=
    exec_query_ok hfault (findUserById_eq_ok.mpr ⟨v, hy, (find_eq_none hv).symm, rfl⟩)
  unfold sendMessage
  rw [exec_bind_ok (exec_require_pos hne _ _), exec_bind_ok hfind]
  exact exec_bind_error (exec_require_neg (by simp) _ _)

theorem exec_getMessages_of_not_hasUser {input : GetMessagesInput}
    (hne : input.senderId ≠ input.chatUserId) (hy : Uuid.parse input.chatUserId = some v)
    (hv : db.hasUser v = false) :
    exec (getMessages input) db = (.error userNotFound, db) := by
  have hfind : exec (query none (findUserById input.chatUserId)) db = (.ok none, db) :=
    exec_query_ok rfl (findUserById_eq_ok.mpr ⟨v, hy, (find_eq_none hv).symm, rfl⟩)
  unfold getMessages
  rw [exec_bind_ok (exec_require_pos hne _ _), exec_bind_ok hfind]
  exact exec_bind_error (exec_require_neg (by simp) _ _)

/-- The validations do not look at the case of letters. -/
theorem sendMessageSchema_congr (h : CaseVariant x y) (message : Option JsString) :
    sendMessageSchema y message = sendMessageSchema x message := by
  unfold sendMessageSchema
  rw [isUuid_congr h]

theorem getMessageSchema_congr (h : CaseVariant x y) (limit cursor : QueryValue) :
    getMessageSchema y limit cursor = getMessageSchema x limit cursor := by
  unfold getMessageSchema
  rw [isUuid_congr h]

/-- The requests about an id that no user has, in any spelling. -/
theorem controller_sendMessage_of_not_hasUser (hfault : env.fault .findUserById = none)
    (hu : db.hasUser u = true) (hv : db.hasUser v = false) (hy : Uuid.parse y = some v)
    (correlationId message : JsString) :
    Controller.sendMessage env u.toText correlationId y message db =
      ⟨.error (errorHandler receiverNotFound), none, db⟩ := by
  unfold Controller.sendMessage
  rw [exec_sendMessage_of_not_hasUser hfault (ne_of_not_hasUser hu hv hy) hy hv]

theorem controller_getMessage_of_not_hasUser (hu : db.hasUser u = true)
    (hv : db.hasUser v = false) (hy : Uuid.parse y = some v) (limit : Nat)
    (cursor : Option JsString) :
    Controller.getMessage u.toText y limit cursor db = .error (errorHandler userNotFound) := by
  unfold Controller.getMessage
  rw [exec_getMessages_of_not_hasUser (ne_of_not_hasUser hu hv hy) hy hv]

theorem spellingIrrelevant_of_not_hasUser (hfault : env.fault .findUserById = none)
    (hu : db.hasUser u = true) (hv : db.hasUser v = false) (hx : Uuid.parse x = some v) :
    SpellingIrrelevant env u.toText db x where
  send y h correlationId message := by
    have hy : Uuid.parse y = some v := (Uuid.parse_congr h) ▸ hx
    unfold sendMessageRoute
    rw [controller_sendMessage_of_not_hasUser hfault hu hv hy,
      controller_sendMessage_of_not_hasUser hfault hu hv hx, sendMessageSchema_congr h]
  get y h limit cursor := by
    have hy : Uuid.parse y = some v := (Uuid.parse_congr h) ▸ hx
    unfold getMessageRoute
    rw [controller_getMessage_of_not_hasUser hu hv hy,
      controller_getMessage_of_not_hasUser hu hv hx, getMessageSchema_congr h]
  room y h correlationId message room payload hemit := by
    have hy : Uuid.parse y = some v := (Uuid.parse_congr h) ▸ hx
    unfold sendMessageRoute at hemit
    rw [controller_sendMessage_of_not_hasUser hfault hu hv hy] at hemit
    split at hemit <;> cases hemit

/-! ## An id without letters -/

theorem spellingIrrelevant_of_not_hasLetter (hx : isUuid x = true) (hl : hasLetter x = false)
    (userId : JsString) : SpellingIrrelevant env userId db x where
  send y h correlationId message := by rw [h.eq_of_not_hasLetter hl]
  get y h limit cursor := by rw [h.eq_of_not_hasLetter hl]
  room y h correlationId message room payload hemit := by
    obtain ⟨v, hv, hparse⟩ := isUuid_spells hx
    obtain rfl := h.eq_of_not_hasLetter hl
    have htext := hv.eq_of_not_hasLetter hl
    refine ⟨v, hparse, ?_⟩
    unfold sendMessageRoute at hemit
    split at hemit
    · cases hemit
    · unfold Controller.sendMessage at hemit
      split at hemit
      · cases hemit
        rw [htext]
      · cases hemit

/-! ## An id with a letter, of a user -/

/-- The answer to a message is about the receiver as the client spelled it. -/
theorem receiverId_of_exec_eq_ok {result : SendMessageResult}
    (h : exec (sendMessage env input) db = (.ok result, db')) :
    result.message.receiverId = input.receiverId := by
  unfold sendMessage at h
  obtain ⟨_, _, -, h⟩ := exec_bind_eq_ok.mp h
  obtain ⟨_, _, -, h⟩ := exec_bind_eq_ok.mp h
  obtain ⟨_, _, -, h⟩ := exec_bind_eq_ok.mp h
  obtain ⟨_, _, -, h⟩ := exec_bind_eq_ok.mp h
  unfold storeAndSerialize at h
  -- the answer is serialized with the receiver of the request
  obtain ⟨newMessage, _, -, h⟩ := exec_bind_eq_ok.mp h
  cases hs : serializeMessage newMessage input.receiverId with
  | none =>
    rw [hs] at h
    cases h
  | some message =>
    rw [hs] at h
    cases h
    simp only [serializeMessage, Option.bind_eq_bind, Option.bind_eq_some_iff] at hs
    obtain ⟨_, -, _, -, hs⟩ := hs
    obtain rfl := Option.some.inj hs
    rfl

/-- With fresh ids no statement of the store fails. -/
theorem FreshEnv.storeCommits (henv : FreshEnv env db) (hu : db.hasUser u = true)
    (hsender : input.senderId = u.toText) (hreceiver : jsonbString input.receiverId = true)
    (hcontent : ∃ t, pgText (trim input.message) = some t)
    (hcorrelation : jsonbString input.correlationId = true) : StoreCommits env input db := by
  have hcommit : ∀ e, env.fault .storeCommit ≠ some (.rejected e) := by
    intro e
    rw [henv.fault]
    simp
  refine ⟨henv.fault _, henv.fault _, henv.fault _, henv.fault _, hcommit, ?_⟩
  exact {
    sender := ⟨u, by rw [hsender, Uuid.parse_toText], hu⟩
    content := hcontent
    strings := by
      rw [hsender]
      exact ⟨jsonbString_of_ascii u.ascii_toText, hreceiver, hcorrelation⟩
    messageId := henv.messageId
    fresh := henv.event
    storeAt := ⟨_, readTimestamp_of_modern henv.storeAt⟩
    dateNow := ⟨env.dateNow, by rw [timeClip, if_pos henv.dateNow]⟩ }

/-- Printed spellings are ordered as the values, so that the row passes its checks. -/
theorem exists_ordered_parsedPair (hu : db.hasUser u = true) (hv : db.hasUser v = true)
    (hne : u ≠ v) : ∃ a b, ParsedPair u.toText v.toText a b ∧ a < b ∧ db.hasUser a = true ∧
      db.hasUser b = true := by
  have hpu := Uuid.parse_toText u
  have hpv := Uuid.parse_toText v
  by_cases hlt : u.toText < v.toText
  · refine ⟨u, v, parsedPair_iff.mpr ?_, (Uuid.toText_lt_toText u v).mp hlt, hu, hv⟩
    rw [if_pos hlt]
    exact ⟨hpu, hpv⟩
  · refine ⟨v, u, parsedPair_iff.mpr ?_, ?_, hv, hu⟩
    · rw [if_neg hlt]
      exact ⟨hpv, hpu⟩
    · rw [Uuid.toText_lt_toText] at hlt
      exact lt_of_le_of_ne (not_lt.mp hlt) hne.symm

/-- With fresh ids no statement of the creation fails. -/
theorem FreshEnv.creationCommits (henv : FreshEnv env db)
    (hpair : ∃ a b, ParsedPair input.senderId input.receiverId a b ∧ a < b ∧
      db.hasUser a = true ∧ db.hasUser b = true) : CreationCommits env input db := by
  have hcommit : ∀ e, env.fault .createCommit ≠ some (.rejected e) := by
    intro e
    rw [henv.fault]
    simp
  exact ⟨henv.fault _, henv.fault _, henv.fault _, henv.fault _, henv.fault _, hcommit, hpair,
    henv.conversationId⟩

/-- A call with fresh ids, of a user who sends a text to another in the printed spelling,
returns. -/
theorem exec_sendMessage_of_fresh (hdb : db.Valid) (henv : FreshEnv env db)
    (hu : db.hasUser u = true) (hv : db.hasUser v = true) (hne : u ≠ v)
    (hsender : input.senderId = u.toText) (hreceiver : input.receiverId = v.toText)
    (hcontent : ∃ t, pgText (trim input.message) = some t)
    (hcorrelation : jsonbString input.correlationId = true) :
    ∃ result db', exec (sendMessage env input) db = (.ok result, db') := by
  have hpu : Uuid.parse input.senderId = some u := by rw [hsender, Uuid.parse_toText]
  have hpv : Uuid.parse input.receiverId = some v := by rw [hreceiver, Uuid.parse_toText]
  have htext : input.senderId ≠ input.receiverId := by
    rw [hsender, hreceiver]
    exact fun h => hne (Uuid.toText_injective h)
  have hchecks : ChecksPass env input db :=
    ⟨htext, henv.fault _, ⟨v, hpv, hv⟩, henv.fault _, ⟨u, hpu⟩⟩
  have hpair : ∃ a b, ParsedPair input.senderId input.receiverId a b ∧ a < b ∧
      db.hasUser a = true ∧ db.hasUser b = true := by
    rw [hsender, hreceiver]
    exact exists_ordered_parsedPair hu hv hne
  have hjsonb : jsonbString input.receiverId = true := by
    rw [hreceiver]
    exact jsonbString_of_ascii v.ascii_toText
  obtain ⟨_, _, _, _, _, -, -, hexec⟩ := exec_sendMessage_of_commits hdb henv.fault hchecks
    (fun _ => henv.creationCommits hpair)
    (henv.storeCommits hu hsender hjsonb hcontent hcorrelation)
  exact ⟨_, _, hexec⟩

/-- The statements of a creation for a pair that is not in the order of the values. -/
theorem createConversation_of_not_lt {a b : Uuid} (hfault : env.fault .insertConversation = none)
    (hp : ParsedPair x y a b) (hlt : ¬ a < b) :
    createConversation env x y db = .error (.database .check_violation) := by
  have hinsert : insertConversation env.conversationId (canonicalizeMemberPair x y).1
      (canonicalizeMemberPair x y).2 env.createAt db = .error (.database .check_violation) := by
    unfold insertConversation
    rw [Tx.bind_of_ok (readUuid_eq_ok.mpr ⟨hp.fst, rfl⟩),
      Tx.bind_of_ok (readUuid_eq_ok.mpr ⟨hp.snd, rfl⟩)]
    apply Tx.bind_of_error
    show (if a < b ∧ a ≠ b then pure () else throw (Thrown.database .check_violation) :
      DbTx Unit) db = _
    rw [if_neg fun h => hlt h.1]
    rfl
  unfold createConversation
  apply Tx.bind_of_error
  rw [hfault]
  exact hinsert

/-- A user's message to themselves, in another spelling, fails on the `CHECK` constraints. -/
theorem exec_sendMessage_to_self (hdb : db.Valid) (henv : FreshEnv env db)
    (hu : db.hasUser u = true) (hsender : input.senderId = u.toText)
    (hreceiver : Uuid.parse input.receiverId = some u) (hne : input.senderId ≠ input.receiverId) :
    exec (sendMessage env input) db = (.error (.database .check_violation), db) := by
  have hpu : Uuid.parse input.senderId = some u := by rw [hsender, Uuid.parse_toText]
  have hchecks : ChecksPass env input db :=
    ⟨hne, henv.fault _, ⟨u, hreceiver, hu⟩, henv.fault _, ⟨u, hpu⟩⟩
  obtain ⟨a, b, hpair⟩ := exists_parsedPair hpu hreceiver
  have hab : a = u ∧ b = u := by
    rcases hpair.users hpu hreceiver with h | h <;> exact h
  obtain ⟨rfl, rfl⟩ := hab
  -- no conversation has one user as both members
  have hnone : db.conversationFor input.senderId input.receiverId = none := by
    rw [hpair.conversationFor, Database.conversationOf_eq_none]
    intro c hc hself
    have hlt := hdb.canonical c hc
    simp only [ConversationRow.pair, Prod.mk.injEq] at hself
    rw [hself.1, hself.2] at hlt
    exact lt_irrefl _ hlt
  rw [exec_sendMessage_of_checks hchecks, hnone]
  exact exec_bind_error (exec_transaction_error (henv.fault _) (henv.fault _) (henv.fault _)
    (createConversation_of_not_lt (henv.fault _) hpair (lt_irrefl _)))

/-- A request that passes its validation reaches its handler. -/
theorem sendMessageRoute_hi (hx : isUuid x = true) (userId : JsString) :
    sendMessageRoute env userId (js "r") x (some (js "hi")) db =
      Controller.sendMessage env userId (js "r") x (js "hi") db := by
  have hschema : sendMessageSchema x (some (js "hi")) = [] := by
    unfold sendMessageSchema
    rw [hx]
    decide +kernel
  unfold sendMessageRoute
  rw [hschema]
  rfl

/-- **An id of a user is told apart** from another spelling of it that is not all lower case. -/
theorem controller_sendMessage_ne (hdb : db.Valid) (henv : FreshEnv env db)
    (hu : db.hasUser u = true) (hv : db.hasUser v = true) (hy : Uuid.parse y = some v)
    (hne : y ≠ v.toText) :
    Controller.sendMessage env u.toText (js "r") v.toText (js "hi") db ≠
      Controller.sendMessage env u.toText (js "r") y (js "hi") db := by
  have hcontent : ∃ t, pgText (trim (js "hi")) = some t := ⟨js "hi", by decide +kernel⟩
  have hcorrelation : jsonbString (js "r") = true := by decide +kernel
  intro heq
  unfold Controller.sendMessage at heq
  by_cases huv : u = v
  · -- to oneself: the string comparison sees one spelling, and the constraints the other
    subst huv
    have hself : exec (sendMessage env ⟨u.toText, u.toText, js "hi", js "r"⟩) db =
        (.error selfMessage, db) := by
      unfold sendMessage
      exact exec_bind_error (exec_require_neg (by simp) _ _)
    rw [hself, exec_sendMessage_to_self hdb henv hu rfl hy hne.symm] at heq
    revert heq
    simp only [SendEffects.mk.injEq, ApiResponse.error.injEq, and_true]
    decide +kernel
  · -- to another: the answer names the receiver in the spelling of the request
    have hreturns : ∃ r t, exec (sendMessage env ⟨u.toText, v.toText, js "hi", js "r"⟩) db =
        (.ok r, t) :=
      exec_sendMessage_of_fresh hdb henv hu hv huv rfl rfl hcontent hcorrelation
    obtain ⟨r, t, hexec⟩ := hreturns
    have hreceiver := receiverId_of_exec_eq_ok hexec
    rw [hexec] at heq
    cases hexec' : exec (sendMessage env ⟨u.toText, y, js "hi", js "r"⟩) db with
    | mk o t' =>
      rw [hexec'] at heq
      cases o with
      | ok r' =>
        have hreceiver' := receiverId_of_exec_eq_ok hexec'
        simp only [SendEffects.mk.injEq, ApiResponse.data.injEq, true_and] at heq
        rw [heq.1, hreceiver'] at hreceiver
        exact hne hreceiver
      | error e => simp at heq

/-- **When the spelling of an id does not matter**: exactly when it has no letter, or no user has
it. -/
theorem spelling_irrelevant_iff (hdb : db.Valid) (henv : FreshEnv env db)
    (hu : db.hasUser u = true) (hx : isUuid x = true) (hv : Uuid.parse x = some v) :
    SpellingIrrelevant env u.toText db x ↔ hasLetter x = false ∨ db.hasUser v = false := by
  constructor
  · intro h
    by_contra hcon
    simp only [not_or, Bool.not_eq_false] at hcon
    obtain ⟨hl, hvu⟩ := hcon
    -- of the spellings take the printed one, and one that has an upper-case letter
    obtain ⟨y, hxy, hlower⟩ := exists_caseVariant_not_lower hl
    obtain ⟨w, hw, hparse⟩ := isUuid_spells hx
    obtain rfl := Option.some.inj (hparse.symm.trans hv)
    have hy : Uuid.parse y = some w := (Uuid.parse_congr hxy) ▸ hparse
    have hne : y ≠ w.toText := by
      rintro rfl
      exact hlower (Uuid.map_asciiLower_toText w)
    have heq := (h.send w.toText hw (js "r") (some (js "hi"))).trans
      (h.send y hxy (js "r") (some (js "hi"))).symm
    rw [sendMessageRoute_hi (isUuid_congr hw ▸ hx), sendMessageRoute_hi (isUuid_congr hxy ▸ hx)]
      at heq
    exact controller_sendMessage_ne hdb henv hu hvu hy hne heq
  · rintro (hl | hvu)
    · exact spellingIrrelevant_of_not_hasLetter hx hl _
    · exact spellingIrrelevant_of_not_hasUser (henv.fault _) hu hvu hv

theorem freshEnv_sample : FreshEnv (sampleEnv fun _ => none) sampleDatabase where
  fault _ := rfl
  conversationId := by decide +kernel
  messageId := by decide +kernel
  event := by decide
  storeAt := by decide +kernel
  dateNow := by decide +kernel

/-- An id without letters, and one with letters that no user has. -/
theorem spelling_irrelevant_iff_sample :
    SpellingIrrelevant (sampleEnv fun _ => none) (sampleId 0xAB).toText sampleDatabase
      (sampleId 1).toText ∧
    hasLetter (sampleId 0xCD).toText = true ∧
      SpellingIrrelevant (sampleEnv fun _ => none) (sampleId 0xAB).toText sampleDatabase
        (sampleId 0xCD).toText := by
  have hiff : ∀ {x : JsString} {v : Uuid}, isUuid x = true → Uuid.parse x = some v →
      hasLetter x = false ∨ sampleDatabase.hasUser v = false →
        SpellingIrrelevant (sampleEnv fun _ => none) (sampleId 0xAB).toText sampleDatabase x :=
    fun hx hv => (spelling_irrelevant_iff (database_wellFormed reachable_sampleDatabase).toValid
      freshEnv_sample (by decide +kernel) hx hv).mpr
  exact ⟨hiff (by decide +kernel) (Uuid.parse_toText _) (Or.inl (by decide +kernel)),
    by decide +kernel,
    hiff (by decide +kernel) (Uuid.parse_toText _) (Or.inr (by decide +kernel))⟩

/-- In upper case the id of the receiver is answered with, and emitted to, as it was spelled. -/
theorem spelling_relevant :
    ∃ env db, chatSystem.Reachable Guard.all db ∧ FreshEnv env db ∧ ∃ u x,
      db.hasUser u = true ∧ isUuid x = true ∧ ¬ SpellingIrrelevant env u.toText db x := by
  refine ⟨sampleEnv fun _ => none, sampleDatabase, reachable_sampleDatabase, freshEnv_sample,
    sampleId 1, (sampleId 0xAB).toText, by decide +kernel, by decide +kernel, ?_⟩
  intro h
  have heq := h.send ((sampleId 0xAB).toText.map asciiUpper) (by decide +kernel) (js "r")
    (some (js "hi"))
  revert heq
  decide +kernel

end MernChat
