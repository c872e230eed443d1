import MernChat.Chat.Confidentiality
import MernChat.Chat.Spelling
import MernChat.Events.RoundTrip

/-!
# The text of a message

The validation looks at the trimmed message as a string of code units. The driver sends it as UTF-8,
with U+FFFD for unpaired surrogates, and the column holds no U+0000: of the accepted messages some
are stored as another text, and some are not stored at all.

## Main definitions

* `TextSurvives`: a call returns, and the text is served from then on
* `TextStorable`: what the column keeps as it is
* `OrderedPair`: two ids that are in the order of their values

## Main results

* `message_kept`: rows of messages stay, in every run
* `message_text_survives_iff`: exactly which accepted messages survive
-/

namespace MernChat

open Library Library.TransitionSystem

/-- **The text survives**: `sendMessage` returns it, trimmed, and so does, in every later state,
every page that contains the message. -/
def TextSurvives (env : SendEnv) (input : SendMessageInput) (s : MessagingState) : Prop :=
  ∃ result db', exec (sendMessage env input) s.db = (.ok result, db') ∧
    result.message.message = trim input.message ∧
    ∀ t, messagingSystem.Reachable Guard.all t → t.db = db' →
      ∀ actions later, messagingSystem.runFrom t actions = some later →
        ∀ request page, (exec (getMessages request) later.db).1 = .ok page →
          ∀ m ∈ page.messages, m._id = result.message._id → m.message = trim input.message

/-- A text without U+0000 and without unpaired surrogates. -/
structure TextStorable (text : JsString) : Prop where
  zero : text.contains 0 = false
  wellFormed : toWellFormed text = text

/-- The two ids compare, as strings, as their values do. -/
def OrderedPair (x y : JsString) : Prop := ∃ a b, ParsedPair x y a b ∧ a < b

/-! ## Rows stay -/

section Rows

variable {s t : MessagingState} {row : MessageRow}

/-- A step keeps the rows of messages. -/
theorem message_step (hs : messagingSystem.Reachable Guard.all s) {a : MessagingAction}
    (hst : messagingStep s a = some t) (hrow : row ∈ s.db.messages) : row ∈ t.db.messages := by
  have hattributed := MessagingState.attributed_of_reachable hs
  cases a with
  | register user =>
    obtain rfl := Option.some.inj hst
    have hquery : exec (query none (insertUser user)) s.db = _ := rfl
    rcases exec_query hquery with ⟨r, db, -, hx, hq⟩ | ⟨-, e, hq⟩
    · obtain ⟨-, hdb⟩ := Database.insertUser_eq_ok hx
      rw [hq, hdb]
      exact hrow
    · rw [hq]
      exact hrow
  | createDirectConversation env userA userB =>
    obtain rfl := Option.some.inj hst
    have hmessages : (exec (createDirectConversation env userA userB) s.db).2.messages =
        s.db.messages :=
      exec_createDirectConversation_messages hattributed.wellFormed (Prod.eta _).symm
    show row ∈ (exec (createDirectConversation env userA userB) s.db).2.messages
    rw [hmessages]
    exact hrow
  | send env input =>
    obtain rfl := Option.some.inj hst
    exact hrow
  | proceed n =>
    obtain ⟨call, hn, hst⟩ := Option.bind_eq_some_iff.mp hst
    obtain ⟨⟨phase, db⟩, hstep, rfl⟩ := Option.map_eq_some_iff.mp hst
    have heffect := call.proceed_effect hattributed.wellFormed
      (hattributed.resolved call (List.mem_of_getElem? hn)) hstep
    show row ∈ db.messages
    rcases heffect.messages with hmessages | ⟨x, y, new, -, -, -, hmessages⟩
    · rw [hmessages]
      exact hrow
    · rw [hmessages]
      exact List.mem_append_left _ hrow

/-- **Rows of messages stay**, in every run. -/
theorem message_kept (hs : messagingSystem.Reachable Guard.all s) {actions : List MessagingAction}
    (hrun : messagingSystem.runFrom s actions = some t) (hrow : row ∈ s.db.messages) :
    row ∈ t.db.messages := by
  induction actions generalizing s with
  | nil =>
    obtain rfl := Option.some.inj hrun
    exact hrow
  | cons a actions ih =>
    obtain ⟨u, hu, hrun⟩ := Option.bind_eq_some_iff.mp hrun
    exact ih (hs.step trivial hu) hrun (message_step hs hu hrow)

end Rows

/-! ## What a page serves -/

section Pages

variable {db db' : Database}

/-- A page that is served is read from one conversation. -/
theorem page_of_exec_eq_ok {request : GetMessagesInput} {page : MessagePageResult}
    (h : exec (getMessages request) db = (.ok page, db')) :
    ∃ (c : Uuid) (cursor : Option MessageCursor) (found : MessagePage),
      findMessagesByConversation c.toText request.limit cursor db = .ok (found, db) ∧
        serializePage request.senderId request.chatUserId request.limit found = some page := by
  simp only [getMessages, exec_bind_eq_ok, exec_require_eq_ok, exec_query_eq_ok] at h
  obtain ⟨_, _, ⟨-, rfl⟩, _, _, huser, _, _, ⟨-, rfl⟩, conversation, _, hfind, h⟩ := h
  obtain ⟨_, -, -, rfl⟩ := findUserById_eq_ok.mp huser
  obtain ⟨a, b, -, -, rfl, rfl⟩ := selectDirectConversation_eq_ok.mp hfind
  cases hc : Database.conversationOf _ a b with
  | none =>
    rw [hc] at h
    cases h
  | some c =>
    rw [hc] at h
    simp only [Option.map_some] at h
    cases hcursor : decodeCursor request.cursor with
    | none =>
      rw [hcursor] at h
      cases h
    | some cursor =>
      rw [hcursor] at h
      simp only [exec_bind_eq_ok, exec_query_eq_ok] at h
      obtain ⟨found, db₁, hfound, h⟩ := h
      rcases findMessagesByConversation_cases c.id request.limit cursor with
        ⟨bound, hpage⟩ | ⟨e, herror⟩
      · obtain ⟨rfl, rfl⟩ := Prod.mk.inj (Except.ok.inj ((hpage _).symm.trans hfound))
        refine ⟨c.id, cursor, _, hpage _, ?_⟩
        split at h
        · rename_i served hserved
          obtain ⟨hresult, -⟩ := Prod.mk.inj h
          rw [hserved, Except.ok.inj hresult]
        · cases h
      · cases (herror _).symm.trans hfound

/-- A served message is a row of the table, with its id and its text. -/
theorem row_of_exec_eq_ok {request : GetMessagesInput} {page : MessagePageResult}
    (h : (exec (getMessages request) db).1 = .ok page) {m : SerializedMessage}
    (hm : m ∈ page.messages) :
    ∃ row ∈ db.messages, m._id = row.id.toText ∧ m.message = row.content := by
  have hexec : exec (getMessages request) db = (.ok page, (exec (getMessages request) db).2) :=
    Prod.ext h rfl
  obtain ⟨c, cursor, found, hfound, hpage⟩ := page_of_exec_eq_ok hexec
  obtain ⟨row, hrow, -, hserialized⟩ := exists_row_of_serialized hfound hpage hm
  simp only [serializeMessage, Option.bind_eq_bind, Option.bind_eq_some_iff] at hserialized
  obtain ⟨_, -, _, -, hserialized⟩ := hserialized
  obtain rfl := Option.some.inj hserialized
  exact ⟨row, hrow, rfl, rfl⟩

end Pages

/-! ## Exactly the texts that survive -/

section Survives

variable {env : SendEnv} {input : SendMessageInput} {s : MessagingState} {u : Uuid}

/-- A request id is a text that every column holds. -/
theorem ascii_normalizeRequestId (drawn : Uuid) (header : Option JsString) :
    Ascii (normalizeRequestId drawn header) := by
  have hunit : ∀ c, requestIdUnit c = true → 0 < c.toNat ∧ c.toNat < 128 := by
    intro c hc
    simp only [requestIdUnit, isLetter, isDigit, Bool.or_eq_true, Bool.and_eq_true,
      decide_eq_true_eq, beq_iff_eq, ← UInt16.toNat_inj, toNat_asciiLower] at hc
    have hdot : (0x2E : UInt16).toNat = 46 := rfl
    have hline : (0x5F : UInt16).toNat = 95 := rfl
    have hcolon : (0x3A : UInt16).toNat = 58 := rfl
    have hhyphen : (0x2D : UInt16).toNat = 45 := rfl
    split_ifs at hc <;> omega
  unfold normalizeRequestId
  split
  · split_ifs with hvalue
    · exact fun c hc => hunit c (List.all_eq_true.mp hvalue.2.2 c hc)
    · exact drawn.ascii_toText
  · exact drawn.ascii_toText

/-- What the column stores of a text is the text itself. -/
theorem textStorable_iff {text : JsString} : TextStorable text ↔ pgText text = some text := by
  rw [pgText_eq_some]
  exact ⟨fun h => ⟨h.zero, h.wellFormed⟩, fun h => ⟨h.1, h.2⟩⟩

/-- **A storable text survives.** -/
theorem TextStorable.survives (htext : TextStorable (trim input.message)) {m : MessageRow}
    {row : OutboxRow} {c : Uuid} {db₁ : Database} {d : JsString}
    (hrows : StoredRows env input db₁ c m row)
    (hexec : exec (sendMessage env input) s.db =
      (.ok ⟨⟨m.id.toText, m.senderId.toText, input.receiverId, m.content, d, d⟩, c.toText⟩,
        db₁.withMessage m row)) : TextSurvives env input s := by
  have hcontent : m.content = trim input.message := by
    obtain ⟨_, content, -, -, hcontent, rfl⟩ := hrows.message
    exact Option.some.inj (hcontent.symm.trans (textStorable_iff.mp htext))
  refine ⟨_, _, hexec, hcontent, ?_⟩
  intro t ht hdb actions later hrun request page hpage served hserved hid
  have hmem : m ∈ t.db.messages := by
    rw [hdb]
    exact List.mem_append_right _ (List.mem_singleton.mpr rfl)
  obtain ⟨row', hrow', hid', hmessage⟩ := row_of_exec_eq_ok hpage hserved
  -- ids are not given twice, so that the row served is the one stored
  have hattributed := MessagingState.attributed_of_reachable (ht.of_runFrom hrun)
  obtain rfl := eq_of_key hattributed.messageIds hrow' (message_kept ht hrun hmem)
    (Uuid.toText_injective (hid'.symm.trans hid))
  rw [hmessage, hcontent]

/-- **When the text of an accepted message survives**: it has no U+0000 and no unpaired surrogates,
and the ids of the two users are in the order of their values. -/
theorem message_text_survives_iff (hs : messagingSystem.Reachable Guard.all s)
    (henv : FreshEnv env s.db) (hsender : input.senderId = u.toText)
    (hu : s.db.hasUser u = true)
    (hreceiver : ∀ v, Uuid.parse input.receiverId = some v → s.db.hasUser v = true)
    (hcorrelation : ∃ drawn header, input.correlationId = normalizeRequestId drawn header)
    (hschema : sendMessageSchema input.receiverId (some input.message) = []) :
    TextSurvives env input s ↔
      TextStorable (trim input.message) ∧ OrderedPair input.senderId input.receiverId := by
  have hattributed := MessagingState.attributed_of_reachable hs
  have hdb := hattributed.wellFormed.toValid
  have hid : isUuid input.receiverId = true := by
    by_contra hno
    rw [sendMessageSchema, if_neg hno] at hschema
    cases hschema
  obtain ⟨v, -, hparse⟩ := isUuid_spells hid
  have hv := hreceiver v hparse
  have hpu : Uuid.parse input.senderId = some u := by rw [hsender, Uuid.parse_toText]
  constructor
  · rintro ⟨result, db', hexec, hmessage, -⟩
    obtain ⟨hchecks, hcreate, hstore⟩ := commits_of_exec_eq_ok hdb hexec
    obtain ⟨_, c, m, row, d, -, hrows, hexec'⟩ :=
      exec_sendMessage_of_commits hdb henv.fault hchecks hcreate hstore
    obtain ⟨hresult, -⟩ := Prod.mk.inj (hexec.symm.trans hexec')
    obtain rfl := Except.ok.inj hresult
    obtain ⟨_, content, -, -, hcontent, rfl⟩ := hrows.message
    obtain rfl : content = trim input.message := hmessage
    refine ⟨textStorable_iff.mpr hcontent, ?_⟩
    -- the conversation was there, with its members in order, or it was created
    cases hfor : s.db.conversationFor input.senderId input.receiverId with
    | some c =>
      obtain ⟨a, b, hpair⟩ := exists_parsedPair hpu hparse
      rw [hpair.conversationFor] at hfor
      obtain ⟨hmem, rfl, rfl⟩ := Database.conversationOf_eq_some hfor
      exact ⟨_, _, hpair, hdb.canonical c hmem⟩
    | none =>
      obtain ⟨a, b, hpair, hlt, -, -⟩ := (hcreate hfor).pair
      exact ⟨a, b, hpair, hlt⟩
  · rintro ⟨htext, a, b, hpair, hlt⟩
    have husers := hpair.users hpu hparse
    have hdistinct : input.senderId ≠ input.receiverId := by
      intro heq
      rw [heq] at hpu
      obtain rfl := Option.some.inj (hpu.symm.trans hparse)
      rcases husers with ⟨rfl, rfl⟩ | ⟨rfl, rfl⟩ <;> exact lt_irrefl _ hlt
    have hboth : s.db.hasUser a = true ∧ s.db.hasUser b = true := by
      rcases husers with ⟨rfl, rfl⟩ | ⟨rfl, rfl⟩
      · exact ⟨hu, hv⟩
      · exact ⟨hv, hu⟩
    have hcorrelation' : jsonbString input.correlationId = true := by
      obtain ⟨drawn, header, heq⟩ := hcorrelation
      rw [heq]
      exact jsonbString_of_ascii (ascii_normalizeRequestId drawn header)
    obtain ⟨_, c, m, row, d, -, hrows, hexec⟩ := exec_sendMessage_of_commits hdb henv.fault
      ⟨hdistinct, henv.fault _, ⟨v, hparse, hv⟩, henv.fault _, ⟨u, hpu⟩⟩
      (fun _ => henv.creationCommits ⟨a, b, hpair, hlt, hboth⟩)
      (henv.storeCommits hu hsender (jsonbString_of_ascii (plain_of_isUuid hid).ascii)
        ⟨_, textStorable_iff.mp htext⟩ hcorrelation')
    exact htext.survives hrows hexec

end Survives

/-! ## Accepted messages that do not survive -/

/-- The tables of two users, as a state without calls. -/
def sampleState : MessagingState := ⟨sampleDatabase, []⟩

theorem reachable_sampleState : messagingSystem.Reachable Guard.all sampleState := by
  have hrun : messagingSystem.runFrom ⟨Database.empty, []⟩
      [.register (sampleUser 1), .register (sampleUser 0xAB)] = some sampleState := rfl
  exact Reachable.of_runFrom (.init rfl) hrun

/-- The message of the text to the second user. -/
def sampleText (message : JsString) : SendMessageInput := { sampleInput with message }

theorem hasUser_sampleText (message : JsString) : ∀ v,
    Uuid.parse (sampleText message).receiverId = some v → sampleDatabase.hasUser v = true := by
  intro v hv
  obtain rfl := Option.some.inj ((Uuid.parse_toText (sampleId 0xAB)).symm.trans hv)
  decide +kernel

/-- A text outside the basic plane, between spaces. -/
theorem message_text_survives_iff_sample :
    TextSurvives (sampleEnv fun _ => none) (sampleText (js " 😀 ")) sampleState := by
  apply (message_text_survives_iff (u := sampleId 1) reachable_sampleState freshEnv_sample rfl
    (by decide +kernel) (hasUser_sampleText _) ⟨sampleId 1, some (js "r"), by decide +kernel⟩
    (by decide +kernel)).mpr
  refine ⟨⟨by decide +kernel, by decide +kernel⟩, sampleId 1, sampleId 0xAB, ⟨?_, ?_⟩, ?_⟩
  · decide +kernel
  · decide +kernel
  · decide +kernel

/-- **Accepted messages that do not survive**: with a U+0000 the request ends in an internal error,
and an unpaired surrogate comes back as U+FFFD. -/
theorem message_text_does_not_survive :
    (∀ message ∈ [[0x61, 0, 0x62], [0x61, 0xD800]],
      sendMessageSchema (sampleText message).receiverId (some message) = [] ∧
        ¬ TextSurvives (sampleEnv fun _ => none) (sampleText message) sampleState) ∧
    (exec (sendMessage (sampleEnv fun _ => none) (sampleText [0x61, 0, 0x62])) sampleDatabase).1 =
      .error (.database .character_not_in_repertoire) ∧
    (exec (sendMessage (sampleEnv fun _ => none) (sampleText [0x61, 0xD800])) sampleDatabase).1.map
      (fun result => result.message.message) = .ok [0x61, 0xFFFD] := by
  have hzero : (exec (sendMessage (sampleEnv fun _ => none) (sampleText [0x61, 0, 0x62]))
      sampleDatabase).1 = .error (.database .character_not_in_repertoire) := by decide +kernel
  have hlone : (exec (sendMessage (sampleEnv fun _ => none) (sampleText [0x61, 0xD800]))
      sampleDatabase).1.map (fun result => result.message.message) = .ok [0x61, 0xFFFD] := by
    decide +kernel
  refine ⟨?_, hzero, hlone⟩
  simp only [List.forall_mem_cons, List.not_mem_nil, false_implies, implies_true, and_true]
  refine ⟨⟨by decide +kernel, ?_⟩, by decide +kernel, ?_⟩
  · rintro ⟨result, db', hexec, -⟩
    cases (congrArg Prod.fst hexec).symm.trans hzero
  · rintro ⟨result, db', hexec, hmessage, -⟩
    have hexec' : (exec (sendMessage (sampleEnv fun _ => none) (sampleText [0x61, 0xD800]))
        sampleDatabase).1 = .ok result := congrArg Prod.fst hexec
    rw [hexec'] at hlone
    obtain hserved : result.message.message = [0x61, 0xFFFD] := Except.ok.inj hlone
    rw [hserved] at hmessage
    exact absurd hmessage (by decide +kernel)

end MernChat
