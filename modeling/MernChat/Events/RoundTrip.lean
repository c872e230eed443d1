import MernChat.Chat.Atomicity
import MernChat.Events.Envelope

/-!
# From the sender of an event to its consumer

The event of a message is printed for the outbox, kept as `JSONB`, which may change the order of its
fields, printed again by the relay, sent as UTF-8, and parsed and checked by the consumer.

## Main definitions

* `normalizeRequestId`: the correlation id of a request
* `Jsonb.Documented`, `NumberText.Documented`: what is known of the column and of the runtime
* `storedPayload`, `recordValue`, `consumeValue`: the stations of an event
* `ValidatedRequests`, `RoundTrips`: the calls of validated requests, and what becomes of their
  events

## Main results

* `events_round_trip`: the consumer accepts what was sent, and it is the event
-/

namespace MernChat

open Library Library.TransitionSystem

/-! ## Request ids -/

def REQUEST_ID_MAX_LENGTH : Nat := 128

/-- `[A-Za-z0-9._:-]`. -/
def requestIdUnit (c : UInt16) : Bool :=
  isLetter c || isDigit c || c == 0x2E || c == 0x5F || c == 0x3A || c == 0x2D

/-- The header's value, if it may be a request id, or else the `randomUUID()` that is drawn. -/
def normalizeRequestId (drawn : Uuid) (value : Option JsString) : JsString :=
  match value with
  | some value =>
    if value ≠ [] ∧ value.length ≤ REQUEST_ID_MAX_LENGTH ∧ value.all requestIdUnit = true then value
    else drawn.toText
  | none => drawn.toText

/-- What `randomUUID()` returns: version 4, and its variant. -/
structure Uuid.Random (u : Uuid) : Prop where
  version : u.digits[12]? = some 4
  variant : ∃ d : Fin 16, u.digits[16]? = some d ∧ 8 ≤ d ∧ d ≤ 11

/-- The classes of the digits of a version 4 id. -/
def randomClasses : List (UInt16 → Bool) :=
  (List.range 32).map fun i =>
    if i = 12 then versionClass else if i = 16 then variantClass else hexClass

/-- The classes of a printed text, by those of its digits. -/
def printClasses : Nat → List (UInt16 → Bool) → List (UInt16 → Bool)
  | n + 1, p :: q :: ps =>
    p :: q ::
      ((if n = 12 ∨ n = 10 ∨ n = 8 ∨ n = 6 then [hyphenClass] else []) ++ printClasses n ps)
  | _, _ => []

theorem matchesClasses_printBytes {n : Nat} {ps : List (UInt16 → Bool)} {ds : List (Fin 16)}
    (hlength : ds.length = 2 * n) (h : List.Forall₂ (fun p d => p (hexDigit d) = true) ps ds) :
    matchesClasses (printClasses n ps) (Uuid.printBytes n ds) = true := by
  induction n generalizing ps ds with
  | zero => simp [printClasses, Uuid.printBytes, matchesClasses]
  | succ n ih =>
    -- a byte takes two digits
    obtain _ | ⟨hp, _ | ⟨hq, h⟩⟩ := h
    · simp at hlength
    · simp at hlength
      omega
    · have hrest := ih (by simpa [Nat.mul_add] using hlength) h
      simp only [printClasses, Uuid.printBytes, matchesClasses, hp, hq, Bool.true_and]
      split_ifs
      · simpa [matchesClasses, hyphenClass] using hrest
      · simpa using hrest

/-- **A random id is accepted.** -/
theorem isUuid_of_random {u : Uuid} (h : u.Random) : isUuid u.toText = true := by
  have hdigits : List.Forall₂ (fun p d => p (hexDigit d) = true) randomClasses u.digits := by
    refine List.forall₂_iff_get.mpr ⟨u.length_digits.symm, ?_⟩
    intro i hi hi'
    have hget : u.digits[i]? = some (u.digits.get ⟨i, hi'⟩) := List.getElem?_eq_getElem hi'
    simp only [randomClasses, List.get_eq_getElem, List.getElem_map, List.getElem_range] at hget ⊢
    split_ifs with hversion hvariant
    · -- the digit of the version is 4
      subst hversion
      obtain hfour := Option.some.inj (hget.symm.trans h.version)
      rw [hfour]
      rfl
    · -- the digit of the variant is 8, 9, a or b
      subst hvariant
      obtain ⟨d, hd, hrange⟩ := h.variant
      rw [Option.some.inj (hget.symm.trans hd)]
      have hclass : ∀ d : Fin 16, 8 ≤ d ∧ d ≤ 11 → variantClass (hexDigit d) = true := by decide
      exact hclass d hrange
    · rw [hexClass, hexValue_hexDigit]
      rfl
  -- the classes of the pattern are those of sixteen printed bytes
  have hlayout : printClasses 16 randomClasses = uuidClasses := rfl
  rw [isUuid, ← hlayout]
  exact matchesClasses_printBytes u.length_digits hdigits

theorem length_normalizeRequestId (drawn : Uuid) (value : Option JsString) :
    0 < (normalizeRequestId drawn value).length ∧
      (normalizeRequestId drawn value).length ≤ 200 := by
  -- the id that is drawn has 36 units
  have hdrawn : 0 < drawn.toText.length ∧ drawn.toText.length ≤ 200 := by
    obtain ⟨d, s, hs⟩ := drawn.toText_head
    have hle := drawn.length_toText_le
    rw [hs] at hle ⊢
    exact ⟨Nat.succ_pos _, by omega⟩
  unfold normalizeRequestId
  split
  · split_ifs with hvalue
    · have hle : REQUEST_ID_MAX_LENGTH ≤ 200 := by decide
      exact ⟨List.length_pos_iff.mpr hvalue.1, hvalue.2.1.trans hle⟩
    · exact hdrawn
  · exact hdrawn

/-! ## The stations of an event -/

/-- What is known of a `JSONB` column: up to the order of fields it gives back what it was given,
where numbers are written without an exponent. -/
structure Jsonb.Documented (jsonb : Json → Option Json) : Prop where
  preserves : ∀ value value', value.WithNumbers (fun n => n.exponent ≤ 0) →
    jsonb value = some value' → value'.Equiv value

/-- What is known of the texts of numbers. -/
structure NumberText.Documented (numberText : JsonNumber → JsString) : Prop where
  nat : ∀ k : Nat, k < 2 ^ 53 → numberText ⟨k, 0⟩ = js (toString k)

section Stations

variable (numberText : JsonNumber → JsString) (jsonb : Json → Option Json)
  (dateParse : JsString → Option Int)

/-- `JSON.stringify(input.event)` as `$8::jsonb`, and the value read back. -/
def storedPayload (event : MessageCreatedEvent) : Option Json :=
  (parseJson (stringify numberText (eventJson event))).bind jsonb

/-- The value of the record, which the relay prints, as it is transported. -/
def recordValue (payload : Json) : List UInt8 := utf8Encode (stringify numberText payload)

/-- `parseMessageCreatedEvent(JSON.parse(value.toString("utf8")))`; none where it throws. -/
def consumeValue (value : List UInt8) : Option Json :=
  (parseJson (utf8Decode value)).bind fun value => (parseMessageCreated dateParse value).toOption

/-- **The event of a row gets through.** -/
structure RoundTrips (row : OutboxRow) : Prop where
  /-- It is one that `createMessageCreatedEvent` has built. -/
  built : ∃ eventId occurredAt input,
    row.payload = createMessageCreatedEvent eventId occurredAt input
  /-- What the insert is given is the text of its object. -/
  inserted : parseJson (stringify numberText (eventJson row.payload)) =
    some (eventJson row.payload)
  /-- The consumer accepts the value of its record, which has the fields of the event, and no
  others. -/
  received : ∀ payload, storedPayload numberText jsonb (mapOutboxEvent row).payload =
    some payload → ∃ value, consumeValue dateParse (recordValue numberText payload) = some value ∧
      value.Equiv (eventJson row.payload) ∧ readEvent value = some row.payload

end Stations

/-- A call for a validated request. -/
structure ValidatedCall (env : SendEnv) (input : SendMessageInput) : Prop where
  receiver : isUuid input.receiverId = true
  sender : ∃ u : Uuid, u.Random ∧ input.senderId = u.toText
  correlation : ∃ (drawn : Uuid) (header : Option JsString), drawn.Random ∧
    input.correlationId = normalizeRequestId drawn header
  conversationId : env.conversationId.Random
  messageId : env.messageId.Random
  eventId : env.eventId.Random

/-- The runs in which all messages are sent for validated requests. -/
def ValidatedRequests : Guard Database ChatAction
  | _, .sendMessage env input => ValidatedCall env input
  | _, _ => True

/-! ## The rows of a call -/

section Calls

variable {db : Database} {env : SendEnv} {input : SendMessageInput}

/-- A call adds at most its conversation and the row of its event. -/
structure AddsRows (env : SendEnv) (input : SendMessageInput) (db db' : Database) : Prop where
  conversations : ∀ c ∈ db'.conversations, c ∈ db.conversations ∨ c.id = env.conversationId
  outbox_events : ∀ row ∈ db'.outbox_events, row ∈ db.outbox_events ∨
    ∃ db₁ c m, c ∈ db'.conversations ∧ StoredRows env input db₁ c.id m row

theorem AddsRows.refl (db : Database) : AddsRows env input db db :=
  ⟨fun _ hc => Or.inl hc, fun _ hrow => Or.inl hrow⟩

theorem addsRows_store {c : ConversationRow} (hc : c ∈ db.conversations) :
    AddsRows env input db (exec (storeAndSerialize env input (mapConversation c)) db).2 := by
  rcases exec_store_cases (Database.hasConversation_iff.mpr ⟨c, hc, rfl⟩) with he | ⟨m, row, hs, he⟩
  · rw [he]
    exact .refl db
  · rw [he]
    refine ⟨fun _ hc' => Or.inl hc', fun row' hrow' => ?_⟩
    rcases List.mem_append.mp hrow' with hrow' | hrow'
    · exact Or.inl hrow'
    · obtain rfl := List.mem_singleton.mp hrow'
      exact Or.inr ⟨db, c, m, hc, hs⟩

theorem addsRows_sendMessage (hw : db.WellFormed) :
    AddsRows env input db (exec (sendMessage env input) db).2 := by
  by_cases h : ChecksPass env input db
  · rw [exec_sendMessage_of_checks h]
    cases hfor : db.conversationFor input.senderId input.receiverId with
    | some c =>
      obtain ⟨a, -, b, -, hc⟩ : ∃ a, Uuid.parse _ = some a ∧ ∃ b, Uuid.parse _ = some b ∧
          db.conversationOf a b = some c := by
        simpa only [Database.conversationFor, Option.bind_eq_some_iff] using hfor
      exact addsRows_store (Database.conversationOf_eq_some hc).1
    | none =>
      show AddsRows env input db (exec (_ >>= _) db).2
      -- the conversation is created first, and stays if its COMMIT is not acknowledged
      by_cases hcreate : CreationCommits env input db
      · obtain ⟨a, b, -, -, -, hcase⟩ := exec_create_of_commits hw.toValid hfor hcreate
        generalize hnew : newConversation env.conversationId a b env.createAt = new at hcase
        have hadds : ∀ c ∈ (db.withConversation new env.createAt).conversations,
            c ∈ db.conversations ∨ c.id = env.conversationId := by
          intro c hc
          rcases List.mem_append.mp hc with hc | hc
          · exact Or.inl hc
          · exact Or.inr (List.mem_singleton.mp hc ▸ hnew ▸ rfl)
        rcases hcase with ⟨-, hce⟩ | ⟨-, e, hce⟩
        · rw [exec_bind_ok hce]
          have hmem : new ∈ (db.withConversation new env.createAt).conversations :=
            List.mem_append_right db.conversations (List.mem_singleton.mpr rfl)
          have hstore : AddsRows env input (db.withConversation new env.createAt)
            (exec (storeAndSerialize env input (mapConversation new)) _).2 := addsRows_store hmem
          exact ⟨fun c hc => (hstore.conversations c hc).elim (hadds c) Or.inr,
            hstore.outbox_events⟩
        · rw [exec_bind_error hce]
          exact ⟨hadds, fun _ hrow => Or.inl hrow⟩
      · obtain ⟨e, hce⟩ := exec_create_of_not_commits hw.toValid hfor hcreate
        rw [exec_bind_error hce]
        exact .refl db
  · -- a call that fails its checks has written nothing
    obtain ⟨e, he⟩ := exec_sendMessage_of_not_checks h
    rw [he]
    exact .refl db

end Calls

/-! ## The events of all runs -/

/-- An event of a validated request: its ids are random, but for the receiver's, which is one the
application accepts, and its times are dates. -/
structure ValidEvent (event : MessageCreatedEvent) : Prop where
  built : ∃ eventId occurredAt input, event = createMessageCreatedEvent eventId occurredAt input
  eventId : isUuid event.eventId = true
  aggregateId : isUuid event.aggregateId = true
  occurredAt : ∃ t, (-MAX_TIME ≤ t ∧ t ≤ MAX_TIME) ∧ event.occurredAt = isoText t
  correlationId : 0 < event.correlationId.length ∧ event.correlationId.length ≤ 200
  messageId : isUuid event.data.messageId = true
  conversationId : isUuid event.data.conversationId = true
  senderId : isUuid event.data.senderId = true
  recipientId : isUuid event.data.recipientId = true
  createdAt : ∃ t, (-MAX_TIME ≤ t ∧ t ≤ MAX_TIME) ∧ event.data.createdAt = isoText t

/-- What the runs keep. -/
structure EventsValid (db : Database) : Prop where
  tables : db.WellFormed
  conversations : ∀ c ∈ db.conversations, c.id.Random
  events : ∀ row ∈ db.outbox_events, ValidEvent row.payload

/-- **The event of a validated request is valid.** -/
theorem ValidEvent.of_storedRows {db : Database} {env : SendEnv} {input : SendMessageInput}
    {c : Uuid} {m : MessageRow} {row : OutboxRow} (hv : ValidatedCall env input) (hc : c.Random)
    (hs : StoredRows env input db c m row) : ValidEvent row.payload := by
  -- the payload is built from the row of the message, the call and the clock
  obtain ⟨createdAt, occurredAt, hcreated, hoccurred, hrow⟩ := hs.event
  obtain ⟨-, -, -, hpayload⟩ := storedEvent_row hrow
  obtain ⟨created, hread, rfl⟩ := toISOString_eq_some.mp hcreated
  obtain ⟨occurred, hclip, rfl⟩ := toISOString_eq_some.mp hoccurred
  obtain ⟨u, hu, hsender⟩ := hv.sender
  obtain ⟨drawn, header, -, hcorrelation⟩ := hv.correlation
  have hbounds := readTimestamp_bounds hread
  rw [hpayload]
  refine ⟨⟨_, _, _, rfl⟩, isUuid_of_random hv.eventId, isUuid_of_random hv.messageId, ?_, ?_,
    isUuid_of_random hv.messageId, isUuid_of_random hc, ?_, hv.receiver, ?_⟩
  · -- the clock of the process is clipped to the range of dates
    unfold timeClip at hclip
    split_ifs at hclip with hdate
    exact ⟨occurred, Option.some.inj hclip ▸ hdate, rfl⟩
  · show 0 < input.correlationId.length ∧ input.correlationId.length ≤ 200
    rw [hcorrelation]
    exact length_normalizeRequestId drawn header
  · show isUuid input.senderId = true
    rw [hsender]
    exact isUuid_of_random hu
  · have hyear : -MAX_TIME ≤ YEAR_0 * DAY := by decide
    exact ⟨created, ⟨hyear.trans hbounds.1, hbounds.2.1⟩, rfl⟩

theorem OutboxUpdate.rowUpdate (update : OutboxUpdate) (row : OutboxRow) :
    RowUpdate row (update.row row) := by
  cases update with
  | claim ids now leaseMs => exact claimRow_rowUpdate ids now leaseMs row
  | markPublished ids now => exact markPublishedRow_rowUpdate ids now row
  | reschedule id nextAttemptAt errorMessage =>
    exact rescheduleRow_rowUpdate id nextAttemptAt errorMessage row
  | deadLetter id errorMessage => exact deadLetterRow_rowUpdate id errorMessage row

/-- A new user changes the table of the users alone. -/
theorem exec_createUser (db : Database) (row : UserRow) :
    ∃ users, (exec (query none (insertUser row)) db).2 = { db with users := users } := by
  have hquery : exec (query none (insertUser row)) db = _ := rfl
  rcases exec_query hquery with ⟨r, t, -, hx, hq⟩ | ⟨-, e, hq⟩
  · obtain ⟨-, rfl⟩ := Database.insertUser_eq_ok hx
    exact ⟨_, congrArg Prod.snd hq⟩
  · exact ⟨db.users, congrArg Prod.snd hq⟩

/-- A step of the application keeps the events valid. -/
theorem EventsValid.step {db : Database} (h : EventsValid db) {a : ChatAction}
    (ha : ValidatedRequests db a) : EventsValid (chatStep db a) := by
  cases a with
  | createUser row =>
    obtain ⟨users, hdb⟩ := exec_createUser db row
    have htables := h.tables.createUser row
    rw [hdb] at htables
    show EventsValid (exec (query none (insertUser row)) db).2
    rw [hdb]
    exact ⟨htables, h.conversations, h.events⟩
  | sendMessage env input =>
    -- a new row is that of the call, in a conversation whose id is random
    have hv : ValidatedCall env input := ha
    have hadds : AddsRows env input db (exec (sendMessage env input) db).2 :=
      addsRows_sendMessage h.tables
    have hconversations : ∀ c ∈ (exec (sendMessage env input) db).2.conversations,
        c.id.Random := by
      intro c hc
      rcases hadds.conversations c hc with hc | hc
      · exact h.conversations c hc
      · exact hc ▸ hv.conversationId
    refine ⟨h.tables.sendMessage, hconversations, fun row hrow => ?_⟩
    rcases hadds.outbox_events row hrow with hrow | ⟨db₁, c, m, hc, hs⟩
    · exact h.events row hrow
    · exact .of_storedRows hv (hconversations c hc) hs
  | updateOutbox update =>
    -- the relay leaves the payloads alone
    refine ⟨⟨⟨h.tables.userIds, h.tables.conversationIds, h.tables.pairs, h.tables.canonical,
      h.tables.belongs⟩, h.tables.members⟩, h.conversations, fun row hrow => ?_⟩
    obtain ⟨row, hmem, rfl⟩ := List.mem_map.mp hrow
    rw [(update.rowUpdate row).payload]
    exact h.events row hmem

/-! ## A valid event gets through -/

section Through

variable {numberText : JsonNumber → JsString} {jsonb : Json → Option Json}
  {dateParse : JsString → Option Int} {event : MessageCreatedEvent}

theorem readsBack_one (h : NumberText.Documented numberText) : ReadsBack numberText ⟨1, 0⟩ := by
  have htext : numberText ⟨1, 0⟩ = [0x31] := h.nat 1 (by decide)
  refine ⟨?_, ⟨0x31, [], htext, rfl⟩, ?_⟩
  · rw [htext]
    decide
  · rintro t (rfl | ⟨c, s, rfl, rfl | rfl | rfl⟩) <;> rw [htext] <;> rfl

theorem ValidEvent.parse (h : ValidEvent event) (hdate : DateParse.Documented dateParse) :
    parseMessageCreatedEvent dateParse event = .ok event := by
  obtain ⟨t, ht, hoccurred⟩ := h.occurredAt
  obtain ⟨t', ht', hcreated⟩ := h.createdAt
  obtain ⟨eventId, occurredAt, input, hbuilt⟩ := h.built
  -- three fields are constants of the constructor
  have hconst : event.eventType = MESSAGE_CREATED_EVENT ∧
      event.version = MESSAGE_CREATED_VERSION ∧ event.producer = js "chat-api" := by
    rw [hbuilt]
    exact ⟨rfl, rfl, rfl⟩
  have hpos : event.correlationId.length ≠ 0 := Nat.ne_of_gt h.correlationId.1
  rw [parseMessageCreatedEvent, if_neg]
  simp [hconst, h.eventId, h.aggregateId, isIsoTimestamp, hoccurred, hcreated, hdate.iso t ht,
    hdate.iso t' ht', hpos, h.correlationId.2, h.messageId, h.conversationId, h.senderId,
    h.recipientId]

/-- **A valid event gets through** every station. -/
theorem ValidEvent.received (h : ValidEvent event) (hnumber : NumberText.Documented numberText)
    (hjsonb : Jsonb.Documented jsonb) (hdate : DateParse.Documented dateParse) :
    parseJson (stringify numberText (eventJson event)) = some (eventJson event) ∧
      ∀ payload, storedPayload numberText jsonb event = some payload →
        ∃ value, consumeValue dateParse (recordValue numberText payload) = some value ∧
          value.Equiv (eventJson event) ∧ readEvent value = some event := by
  have hversion : event.version = MESSAGE_CREATED_VERSION := by
    obtain ⟨_, _, _, hbuilt⟩ := h.built
    rw [hbuilt]
    rfl
  -- the one number of the object is its version, which is printed as a digit
  have hreadable : (eventJson event).Readable numberText := by
    refine withNumbers_eventJson ?_
    rw [hversion]
    exact readsBack_one hnumber
  have hinserted := parseJson_stringify hreadable
  refine ⟨hinserted, fun payload hpayload => ?_⟩
  rw [storedPayload, hinserted, Option.bind_some] at hpayload
  -- the column gives back an equivalent value, of which the consumer reads the same fields
  have hequiv := hjsonb.preserves _ _ (withNumbers_eventJson le_rfl) hpayload
  have hpayload' : payload.Readable numberText := hequiv.withNumbers hreadable
  have hread := readEvent_of_equiv hequiv hversion
  obtain ⟨value, hvalue⟩ := parseMessageCreated_iff.mpr ⟨event, hread, h.parse hdate⟩
  obtain rfl := parseMessageCreated_eq_ok hvalue
  refine ⟨value, ?_, hequiv, hread⟩
  -- the text is well formed, so that its bytes are read as they were
  rw [consumeValue, recordValue, utf8Decode_utf8Encode, wellFormed_stringify hpayload',
    parseJson_stringify hpayload', Option.bind_some, hvalue]
  rfl

/-- **Events make the round trip.** In every run of the application whose messages are sent for
validated requests, and whatever calls fail, the event of every row of the outbox is one that
`createMessageCreatedEvent` has built, is printed as a text of its object, and, however the column
orders its fields, is accepted by the consumer of its record as the object it was. -/
theorem events_round_trip (hnumber : NumberText.Documented numberText)
    (hjsonb : Jsonb.Documented jsonb) (hdate : DateParse.Documented dateParse) {db : Database}
    (h : chatSystem.Reachable ValidatedRequests db) :
    ∀ row ∈ db.outbox_events, RoundTrips numberText jsonb dateParse row := by
  have hvalid : EventsValid db := by
    refine h.invariant ?_ ?_
    · rintro s rfl
      exact ⟨.empty, by simp [Database.empty], by simp [Database.empty]⟩
    · intro s a t hs ha hst
      exact Option.some.inj hst ▸ hs.step ha
  intro row hrow
  have hevent := hvalid.events row hrow
  obtain ⟨hinserted, hreceived⟩ := hevent.received hnumber hjsonb hdate
  exact ⟨hevent.built, hinserted, hreceived⟩

end Through

/-! ### One event -/

/-- The texts of whole numbers. -/
def sampleNumberText (n : JsonNumber) : JsString := js (toString n.mantissa)

/-- Shorter names come first. -/
def nameKey (field : JsString × Json) : List Nat := field.1.length :: field.1.map UInt16.toNat

mutual

/-- A column that sorts the fields of objects. -/
def sortFields : Json → Json
  | .arr elements => .arr (sortElements elements)
  | .obj fields => .obj (sortBy nameKey (sortMembers fields))
  | value => value

def sortElements : List Json → List Json
  | [] => []
  | value :: elements => sortFields value :: sortElements elements

def sortMembers : List (JsString × Json) → List (JsString × Json)
  | [] => []
  | (name, value) :: fields => (name, sortFields value) :: sortMembers fields

end

theorem sortElements_eq (elements : List Json) :
    sortElements elements = elements.map sortFields := by
  induction elements with
  | nil => rfl
  | cons value elements ih => rw [sortElements, ih, List.map_cons]

theorem sortMembers_eq (fields : List (JsString × Json)) :
    sortMembers fields = fields.map fun field => (field.1, sortFields field.2) := by
  induction fields with
  | nil => rfl
  | cons field fields ih => rw [sortMembers, ih, List.map_cons]

theorem equiv_sortFields {P : JsonNumber → Prop} {value : Json} (h : value.WithNumbers P) :
    (sortFields value).Equiv value := by
  induction h with
  | null => exact .null
  | bool b => exact .bool b
  | num _ => exact .num _
  | str s => exact .str s
  | arr _ ih =>
    rw [sortFields, sortElements_eq]
    refine .arr (List.length_map _) fun i hx hy => ?_
    rw [List.getElem_map]
    exact ih _ (List.getElem_mem hy)
  | @obj fields hnodup _ ih =>
    rw [sortFields, sortMembers_eq]
    have hperm := perm_sortBy nameKey (fields.map fun field => (field.1, sortFields field.2))
    refine .obj ?_ ?_
    · have hnames := hperm.map Prod.fst
      rwa [List.map_map] at hnames
    · intro f hf g hg hname
      obtain ⟨field, hfield, rfl⟩ := List.mem_map.mp (hperm.mem_iff.mp hf)
      obtain rfl := eq_of_key hnodup hfield hg hname
      exact ih field hfield

theorem sampleJsonb_documented : Jsonb.Documented fun value => some (sortFields value) where
  preserves _ _ h hvalue := Option.some.inj hvalue ▸ equiv_sortFields h

theorem sampleNumberText_documented : NumberText.Documented sampleNumberText := ⟨fun _ _ => rfl⟩

theorem random_sampleId : ∀ n ∈ [1, 0xAB, 0x10, 0x11, 0x12], (sampleId n).Random := by
  have hdigits : ∀ n ∈ [1, 0xAB, 0x10, 0x11, 0x12], (sampleId n).digits[12]? = some 4 ∧
      (sampleId n).digits[16]? = some 8 := by decide +kernel
  exact fun n hn => ⟨(hdigits n hn).1, 8, (hdigits n hn).2, by decide⟩

/-- A message is sent, and its event arrives. -/
theorem events_round_trip_sample :
    ∃ db, chatSystem.Reachable ValidatedRequests db ∧
      (∃ row ∈ db.outbox_events, (storedPayload sampleNumberText (fun value =>
        some (sortFields value)) row.payload).isSome = true) ∧
      ∀ row ∈ db.outbox_events,
        RoundTrips sampleNumberText (fun value => some (sortFields value)) parseISOString row := by
  have hids := random_sampleId
  have hvalid : ValidatedCall (sampleEnv fun _ => none) sampleInput := by
    refine ⟨isUuid_of_random (hids 0xAB (by decide)), ⟨sampleId 1, hids 1 (by decide), rfl⟩,
      ⟨sampleId 1, some (js "r"), hids 1 (by decide), by decide +kernel⟩,
      hids 0x10 (by decide), hids 0x11 (by decide), hids 0x12 (by decide)⟩
  have huser (db : Database) (row : UserRow) : ValidatedRequests db (.createUser row) := trivial
  have hstart : chatSystem.Reachable ValidatedRequests sampleDatabase :=
    .step (.step (.init rfl) (huser _ (sampleUser 1)) rfl) (huser _ (sampleUser 0xAB)) rfl
  have hguard : ValidatedRequests sampleDatabase
      (.sendMessage (sampleEnv fun _ => none) sampleInput) := hvalid
  have hreach := hstart.step hguard rfl
  refine ⟨_, hreach, ?_, events_round_trip sampleNumberText_documented sampleJsonb_documented
    parseISOString_documented hreach⟩
  have hstored : (chatStep sampleDatabase (.sendMessage (sampleEnv fun _ => none)
      sampleInput)).outbox_events.any (fun row => (storedPayload sampleNumberText (fun value =>
        some (sortFields value)) row.payload).isSome) = true := by
    decide +kernel
  simpa using hstored

end MernChat
