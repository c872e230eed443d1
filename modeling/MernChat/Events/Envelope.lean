import MernChat.Events.Contracts
import MernChat.Runtime.JsonText

/-!
# Events as JSON values

The object of an event, as it is printed, and the checks of a value that was parsed, which may be
any. A value that passes has the fields of an event.

## Main definitions

* `eventJson`: the object of an event
* `parseMessageCreated`: the checks of the consumer
* `readEvent`: the event a value stands for

## Main results

* `parseMessageCreated_iff`: the values that pass are those of the events that do
* `readEvent_of_equiv`: the order of fields is not read
-/

namespace MernChat

/-! ## Objects -/

def eventDataFields (data : MessageCreatedData) : List (JsString × Json) :=
  [(js "messageId", .str data.messageId), (js "conversationId", .str data.conversationId),
    (js "senderId", .str data.senderId), (js "recipientId", .str data.recipientId),
    (js "createdAt", .str data.createdAt)]

def eventFields (event : MessageCreatedEvent) : List (JsString × Json) :=
  [(js "eventId", .str event.eventId), (js "eventType", .str event.eventType),
    (js "aggregateId", .str event.aggregateId), (js "occurredAt", .str event.occurredAt),
    (js "version", .num ⟨event.version, 0⟩), (js "correlationId", .str event.correlationId),
    (js "causationId", event.causationId.elim .null .str), (js "producer", .str event.producer),
    (js "data", .obj (eventDataFields event.data))]

/-- The object `createMessageCreatedEvent` builds. -/
def eventJson (event : MessageCreatedEvent) : Json := .obj (eventFields event)

/-! ## Checks -/

/-- `n === 1`: the number lies between the midpoints to the doubles next to 1, where ties go to
1. -/
def JsonNumber.isOne (n : JsonNumber) : Bool :=
  let scale : Int := 10 ^ (-n.exponent).toNat
  let value : Int := n.mantissa * 10 ^ n.exponent.toNat
  decide ((2 ^ 54 - 1) * scale ≤ value * 2 ^ 54) && decide (value * 2 ^ 53 ≤ (2 ^ 53 + 1) * scale)

namespace Json

/-- `typeof value === "object" && value !== null`. -/
def isRecord : Json → Bool
  | .arr _ | .obj _ => true
  | _ => false

/-- `value[name]`, where it is a string. -/
def text (value : Json) (name : JsString) : Option JsString :=
  match value.field name with
  | some (.str s) => some s
  | _ => none

/-- `value.version`, where it is the one version there is. -/
def version (value : Json) : Option Int :=
  match value.field (js "version") with
  | some (.num n) => if n.isOne then some MESSAGE_CREATED_VERSION else none
  | _ => none

/-- `value.causationId`, where it is null or a string. -/
def causation (value : Json) : Option (Option JsString) :=
  match value.field (js "causationId") with
  | some .null => some none
  | some (.str s) => some (some s)
  | _ => none

/-- `value.data`, where it is an object. -/
def data (value : Json) : Option Json := (value.field (js "data")).filter isRecord

end Json

/-- `parseMessageCreatedEvent` of a parsed value. -/
def parseMessageCreated (dateParse : JsString → Option Int) (value : Json) :
    Except JsString Json :=
  if value.isRecord = false then .error (js "Event payload must be an object")
  else if value.text (js "eventType") ≠ some MESSAGE_CREATED_EVENT ∨
      value.version ≠ some MESSAGE_CREATED_VERSION ∨
      (value.text (js "eventId")).any isUuid = false ∨
      (value.text (js "aggregateId")).any isUuid = false ∨
      (value.text (js "occurredAt")).any (isIsoTimestamp dateParse) = false ∨
      (value.text (js "correlationId")).isNone = true ∨
      ((value.text (js "correlationId")).getD []).length = 0 ∨
      200 < ((value.text (js "correlationId")).getD []).length ∨
      value.causation = none ∨
      value.text (js "producer") ≠ some (js "chat-api") ∨
      value.data.isNone = true ∨
      (value.data.bind fun data => data.text (js "messageId")).any isUuid = false ∨
      (value.data.bind fun data => data.text (js "conversationId")).any isUuid = false ∨
      (value.data.bind fun data => data.text (js "senderId")).any isUuid = false ∨
      (value.data.bind fun data => data.text (js "recipientId")).any isUuid = false ∨
      (value.data.bind fun data => data.text (js "createdAt")).any (isIsoTimestamp dateParse) =
        false then
    .error (js "Invalid message.created event")
  else .ok value

def readEventData (data : Json) : Option MessageCreatedData := do
  let messageId ← data.text (js "messageId")
  let conversationId ← data.text (js "conversationId")
  let senderId ← data.text (js "senderId")
  let recipientId ← data.text (js "recipientId")
  let createdAt ← data.text (js "createdAt")
  return { messageId, conversationId, senderId, recipientId, createdAt }

/-- The event with the fields of a value. -/
def readEvent (value : Json) : Option MessageCreatedEvent := do
  let eventId ← value.text (js "eventId")
  let eventType ← value.text (js "eventType")
  let aggregateId ← value.text (js "aggregateId")
  let occurredAt ← value.text (js "occurredAt")
  let version ← value.version
  let correlationId ← value.text (js "correlationId")
  let causationId ← value.causation
  let producer ← value.text (js "producer")
  let data ← value.data.bind readEventData
  return {
    eventId
    eventType
    aggregateId
    occurredAt
    version
    correlationId
    causationId
    producer
    data }

/-! ## What passes -/

theorem Json.field_of_not_record {value : Json} (h : value.isRecord = false) (name : JsString) :
    value.field name = none := by
  cases value with
  | obj fields => cases h
  | arr elements => cases h
  | _ => rfl

/-- The fields of the event a value stands for. -/
theorem readEvent_eq_some {value : Json} {event : MessageCreatedEvent} :
    readEvent value = some event ↔ value.text (js "eventId") = some event.eventId ∧
      value.text (js "eventType") = some event.eventType ∧
      value.text (js "aggregateId") = some event.aggregateId ∧
      value.text (js "occurredAt") = some event.occurredAt ∧
      value.version = some event.version ∧
      value.text (js "correlationId") = some event.correlationId ∧
      value.causation = some event.causationId ∧
      value.text (js "producer") = some event.producer ∧
      ∃ data, value.data = some data ∧ data.text (js "messageId") = some event.data.messageId ∧
        data.text (js "conversationId") = some event.data.conversationId ∧
        data.text (js "senderId") = some event.data.senderId ∧
        data.text (js "recipientId") = some event.data.recipientId ∧
        data.text (js "createdAt") = some event.data.createdAt := by
  simp only [readEvent, readEventData, Option.bind_eq_bind, Option.bind_eq_some_iff,
    Option.pure_def, Option.some.injEq]
  constructor
  · rintro ⟨_, h₁, _, h₂, _, h₃, _, h₄, _, h₅, _, h₆, _, h₇, _, h₈, _, ⟨d, hd, _, h₉, _, h₁₀, _,
      h₁₁, _, h₁₂, _, h₁₃, rfl⟩, rfl⟩
    exact ⟨h₁, h₂, h₃, h₄, h₅, h₆, h₇, h₈, d, hd, h₉, h₁₀, h₁₁, h₁₂, h₁₃⟩
  · rintro ⟨h₁, h₂, h₃, h₄, h₅, h₆, h₇, h₈, d, hd, h₉, h₁₀, h₁₁, h₁₂, h₁₃⟩
    exact ⟨_, h₁, _, h₂, _, h₃, _, h₄, _, h₅, _, h₆, _, h₇, _, h₈, _,
      ⟨d, hd, _, h₉, _, h₁₀, _, h₁₁, _, h₁₂, _, h₁₃, rfl⟩, rfl⟩

/-- **The values that pass** are those of the events that do. -/
theorem parseMessageCreated_iff {dateParse : JsString → Option Int} {value : Json} :
    (∃ value', parseMessageCreated dateParse value = .ok value') ↔
      ∃ event, readEvent value = some event ∧
        parseMessageCreatedEvent dateParse event = .ok event := by
  constructor
  · rintro ⟨value', h⟩
    -- none of the sixteen checks fails
    unfold parseMessageCreated at h
    split_ifs at h with hrecord hbad
    simp only [not_or, Bool.not_eq_false, Option.any_eq_true, ne_eq, not_not, not_lt,
      Option.bind_eq_some_iff] at hbad
    obtain ⟨h₁, h₂, ⟨eventId, h₃, h₃'⟩, ⟨aggregateId, h₄, h₄'⟩, ⟨occurredAt, h₅, h₅'⟩, h₆, h₇, h₈,
      h₉, h₁₀, -, ⟨messageId, ⟨data, hd, h₁₁⟩, h₁₁'⟩, ⟨conversationId, ⟨_, hd₂, h₁₂⟩, h₁₂'⟩,
      ⟨senderId, ⟨_, hd₃, h₁₃⟩, h₁₃'⟩, ⟨recipientId, ⟨_, hd₄, h₁₄⟩, h₁₄'⟩,
      ⟨createdAt, ⟨_, hd₅, h₁₅⟩, h₁₅'⟩⟩ := hbad
    -- the five fields are those of one object
    obtain rfl := Option.some.inj (hd.symm.trans hd₂)
    obtain rfl := Option.some.inj (hd.symm.trans hd₃)
    obtain rfl := Option.some.inj (hd.symm.trans hd₄)
    obtain rfl := Option.some.inj (hd.symm.trans hd₅)
    obtain ⟨correlationId, hcorrelation⟩ :
        ∃ correlationId, value.text (js "correlationId") = some correlationId := by
      cases hcor : value.text (js "correlationId") with
      | none => simp [hcor] at h₆
      | some correlationId => exact ⟨correlationId, rfl⟩
    obtain ⟨causationId, hcausation⟩ := Option.ne_none_iff_exists'.mp h₉
    rw [hcorrelation, Option.getD_some] at h₇ h₈
    refine ⟨⟨eventId, MESSAGE_CREATED_EVENT, aggregateId, occurredAt, MESSAGE_CREATED_VERSION,
      correlationId, causationId, js "chat-api",
      ⟨messageId, conversationId, senderId, recipientId, createdAt⟩⟩,
      readEvent_eq_some.mpr ⟨h₃, h₁, h₄, h₅, h₂, hcorrelation, hcausation, h₁₀, data, hd,
        h₁₁, h₁₂, h₁₃, h₁₄, h₁₅⟩, ?_⟩
    rw [parseMessageCreatedEvent, if_neg]
    simp [h₃', h₄', h₅', h₇, h₈, h₁₁', h₁₂', h₁₃', h₁₄', h₁₅']
  · rintro ⟨event, hread, hparse⟩
    obtain ⟨h₁, h₂, h₃, h₄, h₅, h₆, h₇, h₈, data, hd, h₉, h₁₀, h₁₁, h₁₂, h₁₃⟩ :=
      readEvent_eq_some.mp hread
    refine ⟨value, ?_⟩
    -- what has a field is an object
    have hrecord : value.isRecord ≠ false := by
      intro hnot
      rw [Json.text, Json.field_of_not_record hnot] at h₁
      cases h₁
    unfold parseMessageCreatedEvent at hparse
    split_ifs at hparse with hbad
    simp only [not_or, Bool.not_eq_false, ne_eq, not_not, not_lt] at hbad
    rw [parseMessageCreated, if_neg hrecord, if_neg]
    simp [h₁, h₂, h₃, h₄, h₅, h₆, h₇, h₈, hd, h₉, h₁₀, h₁₁, h₁₂, h₁₃, hbad]

/-- A value that passes is returned as it is. -/
theorem parseMessageCreated_eq_ok {dateParse : JsString → Option Int} {value value' : Json}
    (h : parseMessageCreated dateParse value = .ok value') : value' = value := by
  unfold parseMessageCreated at h
  split_ifs at h
  exact (Except.ok.inj h).symm

/-! ## The order of fields -/

theorem nodup_eventDataFields (data : MessageCreatedData) :
    ((eventDataFields data).map Prod.fst).Nodup := by
  have hnames : [js "messageId", js "conversationId", js "senderId", js "recipientId",
    js "createdAt"].Nodup := by decide +kernel
  exact hnames

theorem nodup_eventFields (event : MessageCreatedEvent) :
    ((eventFields event).map Prod.fst).Nodup := by
  have hnames : [js "eventId", js "eventType", js "aggregateId", js "occurredAt", js "version",
    js "correlationId", js "causationId", js "producer", js "data"].Nodup := by decide +kernel
  exact hnames

/-- The object of an event has one number. -/
theorem withNumbers_eventJson {P : JsonNumber → Prop} {event : MessageCreatedEvent}
    (h : P ⟨event.version, 0⟩) : (eventJson event).WithNumbers P := by
  have hdata : (Json.obj (eventDataFields event.data)).WithNumbers P := by
    refine .obj (nodup_eventDataFields _) ?_
    simp only [eventDataFields, List.forall_mem_cons, List.not_mem_nil, false_implies,
      implies_true, and_true]
    exact ⟨.str _, .str _, .str _, .str _, .str _⟩
  -- the other fields are texts, or null
  have hcausation : (event.causationId.elim Json.null Json.str).WithNumbers P := by
    cases event.causationId with
    | none => exact .null
    | some s => exact .str s
  refine .obj (nodup_eventFields event) ?_
  simp only [eventFields, List.forall_mem_cons, List.not_mem_nil, false_implies, implies_true,
    and_true]
  exact ⟨.str _, .str _, .str _, .str _, .num h, .str _, hcausation, .str _, hdata⟩

/-- A text of an object, in an equivalent one. -/
theorem Json.Equiv.text {fs gs : List (JsString × Json)} (h : Json.Equiv (.obj fs) (.obj gs))
    (hnodup : (gs.map Prod.fst).Nodup) {name s : JsString} (hmem : (name, .str s) ∈ gs) :
    (Json.obj fs).text name = some s := by
  obtain ⟨value', hfield, hequiv⟩ := h.field hnodup hmem
  cases hequiv
  rw [Json.text, hfield]

/-- **The order of fields is not read**: a value equivalent to the object of an event has the
fields of the event. -/
theorem readEvent_of_equiv {value : Json} {event : MessageCreatedEvent}
    (h : value.Equiv (eventJson event)) (hversion : event.version = MESSAGE_CREATED_VERSION) :
    readEvent value = some event := by
  have hone : (JsonNumber.mk MESSAGE_CREATED_VERSION 0).isOne = true := by decide
  have hnodup := nodup_eventFields event
  have hnodup' := nodup_eventDataFields event.data
  cases value with
  | obj fs =>
    -- the three fields that are no texts, and then the texts by their names
    obtain ⟨version, hversionField, hv⟩ := h.field hnodup
      (show (js "version", Json.num ⟨event.version, 0⟩) ∈ _ by simp [eventFields])
    obtain ⟨causation, hcausationField, hc⟩ := h.field hnodup
      (show (js "causationId", event.causationId.elim .null .str) ∈ _ by simp [eventFields])
    obtain ⟨data, hdataField, hd⟩ := h.field hnodup
      (show (js "data", Json.obj (eventDataFields event.data)) ∈ _ by simp [eventFields])
    refine readEvent_eq_some.mpr ⟨h.text hnodup ?_, h.text hnodup ?_, h.text hnodup ?_,
      h.text hnodup ?_, ?version, h.text hnodup ?_, ?causation, h.text hnodup ?_, data, ?data, ?_⟩
    case version =>
      cases hv
      rw [Json.version, hversionField, hversion]
      exact if_pos hone
    case causation =>
      rw [Json.causation, hcausationField]
      cases hcause : event.causationId with
      | none =>
        rw [hcause] at hc
        cases hc
        rfl
      | some s =>
        rw [hcause] at hc
        cases hc
        rfl
    case data =>
      cases hd
      rw [Json.data, hdataField]
      rfl
    case refine_7 =>
      -- the fields of the data are texts
      cases hd with
      | obj hperm hfields =>
        have hobj := Json.Equiv.obj hperm hfields
        refine ⟨hobj.text hnodup' ?_, hobj.text hnodup' ?_, hobj.text hnodup' ?_,
          hobj.text hnodup' ?_, hobj.text hnodup' ?_⟩ <;> simp [eventDataFields]
    all_goals simp [eventFields]
  | _ => cases h

end MernChat
