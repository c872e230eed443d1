import MernChat.Events.EachMessage

/-!
# Records are not dropped

A record whose handling returns is not delivered again: its event is to be recorded, or its value
to be in the dead-letter topic, before the handler returns.

## Main definitions

* `NotDropped`: what the handling of a record is to leave
* `KeepsRecord`: when it does

## Main results

* `records_not_dropped`: a record is not dropped exactly when the condition holds
-/

namespace MernChat

open Library

/-! ## What is promised -/

section Promise

variable (env : ConsumerEnv) (value : Option (List UInt8)) (s : ConsumerStore)

/-- The event of the record is recorded. -/
def EventRecorded (t : ConsumerStore) : Prop :=
  ∃ bytes event, value = some bytes ∧ parseRecord env.dateParse (utf8Decode bytes) = some event ∧
    Recorded env.consumerName event t.database

/-- The dead-letter topic has received the bytes of the value. -/
def DeadLettered (t : ConsumerStore) : Prop :=
  ∃ bytes, value = some bytes ∧ t.dlq = s.dlq ++ [bytes]

/-- **A record is not dropped**: the handler returns only where the event is recorded or the bytes
are in the dead-letter topic, and where neither is so it throws and has changed nothing. -/
structure NotDropped : Prop where
  returns : (exec (eachMessage env value) s).1 = .ok () →
    EventRecorded env value (exec (eachMessage env value) s).2 ∨
      DeadLettered value s (exec (eachMessage env value) s).2
  throws : ¬ EventRecorded env value (exec (eachMessage env value) s).2 →
    ¬ DeadLettered value s (exec (eachMessage env value) s).2 →
      (∃ e, (exec (eachMessage env value) s).1 = .error e) ∧
        (exec (eachMessage env value) s).2.database = s.database

end Promise

/-- When a record with this value is kept. -/
structure KeepsRecord (env : ConsumerEnv) (bytes : List UInt8) (s : ConsumerStore) : Prop where
  nonempty : bytes ≠ []
  /-- What is no event is the UTF-8 of a text, unless it cannot be sent. -/
  unreadable : parseRecord env.dateParse (utf8Decode bytes) = none →
    (∃ text, bytes = utf8Encode text) ∨ env.producer = false ∨ env.fault .sendDlq ≠ none
  /-- An event whose id is marked has its notification, unless a step fails until the duplicate is
  rolled back. -/
  readable : ∀ event, parseRecord env.dateParse (utf8Decode bytes) = some event →
    (∃ row ∈ s.database.processed_events, MarkerOf env.consumerName event row) →
      (∃ row ∈ s.database.notifications, NotificationOf event row) ∨
        ∃ op ∈ [ConsumerOp.connect, .begin, .insertProcessedEvent, .rollbackDuplicate],
          env.fault op ≠ none

variable {env : ConsumerEnv} {event : MessageCreatedEvent} {s t : ConsumerStore}

/-! ## The kinds of values -/

section Cases

variable {value : Option (List UInt8)} {bytes : List UInt8}

/-- A record is not dropped where one of the three outcomes is there. -/
theorem notDropped_iff {o : Except Thrown Unit} (h : exec (eachMessage env value) s = (o, t)) :
    NotDropped env value s ↔ EventRecorded env value t ∨ DeadLettered value s t ∨
      (∃ e, o = .error e) ∧ t.database = s.database := by
  constructor
  · intro hn
    by_cases hrecorded : EventRecorded env value t
    · exact Or.inl hrecorded
    · by_cases hdead : DeadLettered value s t
      · exact Or.inr (Or.inl hdead)
      · have hthrows := hn.throws
        rw [h] at hthrows
        exact Or.inr (Or.inr (hthrows hrecorded hdead))
  · intro hcases
    constructor
    · rw [h]
      rintro rfl
      rcases hcases with hrecorded | hdead | ⟨⟨e, he⟩, -⟩
      · exact Or.inl hrecorded
      · exact Or.inr hdead
      · cases he
    · rw [h]
      intro hrecorded hdead
      rcases hcases with hrecorded' | hdead' | hthrows
      · exact absurd hrecorded' hrecorded
      · exact absurd hdead' hdead
      · exact hthrows

/-- **An empty value** is dropped. -/
theorem not_notDropped_of_empty (h : value.map utf8Decode = none ∨ value.map utf8Decode = some []) :
    ¬ NotDropped env value s := by
  have hreturns : exec (eachMessage env value) s = (.ok (), s) := by
    unfold eachMessage
    rcases h with h | h <;> rw [h] <;> rfl
  rw [notDropped_iff hreturns]
  rintro (⟨bytes, event, rfl, hevent, -⟩ | ⟨bytes, -, hdlq⟩ | ⟨⟨e, he⟩, -⟩)
  · -- the empty text is no event
    have hempty : utf8Decode bytes = [] := by simpa using h
    rw [hempty] at hevent
    cases hevent
  · exact absurd hdlq (by simp)
  · cases he

theorem eachMessage_of_ne_nil (h : bytes ≠ []) :
    eachMessage env (some bytes) =
      match parseRecord env.dateParse (utf8Decode bytes) with
      | none => publishToDlq env (utf8Decode bytes)
      | some event => processMessageCreatedEvent env event >>= fun _ => pure () := by
  -- bytes that are there are read as a text that is there
  have htext : utf8Decode bytes ≠ [] := fun hnil => h (utf8Decode_eq_nil.mp hnil)
  unfold eachMessage
  rw [Option.map_some]
  split
  · cases ‹some _ = none›
  · exact absurd (Option.some.inj ‹_›) htext
  · obtain rfl := Option.some.inj ‹_›
    rfl

/-- **A value that is no event**: its bytes are sent where they are those of a text, and an error
is thrown where nothing is sent. -/
theorem notDropped_unreadable (h : bytes ≠ [])
    (hnone : parseRecord env.dateParse (utf8Decode bytes) = none) :
    NotDropped env (some bytes) s ↔
      (∃ text, bytes = utf8Encode text) ∨ env.producer = false ∨ env.fault .sendDlq ≠ none := by
  cases hexec : exec (publishToDlq env (utf8Decode bytes)) s with
  | mk o t =>
    have heach : exec (eachMessage env (some bytes)) s = (o, t) := by
      rw [eachMessage_of_ne_nil h, hnone]
      exact hexec
    rw [notDropped_iff heach]
    rcases publishToDlq_cases hexec with ⟨hproducer, hfault, rfl, rfl⟩ | ⟨hfails, he, hdb⟩
    · -- the text of the bytes has been sent
      have hsent : DeadLettered (some bytes) s
          (s.addDeadLetter (utf8Encode (utf8Decode bytes))) ↔
            ∃ text, bytes = utf8Encode text := by
        rw [← utf8Encode_utf8Decode_eq_iff]
        constructor
        · rintro ⟨_, ⟨⟩, hdlq⟩
          exact List.singleton_inj.mp (List.append_cancel_left hdlq)
        · intro hbytes
          exact ⟨bytes, rfl, by rw [ConsumerStore.addDeadLetter, hbytes]⟩
      have hnothing : ¬ (env.producer = false ∨ env.fault .sendDlq ≠ none) := by
        simp [hproducer, hfault]
      rw [hsent, or_iff_left hnothing]
      constructor
      · rintro (⟨_, event, ⟨⟩, hevent, -⟩ | htext | ⟨⟨e, he⟩, -⟩)
        · rw [hnone] at hevent
          cases hevent
        · exact htext
        · cases he
      · intro htext
        exact Or.inr (Or.inl htext)
    · -- nothing is sent, and an error is thrown
      exact iff_of_true (Or.inr (Or.inr ⟨he, hdb⟩)) (Or.inr hfails)

/-- **The value of an event**: its event is recorded, or an error is thrown, unless it is answered
as a duplicate without a notification. -/
theorem notDropped_readable (h : bytes ≠ [])
    (hevent : parseRecord env.dateParse (utf8Decode bytes) = some event) :
    NotDropped env (some bytes) s ↔
      ((∃ row ∈ s.database.processed_events, MarkerOf env.consumerName event row) →
        (∃ row ∈ s.database.notifications, NotificationOf event row) ∨
          ∃ op ∈ [ConsumerOp.connect, .begin, .insertProcessedEvent, .rollbackDuplicate],
            env.fault op ≠ none) := by
  -- the value has one event
  have hrecorded (t : ConsumerStore) : EventRecorded env (some bytes) t ↔
      Recorded env.consumerName event t.database := by
    constructor
    · rintro ⟨_, event', ⟨⟩, hevent', hrecorded⟩
      obtain rfl := Option.some.inj (hevent'.symm.trans hevent)
      exact hrecorded
    · intro hrecorded
      exact ⟨bytes, event, rfl, hevent, hrecorded⟩
  cases hexec : exec (processMessageCreatedEvent env event) s with
  | mk o t =>
    have heach : exec (eachMessage env (some bytes)) s = (o.map fun _ => (), t) := by
      rw [eachMessage_of_ne_nil h, hevent]
      cases o with
      | ok result => exact exec_bind_ok hexec
      | error e => exact exec_bind_error hexec
    rw [notDropped_iff heach, hrecorded]
    constructor
    · intro hkept hmarker
      by_cases hfaults : ∀ op ∈ [ConsumerOp.connect, .begin, .insertProcessedEvent,
          .rollbackDuplicate], env.fault op = none
      · -- a duplicate changes nothing, so that its notification was there before
        have hduplicate := processMessageCreatedEvent_duplicate.mpr ⟨rfl, hfaults, hmarker⟩
        obtain ⟨rfl, rfl⟩ := Prod.mk.inj (hexec.symm.trans hduplicate)
        rcases hkept with hkept | ⟨_, -, hdlq⟩ | ⟨⟨e, he⟩, -⟩
        · exact Or.inl hkept.notification
        · exact absurd hdlq (by simp)
        · cases he
      · simp only [not_forall] at hfaults
        obtain ⟨op, hop, hfault⟩ := hfaults
        exact Or.inr ⟨op, hop, hfault⟩
    · -- the event is processed, answered as a duplicate, or an error is thrown
      intro hkeeps
      rcases processMessageCreatedEvent_cases hexec with hrec | rfl | ⟨⟨e, rfl⟩, rfl⟩
      · exact Or.inl hrec
      · obtain ⟨rfl, hfaults, hmarker⟩ := processMessageCreatedEvent_duplicate.mp hexec
        rcases hkeeps hmarker with hnotified | ⟨op, hop, hfault⟩
        · exact Or.inl ⟨hmarker, hnotified⟩
        · exact absurd (hfaults op hop) hfault
      · exact Or.inr (Or.inr ⟨⟨e, rfl⟩, rfl⟩)

end Cases

/-- **When a record is not dropped**: it has a value that is not empty, and what is no event is the
UTF-8 of a text or cannot be sent, and an event whose id is marked has its notification or is
answered with an error. -/
theorem records_not_dropped (env : ConsumerEnv) (value : Option (List UInt8)) (s : ConsumerStore) :
    NotDropped env value s ↔ ∃ bytes, value = some bytes ∧ KeepsRecord env bytes s := by
  cases value with
  | none =>
    have hdropped : ¬ NotDropped env none s := not_notDropped_of_empty (Or.inl rfl)
    exact iff_of_false hdropped (by simp)
  | some bytes =>
    by_cases hempty : bytes = []
    · subst hempty
      have hdropped : ¬ NotDropped env (some []) s := not_notDropped_of_empty (Or.inr rfl)
      refine iff_of_false hdropped ?_
      rintro ⟨_, ⟨⟩, hkeeps⟩
      exact hkeeps.nonempty rfl
    · have hkeeps_iff : (∃ bytes', some bytes = some bytes' ∧ KeepsRecord env bytes' s) ↔
          KeepsRecord env bytes s := by simp
      rw [hkeeps_iff]
      -- of the two conditions on a value that is there, the other one is void
      cases hparse : parseRecord env.dateParse (utf8Decode bytes) with
      | none =>
        rw [notDropped_unreadable hempty hparse]
        constructor
        · intro hsent
          refine ⟨hempty, fun _ => hsent, ?_⟩
          intro event hevent
          rw [hparse] at hevent
          cases hevent
        · intro hkeeps
          exact hkeeps.unreadable hparse
      | some event =>
        rw [notDropped_readable hempty hparse]
        constructor
        · intro hnotified
          constructor
          · exact hempty
          · intro hnone
            rw [hparse] at hnone
            cases hnone
          · intro event' hevent'
            obtain rfl := Option.some.inj (hparse.symm.trans hevent')
            exact hnotified
        · intro hkeeps
          exact hkeeps.readable event hparse

/-! ### Two records that are dropped -/

def sampleConsumerEnv : ConsumerEnv where
  consumerName := js "chat-notification-consumer"
  dateParse := fun _ => none
  now := 1767225600000000
  notificationId := Uuid.ofNat (4 * 16 ^ 19 + 8 * 16 ^ 15 + 0x20)
  producer := true
  fault := fun _ => none

def ConsumerStore.empty : ConsumerStore where
  database :=
    { Database.empty with
      processed_events := []
      notifications := [] }
  dlq := []

/-- A value without bytes is not sent, and of a value that is not UTF-8 other bytes are. -/
theorem records_dropped :
    ¬ NotDropped sampleConsumerEnv (some []) .empty ∧
      ¬ NotDropped sampleConsumerEnv (some [0xFF]) .empty := by
  constructor
  · exact not_notDropped_of_empty (Or.inr rfl)
  · have hparse : parseRecord sampleConsumerEnv.dateParse (utf8Decode [0xFF]) = none := by
      decide +kernel
    rw [notDropped_unreadable (List.cons_ne_nil _ _) hparse, ← utf8Encode_utf8Decode_eq_iff]
    -- the byte is read as U+FFFD, which has three bytes
    have hbytes : utf8Encode (utf8Decode [0xFF]) = [0xEF, 0xBF, 0xBD] := by decide +kernel
    rw [hbytes]
    simp [sampleConsumerEnv]

end MernChat
