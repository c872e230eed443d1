import MernChat.Outbox.System

/-!
# What a step of the relay system does

Each part of the state changes in one way: rows are updated one by one or become visible, events
are claimed or finished with, and the Kafka log grows at its end. The invariants of the system
are derived from these descriptions.

## Main definitions

* `rowEffect`, `committedBy`: what a step does to a row, and the rows it makes visible
* `sentBy`, `writtenBy`: the events a step makes Kafka accept, and those whose outcome it writes
* `RowChange`: the ways a step can change a row
* `RelayState.WellFormed`: the keys of the table, and the rows behind events

## Main results

* `RelayStep.rows_eq`, `RelayStep.held_cases`, `RelayStep.accepted_eq`: the parts of a step
* `wellFormed_of_reachable`
-/

namespace MernChat

open Library

variable {settings : Nat → OutboxRelaySettings} {s s' : RelayState} {a : RelayAction}

/-! ## The events of a phase -/

@[simp] theorem held_idle : WorkerPhase.idle.held = [] := rfl

@[simp] theorem held_begun (t : Int) : (WorkerPhase.begun t).held = [] := rfl

@[simp] theorem held_frontier (t : Int) (aggregateId : Uuid) (n : Nat) :
    (WorkerPhase.frontier t aggregateId n).held = [] := rfl

@[simp] theorem held_candidates (t : Int) (ids : List Uuid) :
    (WorkerPhase.candidates t ids).held = [] := rfl

@[simp] theorem held_publishing (lease : Int) (events : List OutboxEvent)
    (topics : List JsString) : (WorkerPhase.publishing lease events topics).held = events := rfl

@[simp] theorem held_marking (lease : Int) (events : List OutboxEvent) :
    (WorkerPhase.marking lease events).held = events := rfl

@[simp] theorem held_failing (lease : Int) (message : JsString) (marked : Bool)
    (events : List OutboxEvent) :
    (WorkerPhase.failing lease message marked events).held = events := rfl

/-! ## The parts of a step -/

/-- What a step does to a row of the table. -/
def rowEffect (settings : Nat → OutboxRelaySettings) (s : RelayState) :
    RelayAction → OutboxRow → OutboxRow
  | .claim w =>
    match s.workers w with
    | .candidates startedAt ids => claimRow ids startedAt (settings w).leaseMs
    | _ => id
  | .mark w | .markError w true _ =>
    match s.workers w with
    | .marking _ events => markPublishedRow (events.map OutboxEvent.id) s.now
    | _ => id
  | .settle w dateNow =>
    match s.workers w with
    | .failing _ message _ (event :: _) => settleRow (settings w) event message dateNow
    | _ => id
  | _ => id

/-- The rows a step makes visible. -/
def committedBy (s : RelayState) : RelayAction → List OutboxRow
  | .commitTx tx =>
    match s.senders tx with
    | .inserted row => [row]
    | _ => []
  | _ => []

/-- The events a step makes Kafka accept. -/
def sentBy (s : RelayState) : RelayAction → List OutboxEvent
  | .send w .acknowledged | .send w (.unacknowledged _) =>
    match s.workers w with
    | .publishing _ events (topic :: _) => topicBatch events topic
    | _ => []
  | _ => []

/-- The events whose outcome a step writes. -/
def writtenBy (s : RelayState) : RelayAction → List OutboxEvent
  | .mark w | .markError w true _ => (s.workers w).marked
  | .settle w _ => (s.workers w).settling.toList
  | _ => []

theorem rowEffect_rowUpdate (r : OutboxRow) : RowUpdate r (rowEffect settings s a r) := by
  unfold rowEffect
  split
  · next w =>
    rcases s.workers w with _ | _ | _ | _ | _ | _ | _
    case candidates => exact claimRow_rowUpdate _ _ _ r
    all_goals exact .refl r
  · next w =>
    rcases s.workers w with _ | _ | _ | _ | _ | _ | _
    case marking => exact markPublishedRow_rowUpdate _ _ r
    all_goals exact .refl r
  · next w _ =>
    rcases s.workers w with _ | _ | _ | _ | _ | _ | _
    case marking => exact markPublishedRow_rowUpdate _ _ r
    all_goals exact .refl r
  · next w _ =>
    rcases s.workers w with _ | _ | _ | _ | _ | _ | ⟨_, _, _, _ | _⟩
    case failing.cons => exact settleRow_rowUpdate _ _ _ _ r
    all_goals exact .refl r
  · exact .refl r

theorem held_of_mem_marked {p : WorkerPhase} {e : OutboxEvent} (h : e ∈ p.marked) :
    e ∈ p.held := by
  cases p with
  | marking => exact h
  | _ => cases h

theorem held_of_mem_settling {p : WorkerPhase} {e : OutboxEvent} (h : e ∈ p.settling) :
    e ∈ p.held := by
  cases p with
  | failing lease message marked events => exact List.mem_of_mem_head? h
  | _ => cases h

/-- What a step can do to the row `r`, and which phase of the worker's call does it. -/
inductive RowChange (settings : Nat → OutboxRelaySettings) (s : RelayState) (a : RelayAction)
    (r : OutboxRow) : OutboxRow → Prop
  | same : RowChange settings s a r r
  | claimed {w startedAt ids} (ha : a = .claim w) (hp : s.workers w = .candidates startedAt ids)
    (hid : r.id ∈ ids) (hu : r.unfinished = true) :
    RowChange settings s a r { r with
      status := .processing
      attemptCount := r.attemptCount + 1
      lockedUntil := some (leaseEnd startedAt (settings w).leaseMs)
      lastError := none }
  | published {w lease events} (ha : a = .mark w ∨ ∃ error, a = .markError w true error)
    (hp : s.workers w = .marking lease events) {e} (he : e ∈ events) (hid : e.id = r.id)
    (hs : r.status = .processing) :
    RowChange settings s a r { r with
      status := .published
      publishedAt := some s.now
      lockedUntil := none
      lastError := none }
  | deadLettered {w dateNow lease message marked e events} (ha : a = .settle w dateNow)
    (hp : s.workers w = .failing lease message marked (e :: events)) (hid : e.id = r.id)
    (hs : r.status = .processing) (hm : (settings w).maxAttempts ≤ e.attemptCount) :
    RowChange settings s a r { r with
      status := .dead_lettered
      lockedUntil := none
      lastError := some (message.take 4000) }
  | rescheduled {w dateNow lease message marked e events} (ha : a = .settle w dateNow)
    (hp : s.workers w = .failing lease message marked (e :: events)) (hid : e.id = r.id)
    (hs : r.status = .processing) (hm : e.attemptCount < (settings w).maxAttempts)
    (availableAt : Int) :
    RowChange settings s a r { r with
      status := .pending
      availableAt := availableAt
      lockedUntil := none
      lastError := some (message.take 4000) }

theorem markPublishedRow_change {w : Nat} {lease : Int} {events : List OutboxEvent}
    (ha : a = .mark w ∨ ∃ error, a = .markError w true error)
    (hp : s.workers w = .marking lease events) (r : OutboxRow) :
    RowChange settings s a r (markPublishedRow (events.map OutboxEvent.id) s.now r) := by
  unfold markPublishedRow
  split_ifs with h
  · simp only [Bool.and_eq_true, List.contains_iff_mem, List.mem_map, beq_iff_eq] at h
    obtain ⟨⟨e, he, hid⟩, hs⟩ := h
    exact .published ha hp he hid hs
  · exact .same

theorem settleRow_change {w : Nat} {dateNow lease : Int} {message : JsString} {marked : Bool}
    {e : OutboxEvent} {events : List OutboxEvent} (ha : a = .settle w dateNow)
    (hp : s.workers w = .failing lease message marked (e :: events)) (r : OutboxRow) :
    RowChange settings s a r (settleRow (settings w) e message dateNow r) := by
  unfold settleRow deadLetterRow rescheduleRow
  split_ifs with hm h h
  · simp only [Bool.and_eq_true, beq_iff_eq] at h
    exact .deadLettered ha hp h.1.symm h.2 hm
  · exact .same
  · simp only [Bool.and_eq_true, beq_iff_eq] at h
    exact .rescheduled ha hp h.1.symm h.2 (not_le.mp hm) _
  · exact .same

/-- **A step changes a row** in one of these ways. -/
theorem rowEffect_change (r : OutboxRow) :
    RowChange settings s a r (rowEffect settings s a r) := by
  unfold rowEffect
  split
  · next w =>
    rcases hp : s.workers w with _ | _ | _ | ⟨startedAt, ids⟩ | _ | _ | _
    case candidates =>
      simp only [claimRow]
      split_ifs with h
      · simp only [claimable, Bool.and_eq_true, List.contains_iff_mem] at h
        exact .claimed rfl hp h.1 h.2
      · exact .same
    all_goals exact .same
  · next w =>
    rcases hp : s.workers w with _ | _ | _ | _ | _ | ⟨lease, events⟩ | _
    case marking => exact markPublishedRow_change (Or.inl rfl) hp r
    all_goals exact .same
  · next w error =>
    rcases hp : s.workers w with _ | _ | _ | _ | _ | ⟨lease, events⟩ | _
    case marking => exact markPublishedRow_change (Or.inr ⟨error, rfl⟩) hp r
    all_goals exact .same
  · next w dateNow =>
    rcases hp : s.workers w with _ | _ | _ | _ | _ | _ | ⟨lease, message, marked, _ | ⟨e, events⟩⟩
    case failing.cons => exact settleRow_change rfl hp r
    all_goals exact .same
  · exact .same

/-- A step changes a row by the claim of its worker, or by the outcome of an event read from it. -/
theorem RowChange.eq_or {r r' : OutboxRow} (h : RowChange settings s a r r') :
    r' = r ∨ (∃ w startedAt ids, a = .claim w ∧ s.workers w = .candidates startedAt ids ∧
      r.id ∈ ids) ∨ ∃ e ∈ writtenBy s a, e.id = r.id ∧ r.status = .processing := by
  cases h with
  | same => exact Or.inl rfl
  | claimed ha hp hid => exact Or.inr (Or.inl ⟨_, _, _, ha, hp, hid⟩)
  | published ha hp he hid hst =>
    refine Or.inr (Or.inr ⟨_, ?_, hid, hst⟩)
    rcases ha with rfl | ⟨error, rfl⟩ <;> simpa [writtenBy, hp, WorkerPhase.marked] using he
  | deadLettered ha hp hid hst | rescheduled ha hp hid hst =>
    subst ha
    exact Or.inr (Or.inr ⟨_, by simp [writtenBy, hp, WorkerPhase.settling], hid, hst⟩)

/-- The outcome of an event is written by a worker that holds it. -/
theorem held_of_mem_writtenBy {e : OutboxEvent} (h : e ∈ writtenBy s a) :
    ∃ w, a.worker = some w ∧ e ∈ (s.workers w).held := by
  unfold writtenBy at h
  split at h
  · exact ⟨_, rfl, held_of_mem_marked h⟩
  · exact ⟨_, rfl, held_of_mem_marked h⟩
  · exact ⟨_, rfl, held_of_mem_settling (Option.mem_toList.mp h)⟩
  · cases h

/-- **Rows** are updated one by one, and a commit adds its row. -/
theorem RelayStep.rows_eq (h : RelayStep settings s a s') :
    s'.rows = s.rows.map (rowEffect settings s a) ++ committedBy s a := by
  cases h <;>
    simp_all [rowEffect, committedBy, RelayState.setSender, RelayState.setWorker,
      RelayState.unlock, RelayState.lock]

/-- **Kafka's log** grows at its end. -/
theorem RelayStep.accepted_eq (h : RelayStep settings s a s') :
    s'.accepted = s.accepted ++ sentBy s a := by
  cases h <;>
    simp_all [sentBy, RelayState.setSender, RelayState.setWorker, RelayState.unlock,
      RelayState.lock]

/-- What is acknowledged was accepted in the same step. -/
theorem RelayStep.acknowledged_eq (h : RelayStep settings s a s') :
    s'.acknowledged = s.acknowledged ∨
      ∃ w, a = .send w .acknowledged ∧ s'.acknowledged = s.acknowledged ++ sentBy s a := by
  cases h <;>
    simp_all [sentBy, RelayState.setSender, RelayState.setWorker, RelayState.unlock,
      RelayState.lock]

/-- The events a step sends are events a worker holds. -/
theorem held_of_mem_sentBy {e : OutboxEvent} (h : e ∈ sentBy s a) :
    ∃ w, a.worker = some w ∧ e ∈ (s.workers w).held := by
  unfold sentBy at h
  split at h
  · split at h
    · exact ⟨_, rfl, by simp_all [mem_topicBatch]⟩
    · cases h
  · split at h
    · exact ⟨_, rfl, by simp_all [mem_topicBatch]⟩
    · cases h
  · cases h

/-- A step moves no worker but the one that takes it. -/
theorem RelayStep.workers_eq (h : RelayStep settings s a s') {w : Nat}
    (hw : a.worker ≠ some w) : s'.workers w = s.workers w := by
  cases h <;> first
    | rfl
    | exact Function.update_of_ne (fun hww => hw (congrArg some hww.symm)) _ _

/-- What a step does to the phase of worker `w`: nothing, the end of a call, or one of the moves of
the worker itself. -/
inductive WorkerStep (settings : Nat → OutboxRelaySettings) (s s' : RelayState) (w : Nat)
    (a : RelayAction) : Prop
  | same (hw : a.worker ≠ some w) (hp : s'.workers w = s.workers w)
  | idle (hp' : s'.workers w = .idle)
  | begun (ha : a = .beginClaim w) (hp' : s'.workers w = .begun s.now)
  | frontier {inFlight startedAt row} (ha : a = .selectFrontier w inFlight)
    (hp : s.workers w = .begun startedAt)
    (hr : selectFrontier s.rows startedAt (s.passedOver w inFlight) = some row)
    (hp' : s'.workers w = .frontier startedAt row.aggregateId row.sequenceNumber)
  | candidates {inFlight startedAt aggregateId sequenceNumber ids}
    (ha : a = .selectCandidates w inFlight)
    (hp : s.workers w = .frontier startedAt aggregateId sequenceNumber)
    (hi : ids = (selectCandidates s.rows startedAt aggregateId sequenceNumber
      (boundedBatchSize (settings w).batchSize) (s.passedOver w inFlight)).map OutboxRow.id)
    (hne : ids ≠ []) (hp' : s'.workers w = .candidates startedAt ids)
  | claimed {startedAt ids events} (ha : a = .claim w)
    (hp : s.workers w = .candidates startedAt ids)
    (he : events = claimedEvents s.rows ids startedAt (settings w).leaseMs)
    (hp' : s'.workers w =
      .publishing (leaseEnd startedAt (settings w).leaseMs) events (topicsOf events))
  | sent {lease events topic topics} (ha : a = .send w .acknowledged)
    (hp : s.workers w = .publishing lease events (topic :: topics))
    (hp' : s'.workers w = .publishing lease events topics)
  | allSent {lease events topic} (ha : a = .send w .acknowledged)
    (hp : s.workers w = .publishing lease events [topic])
    (hp' : s'.workers w = .marking lease events)
  | sendFailed {lease events topic topics error}
    (ha : a = .send w (.rejected error) ∨ a = .send w (.unacknowledged error))
    (hp : s.workers w = .publishing lease events (topic :: topics))
    (hp' : s'.workers w = .failing lease (errorMessage error) false events)
  | markFailed {lease events written error} (ha : a = .markError w written error)
    (hp : s.workers w = .marking lease events)
    (hp' : s'.workers w = .failing lease (errorMessage error) written events)
  | settled {lease message marked e events dateNow} (ha : a = .settle w dateNow)
    (hp : s.workers w = .failing lease message marked (e :: events))
    (hp' : s'.workers w = .failing lease message marked events)

/-- **A worker's phase** moves in one of these ways. -/
theorem RelayStep.worker (h : RelayStep settings s a s') (w : Nat) :
    WorkerStep settings s s' w a := by
  by_cases hw : a.worker = some w
  · cases h <;> simp only [RelayAction.worker, reduceCtorEq, Option.some.injEq] at hw <;> subst hw
    case beginClaim => exact .begun rfl (Function.update_self ..)
    case noFrontier | noCandidates | mark | crash => exact .idle (Function.update_self ..)
    case selectFrontier hp hr => exact .frontier rfl hp hr (Function.update_self ..)
    case selectCandidates hp hi hne => exact .candidates rfl hp hi hne (Function.update_self ..)
    case claim w startedAt ids hp =>
      by_cases he : claimedEvents s.rows ids startedAt (settings w).leaseMs = []
      · exact .idle (by simp [RelayState.setWorker, startPublishing, he])
      · exact .claimed rfl hp rfl (by simp [RelayState.setWorker, startPublishing, he])
    case acknowledged topic topics hp =>
      by_cases ht : topics = []
      · exact .allSent rfl (ht ▸ hp) (by simp [RelayState.setWorker, afterSend, ht])
      · exact .sent rfl hp (by simp [RelayState.setWorker, afterSend, ht])
    case rejected hp => exact .sendFailed (Or.inl rfl) hp (Function.update_self ..)
    case unacknowledged hp => exact .sendFailed (Or.inr rfl) hp (Function.update_self ..)
    case markLost hp _ => exact .markFailed rfl hp (Function.update_self ..)
    case markError hp => exact .markFailed rfl hp (Function.update_self ..)
    case settle events _ hp _ =>
      by_cases he : events = []
      · exact .idle (by simp [RelayState.setWorker, afterSettle, he])
      · exact .settled rfl hp (by simp [RelayState.setWorker, afterSettle, he])
  · exact .same hw (h.workers_eq hw)

/-- **Held events** are held already, or returned by the claim that the step completes. -/
theorem RelayStep.held_eq (h : RelayStep settings s a s') (w : Nat) :
    (s'.workers w).held.Sublist (s.workers w).held ∨ ∃ startedAt ids, a = .claim w ∧
      s.workers w = .candidates startedAt ids ∧
      (s'.workers w).held = claimedEvents s.rows ids startedAt (settings w).leaseMs := by
  cases h.worker w with
  | same _ hp => exact Or.inl (hp ▸ List.Sublist.refl _)
  | idle hp' | begun _ hp' | frontier _ _ _ hp' | candidates _ _ _ _ hp' =>
    rw [hp']
    exact Or.inl (List.nil_sublist _)
  | claimed ha hp he hp' =>
    rw [hp']
    exact Or.inr ⟨_, _, ha, hp, he⟩
  | sent _ hp hp' | allSent _ hp hp' | sendFailed _ hp hp' | markFailed _ hp hp' =>
    rw [hp, hp']
    exact Or.inl (List.Sublist.refl _)
  | settled _ hp hp' =>
    rw [hp, hp']
    exact Or.inl (List.sublist_cons_self _ _)

theorem RelayStep.held_cases (h : RelayStep settings s a s') {w : Nat} {e : OutboxEvent}
    (he : e ∈ (s'.workers w).held) :
    e ∈ (s.workers w).held ∨ ∃ startedAt ids, a = .claim w ∧
      s.workers w = .candidates startedAt ids ∧
      e ∈ claimedEvents s.rows ids startedAt (settings w).leaseMs := by
  rcases h.held_eq w with hsub | ⟨startedAt, ids, ha, hp, heq⟩
  · exact Or.inl (hsub.subset he)
  · exact Or.inr ⟨startedAt, ids, ha, hp, heq ▸ he⟩

/-- Every row after a step was there before it, or becomes visible in it. -/
theorem RelayStep.mem_rows (h : RelayStep settings s a s') {r' : OutboxRow} :
    r' ∈ s'.rows ↔ (∃ r ∈ s.rows, rowEffect settings s a r = r') ∨ r' ∈ committedBy s a := by
  rw [h.rows_eq, List.mem_append, List.mem_map]

/-- No row is removed. -/
theorem RelayStep.row_kept (h : RelayStep settings s a s') {r : OutboxRow} (hr : r ∈ s.rows) :
    rowEffect settings s a r ∈ s'.rows :=
  h.mem_rows.mpr (Or.inl ⟨r, hr, rfl⟩)

theorem mem_committedBy {r : OutboxRow} :
    r ∈ committedBy s a ↔ ∃ tx, a = .commitTx tx ∧ s.senders tx = .inserted r := by
  unfold committedBy
  split
  · next tx =>
    rcases hp : s.senders tx with _ | _ | row <;> simp [hp, eq_comm]
  · next hn =>
    constructor
    · intro h
      cases h
    · rintro ⟨tx, rfl, -⟩
      exact absurd rfl (hn tx)

/-- **A row a step leaves** is a row before the step, changed in one of the ways of a step, or
the row of the transaction that commits. -/
theorem RelayStep.row_cases (h : RelayStep settings s a s') {r' : OutboxRow}
    (hr : r' ∈ s'.rows) :
    (∃ r ∈ s.rows, RowUpdate r r' ∧ RowChange settings s a r r') ∨
      ∃ tx, a = .commitTx tx ∧ s.senders tx = .inserted r' := by
  rcases h.mem_rows.mp hr with ⟨r, hr₀, rfl⟩ | hc
  · exact Or.inl ⟨r, hr₀, rowEffect_rowUpdate r, rowEffect_change r⟩
  · exact Or.inr (mem_committedBy.mp hc)

/-- The row of an open transaction was inserted before the step, or by the step. -/
theorem RelayStep.sender_cases (h : RelayStep settings s a s') {tx : Nat} {r : OutboxRow}
    (hr : s'.senders tx = .inserted r) :
    s.senders tx = .inserted r ∧ a ≠ .commitTx tx ∨
      ∃ input startedAt, a = .insertOutbox tx input ∧ r.id ∉ s.issuedIds ∧
        FreshRow input s.nextSequence startedAt r := by
  cases h with
  | beginTx hp | abortTx =>
    simp only [RelayState.setSender, Function.update_apply] at hr
    split_ifs at hr
    exact Or.inl ⟨hr, by simp⟩
  | @commitTx tx' _ hp =>
    simp only [RelayState.setSender, Function.update_apply] at hr
    split_ifs at hr with htx
    exact Or.inl ⟨hr, fun e => htx (RelayAction.commitTx.inj e).symm⟩
  | insertOutbox hp hi hf =>
    simp only [RelayState.setSender, Function.update_apply] at hr
    split_ifs at hr with htx
    · obtain rfl := SenderPhase.inserted.inj hr
      exact Or.inr ⟨_, _, htx ▸ rfl, hf, insertOutboxEvent_fresh hi⟩
    · exact Or.inl ⟨hr, by simp⟩
  | _ => exact Or.inl ⟨hr, by simp⟩

/-- Identities are drawn, and never taken back. -/
theorem RelayStep.issued_mono (h : RelayStep settings s a s') :
    (∀ id ∈ s.issuedIds, id ∈ s'.issuedIds) ∧ s.nextSequence ≤ s'.nextSequence := by
  cases h with
  | insertOutbox => exact ⟨fun id hid => List.mem_cons_of_mem _ hid, Nat.le_succ _⟩
  | _ => exact ⟨fun id hid => hid, le_rfl⟩

/-- An insert draws the identity of its row. -/
theorem RelayStep.insert_issued (h : RelayStep settings s a s') {tx : Nat}
    {input : OutboxInsertInput} (ha : a = .insertOutbox tx input) {r : OutboxRow}
    (hr : s'.senders tx = .inserted r) :
    r.id ∈ s'.issuedIds ∧ s'.nextSequence = s.nextSequence + 1 := by
  cases h <;> cases ha
  simp only [RelayState.setSender, Function.update_self, SenderPhase.inserted.injEq] at hr
  subst hr
  exact ⟨List.mem_cons_self, rfl⟩

/-! ## Well-formed states -/

/-- Rows have distinct ids and sequence numbers, also with those not visible yet, and every
event held by a worker or accepted by Kafka was read from a row. -/
structure RelayState.WellFormed (s : RelayState) : Prop where
  ids_nodup : (s.rows.map OutboxRow.id).Nodup
  sequence_nodup : (s.rows.map OutboxRow.sequenceNumber).Nodup
  row_issued : ∀ r ∈ s.rows, r.id ∈ s.issuedIds ∧ r.sequenceNumber < s.nextSequence
  open_issued : ∀ tx r, s.senders tx = .inserted r →
    r.id ∈ s.issuedIds ∧ r.sequenceNumber < s.nextSequence
  open_fresh : ∀ tx r, s.senders tx = .inserted r →
    r.status = .pending ∧ r.attemptCount = 0 ∧ r.lockedUntil = none
  open_hidden : ∀ tx r, s.senders tx = .inserted r →
    ∀ r' ∈ s.rows, r'.id ≠ r.id ∧ r'.sequenceNumber ≠ r.sequenceNumber
  open_distinct : ∀ tx tx' r r', s.senders tx = .inserted r → s.senders tx' = .inserted r' →
    tx ≠ tx' → r.id ≠ r'.id ∧ r.sequenceNumber ≠ r'.sequenceNumber
  held_row : ∀ w, ∀ e ∈ (s.workers w).held, ∃ r ∈ s.rows, e.Of r ∧
    0 < e.attemptCount ∧ e.attemptCount ≤ r.attemptCount
  accepted_row : ∀ e ∈ s.accepted, ∃ r ∈ s.rows, e.Of r
  acknowledged_accepted : ∀ e ∈ s.acknowledged, e ∈ s.accepted

namespace RelayState.WellFormed

theorem eq_of_id (hs : s.WellFormed) {r r' : OutboxRow} (hr : r ∈ s.rows) (hr' : r' ∈ s.rows)
    (h : r.id = r'.id) : r = r' :=
  eq_of_key hs.ids_nodup hr hr' h

theorem eq_of_sequenceNumber (hs : s.WellFormed) {r r' : OutboxRow} (hr : r ∈ s.rows)
    (hr' : r' ∈ s.rows) (h : r.sequenceNumber = r'.sequenceNumber) : r = r' :=
  eq_of_key hs.sequence_nodup hr hr' h

theorem nodup_append {β : Type} {f : OutboxRow → β} (hn : (s.rows.map f).Nodup)
    (hf : ∀ r r', RowUpdate r r' → f r' = f r) (h : RelayStep settings s a s')
    (hc : ∀ r ∈ committedBy s a, ∀ r' ∈ s.rows, f r' ≠ f r) : (s'.rows.map f).Nodup := by
  rw [h.rows_eq, List.map_append, map_key_map fun r => hf _ _ (rowEffect_rowUpdate r)]
  refine hn.append ?_ ?_
  · unfold committedBy
    split
    · next tx => rcases s.senders tx with _ | _ | _ <;> simp
    · exact List.nodup_nil
  · simp only [List.disjoint_iff_ne, List.mem_map]
    rintro _ ⟨r', hr', rfl⟩ _ ⟨r, hr, rfl⟩
    exact hc r hr r' hr'

theorem of_row (h : RelayStep settings s a s') {e : OutboxEvent}
    (he : ∃ r ∈ s.rows, e.Of r) : ∃ r ∈ s'.rows, e.Of r := by
  obtain ⟨r, hr, hof⟩ := he
  exact ⟨_, h.row_kept hr, (rowEffect_rowUpdate r).of hof⟩

theorem step (hs : s.WellFormed) (h : RelayStep settings s a s') : s'.WellFormed where
  ids_nodup := by
    refine nodup_append hs.ids_nodup (fun r r' hu => hu.id) h fun r hr r' hr' => ?_
    obtain ⟨tx, -, hp⟩ := mem_committedBy.mp hr
    exact (hs.open_hidden tx r hp r' hr').1
  sequence_nodup := by
    refine nodup_append hs.sequence_nodup (fun r r' hu => hu.sequenceNumber) h
      fun r hr r' hr' => ?_
    obtain ⟨tx, -, hp⟩ := mem_committedBy.mp hr
    exact (hs.open_hidden tx r hp r' hr').2
  row_issued r' hr' := by
    obtain ⟨hi, hn⟩ := h.issued_mono
    have hold : r'.id ∈ s.issuedIds ∧ r'.sequenceNumber < s.nextSequence := by
      rcases h.row_cases hr' with ⟨r, hr, hu, -⟩ | ⟨tx, -, hp⟩
      · rw [hu.id, hu.sequenceNumber]
        exact hs.row_issued r hr
      · exact hs.open_issued tx r' hp
    exact ⟨hi _ hold.1, hold.2.trans_le hn⟩
  open_issued tx r hr := by
    obtain ⟨hi, hn⟩ := h.issued_mono
    rcases h.sender_cases hr with ⟨hp, -⟩ | ⟨input, startedAt, ha, hf, hfresh⟩
    · exact ⟨hi _ (hs.open_issued tx r hp).1, (hs.open_issued tx r hp).2.trans_le hn⟩
    · obtain ⟨hid, hseq⟩ := h.insert_issued ha hr
      refine ⟨hid, ?_⟩
      rw [hfresh.sequenceNumber, hseq]
      exact Nat.lt_succ_self _
  open_fresh tx r hr := by
    rcases h.sender_cases hr with ⟨hp, -⟩ | ⟨input, startedAt, -, -, hfresh⟩
    · exact hs.open_fresh tx r hp
    · exact ⟨hfresh.status, hfresh.attemptCount, hfresh.lockedUntil⟩
  open_hidden tx r hr r' hr' := by
    rcases h.sender_cases hr with ⟨hp, hne⟩ | ⟨input, startedAt, ha, hf, hfresh⟩
    · rcases h.row_cases hr' with ⟨r₀, hr₀, hu, -⟩ | ⟨tx', hc, hp'⟩
      · rw [hu.id, hu.sequenceNumber]
        exact hs.open_hidden tx r hp r₀ hr₀
      · -- the row that becomes visible was open in another transaction
        have htx : tx' ≠ tx := fun e => hne (e ▸ hc)
        exact hs.open_distinct tx' tx r' r hp' hp htx
    · rcases h.row_cases hr' with ⟨r₀, hr₀, hu, -⟩ | ⟨tx', hc, -⟩
      · rw [hu.id, hu.sequenceNumber, hfresh.sequenceNumber]
        -- the id is fresh, and the number is the next one
        obtain ⟨hi, hn⟩ := hs.row_issued r₀ hr₀
        exact ⟨fun e => hf (e ▸ hi), hn.ne⟩
      · rw [ha] at hc
        cases hc
  open_distinct tx tx' r r' hr hr' htx := by
    rcases h.sender_cases hr with ⟨hp, -⟩ | ⟨input, startedAt, ha, hf, hfresh⟩ <;>
      rcases h.sender_cases hr' with ⟨hp', -⟩ | ⟨input', startedAt', ha', hf', hfresh'⟩
    · exact hs.open_distinct tx tx' r r' hp hp' htx
    · rw [hfresh'.sequenceNumber]
      obtain ⟨hi, hn⟩ := hs.open_issued tx r hp
      exact ⟨fun e => hf' (e ▸ hi), hn.ne⟩
    · rw [hfresh.sequenceNumber]
      obtain ⟨hi, hn⟩ := hs.open_issued tx' r' hp'
      exact ⟨fun e => hf (e ▸ hi), hn.ne'⟩
    · rw [ha] at ha'
      exact absurd (RelayAction.insertOutbox.inj ha').1 htx
  held_row w e he := by
    rcases h.held_cases he with he | ⟨startedAt, ids, rfl, hp, he⟩
    · obtain ⟨r, hr, hof, hpos, hle⟩ := hs.held_row w e he
      exact ⟨_, h.row_kept hr, (rowEffect_rowUpdate r).of hof, hpos,
        hle.trans (rowEffect_rowUpdate r).attemptCount⟩
    · -- the claim has counted the attempt in the row as well
      obtain ⟨r, hr, hc, rfl⟩ := mem_claimedEvents.mp he
      have hrow := h.row_kept hr
      simp only [rowEffect, hp] at hrow
      refine ⟨_, hrow, mapOutboxEvent_of _, ?_, le_rfl⟩
      simp [mapOutboxEvent, claimRow, hc]
  accepted_row e he := by
    rw [h.accepted_eq, List.mem_append] at he
    rcases he with he | he
    · exact of_row h (hs.accepted_row e he)
    · obtain ⟨w, -, he⟩ := held_of_mem_sentBy he
      obtain ⟨r, hr, hof, -⟩ := hs.held_row w e he
      exact of_row h ⟨r, hr, hof⟩
  acknowledged_accepted e he := by
    rw [h.accepted_eq, List.mem_append]
    rcases h.acknowledged_eq with heq | ⟨w, -, heq⟩
    · exact Or.inl (hs.acknowledged_accepted e (heq ▸ he))
    · rw [heq, List.mem_append] at he
      exact he.imp_left (hs.acknowledged_accepted e)

theorem empty (now : Int) : (RelayState.empty now).WellFormed := by
  constructor <;> simp [RelayState.empty]

end RelayState.WellFormed

/-- Every reachable state is well-formed. -/
theorem wellFormed_of_reachable {G : Guard RelayState RelayAction}
    (h : (relaySystem settings).Reachable G s) : s.WellFormed := by
  refine h.invariant ?_ fun s a t hs _ hst => hs.step (relayStep_cases hst)
  rintro s ⟨now, rfl⟩
  exact .empty now

end MernChat
