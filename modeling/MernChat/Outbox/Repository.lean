import MernChat.Library.Table
import MernChat.Outbox.Row
import Mathlib.Algebra.Group.Int.Defs

/-!
# The outbox repository

The statements of the repository as functions of the committed rows. A claim is three
statements of one transaction: the frontier row of an aggregate, the candidate rows of that
aggregate, and the update of the candidates; `NOW()` is the start of the transaction, and both
selects pass over rows that other transactions hold locked. Each outcome write is one update,
restricted to rows that are `processing`.

## Main definitions

* `selectFrontier`, `selectCandidates`, `claimRow`: the statements of a claim
* `claimPendingOutboxEvents`: a claim without interference
* `markPublishedRow`, `rescheduleRow`, `deadLetterRow`: the outcome writes, row by row
* `calculateOutboxBackoffMs`
* `RowUpdate`: what every update of the repository leaves alone

## Main results

* `selectFrontier_eq_some`, `mem_selectCandidates`: what the selects return
* `claimRow_rowUpdate`, `markPublishedRow_rowUpdate`, `rescheduleRow_rowUpdate`,
  `deadLetterRow_rowUpdate`
-/

namespace MernChat

open Library

/-! ## The claim queries -/

/-- The `WHERE` clause of the frontier query. -/
def isFrontier (rows : List OutboxRow) (now : Int) (candidate : OutboxRow) : Bool :=
  -- `AND NOT EXISTS (…)`: whatever came before in the aggregate is finished
  candidate.eligible now && !rows.any fun earlier =>
    earlier.aggregateId == candidate.aggregateId &&
      decide (earlier.sequenceNumber < candidate.sequenceNumber) && earlier.unfinished

/-- The first frontier row that no other transaction holds locked. -/
def selectFrontier (rows : List OutboxRow) (now : Int) (locked : Uuid → Bool) :
    Option OutboxRow :=
  ((sortBy OutboxRow.sequenceNumber (rows.filter (isFrontier rows now))).filter
    fun r => !locked r.id).head?

/-- The `WHERE` clause of the candidates query. -/
def isCandidate (rows : List OutboxRow) (now : Int) (aggregateId : Uuid)
    (frontierSequenceNumber : Nat) (candidate : OutboxRow) : Bool :=
  candidate.aggregateId == aggregateId && candidate.unfinished && candidate.eligible now &&
    -- no row between the frontier and this one still waits for its date or its lease
    !rows.any fun blocker =>
      blocker.aggregateId == candidate.aggregateId &&
        decide (frontierSequenceNumber < blocker.sequenceNumber) &&
        decide (blocker.sequenceNumber < candidate.sequenceNumber) && blocker.unfinished &&
        !blocker.eligible now

/-- The first `limit` candidates that no other transaction holds locked. -/
def selectCandidates (rows : List OutboxRow) (now : Int) (aggregateId : Uuid)
    (frontierSequenceNumber : Nat) (limit : Int) (locked : Uuid → Bool) : List OutboxRow :=
  ((sortBy OutboxRow.sequenceNumber
    (rows.filter (isCandidate rows now aggregateId frontierSequenceNumber))).filter
      fun r => !locked r.id).take limit.toNat

/-- `Math.min(Math.max(batchSize, 1), 100)`. -/
def boundedBatchSize (batchSize : Int) : Int := min (max batchSize 1) 100

theorem boundedBatchSize_pos (batchSize : Int) : 0 < boundedBatchSize batchSize := by
  unfold boundedBatchSize
  omega

/-- `Math.min(Math.max(leaseMs, 1_000), 300_000)`. -/
def boundedLeaseMs (leaseMs : Int) : Int := min (max leaseMs 1000) 300000

/-- The end of the lease a claim writes. -/
def leaseEnd (now leaseMs : Int) : Int := now + boundedLeaseMs leaseMs * 1000

/-- A row the update of a claim selects. -/
def claimable (ids : List Uuid) (r : OutboxRow) : Bool := ids.contains r.id && r.unfinished

/-- The update of a claim. -/
def claimRow (ids : List Uuid) (now leaseMs : Int) (r : OutboxRow) : OutboxRow :=
  if claimable ids r then
    { r with
      status := .processing
      attemptCount := r.attemptCount + 1
      lockedUntil := some (leaseEnd now leaseMs)
      lastError := none }
  else r

/-- The events the update of a claim returns, sorted by sequence number. -/
def claimedEvents (rows : List OutboxRow) (ids : List Uuid) (now leaseMs : Int) :
    List OutboxEvent :=
  sortBy OutboxEvent.sequenceNumber
    (((rows.filter (claimable ids)).map (claimRow ids now leaseMs)).map mapOutboxEvent)

/-- A claim, without interference between its statements: the rows after it and the events it
returns. -/
def claimPendingOutboxEvents (rows : List OutboxRow) (now : Int) (locked : Uuid → Bool)
    (batchSize leaseMs : Int) : List OutboxRow × List OutboxEvent :=
  match selectFrontier rows now locked with
  -- without a frontier the transaction commits, and no event is returned
  | none => (rows, [])
  | some frontier =>
    let ids := (selectCandidates rows now frontier.aggregateId frontier.sequenceNumber
      (boundedBatchSize batchSize) locked).map OutboxRow.id
    (rows.map (claimRow ids now leaseMs), claimedEvents rows ids now leaseMs)

/-! ## The outcome writes -/

/-- `markOutboxEventsPublished`. -/
def markPublishedRow (eventIds : List Uuid) (now : Int) (r : OutboxRow) : OutboxRow :=
  if eventIds.contains r.id && r.status == .processing then
    { r with status := .published, publishedAt := some now, lockedUntil := none, lastError := none }
  else r

/-- `rescheduleOutboxEvent`; `nextAttemptAt` is a date. -/
def rescheduleRow (eventId : Uuid) (nextAttemptAt : Int) (errorMessage : JsString)
    (r : OutboxRow) : OutboxRow :=
  if r.id == eventId && r.status == .processing then
    { r with
      status := .pending
      availableAt := pgTimestamp nextAttemptAt
      lockedUntil := none
      lastError := some (errorMessage.take 4000) }
  else r

/-- `deadLetterOutboxEvent`. -/
def deadLetterRow (eventId : Uuid) (errorMessage : JsString) (r : OutboxRow) : OutboxRow :=
  if r.id == eventId && r.status == .processing then
    { r with
      status := .dead_lettered
      lockedUntil := none
      lastError := some (errorMessage.take 4000) }
  else r

/-- `Math.min(baseDelayMs * 2 ** Math.max(attemptCount - 1, 0), maxDelayMs)`. -/
def calculateOutboxBackoffMs (attemptCount : Nat) (baseDelayMs maxDelayMs : Int) : Int :=
  min (baseDelayMs * 2 ^ (attemptCount - 1)) maxDelayMs

/-! ## What the selects return -/

theorem isFrontier_iff {rows : List OutboxRow} {now : Int} {r : OutboxRow} :
    isFrontier rows now r = true ↔ r.eligible now = true ∧
      ∀ e ∈ rows, e.aggregateId = r.aggregateId → e.sequenceNumber < r.sequenceNumber →
        e.unfinished = false := by
  simp [isFrontier, List.any_eq_false]

theorem isCandidate_iff {rows : List OutboxRow} {now : Int} {a : Uuid} {n : Nat}
    {r : OutboxRow} :
    isCandidate rows now a n r = true ↔ r.aggregateId = a ∧ r.eligible now = true ∧
      ∀ b ∈ rows, b.aggregateId = r.aggregateId → n < b.sequenceNumber →
        b.sequenceNumber < r.sequenceNumber → b.unfinished = true → b.eligible now = true := by
  simp only [isCandidate, Bool.and_eq_true, beq_iff_eq, Bool.not_eq_true', List.any_eq_false,
    decide_eq_true_eq]
  constructor
  · rintro ⟨⟨⟨ha, -⟩, he⟩, hb⟩
    refine ⟨ha, he, fun b hb' h₁ h₂ h₃ h₄ => ?_⟩
    by_contra hne
    exact hb b hb' ⟨⟨⟨⟨h₁, h₂⟩, h₃⟩, h₄⟩, by simpa using hne⟩
  · rintro ⟨ha, he, hb⟩
    refine ⟨⟨⟨ha, OutboxRow.unfinished_of_eligible he⟩, he⟩, fun b hb' => ?_⟩
    rintro ⟨⟨⟨⟨h₁, h₂⟩, h₃⟩, h₄⟩, h₅⟩
    simp [hb b hb' h₁ h₂ h₃ h₄] at h₅

/-- The frontier row returned is a frontier row of the table, and not locked. -/
theorem selectFrontier_eq_some {rows : List OutboxRow} {now : Int} {locked : Uuid → Bool}
    {r : OutboxRow} (h : selectFrontier rows now locked = some r) :
    r ∈ rows ∧ isFrontier rows now r = true ∧ locked r.id = false := by
  have hm := List.mem_of_mem_head? (Option.mem_def.mpr h)
  rw [List.mem_filter, mem_sortBy, List.mem_filter] at hm
  exact ⟨hm.1.1, hm.1.2, by simpa using hm.2⟩

/-- The candidate rows returned are candidates of the table, and not locked. -/
theorem mem_selectCandidates {rows : List OutboxRow} {now : Int} {a : Uuid} {n : Nat}
    {limit : Int} {locked : Uuid → Bool} {r : OutboxRow}
    (h : r ∈ selectCandidates rows now a n limit locked) :
    r ∈ rows ∧ isCandidate rows now a n r = true ∧ locked r.id = false := by
  have hm := List.mem_of_mem_take h
  rw [List.mem_filter, mem_sortBy, List.mem_filter] at hm
  exact ⟨hm.1.1, hm.1.2, by simpa using hm.2⟩

/-- No row is returned twice. -/
theorem nodup_selectCandidates {rows : List OutboxRow} (hid : (rows.map OutboxRow.id).Nodup)
    (now : Int) (a : Uuid) (n : Nat) (limit : Int) (locked : Uuid → Bool) :
    ((selectCandidates rows now a n limit locked).map OutboxRow.id).Nodup := by
  have hsorted : ((sortBy OutboxRow.sequenceNumber
      (rows.filter (isCandidate rows now a n))).map OutboxRow.id).Nodup := by
    apply ((perm_sortBy OutboxRow.sequenceNumber _).map OutboxRow.id).nodup_iff.mpr
    exact hid.sublist (List.filter_sublist.map _)
  exact hsorted.sublist (((List.take_sublist _ _).trans List.filter_sublist).map _)

/-- Candidates are returned from the first on: one that is not locked and stands before a
returned one is returned. -/
theorem mem_selectCandidates_of_lt {rows : List OutboxRow}
    (hn : (rows.map OutboxRow.sequenceNumber).Nodup) {now : Int} {a : Uuid} {n : Nat}
    {limit : Int} {locked : Uuid → Bool} {r e : OutboxRow}
    (h : r ∈ selectCandidates rows now a n limit locked) (he : e ∈ rows)
    (hc : isCandidate rows now a n e = true) (hl : locked e.id = false)
    (hlt : e.sequenceNumber < r.sequenceNumber) :
    e ∈ selectCandidates rows now a n limit locked := by
  refine mem_take_of_lt (f := OutboxRow.sequenceNumber) ?_ h ?_ hlt
  · exact (pairwise_lt_sortBy (hn.sublist (List.filter_sublist.map _))).filter _
  · rw [List.mem_filter, mem_sortBy, List.mem_filter]
    exact ⟨⟨he, hc⟩, by simpa using hl⟩

/-- A frontier is a candidate of its own, so that a claim from it selects rows. -/
theorem selectCandidates_ne_nil {rows : List OutboxRow} {now : Int} {frontier : OutboxRow}
    {limit : Int} {locked : Uuid → Bool} (hmem : frontier ∈ rows)
    (hf : isFrontier rows now frontier = true) (hl : locked frontier.id = false)
    (hlimit : 0 < limit) :
    selectCandidates rows now frontier.aggregateId frontier.sequenceNumber limit locked ≠ [] := by
  have hc : isCandidate rows now frontier.aggregateId frontier.sequenceNumber frontier = true :=
    isCandidate_iff.mpr ⟨rfl, (isFrontier_iff.mp hf).1,
      fun b _ _ hgt hlt _ => absurd hlt (lt_asymm hgt)⟩
  have hlisted : frontier ∈ (sortBy OutboxRow.sequenceNumber (rows.filter (isCandidate rows now
      frontier.aggregateId frontier.sequenceNumber))).filter fun r => !locked r.id := by
    rw [List.mem_filter, mem_sortBy, List.mem_filter]
    exact ⟨⟨hmem, hc⟩, by simp [hl]⟩
  intro hnil
  rcases List.take_eq_nil_iff.mp hnil with hzero | hnil
  · omega
  · rw [hnil] at hlisted
    cases hlisted

/-! ## What the updates leave alone -/

/-- An update of one row: the columns it never writes, and the finished rows it never
changes. -/
structure RowUpdate (r r' : OutboxRow) : Prop where
  id : r'.id = r.id
  sequenceNumber : r'.sequenceNumber = r.sequenceNumber
  aggregateId : r'.aggregateId = r.aggregateId
  topic : r'.topic = r.topic
  partitionKey : r'.partitionKey = r.partitionKey
  payload : r'.payload = r.payload
  headers : r'.headers = r.headers
  attemptCount : r.attemptCount ≤ r'.attemptCount
  finished : r.unfinished = false → r' = r

theorem RowUpdate.refl (r : OutboxRow) : RowUpdate r r :=
  ⟨rfl, rfl, rfl, rfl, rfl, rfl, rfl, le_rfl, fun _ => rfl⟩

theorem RowUpdate.trans {r r' r'' : OutboxRow} (h : RowUpdate r r') (h' : RowUpdate r' r'') :
    RowUpdate r r'' where
  id := h'.id.trans h.id
  sequenceNumber := h'.sequenceNumber.trans h.sequenceNumber
  aggregateId := h'.aggregateId.trans h.aggregateId
  topic := h'.topic.trans h.topic
  partitionKey := h'.partitionKey.trans h.partitionKey
  payload := h'.payload.trans h.payload
  headers := h'.headers.trans h.headers
  attemptCount := h.attemptCount.trans h'.attemptCount
  finished hf := by
    have heq := h.finished hf
    exact (h'.finished (heq.symm ▸ hf)).trans heq

theorem RowUpdate.of {r r' : OutboxRow} (h : RowUpdate r r') {e : OutboxEvent} (he : e.Of r) :
    e.Of r' where
  id := he.id.trans h.id.symm
  sequenceNumber := he.sequenceNumber.trans h.sequenceNumber.symm
  aggregateId := he.aggregateId.trans h.aggregateId.symm
  topic := he.topic.trans h.topic.symm
  partitionKey := he.partitionKey.trans h.partitionKey.symm
  payload := he.payload.trans h.payload.symm
  headers := he.headers.trans h.headers.symm

/-- An unfinished row was unfinished before. -/
theorem RowUpdate.unfinished_of {r r' : OutboxRow} (h : RowUpdate r r')
    (hu : r'.unfinished = true) : r.unfinished = true := by
  by_contra hf
  rw [h.finished (Bool.not_eq_true _ ▸ hf)] at hu
  exact hf hu

theorem claimRow_rowUpdate (ids : List Uuid) (now leaseMs : Int) (r : OutboxRow) :
    RowUpdate r (claimRow ids now leaseMs r) := by
  unfold claimRow
  split_ifs with h
  · refine ⟨rfl, rfl, rfl, rfl, rfl, rfl, rfl, Nat.le_succ _, fun hf => ?_⟩
    simp [claimable, hf] at h
  · exact .refl r

theorem markPublishedRow_rowUpdate (ids : List Uuid) (now : Int) (r : OutboxRow) :
    RowUpdate r (markPublishedRow ids now r) := by
  unfold markPublishedRow
  split_ifs with h
  · refine ⟨rfl, rfl, rfl, rfl, rfl, rfl, rfl, le_rfl, fun hf => ?_⟩
    simp_all [OutboxRow.unfinished]
  · exact .refl r

theorem rescheduleRow_rowUpdate (id : Uuid) (nextAttemptAt : Int) (errorMessage : JsString)
    (r : OutboxRow) : RowUpdate r (rescheduleRow id nextAttemptAt errorMessage r) := by
  unfold rescheduleRow
  split_ifs with h
  · refine ⟨rfl, rfl, rfl, rfl, rfl, rfl, rfl, le_rfl, fun hf => ?_⟩
    simp_all [OutboxRow.unfinished]
  · exact .refl r

theorem deadLetterRow_rowUpdate (id : Uuid) (errorMessage : JsString) (r : OutboxRow) :
    RowUpdate r (deadLetterRow id errorMessage r) := by
  unfold deadLetterRow
  split_ifs with h
  · refine ⟨rfl, rfl, rfl, rfl, rfl, rfl, rfl, le_rfl, fun hf => ?_⟩
    simp_all [OutboxRow.unfinished]
  · exact .refl r

/-! ## What a claim returns -/

theorem mem_claimedEvents {rows : List OutboxRow} {ids : List Uuid} {now leaseMs : Int}
    {e : OutboxEvent} :
    e ∈ claimedEvents rows ids now leaseMs ↔
      ∃ r ∈ rows, claimable ids r = true ∧ mapOutboxEvent (claimRow ids now leaseMs r) = e := by
  simp only [claimedEvents, mem_sortBy, List.mem_map, List.mem_filter]
  constructor
  · rintro ⟨_, ⟨r, ⟨hr, hc⟩, rfl⟩, rfl⟩
    exact ⟨r, hr, hc, rfl⟩
  · rintro ⟨r, hr, hc, rfl⟩
    exact ⟨_, ⟨r, ⟨hr, hc⟩, rfl⟩, rfl⟩

/-- A claim returns the events of the rows it takes. -/
theorem map_claimed {β : Type} {f : OutboxRow → β} {g : OutboxEvent → β} {ids : List Uuid}
    {t leaseMs : Int} (hfg : ∀ r, g (mapOutboxEvent (claimRow ids t leaseMs r)) = f r)
    (rows : List OutboxRow) :
    (((rows.filter (claimable ids)).map (claimRow ids t leaseMs)).map mapOutboxEvent).map g =
      (rows.filter (claimable ids)).map f := by
  simp [Function.comp_def, hfg]

theorem nodup_claimedEvents {rows : List OutboxRow} (hn : (rows.map OutboxRow.id).Nodup)
    (ids : List Uuid) (t leaseMs : Int) :
    ((claimedEvents rows ids t leaseMs).map OutboxEvent.id).Nodup := by
  refine ((perm_sortBy OutboxEvent.sequenceNumber _).map _).nodup_iff.mpr ?_
  rw [map_claimed fun r => (claimRow_rowUpdate ids t leaseMs r).id]
  exact hn.sublist (List.filter_sublist.map _)

/-- The rows the update selects are those of the batch. -/
theorem claimable_map_id_iff {rows batch : List OutboxRow} (hn : (rows.map OutboxRow.id).Nodup)
    (hbatch : ∀ r ∈ batch, r ∈ rows ∧ r.unfinished = true) {r : OutboxRow} (hr : r ∈ rows) :
    claimable (batch.map OutboxRow.id) r = true ↔ r ∈ batch := by
  rw [claimable, Bool.and_eq_true, List.contains_iff_mem, List.mem_map]
  constructor
  · rintro ⟨⟨r', hr', hid⟩, -⟩
    exact eq_of_key hn (hbatch r' hr').1 hr hid ▸ hr'
  · intro hb
    exact ⟨⟨r, hb, rfl⟩, (hbatch r hb).2⟩

theorem mem_claimedEvents_map_id {rows batch : List OutboxRow}
    (hn : (rows.map OutboxRow.id).Nodup) (hbatch : ∀ r ∈ batch, r ∈ rows ∧ r.unfinished = true)
    {now leaseMs : Int} {e : OutboxEvent} :
    e ∈ claimedEvents rows (batch.map OutboxRow.id) now leaseMs ↔
      ∃ r ∈ batch, mapOutboxEvent (claimRow (batch.map OutboxRow.id) now leaseMs r) = e := by
  rw [mem_claimedEvents]
  constructor
  · rintro ⟨r, hr, hc, rfl⟩
    exact ⟨r, (claimable_map_id_iff hn hbatch hr).mp hc, rfl⟩
  · rintro ⟨r, hr, rfl⟩
    have hmem := (hbatch r hr).1
    exact ⟨r, hmem, (claimable_map_id_iff hn hbatch hmem).mpr hr, rfl⟩

/-- The events of a claim are those of the batch. -/
theorem perm_claimedEvents {rows batch : List OutboxRow} (hn : (rows.map OutboxRow.id).Nodup)
    (hbatch : ∀ r ∈ batch, r ∈ rows ∧ r.unfinished = true)
    (hnb : (batch.map OutboxRow.id).Nodup) (now leaseMs : Int) :
    ((claimedEvents rows (batch.map OutboxRow.id) now leaseMs).map OutboxEvent.id).Perm
      (batch.map OutboxRow.id) := by
  refine ((perm_sortBy OutboxEvent.sequenceNumber _).map OutboxEvent.id).trans ?_
  rw [map_claimed fun r => (claimRow_rowUpdate (batch.map OutboxRow.id) now leaseMs r).id]
  apply List.Perm.map
  have hrows : (rows.filter (claimable (batch.map OutboxRow.id))).Nodup :=
    hn.of_map.sublist List.filter_sublist
  rw [List.perm_ext_iff_of_nodup hrows hnb.of_map]
  intro r
  rw [List.mem_filter]
  constructor
  · rintro ⟨hr, hc⟩
    exact (claimable_map_id_iff hn hbatch hr).mp hc
  · intro hb
    exact ⟨(hbatch r hb).1, (claimable_map_id_iff hn hbatch (hbatch r hb).1).mpr hb⟩

/-- A claim returns its events in the order of their rows. -/
theorem pairwise_claimedEvents {rows : List OutboxRow}
    (hn : (rows.map OutboxRow.sequenceNumber).Nodup) (ids : List Uuid) (now leaseMs : Int) :
    (claimedEvents rows ids now leaseMs).Pairwise
      fun e e' => e.sequenceNumber < e'.sequenceNumber := by
  apply pairwise_lt_sortBy
  rw [map_claimed fun r => (claimRow_rowUpdate ids now leaseMs r).sequenceNumber]
  exact hn.sublist (List.filter_sublist.map _)

theorem claimRow_nil (now leaseMs : Int) : claimRow [] now leaseMs = id := by
  funext r
  simp [claimRow, claimable]

theorem claimedEvents_nil (rows : List OutboxRow) (now leaseMs : Int) :
    claimedEvents rows [] now leaseMs = [] := by
  have hfilter : rows.filter (claimable []) = [] := by simp [claimable]
  simp [claimedEvents, hfilter, sortBy]

/-- A claim takes the rows of some ids, and returns their events. -/
theorem claimPendingOutboxEvents_eq (rows : List OutboxRow) (now : Int) (locked : Uuid → Bool)
    (batchSize leaseMs : Int) : ∃ ids, claimPendingOutboxEvents rows now locked batchSize leaseMs =
      (rows.map (claimRow ids now leaseMs), claimedEvents rows ids now leaseMs) := by
  unfold claimPendingOutboxEvents
  split
  · exact ⟨[], by rw [claimRow_nil, claimedEvents_nil, List.map_id]⟩
  · exact ⟨_, rfl⟩

end MernChat
