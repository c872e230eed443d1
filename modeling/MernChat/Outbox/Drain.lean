import MernChat.Outbox.Batch
import Mathlib.Data.List.Perm.Basic

/-!
# The outbox drains

A single worker calls the relay again and again, with a producer that accepts every send, after
every date of the table. The first unfinished row of all is a frontier, and nothing blocks the rows
after it: each call publishes a first part of the unfinished rows of one aggregate. A batch is sent
topic by topic, so that only events of one topic are sent in the order of their rows.

## Main definitions

* `OutboxTable`, `TimePassed`: the constraints of the table, and the time of the calls
* `accepting`, `relayResults`: the producer, and the results of calls one after the other
* `TopicByTopic`: the order of the events a call sends
* `PublishesBatch`: what one call does
* `Drains`: what the calls do

## Main results

* `exists_publishesBatch`: a call publishes a first part of the unfinished rows of an aggregate
* `outbox_drains`
* `topics_out_of_order`: a batch of two topics
-/

namespace MernChat

open Library

variable {rows batch : List OutboxRow} {now : Int} {call : RelayCall} {calls : List RelayCall}

/-! ## Calls that are accepted -/

/-- A producer that accepts every send. -/
def accepting : Producer := fun _ _ => none

/-- The results of calls one after the other. -/
def relayResults (producer : Producer) : List RelayCall → List OutboxRow → List RelayResult
  | [], _ => []
  | call :: calls, rows =>
    let result := runOutboxRelayOnce producer call.settings call.clock rows
    result :: relayResults producer calls result.rows

/-- The constraints of the table. -/
structure OutboxTable (rows : List OutboxRow) : Prop where
  ids : (rows.map OutboxRow.id).Nodup
  sequenceNumbers : (rows.map OutboxRow.sequenceNumber).Nodup
  locked : ∀ r ∈ rows, r.status = .processing → r.lockedUntil.isSome = true

/-- Time has passed every `available_at` and `locked_until`. -/
structure TimePassed (rows : List OutboxRow) (now : Int) : Prop where
  available : ∀ r ∈ rows, r.availableAt ≤ now
  locked : ∀ r ∈ rows, ∀ t, r.lockedUntil = some t → t ≤ now

/-- The rows of a table whose unfinished rows can all be claimed from `now` on. -/
structure Drainable (rows : List OutboxRow) (now : Int) : Prop where
  ids : (rows.map OutboxRow.id).Nodup
  sequenceNumbers : (rows.map OutboxRow.sequenceNumber).Nodup
  eligible : ∀ r ∈ rows, r.unfinished = true → r.eligible now = true

theorem OutboxTable.drainable (h : OutboxTable rows) (ht : TimePassed rows now) :
    Drainable rows now where
  ids := h.ids
  sequenceNumbers := h.sequenceNumbers
  eligible r hr hu := by
    rw [OutboxRow.eligible_iff]
    -- a pending row has been made available, and a lease has ended
    rcases OutboxRow.unfinished_iff.mp hu with hs | hs
    · exact Or.inl ⟨hs, ht.available r hr⟩
    · obtain ⟨t, hlocked⟩ := Option.isSome_iff_exists.mp (h.locked r hr hs)
      exact Or.inr ⟨hs, t, hlocked, ht.locked r hr t hlocked⟩

theorem Drainable.later (h : Drainable rows now) {now' : Int} (hle : now ≤ now') :
    Drainable rows now' :=
  ⟨h.ids, h.sequenceNumbers, fun r hr hu => OutboxRow.eligible_mono hle (h.eligible r hr hu)⟩

/-! ## The sends of a batch -/

theorem publishOutboxEvents_accepting (events : List OutboxEvent) (topics : List JsString) :
    publishOutboxEvents accepting events topics = (topics.flatMap (topicBatch events), none) := by
  induction topics with
  | nil => rfl
  | cons topic topics ih =>
    simp only [publishOutboxEvents, accepting, List.flatMap_cons] at ih ⊢
    rw [ih]

/-- Every event of a batch is sent once. -/
theorem perm_flatMap_topicBatch (events : List OutboxEvent) :
    ((topicsOf events).flatMap (topicBatch events)).Perm events := by
  refine (perm_flatMap_filter OutboxEvent.topic (nodup_eraseDups _) events).trans ?_
  apply List.Perm.of_eq
  rw [List.filter_eq_self]
  intro e he
  exact List.contains_iff_mem.mpr (mem_topicsOf he)

/-- Events are sent topic by topic. -/
structure TopicByTopic (sent : List OutboxEvent) : Prop where
  /-- The events of a topic are in the order of their rows, -/
  events : sent.Pairwise fun e e' => e.topic = e'.topic → e.sequenceNumber < e'.sequenceNumber
  /-- and the topics in the order of their first events. -/
  topics : sent.Pairwise fun e e' => e.topic ≠ e'.topic → ∃ first ∈ sent, first.topic = e.topic ∧
    ∀ other ∈ sent, other.topic = e'.topic → first.sequenceNumber < other.sequenceNumber

/-- A batch in the order of its rows is sent topic by topic. -/
theorem topicByTopic_flatMap_topicBatch {events : List OutboxEvent}
    (h : events.Pairwise fun e e' => e.sequenceNumber < e'.sequenceNumber) :
    TopicByTopic ((topicsOf events).flatMap (topicBatch events)) := by
  have hmem : ∀ e, e ∈ (topicsOf events).flatMap (topicBatch events) ↔ e ∈ events :=
    fun e => (perm_flatMap_topicBatch events).mem_iff
  constructor
  case events =>
    rw [List.pairwise_flatMap]
    constructor
    · intro topic _
      apply (h.filter fun e => e.topic == topic).imp
      intro e e' hlt _
      exact hlt
    · -- two events of one topic are in one batch
      apply (nodup_eraseDups (events.map OutboxEvent.topic)).imp
      intro topic topic' hne e he e' he' heq
      rw [(mem_topicBatch.mp he).2, (mem_topicBatch.mp he').2] at heq
      exact absurd heq hne
  case topics =>
    simp only [hmem]
    rw [List.pairwise_flatMap]
    constructor
    · intro topic _
      rw [List.pairwise_iff_forall_sublist]
      intro e e' hsub hne
      have he : e ∈ topicBatch events topic := hsub.subset (by simp)
      have he' : e' ∈ topicBatch events topic := hsub.subset (by simp)
      exact absurd ((mem_topicBatch.mp he).2.trans (mem_topicBatch.mp he').2.symm) hne
    · -- a topic comes before another if its first event does
      apply (pairwise_eraseDups_map h).imp
      intro topic topic' hbefore e he e' he' _
      rw [(mem_topicBatch.mp he).2, (mem_topicBatch.mp he').2]
      exact hbefore

/-! ## The claim of a call -/

/-- A first part of the unfinished rows of an aggregate, empty only if there are none at all. -/
structure FirstPart (rows batch : List OutboxRow) : Prop where
  mem : ∀ r ∈ batch, r ∈ rows ∧ r.unfinished = true
  ids : (batch.map OutboxRow.id).Nodup
  first : ∀ r ∈ batch, ∀ r' ∈ rows, r'.unfinished = true → r'.aggregateId = r.aggregateId →
    r' ∉ batch → r.sequenceNumber < r'.sequenceNumber
  nonempty : (∃ r ∈ rows, r.unfinished = true) → batch ≠ []

/-- **The first unfinished row is a frontier.** -/
theorem Drainable.selectFrontier_isSome (h : Drainable rows now)
    (hu : ∃ r ∈ rows, r.unfinished = true) :
    ∃ frontier, selectFrontier rows now (fun _ => false) = some frontier := by
  obtain ⟨r, hr, hun⟩ := hu
  have hsorted : r ∈ sortBy OutboxRow.sequenceNumber (rows.filter OutboxRow.unfinished) :=
    mem_sortBy.mpr (List.mem_filter.mpr ⟨hr, hun⟩)
  -- of all unfinished rows, the one with the least number
  obtain ⟨first, later, hlist⟩ := List.exists_cons_of_ne_nil (List.ne_nil_of_mem hsorted)
  have hmin := pairwise_sortBy OutboxRow.sequenceNumber (rows.filter OutboxRow.unfinished)
  rw [hlist, List.pairwise_cons] at hmin
  have hmem : ∀ e, e ∈ first :: later ↔ e ∈ rows ∧ e.unfinished = true := by
    intro e
    rw [← hlist, mem_sortBy, List.mem_filter]
  obtain ⟨hfirst, hfirstun⟩ := (hmem first).mp List.mem_cons_self
  have hfrontier : isFrontier rows now first = true := by
    rw [isFrontier_iff]
    refine ⟨h.eligible first hfirst hfirstun, ?_⟩
    intro e he _ hlt
    by_contra hne
    rcases List.mem_cons.mp ((hmem e).mpr ⟨he, Bool.not_eq_false _ ▸ hne⟩) with rfl | hlater
    · exact lt_irrefl _ hlt
    · exact absurd hlt (not_lt.mpr (hmin.1 e hlater))
  have hlisted : first ∈ (sortBy OutboxRow.sequenceNumber
      (rows.filter (isFrontier rows now))).filter fun r => !(fun _ => false) r.id := by
    rw [List.mem_filter, mem_sortBy, List.mem_filter]
    exact ⟨⟨hfirst, hfrontier⟩, rfl⟩
  unfold selectFrontier
  cases hlist : (sortBy OutboxRow.sequenceNumber
      (rows.filter (isFrontier rows now))).filter fun r => !(fun _ => false) r.id with
  | nil =>
    rw [hlist] at hlisted
    cases hlisted
  | cons frontier l => exact ⟨frontier, rfl⟩

/-- Nothing blocks an unfinished row of the aggregate. -/
theorem Drainable.isCandidate (h : Drainable rows now) {r : OutboxRow} (hr : r ∈ rows)
    (hu : r.unfinished = true) (n : Nat) :
    MernChat.isCandidate rows now r.aggregateId n r = true :=
  isCandidate_iff.mpr ⟨rfl, h.eligible r hr hu, fun b hb _ _ _ hub => h.eligible b hb hub⟩

/-- The candidates are a first part of the aggregate of the frontier. -/
theorem Drainable.firstPart (h : Drainable rows now) {frontier : OutboxRow}
    (hf : selectFrontier rows now (fun _ => false) = some frontier) (batchSize : Int) :
    FirstPart rows (selectCandidates rows now frontier.aggregateId frontier.sequenceNumber
      (boundedBatchSize batchSize) fun _ => false) where
  mem r hr := by
    obtain ⟨hmem, hc, -⟩ := mem_selectCandidates hr
    exact ⟨hmem, OutboxRow.unfinished_of_eligible (isCandidate_iff.mp hc).2.1⟩
  ids := nodup_selectCandidates h.ids ..
  first r hr r' hr' hu hagg hnot := by
    obtain ⟨hmem, hc, -⟩ := mem_selectCandidates hr
    have hc' : MernChat.isCandidate rows now frontier.aggregateId frontier.sequenceNumber r' =
        true := by
      rw [← (isCandidate_iff.mp hc).1, ← hagg]
      exact h.isCandidate hr' hu _
    -- otherwise it would have been taken first
    by_contra hlt
    rcases lt_or_eq_of_le (not_lt.mp hlt) with hlt | heq
    · exact hnot (mem_selectCandidates_of_lt h.sequenceNumbers hr hr' hc' rfl hlt)
    · exact hnot (eq_of_key h.sequenceNumbers hr' hmem heq ▸ hr)
  nonempty _ := by
    obtain ⟨hmem, hfrontier, hunlocked⟩ := selectFrontier_eq_some hf
    exact selectCandidates_ne_nil hmem hfrontier hunlocked (boundedBatchSize_pos batchSize)

/-- **A claim** takes a first part of the unfinished rows of an aggregate. -/
theorem Drainable.exists_claim (h : Drainable rows now) (batchSize leaseMs : Int) :
    ∃ batch, FirstPart rows batch ∧
      claimPendingOutboxEvents rows now (fun _ => false) batchSize leaseMs =
        (rows.map (claimRow (batch.map OutboxRow.id) now leaseMs),
          claimedEvents rows (batch.map OutboxRow.id) now leaseMs) := by
  unfold claimPendingOutboxEvents
  cases hf : selectFrontier rows now (fun _ => false) with
  | some frontier => exact ⟨_, h.firstPart hf batchSize, rfl⟩
  | none =>
    refine ⟨[], ⟨by simp, List.nodup_nil, by simp, ?_⟩, ?_⟩
    · intro hu
      obtain ⟨frontier, hsome⟩ := h.selectFrontier_isSome hu
      rw [hf] at hsome
      cases hsome
    · rw [List.map_nil, claimRow_nil, claimedEvents_nil, List.map_id]

/-! ## One call -/

/-- What a call does: it publishes the batch, and sends its events topic by topic. -/
structure PublishesBatch (rows batch : List OutboxRow) (result : RelayResult) : Prop extends
    FirstPart rows batch where
  processed : result.processed = batch.length
  rows_eq : ∃ g, result.rows = rows.map g ∧ ∀ r ∈ rows, RowUpdate r (g r) ∧
    (r ∈ batch → (g r).status = .published) ∧ (r ∉ batch → g r = r)
  sent : (result.sent.map OutboxEvent.id).Perm (batch.map OutboxRow.id)
  events : ∀ e ∈ result.sent, ∃ r ∈ batch, e.Of r
  order : TopicByTopic result.sent

theorem runOutboxRelayOnce_accepting (settings : OutboxRelaySettings) (clock : RelayClock)
    {ids : List Uuid} {events : List OutboxEvent}
    (h : claimPendingOutboxEvents rows clock.claimAt (fun _ => false) settings.batchSize
      settings.leaseMs = (rows.map (claimRow ids clock.claimAt settings.leaseMs), events)) :
    runOutboxRelayOnce accepting settings clock rows =
      { rows := rows.map fun r => markPublishedRow (events.map OutboxEvent.id) clock.markAt
          (claimRow ids clock.claimAt settings.leaseMs r)
        sent := (topicsOf events).flatMap (topicBatch events)
        processed := events.length } := by
  unfold runOutboxRelayOnce
  simp only [h, publishOutboxEvents_accepting, List.map_map]
  rfl

/-- A row that is claimed and marked is published. -/
theorem status_markPublishedRow {ids ids' : List Uuid} {now now' leaseMs : Int} {r : OutboxRow}
    (hc : claimable ids r = true) (hid : r.id ∈ ids') :
    (markPublishedRow ids' now' (claimRow ids now leaseMs r)).status = .published := by
  simp [markPublishedRow, claimRow, hc, hid]

/-- A row that is not claimed is left alone. -/
theorem markPublishedRow_of_not_claimable {ids ids' : List Uuid} {now now' leaseMs : Int}
    {r : OutboxRow} (hc : claimable ids r = false) (hid : r.id ∉ ids') :
    markPublishedRow ids' now' (claimRow ids now leaseMs r) = r := by
  simp [markPublishedRow, claimRow, hc, hid]

/-- **A call** publishes a first part of the unfinished rows of an aggregate. -/
theorem exists_publishesBatch (h : Drainable rows call.clock.claimAt) :
    ∃ batch, PublishesBatch rows batch
      (runOutboxRelayOnce accepting call.settings call.clock rows) := by
  obtain ⟨batch, hfirst, hclaim⟩ :=
    h.exists_claim call.settings.batchSize call.settings.leaseMs
  rw [runOutboxRelayOnce_accepting call.settings call.clock hclaim]
  have hperm := perm_claimedEvents h.ids hfirst.mem hfirst.ids call.clock.claimAt
    call.settings.leaseMs
  have hmem : ∀ r : OutboxRow, r.id ∈ (claimedEvents rows (batch.map OutboxRow.id)
      call.clock.claimAt call.settings.leaseMs).map OutboxEvent.id ↔
        r.id ∈ batch.map OutboxRow.id := fun r => hperm.mem_iff
  refine ⟨batch, hfirst, ?_, ⟨_, rfl, ?_⟩, ?_, ?_, ?_⟩
  · have hlength := hperm.length_eq
    rwa [List.length_map, List.length_map] at hlength
  · intro r hr
    refine ⟨(claimRow_rowUpdate _ _ _ r).trans (markPublishedRow_rowUpdate _ _ _), ?_, ?_⟩
    · intro hb
      apply status_markPublishedRow ((claimable_map_id_iff h.ids hfirst.mem hr).mpr hb)
      exact (hmem r).mpr (List.mem_map_of_mem hb)
    · -- a row outside the batch is neither claimed nor marked
      intro hb
      apply markPublishedRow_of_not_claimable
      · exact Bool.eq_false_iff.mpr (mt (claimable_map_id_iff h.ids hfirst.mem hr).mp hb)
      · rw [hmem, List.mem_map]
        rintro ⟨r', hr', hid⟩
        exact hb (eq_of_key h.ids (hfirst.mem r' hr').1 hr hid ▸ hr')
  · exact ((perm_flatMap_topicBatch _).map OutboxEvent.id).trans hperm
  · intro e he
    obtain ⟨r, hr, hc, rfl⟩ := mem_claimedEvents.mp ((perm_flatMap_topicBatch _).mem_iff.mp he)
    have hu := claimRow_rowUpdate (batch.map OutboxRow.id) call.clock.claimAt
      call.settings.leaseMs r
    exact ⟨r, (claimable_map_id_iff h.ids hfirst.mem hr).mp hc, hu.id, hu.sequenceNumber,
      hu.aggregateId, hu.topic, hu.partitionKey, hu.payload, hu.headers⟩
  · exact topicByTopic_flatMap_topicBatch (pairwise_claimedEvents h.sequenceNumbers _ _ _)

/-! ## What is left after a call -/

def unfinishedRows (rows : List OutboxRow) : List OutboxRow := rows.filter OutboxRow.unfinished

theorem mem_unfinishedRows {r : OutboxRow} :
    r ∈ unfinishedRows rows ↔ r ∈ rows ∧ r.unfinished = true := List.mem_filter

namespace PublishesBatch

variable {result : RelayResult}

/-- The unfinished rows after a call are those outside its batch. -/
theorem unfinishedRows_eq (h : PublishesBatch rows batch result) :
    unfinishedRows result.rows = (unfinishedRows rows).filter fun r => !decide (r ∈ batch) := by
  obtain ⟨g, hrows, hg⟩ := h.rows_eq
  -- what is unfinished after the call was so before, and is not of the batch
  have hleft : ∀ r ∈ rows, (OutboxRow.unfinished ∘ g) r =
      (!decide (r ∈ batch) && r.unfinished) := by
    intro r hr
    obtain ⟨-, hin, hout⟩ := hg r hr
    by_cases hb : r ∈ batch
    · simp [hb, OutboxRow.unfinished, hin hb]
    · simp [hb, hout hb]
  rw [unfinishedRows, unfinishedRows, hrows, List.filter_map, List.filter_congr hleft,
    List.filter_filter]
  refine (List.map_congr_left ?_).trans (List.map_id _)
  intro r hr
  obtain ⟨hr, hleft⟩ := List.mem_filter.mp hr
  rw [Bool.and_eq_true, Bool.not_eq_true', decide_eq_false_iff_not] at hleft
  exact (hg r hr).2.2 hleft.1

theorem mem_unfinishedRows_iff (h : PublishesBatch rows batch result) {r : OutboxRow} :
    r ∈ unfinishedRows result.rows ↔ r ∈ unfinishedRows rows ∧ r ∉ batch := by
  rw [h.unfinishedRows_eq, List.mem_filter, Bool.not_eq_true', decide_eq_false_iff_not]

/-- The unfinished rows are those of the batch and those left. -/
theorem perm_unfinishedRows (h : PublishesBatch rows batch result)
    (hids : (rows.map OutboxRow.id).Nodup) :
    (batch ++ unfinishedRows result.rows).Perm (unfinishedRows rows) := by
  rw [h.unfinishedRows_eq]
  refine List.Perm.trans ?_ (List.filter_append_perm (fun r => decide (r ∈ batch)) _)
  apply List.Perm.append_right
  have hunfinished : (unfinishedRows rows).Nodup := hids.of_map.sublist List.filter_sublist
  rw [List.perm_ext_iff_of_nodup h.ids.of_map (hunfinished.sublist List.filter_sublist)]
  intro r
  rw [List.mem_filter, decide_eq_true_eq, mem_unfinishedRows]
  constructor
  · intro hb
    exact ⟨h.mem r hb, hb⟩
  · rintro ⟨-, hb⟩
    exact hb

/-- The rows left can be claimed as before. -/
theorem drainable (h : PublishesBatch rows batch result) (hd : Drainable rows now) :
    Drainable result.rows now := by
  obtain ⟨g, hrows, hg⟩ := h.rows_eq
  have hkey : ∀ {β : Type} (key : OutboxRow → β), (∀ r ∈ rows, key (g r) = key r) →
      result.rows.map key = rows.map key := by
    intro β key hkey
    rw [hrows, List.map_map]
    exact List.map_congr_left hkey
  refine ⟨?_, ?_, ?_⟩
  · rw [hkey OutboxRow.id fun r hr => (hg r hr).1.id]
    exact hd.ids
  · rw [hkey OutboxRow.sequenceNumber fun r hr => (hg r hr).1.sequenceNumber]
    exact hd.sequenceNumbers
  · intro r hr hu
    have hleft := (h.mem_unfinishedRows_iff.mp (mem_unfinishedRows.mpr ⟨hr, hu⟩)).1
    obtain ⟨hold, hu⟩ := mem_unfinishedRows.mp hleft
    exact hd.eligible r hold hu

/-- A row of the batch is published, and the other unfinished rows are left. -/
theorem published_or_left (h : PublishesBatch rows batch result) {r : OutboxRow}
    (hr : r ∈ unfinishedRows rows) :
    (∃ r' ∈ result.rows, r'.id = r.id ∧ r'.status = .published) ∨
      r ∈ unfinishedRows result.rows := by
  by_cases hb : r ∈ batch
  · obtain ⟨g, hrows, hg⟩ := h.rows_eq
    obtain ⟨hmem, -⟩ := mem_unfinishedRows.mp hr
    obtain ⟨hu, hin, -⟩ := hg r hmem
    refine Or.inl ⟨g r, ?_, hu.id, hin hb⟩
    rw [hrows]
    exact List.mem_map_of_mem hmem
  · exact Or.inr (h.mem_unfinishedRows_iff.mpr ⟨hr, hb⟩)

/-- A published row stays. -/
theorem published_kept (h : PublishesBatch rows batch result) {r : OutboxRow} (hr : r ∈ rows)
    (hs : r.status = .published) : r ∈ result.rows := by
  obtain ⟨g, hrows, hg⟩ := h.rows_eq
  have hfinished : r.unfinished = false := by simp [OutboxRow.unfinished, hs]
  rw [hrows, List.mem_map]
  exact ⟨r, hr, (hg r hr).1.finished hfinished⟩

/-- The events sent are those of unfinished rows. -/
theorem exists_row (h : PublishesBatch rows batch result) {e : OutboxEvent}
    (he : e ∈ result.sent) : ∃ r ∈ unfinishedRows rows, e.Of r := by
  obtain ⟨r, hr, hof⟩ := h.events e he
  exact ⟨r, mem_unfinishedRows.mpr (h.mem r hr), hof⟩

end PublishesBatch

/-! ## Calls one after the other -/

/-- What calls do, one after the other. -/
structure PublishesBatches (rows : List OutboxRow) (now : Int) (results : List RelayResult)
    (final : List OutboxRow) : Prop where
  drainable : Drainable final now
  left : (unfinishedRows final).length ≤ (unfinishedRows rows).length - results.length
  published : ∀ r ∈ unfinishedRows rows,
    (∃ r' ∈ final, r'.id = r.id ∧ r'.status = .published) ∨ r ∈ unfinishedRows final
  kept : ∀ r ∈ rows, r.status = .published → r ∈ final
  sent : ((results.flatMap RelayResult.sent).map OutboxEvent.id ++
    (unfinishedRows final).map OutboxRow.id).Perm ((unfinishedRows rows).map OutboxRow.id)
  events : ∀ result ∈ results, ∀ e ∈ result.sent, ∃ r ∈ unfinishedRows rows, e.Of r
  order : ∀ result ∈ results, TopicByTopic result.sent
  batches : results.Pairwise fun result result' => ∀ e ∈ result.sent, ∀ e' ∈ result'.sent,
    e.aggregateId = e'.aggregateId → e.sequenceNumber < e'.sequenceNumber

theorem PublishesBatches.nil (h : Drainable rows now) : PublishesBatches rows now [] rows where
  drainable := h
  left := le_refl _
  published _ hr := Or.inr hr
  kept _ hr _ := hr
  sent := List.Perm.refl _
  events := by simp
  order := by simp
  batches := .nil

theorem PublishesBatches.cons {result : RelayResult} {results : List RelayResult}
    {final : List OutboxRow} (hids : (rows.map OutboxRow.id).Nodup)
    (h : PublishesBatch rows batch result)
    (ht : PublishesBatches result.rows now results final) :
    PublishesBatches rows now (result :: results) final where
  drainable := ht.drainable
  left := by
    have hlength := (h.perm_unfinishedRows hids).length_eq
    rw [List.length_append] at hlength
    have hleft := ht.left
    rw [List.length_cons]
    -- each call takes a row, where there is one
    by_cases hsome : ∃ r ∈ rows, r.unfinished = true
    · have hpos := List.length_pos_of_ne_nil (h.nonempty hsome)
      omega
    · have hnone : unfinishedRows rows = [] := by
        rw [unfinishedRows, List.filter_eq_nil_iff]
        intro r hr hu
        exact hsome ⟨r, hr, hu⟩
      rw [hnone, List.length_nil] at hlength ⊢
      omega
  published r hr := by
    -- published by the first call, or left to the others
    rcases h.published_or_left hr with ⟨r', hr', hid, hs⟩ | hleft
    · exact Or.inl ⟨r', ht.kept r' hr' hs, hid, hs⟩
    · exact ht.published r hleft
  kept r hr hs := ht.kept r (h.published_kept hr hs) hs
  sent := by
    rw [List.flatMap_cons, List.map_append, List.append_assoc]
    refine (h.sent.append ht.sent).trans ?_
    rw [← List.map_append]
    exact (h.perm_unfinishedRows hids).map _
  events := by
    intro result' hresult' e he
    rcases List.mem_cons.mp hresult' with rfl | hresult'
    · exact h.exists_row he
    · obtain ⟨r, hr, hof⟩ := ht.events result' hresult' e he
      exact ⟨r, (h.mem_unfinishedRows_iff.mp hr).1, hof⟩
  order := by
    intro result' hresult'
    rcases List.mem_cons.mp hresult' with rfl | hresult'
    · exact h.order
    · exact ht.order result' hresult'
  batches := by
    rw [List.pairwise_cons]
    refine ⟨?_, ht.batches⟩
    intro result' hresult' e he e' he' hagg
    -- the row of the later event was left by the batch of the earlier one
    obtain ⟨r, hr, hof⟩ := h.events e he
    obtain ⟨r', hr', hof'⟩ := ht.events result' hresult' e' he'
    obtain ⟨hunfinished, hnot⟩ := h.mem_unfinishedRows_iff.mp hr'
    obtain ⟨hmem, hu⟩ := mem_unfinishedRows.mp hunfinished
    rw [hof.sequenceNumber, hof'.sequenceNumber]
    apply h.first r hr r' hmem hu _ hnot
    rw [← hof.aggregateId, ← hof'.aggregateId, hagg]

/-- **Calls one after the other**, none of them before `now`. -/
theorem publishesBatches (h : Drainable rows now)
    (hclock : ∀ call ∈ calls, now ≤ call.clock.claimAt) :
    PublishesBatches rows now (relayResults accepting calls rows)
      (runOutboxRelay accepting calls rows) := by
  induction calls generalizing rows with
  | nil => exact .nil h
  | cons call calls ih =>
    obtain ⟨hcall, hcalls⟩ := List.forall_mem_cons.mp hclock
    obtain ⟨batch, hbatch⟩ := exists_publishesBatch (h.later hcall)
    rw [runOutboxRelay_cons]
    exact .cons h.ids hbatch (ih (hbatch.drainable h) hcalls)

/-! ## The outbox drains -/

theorem length_relayResults (producer : Producer) (calls : List RelayCall)
    (rows : List OutboxRow) : (relayResults producer calls rows).length = calls.length := by
  induction calls generalizing rows with
  | nil => rfl
  | cons call calls ih =>
    rw [relayResults, List.length_cons, List.length_cons, ih]

/-- A call publishes a row exactly when there is an unfinished one. -/
theorem processed_pos_iff (h : Drainable rows call.clock.claimAt) :
    0 < (runOutboxRelayOnce accepting call.settings call.clock rows).processed ↔
      ∃ r ∈ rows, r.unfinished = true := by
  obtain ⟨batch, hbatch⟩ := exists_publishesBatch h
  rw [hbatch.processed]
  constructor
  · intro hpos
    obtain ⟨r, hr⟩ := List.exists_mem_of_length_pos hpos
    exact ⟨r, hbatch.mem r hr⟩
  · intro hsome
    exact List.length_pos_of_ne_nil (hbatch.nonempty hsome)

/-- What calls of the relay do to a table, one after the other. -/
structure Drains (rows : List OutboxRow) (now : Int) (calls : List RelayCall) : Prop where
  /-- A call returns a positive count as long as there is an unfinished row. -/
  progress : ∀ before call after, calls = before ++ call :: after →
    (∃ r ∈ runOutboxRelay accepting before rows, r.unfinished = true) →
    0 < (runOutboxRelayOnce accepting call.settings call.clock
      (runOutboxRelay accepting before rows)).processed
  /-- As many calls as there are unfinished rows publish all of them. -/
  published : (unfinishedRows rows).length ≤ calls.length → ∀ r ∈ unfinishedRows rows,
    ∃ r' ∈ runOutboxRelay accepting calls rows, r'.id = r.id ∧ r'.status = .published
  /-- The call after them returns zero. -/
  done : (unfinishedRows rows).length ≤ calls.length → ∀ call : RelayCall,
    now ≤ call.clock.claimAt → (runOutboxRelayOnce accepting call.settings call.clock
      (runOutboxRelay accepting calls rows)).processed = 0
  /-- They send every unfinished event once. -/
  once : (unfinishedRows rows).length ≤ calls.length →
    (((relayResults accepting calls rows).flatMap RelayResult.sent).map OutboxEvent.id).Perm
      ((unfinishedRows rows).map OutboxRow.id)
  /-- An event is sent with the fields of its row. -/
  events : ∀ result ∈ relayResults accepting calls rows, ∀ e ∈ result.sent,
    ∃ r ∈ unfinishedRows rows, e.Of r
  /-- A call sends its events topic by topic. -/
  order : ∀ result ∈ relayResults accepting calls rows, TopicByTopic result.sent
  /-- Calls send the events of an aggregate in the order of their rows. -/
  batches : (relayResults accepting calls rows).Pairwise fun result result' =>
    ∀ e ∈ result.sent, ∀ e' ∈ result'.sent, e.aggregateId = e'.aggregateId →
      e.sequenceNumber < e'.sequenceNumber

/-- **The outbox drains.** For every table whose dates have passed, and every sequence of calls with
any settings: each call makes progress, as many calls as there are unfinished rows send each of
their events once, and the events of an aggregate are sent in the order of their rows, up to the
order of the topics of a call. -/
theorem outbox_drains (h : OutboxTable rows) (ht : TimePassed rows now)
    (hclock : ∀ call ∈ calls, now ≤ call.clock.claimAt) : Drains rows now calls := by
  have hd := h.drainable ht
  have hcalls := publishesBatches hd hclock
  have hnone : (unfinishedRows rows).length ≤ calls.length →
      unfinishedRows (runOutboxRelay accepting calls rows) = [] := by
    intro hle
    have hleft := hcalls.left
    rw [length_relayResults] at hleft
    apply List.eq_nil_of_length_eq_zero
    omega
  refine ⟨?_, ?_, ?_, ?_, hcalls.events, hcalls.order, hcalls.batches⟩
  · rintro before call after rfl hsome
    -- the calls before this one are calls as well
    have hbefore := publishesBatches hd fun call hc => hclock call (List.mem_append_left _ hc)
    have hcall := hclock call (List.mem_append_right _ List.mem_cons_self)
    exact (processed_pos_iff (hbefore.drainable.later hcall)).mpr hsome
  · intro hle r hr
    rcases hcalls.published r hr with hpublished | hleft
    · exact hpublished
    · rw [hnone hle] at hleft
      cases hleft
  · intro hle call hcall
    apply Nat.eq_zero_of_not_pos
    rw [processed_pos_iff (hcalls.drainable.later hcall)]
    rintro ⟨r, hr, hu⟩
    have hleft := mem_unfinishedRows.mpr ⟨hr, hu⟩
    rw [hnone hle] at hleft
    cases hleft
  · intro hle
    have hsent := hcalls.sent
    rwa [hnone hle, List.map_nil, List.append_nil] at hsent

theorem outbox_drains_sample : Drains sampleRows 0 hourlyCalls :=
  outbox_drains ⟨by decide +kernel, by decide +kernel, by decide +kernel⟩
    ⟨by decide +kernel, by decide +kernel⟩ (by decide +kernel)

/-- Three events of an aggregate, the second of another topic. -/
def topicRows : List OutboxRow :=
  (insertOutboxEvent { sampleInsert 1 7 with topic := js "messages" } 1 0).toList ++
    (insertOutboxEvent { sampleInsert 2 7 with topic := js "receipts" } 2 0).toList ++
    (insertOutboxEvent { sampleInsert 3 7 with topic := js "messages" } 3 0).toList

/-- **A batch of two topics** is sent out of the order of its aggregate. -/
theorem topics_out_of_order : OutboxTable topicRows ∧ TimePassed topicRows 0 ∧
    ∃ call : RelayCall, 0 ≤ call.clock.claimAt ∧
      ¬ (runOutboxRelayOnce accepting call.settings call.clock topicRows).sent.Pairwise
        fun e e' => e.aggregateId = e'.aggregateId → e.sequenceNumber < e'.sequenceNumber := by
  refine ⟨⟨by decide +kernel, by decide +kernel, by decide +kernel⟩,
    ⟨by decide +kernel, by decide +kernel⟩, ⟨DEFAULT_OPTIONS, ⟨0, 0, 0⟩⟩, le_refl _, ?_⟩
  decide +kernel

end MernChat
