import MernChat.Outbox.Batch
import MernChat.Outbox.Drain
import MernChat.Outbox.Prefix

/-!
# A poll cycle

A poll calls the relay up to a hundred times, and stops when a call returns zero. A call returns
zero when there was nothing to claim, and also when the batch it claimed was rejected: then the
cycle ends although other conversations may have events to claim.

## Main definitions

* `PollBatch`, `poll`: the calls of a poll, and its loop
* `EndsWhenDone`: a poll that ends early leaves nothing to claim
* `NothingElseClaimable`: what a rejected batch has to leave behind for that

## Main results

* `endsWhenDone_iff`: a poll ends when it is done exactly when every batch rejected before the last
  call was the only one that could be claimed
* `poll_leaves_conversation`: a rejected batch keeps the events of another conversation waiting
-/

namespace MernChat

open Library

variable {rows batch : List OutboxRow} {settings : OutboxRelaySettings}

/-! ## The loop -/

/-- One call of a poll: how the producer takes its batch, and its clock. -/
structure PollBatch where
  producer : Producer
  clock : RelayClock

/-- The rows a poll leaves behind, and the calls it has made. -/
structure PollResult where
  rows : List OutboxRow
  calls : Nat

/-- Call `k` of a poll. -/
def pollOnce (settings : OutboxRelaySettings) (b : PollBatch) (rows : List OutboxRow) :
    RelayResult :=
  runOutboxRelayOnce b.producer settings b.clock rows

/-- The loop of a poll from call `k` on, with `n` calls left. -/
def pollLoop (settings : OutboxRelaySettings) (batches : Nat → PollBatch) :
    Nat → Nat → List OutboxRow → PollResult
  | 0, k, rows => { rows, calls := k }
  | n + 1, k, rows =>
    let result := pollOnce settings (batches k) rows
    if result.processed = 0 then { rows := result.rows, calls := k + 1 }
    else pollLoop settings batches n (k + 1) result.rows

/-- A poll in which nothing throws. -/
def poll (settings : OutboxRelaySettings) (batches : Nat → PollBatch) (rows : List OutboxRow) :
    PollResult :=
  pollLoop settings batches maxBatchesPerPoll 0 rows

/-- **A poll that ends early is done**: no eligible frontier was left when it last looked. -/
def EndsWhenDone (settings : OutboxRelaySettings) (batches : Nat → PollBatch)
    (rows : List OutboxRow) : Prop :=
  (poll settings batches rows).calls < maxBatchesPerPoll →
    ∀ r ∈ (poll settings batches rows).rows, isFrontier (poll settings batches rows).rows
      (batches ((poll settings batches rows).calls - 1)).clock.claimAt r = false

/-! ## When it is -/

/-- The table before call `k`, when all calls before have published their batches. -/
def rowsBeforeCall (settings : OutboxRelaySettings) (batches : Nat → PollBatch)
    (rows : List OutboxRow) : Nat → Option (List OutboxRow)
  | 0 => some rows
  | k + 1 => (rowsBeforeCall settings batches rows k).bind fun rows =>
    let result := pollOnce settings (batches k) rows
    if result.processed = 0 then none else some result.rows

/-- The producer rejects a send of the batch that is claimed from `rows`. -/
def Rejects (settings : OutboxRelaySettings) (b : PollBatch) (rows : List OutboxRow) : Prop :=
  let events := (claimPendingOutboxEvents rows b.clock.claimAt (fun _ => false) settings.batchSize
    settings.leaseMs).2
  (publishOutboxEvents b.producer events (topicsOf events)).2.isSome = true

/-- The claim of this row is its last attempt. -/
def isLastAttempt (settings : OutboxRelaySettings) (r : OutboxRow) : Prop :=
  settings.maxAttempts ≤ (r.attemptCount + 1 : Nat)

instance (settings : OutboxRelaySettings) (r : OutboxRow) : Decidable (isLastAttempt settings r) :=
  inferInstanceAs (Decidable (_ ≤ _))

/-- The date to which a row is put back after its batch is rejected. -/
def retryAt (settings : OutboxRelaySettings) (clock : RelayClock) (r : OutboxRow) : Int :=
  pgTimestamp (clock.dateNow + calculateOutboxBackoffMs (r.attemptCount + 1) settings.baseBackoffMs
    settings.maxBackoffMs)

/-- After the rejection of `batch`, the first rows of the aggregate of `frontier`, nothing can be
claimed. -/
structure NothingElseClaimable (settings : OutboxRelaySettings) (clock : RelayClock)
    (rows : List OutboxRow) (frontier : OutboxRow) (batch : List OutboxRow) : Prop where
  /-- No other conversation has a frontier. -/
  others : ∀ r ∈ rows, isFrontier rows clock.claimAt r = true → r = frontier
  /-- The first row with attempts left has to wait for its retry. -/
  retried : ∀ r ∈ batch, ¬ isLastAttempt settings r →
    (∀ e ∈ batch, e.sequenceNumber < r.sequenceNumber → isLastAttempt settings e) →
      clock.claimAt < retryAt settings clock r
  /-- Without one, the row behind the batch has to wait, if there is one. -/
  behind : (∀ e ∈ batch, isLastAttempt settings e) →
    ∀ r ∈ rows, r.aggregateId = frontier.aggregateId → r.unfinished = true → r ∉ batch →
      (∀ e ∈ rows, e.aggregateId = r.aggregateId → e.sequenceNumber < r.sequenceNumber →
        e.unfinished = true → e ∈ batch) → r.eligible clock.claimAt = false

/-! ## One call -/

theorem runOutboxRelayOnce_of_accepted {producer : Producer} {clock : RelayClock}
    {claimed : List OutboxRow} {events : List OutboxEvent}
    (hclaim : claimPendingOutboxEvents rows clock.claimAt (fun _ => false) settings.batchSize
      settings.leaseMs = (claimed, events))
    (h : (publishOutboxEvents producer events (topicsOf events)).2 = none) :
    (runOutboxRelayOnce producer settings clock rows).rows =
        claimed.map (markPublishedRow (events.map OutboxEvent.id) clock.markAt) ∧
      (runOutboxRelayOnce producer settings clock rows).processed = events.length := by
  unfold runOutboxRelayOnce
  simp only [hclaim]
  rcases hp : publishOutboxEvents producer events (topicsOf events) with ⟨sent, result⟩
  rw [hp] at h
  subst h
  exact ⟨rfl, rfl⟩

theorem runOutboxRelayOnce_of_rejected {producer : Producer} {clock : RelayClock}
    {claimed : List OutboxRow} {events : List OutboxEvent} {error : JsError}
    (hclaim : claimPendingOutboxEvents rows clock.claimAt (fun _ => false) settings.batchSize
      settings.leaseMs = (claimed, events))
    (h : (publishOutboxEvents producer events (topicsOf events)).2 = some error) :
    (runOutboxRelayOnce producer settings clock rows).rows =
        claimed.map (settleAll settings (errorMessage error) clock.dateNow events) ∧
      (runOutboxRelayOnce producer settings clock rows).processed = 0 := by
  unfold runOutboxRelayOnce
  simp only [hclaim]
  rcases hp : publishOutboxEvents producer events (topicsOf events) with ⟨sent, result⟩
  rw [hp] at h
  subst h
  exact ⟨foldl_map _ events claimed, rfl⟩

/-- What a rejected call does to a row. -/
structure SettledRow (settings : OutboxRelaySettings) (clock : RelayClock) (batch : List OutboxRow)
    (r r' : OutboxRow) : Prop where
  aggregateId : r'.aggregateId = r.aggregateId
  sequenceNumber : r'.sequenceNumber = r.sequenceNumber
  unfinished : r ∈ batch → (r'.unfinished = true ↔ ¬ isLastAttempt settings r)
  eligible : r ∈ batch → (r'.eligible clock.claimAt = true ↔
    ¬ isLastAttempt settings r ∧ retryAt settings clock r ≤ clock.claimAt)
  other : r ∉ batch → r' = r

/-- A claimed row whose batch is rejected is dead-lettered or put back. -/
theorem settled_settleRow {clock : RelayClock} {ids : List Uuid} {message : JsString}
    {leaseMs : Int} {r : OutboxRow} (hc : claimable ids r = true) (hr : r ∈ batch) :
    SettledRow settings clock batch r (settleRow settings
      (mapOutboxEvent (claimRow ids clock.claimAt leaseMs r)) message clock.dateNow
        (claimRow ids clock.claimAt leaseMs r)) := by
  have hu := (claimRow_rowUpdate ids clock.claimAt leaseMs r).trans
    (settleRow_rowUpdate settings (mapOutboxEvent (claimRow ids clock.claimAt leaseMs r)) message
      clock.dateNow (claimRow ids clock.claimAt leaseMs r))
  -- the claim has counted the attempt
  have hst : (claimRow ids clock.claimAt leaseMs r).status = .processing := by simp [claimRow, hc]
  have hcount : (claimRow ids clock.claimAt leaseMs r).attemptCount = r.attemptCount + 1 := by
    simp [claimRow, hc]
  have hcount' : (mapOutboxEvent (claimRow ids clock.claimAt leaseMs r)).attemptCount =
      r.attemptCount + 1 := hcount
  have hid : (mapOutboxEvent (claimRow ids clock.claimAt leaseMs r)).id =
      (claimRow ids clock.claimAt leaseMs r).id := rfl
  refine ⟨hu.aggregateId, hu.sequenceNumber, ?_, ?_, fun hnot => absurd hr hnot⟩
  -- with its last attempt a row is finished, and before it waits for its retry
  all_goals
    intro _
    unfold settleRow
    rw [hcount', hid]
    by_cases hm : settings.maxAttempts ≤ (r.attemptCount + 1 : Nat)
  · rw [if_pos hm]
    simp [deadLetterRow, hst, show isLastAttempt settings r from hm, OutboxRow.unfinished]
  · rw [if_neg hm]
    simp [rescheduleRow, hst, show ¬ isLastAttempt settings r from hm, OutboxRow.unfinished]
  · rw [if_pos hm]
    simp [deadLetterRow, hst, show isLastAttempt settings r from hm, OutboxRow.eligible]
  · rw [if_neg hm]
    simp [rescheduleRow, hst, show ¬ isLastAttempt settings r from hm, OutboxRow.eligible, retryAt]

/-- A rejected call settles the rows of its batch, and leaves the others alone. -/
theorem exists_settled {b : PollBatch} (hid : (rows.map OutboxRow.id).Nodup)
    (hbatch : ∀ r ∈ batch, r ∈ rows ∧ r.unfinished = true)
    (hclaim : claimPendingOutboxEvents rows b.clock.claimAt (fun _ => false) settings.batchSize
      settings.leaseMs = (rows.map (claimRow (batch.map OutboxRow.id) b.clock.claimAt
        settings.leaseMs), claimedEvents rows (batch.map OutboxRow.id) b.clock.claimAt
          settings.leaseMs))
    (hrejects : Rejects settings b rows) :
    ∃ g, (pollOnce settings b rows).rows = rows.map g ∧
      ∀ r ∈ rows, SettledRow settings b.clock batch r (g r) := by
  obtain ⟨error, herror⟩ := Option.isSome_iff_exists.mp hrejects
  rw [hclaim] at herror
  obtain ⟨hrows, -⟩ := runOutboxRelayOnce_of_rejected hclaim herror
  rw [List.map_map] at hrows
  refine ⟨_, hrows, ?_⟩
  intro r hr
  have hnodup := nodup_claimedEvents hid (batch.map OutboxRow.id) b.clock.claimAt settings.leaseMs
  rw [Function.comp_apply]
  by_cases hb : r ∈ batch
  · have hc := (claimable_map_id_iff hid hbatch hr).mpr hb
    rw [settleAll_of_mem hnodup (mem_claimedEvents.mpr ⟨r, hr, hc, rfl⟩) rfl]
    exact settled_settleRow hc hb
  · -- a row outside the batch is neither claimed nor settled
    have hc : claimable (batch.map OutboxRow.id) r = false := by
      rw [Bool.eq_false_iff]
      exact fun hc => hb ((claimable_map_id_iff hid hbatch hr).mp hc)
    have hsame : claimRow (batch.map OutboxRow.id) b.clock.claimAt settings.leaseMs r = r := by
      simp [claimRow, hc]
    have hnone : ∀ e ∈ claimedEvents rows (batch.map OutboxRow.id) b.clock.claimAt
        settings.leaseMs, e.id ≠ r.id := by
      intro e he hid'
      exact Bool.eq_false_iff.mp hc ((claimable_iff hid hr).mpr ⟨e, he, hid'⟩)
    rw [hsame, settleAll_of_ne hnone]
    exact ⟨rfl, rfl, fun h => absurd h hb, fun h => absurd h hb, fun _ => rfl⟩

/-! ## What a rejected batch leaves -/

section Rejected

variable {clock : RelayClock} {frontier : OutboxRow} {g : OutboxRow → OutboxRow}

/-- An aggregate has one frontier. -/
theorem eq_of_frontiers (hn : (rows.map OutboxRow.sequenceNumber).Nodup) {now : Int}
    {r r' : OutboxRow} (hr : r ∈ rows) (hr' : r' ∈ rows) (hf : isFrontier rows now r = true)
    (hf' : isFrontier rows now r' = true) (hagg : r.aggregateId = r'.aggregateId) : r = r' := by
  obtain ⟨he, hfirst⟩ := isFrontier_iff.mp hf
  obtain ⟨he', hfirst'⟩ := isFrontier_iff.mp hf'
  -- of two frontiers the later one would wait for the earlier one
  rcases lt_trichotomy r.sequenceNumber r'.sequenceNumber with hlt | heq | hgt
  · have hu := hfirst' r hr hagg hlt
    rw [OutboxRow.unfinished_of_eligible he] at hu
    cases hu
  · exact eq_of_key hn hr hr' heq
  · have hu := hfirst r' hr' hagg.symm hgt
    rw [OutboxRow.unfinished_of_eligible he'] at hu
    cases hu

/-- A settled row is finished if it was, or if its attempt was the last. -/
theorem SettledRow.finished_iff {r r' : OutboxRow} (h : SettledRow settings clock batch r r')
    (hu : r ∈ batch → r.unfinished = true) :
    r'.unfinished = false ↔
      (r.unfinished = true → r ∈ batch ∧ isLastAttempt settings r) := by
  by_cases hb : r ∈ batch
  · rw [← Bool.not_eq_true, h.unfinished hb, not_not]
    simp [hb, hu hb]
  · rw [h.other hb]
    simp [hb]

/-- A row is a frontier after the call if the rows before it were finished, or are dead-lettered by
it. -/
theorem isFrontier_map_iff (hu : ∀ r ∈ batch, r.unfinished = true)
    (hg : ∀ r ∈ rows, SettledRow settings clock batch r (g r)) {now : Int} {r : OutboxRow}
    (hr : r ∈ rows) :
    isFrontier (rows.map g) now (g r) = true ↔ (g r).eligible now = true ∧
      ∀ e ∈ rows, e.aggregateId = r.aggregateId → e.sequenceNumber < r.sequenceNumber →
        e.unfinished = true → e ∈ batch ∧ isLastAttempt settings e := by
  rw [isFrontier_iff, (hg r hr).aggregateId, (hg r hr).sequenceNumber]
  refine and_congr_right fun _ => ?_
  rw [List.forall_mem_map]
  refine forall₂_congr fun e he => ?_
  rw [(hg e he).aggregateId, (hg e he).sequenceNumber, (hg e he).finished_iff (hu e)]

/-- **What a rejected batch leaves to claim**: nothing exactly under the condition. -/
theorem no_frontier_iff (hn : (rows.map OutboxRow.sequenceNumber).Nodup)
    (hfrontier : frontier ∈ rows) (hf : isFrontier rows clock.claimAt frontier = true)
    (hbatch : ∀ r ∈ batch, r ∈ rows ∧ r.unfinished = true ∧ r.aggregateId = frontier.aggregateId)
    (hgapFree : ∀ r ∈ batch, ∀ e ∈ rows, e.aggregateId = r.aggregateId →
      e.sequenceNumber < r.sequenceNumber → e.unfinished = true → e ∈ batch)
    (hg : ∀ r ∈ rows, SettledRow settings clock batch r (g r)) :
    (∀ r ∈ rows, isFrontier (rows.map g) clock.claimAt (g r) = false) ↔
      NothingElseClaimable settings clock rows frontier batch := by
  have hu : ∀ r ∈ batch, r.unfinished = true := fun r hb => (hbatch r hb).2.1
  constructor
  · intro hnone
    refine ⟨?others, ?retried, ?behind⟩
    case others =>
      -- the frontier of another conversation would still be one
      intro r hr hrf
      by_contra hne
      obtain ⟨heligible, hearlier⟩ := isFrontier_iff.mp hrf
      have hagg : r.aggregateId ≠ frontier.aggregateId := by
        intro hagg
        exact hne (eq_of_frontiers hn hr hfrontier hrf hf hagg)
      have hnot : r ∉ batch := fun hb => hagg (hbatch r hb).2.2
      have hrf' := (isFrontier_map_iff hu hg hr).mpr ⟨(hg r hr).other hnot ▸ heligible,
        fun e he hea hlt heu => absurd heu (Bool.eq_false_iff.mp (hearlier e he hea hlt))⟩
      rw [hnone r hr] at hrf'
      cases hrf'
    case retried =>
      -- a row that need not wait would be a frontier, as all before it are finished
      intro r hb hleft hearlier
      obtain ⟨hr, -, hagg⟩ := hbatch r hb
      by_contra hle
      have hrf := (isFrontier_map_iff hu hg hr).mpr
        ⟨((hg r hr).eligible hb).mpr ⟨hleft, not_lt.mp hle⟩, ?_⟩
      · rw [hnone r hr] at hrf
        cases hrf
      · intro e he hea hlt heu
        have heb := hgapFree r hb e he hea hlt heu
        exact ⟨heb, hearlier e heb hlt⟩
    case behind =>
      -- with the batch finished, the row behind it would be a frontier
      intro hlast r hr hagg _ hnot hearlier
      by_contra hel
      have heligible : r.eligible clock.claimAt = true := Bool.eq_true_of_not_eq_false hel
      have hrf := (isFrontier_map_iff hu hg hr).mpr ⟨(hg r hr).other hnot ▸ heligible, ?_⟩
      · rw [hnone r hr] at hrf
        cases hrf
      · intro e he hea hlt heu
        have heb := hearlier e he hea hlt heu
        exact ⟨heb, hlast e heb⟩
  · intro h r hr
    rw [Bool.eq_false_iff]
    intro hrf
    obtain ⟨heligible, hearlier⟩ := (isFrontier_map_iff hu hg hr).mp hrf
    by_cases hb : r ∈ batch
    · -- it is the first row of the batch with attempts left
      obtain ⟨hleft, hle⟩ := ((hg r hr).eligible hb).mp heligible
      refine absurd (h.retried r hb hleft ?_) (not_lt.mpr hle)
      intro e heb hlt
      obtain ⟨he, heu, hea⟩ := hbatch e heb
      exact (hearlier e he (hea.trans (hbatch r hb).2.2.symm) hlt heu).2
    · -- a row outside the batch, with nothing before it but rows of the batch
      rw [(hg r hr).other hb] at heligible
      have hru := OutboxRow.unfinished_of_eligible heligible
      have hbefore : ∀ e ∈ rows, e.aggregateId = r.aggregateId →
          e.sequenceNumber < r.sequenceNumber → e.unfinished = true → e ∈ batch :=
        fun e he hea hlt heu => (hearlier e he hea hlt heu).1
      by_cases hagg : r.aggregateId = frontier.aggregateId
      · -- all of the batch is behind it, and dead-lettered
        have hlast : ∀ e ∈ batch, isLastAttempt settings e := by
          intro e heb
          obtain ⟨he, heu, hea⟩ := hbatch e heb
          have hlt : e.sequenceNumber < r.sequenceNumber := by
            rcases lt_trichotomy e.sequenceNumber r.sequenceNumber with hlt | heq | hgt
            · exact hlt
            · exact absurd (eq_of_key hn he hr heq ▸ heb) hb
            · exact absurd (hgapFree e heb r hr (hagg.trans hea.symm) hgt hru) hb
          exact (hearlier e he (hea.trans hagg.symm) hlt heu).2
        rw [h.behind hlast r hr hagg hru hb hbefore] at heligible
        cases heligible
      · -- of another conversation, it was a frontier before
        have hrf' : isFrontier rows clock.claimAt r = true := by
          refine isFrontier_iff.mpr ⟨heligible, ?_⟩
          intro e he hea hlt
          rw [Bool.eq_false_iff]
          intro heu
          exact hagg (hea.symm.trans (hbatch e (hbefore e he hea hlt heu)).2.2)
        exact hagg (congrArg OutboxRow.aggregateId (h.others r hr hrf'))

end Rejected

/-- A table without an unlocked frontier row has no frontier. -/
theorem no_frontier_of_selectFrontier {now : Int}
    (h : selectFrontier rows now (fun _ => false) = none) :
    ∀ r ∈ rows, isFrontier rows now r = false := by
  intro r hr
  rw [Bool.eq_false_iff]
  intro hf
  rw [selectFrontier, List.head?_eq_none_iff, List.filter_eq_nil_iff] at h
  exact h r (mem_sortBy.mpr (List.mem_filter.mpr ⟨hr, hf⟩)) rfl

theorem processed_of_rejects {b : PollBatch} (h : Rejects settings b rows) :
    (pollOnce settings b rows).processed = 0 := by
  obtain ⟨error, herror⟩ := Option.isSome_iff_exists.mp h
  exact (runOutboxRelayOnce_of_rejected rfl herror).2

/-- What a call has to leave, in terms of the table before it. -/
def CallCondition (settings : OutboxRelaySettings) (b : PollBatch) (rows : List OutboxRow) :
    Prop :=
  ∀ frontier, FirstFrontier rows b.clock.claimAt (fun _ => false) frontier →
    Rejects settings b rows → NothingElseClaimable settings b.clock rows frontier
      (batchOf rows b.clock.claimAt settings.batchSize (fun _ => false) frontier)

/-- **A call that returns zero** leaves nothing to claim exactly under its condition. -/
theorem pollOnce_done_iff {b : PollBatch} (hid : (rows.map OutboxRow.id).Nodup)
    (hn : (rows.map OutboxRow.sequenceNumber).Nodup)
    (hzero : (pollOnce settings b rows).processed = 0) :
    (∀ r ∈ (pollOnce settings b rows).rows,
      isFrontier (pollOnce settings b rows).rows b.clock.claimAt r = false) ↔
        CallCondition settings b rows := by
  cases hf : selectFrontier rows b.clock.claimAt (fun _ => false) with
  | none =>
    -- nothing to claim, and nothing is changed
    have hclaim : claimPendingOutboxEvents rows b.clock.claimAt (fun _ => false)
        settings.batchSize settings.leaseMs = (rows, []) := by
      unfold claimPendingOutboxEvents
      rw [hf]
    obtain ⟨hrows, -⟩ := runOutboxRelayOnce_of_accepted hclaim rfl
    have hsame : (pollOnce settings b rows).rows = rows := by
      rw [pollOnce, hrows]
      exact (List.map_congr_left fun r _ => by simp [markPublishedRow]).trans (List.map_id rows)
    rw [hsame]
    exact iff_of_true (no_frontier_of_selectFrontier hf)
      fun frontier hfirst => absurd hfirst (selectFrontier_eq_none hf frontier)
  | some frontier =>
    have hfirst := firstFrontier_of_selectFrontier hf
    obtain ⟨batch, hbatch⟩ : ∃ batch, batchOf rows b.clock.claimAt settings.batchSize
        (fun _ => false) frontier = batch := ⟨_, rfl⟩
    have hmem : ∀ r ∈ batch, r ∈ rows ∧ r.unfinished = true ∧
        r.aggregateId = frontier.aggregateId := by
      intro r hr
      obtain ⟨hmem, hc, -⟩ := mem_selectCandidates (hbatch ▸ hr)
      obtain ⟨hagg, heligible, -⟩ := isCandidate_iff.mp hc
      exact ⟨hmem, OutboxRow.unfinished_of_eligible heligible, hagg⟩
    have hin : ∀ r ∈ batch, r ∈ rows ∧ r.unfinished = true :=
      fun r hr => ⟨(hmem r hr).1, (hmem r hr).2.1⟩
    have hclaim : claimPendingOutboxEvents rows b.clock.claimAt (fun _ => false)
        settings.batchSize settings.leaseMs = (rows.map (claimRow (batch.map OutboxRow.id)
          b.clock.claimAt settings.leaseMs), claimedEvents rows (batch.map OutboxRow.id)
            b.clock.claimAt settings.leaseMs) := by
      unfold claimPendingOutboxEvents
      rw [hf, ← hbatch]
      rfl
    -- a batch that is accepted counts, as there is one
    have hrejects : Rejects settings b rows := by
      rw [Rejects, hclaim, Option.isSome_iff_ne_none]
      intro hnone
      obtain ⟨-, hprocessed⟩ := runOutboxRelayOnce_of_accepted hclaim hnone
      have hlength := (perm_claimedEvents hid hin (hbatch ▸ nodup_batchOf hid) b.clock.claimAt
        settings.leaseMs).length_eq
      rw [List.length_map, List.length_map] at hlength
      have hne : batch ≠ [] := hbatch ▸ selectCandidates_ne_nil hfirst.mem hfirst.isFrontier rfl
        (boundedBatchSize_pos settings.batchSize)
      rw [pollOnce, hprocessed, hlength, List.length_eq_zero_iff] at hzero
      exact hne hzero
    -- no other worker holds a row, so the batch has no gap
    have hgapFree : ∀ r ∈ batch, ∀ e ∈ rows, e.aggregateId = r.aggregateId →
        e.sequenceNumber < r.sequenceNumber → e.unfinished = true → e ∈ batch := by
      rw [← hbatch]
      exact (batchOf_gapFree_iff hn hfirst.claimFrontier).mpr
        fun _ _ _ hlocked => absurd hlocked Bool.false_ne_true
    obtain ⟨g, hrows, hg⟩ := exists_settled hid hin hclaim hrejects
    rw [hrows, List.forall_mem_map,
      no_frontier_iff hn hfirst.mem hfirst.isFrontier hmem hgapFree hg]
    constructor
    · intro h frontier' hfirst' _
      obtain rfl := hfirst.unique hn hfirst'
      exact hbatch ▸ h
    · intro h
      exact hbatch ▸ h frontier hfirst hrejects

/-! ## The cycle -/

/-- A call keeps the ids and the numbers of the rows. -/
theorem pollOnce_rows (settings : OutboxRelaySettings) (b : PollBatch) (rows : List OutboxRow) :
    ∃ g, (pollOnce settings b rows).rows = rows.map g ∧ ∀ r, RowUpdate r (g r) := by
  obtain ⟨ids, hclaim⟩ := claimPendingOutboxEvents_eq rows b.clock.claimAt (fun _ => false)
    settings.batchSize settings.leaseMs
  cases hp : (publishOutboxEvents b.producer
      (claimedEvents rows ids b.clock.claimAt settings.leaseMs)
      (topicsOf (claimedEvents rows ids b.clock.claimAt settings.leaseMs))).2 with
  | none =>
    obtain ⟨hrows, -⟩ := runOutboxRelayOnce_of_accepted hclaim hp
    rw [List.map_map] at hrows
    exact ⟨_, hrows, fun r => (claimRow_rowUpdate _ _ _ r).trans (markPublishedRow_rowUpdate _ _ _)⟩
  | some error =>
    obtain ⟨hrows, -⟩ := runOutboxRelayOnce_of_rejected hclaim hp
    rw [List.map_map] at hrows
    exact ⟨_, hrows, fun r => (claimRow_rowUpdate _ _ _ r).trans (settleAll_rowUpdate _ _ _ _ _)⟩

section Cycle

variable {batches : Nat → PollBatch}

theorem rowsBeforeCall_succ {k : Nat} {before : List OutboxRow}
    (h : rowsBeforeCall settings batches rows k = some before) :
    rowsBeforeCall settings batches rows (k + 1) =
      if (pollOnce settings (batches k) before).processed = 0 then none
      else some (pollOnce settings (batches k) before).rows := by
  rw [rowsBeforeCall, h]
  rfl

/-- The table before a call has the ids and numbers of the first. -/
theorem nodup_rowsBeforeCall (hid : (rows.map OutboxRow.id).Nodup)
    (hn : (rows.map OutboxRow.sequenceNumber).Nodup) {k : Nat} {before : List OutboxRow}
    (h : rowsBeforeCall settings batches rows k = some before) :
    (before.map OutboxRow.id).Nodup ∧ (before.map OutboxRow.sequenceNumber).Nodup := by
  induction k generalizing before with
  | zero => exact Option.some.inj h ▸ ⟨hid, hn⟩
  | succ k ih =>
    obtain ⟨earlier, hearlier, hcall⟩ := Option.bind_eq_some_iff.mp h
    obtain ⟨hid', hn'⟩ := ih hearlier
    obtain ⟨g, hrows, hg⟩ := pollOnce_rows settings (batches k) earlier
    simp only at hcall
    split_ifs at hcall
    obtain rfl := Option.some.inj hcall
    rw [hrows, map_key_map fun r => (hg r).id, map_key_map fun r => (hg r).sequenceNumber]
    exact ⟨hid', hn'⟩

/-- There is no call after one that returns zero. -/
theorem le_of_processed_eq_zero {j k : Nat} {before after : List OutboxRow}
    (hj : rowsBeforeCall settings batches rows j = some before)
    (hzero : (pollOnce settings (batches j) before).processed = 0)
    (hk : rowsBeforeCall settings batches rows k = some after) : k ≤ j := by
  by_contra hlt
  obtain ⟨n, rfl⟩ := Nat.exists_eq_add_of_le (Nat.not_le.mp hlt)
  -- a later call would come after the one that is not made
  induction n generalizing after with
  | zero =>
    rw [rowsBeforeCall_succ hj, if_pos hzero] at hk
    cases hk
  | succ n ih =>
    obtain ⟨earlier, hearlier, -⟩ := Option.bind_eq_some_iff.mp hk
    exact ih hearlier (by omega)

/-- **The loop** makes all its calls, or ends with the first that returns zero. -/
theorem pollLoop_cases {n k : Nat} {before : List OutboxRow}
    (h : rowsBeforeCall settings batches rows k = some before) :
    (pollLoop settings batches n k before).calls = k + n ∧
        (∀ j table, rowsBeforeCall settings batches rows j = some table →
          (pollOnce settings (batches j) table).processed = 0 → k + n ≤ j) ∨
      ∃ j table, j < k + n ∧ rowsBeforeCall settings batches rows j = some table ∧
        (pollOnce settings (batches j) table).processed = 0 ∧
        pollLoop settings batches n k before =
          { rows := (pollOnce settings (batches j) table).rows, calls := j + 1 } := by
  induction n generalizing k before with
  | zero =>
    refine Or.inl ⟨rfl, ?_⟩
    intro j table hj hzero
    exact le_of_processed_eq_zero hj hzero h
  | succ n ih =>
    -- the loop ends with a call that returns zero
    unfold pollLoop
    by_cases hzero : (pollOnce settings (batches k) before).processed = 0
    · exact Or.inr ⟨k, before, by omega, h, hzero, if_pos hzero⟩
    · have hnext := rowsBeforeCall_succ h
      rw [if_neg hzero] at hnext
      simp only [if_neg hzero]
      rw [show k + (n + 1) = k + 1 + n by omega]
      exact ih hnext

/-- **When a poll ends only when it is done**: exactly when, before its last call, every rejected
batch was all that could be claimed. -/
theorem endsWhenDone_iff (hid : (rows.map OutboxRow.id).Nodup)
    (hn : (rows.map OutboxRow.sequenceNumber).Nodup) (settings : OutboxRelaySettings)
    (batches : Nat → PollBatch) :
    EndsWhenDone settings batches rows ↔
      ∀ k before, k + 1 < maxBatchesPerPoll →
        rowsBeforeCall settings batches rows k = some before →
          CallCondition settings (batches k) before := by
  have hstart : rowsBeforeCall settings batches rows 0 = some rows := rfl
  have hcases := pollLoop_cases (n := maxBatchesPerPoll) hstart
  rw [Nat.zero_add] at hcases
  constructor
  · intro h k before hk hbefore frontier hfirst hrejects
    obtain ⟨hid', hn'⟩ := nodup_rowsBeforeCall hid hn hbefore
    have hzero := processed_of_rejects hrejects
    rcases hcases with ⟨-, hall⟩ | ⟨j, table, hj, htable, hzero', hend⟩
    · have hle := hall k before hbefore hzero
      omega
    · -- call `k` is the last one
      obtain rfl : j = k := le_antisymm (le_of_processed_eq_zero hbefore hzero htable)
        (le_of_processed_eq_zero htable hzero' hbefore)
      obtain rfl := Option.some.inj (hbefore.symm.trans htable)
      unfold EndsWhenDone poll at h
      rw [hend] at h
      exact (pollOnce_done_iff hid' hn' hzero).mp (h hk) frontier hfirst hrejects
  · intro h hearly
    rcases hcases with ⟨hall, -⟩ | ⟨j, table, hj, htable, hzero, hend⟩
    · -- with all its calls the poll does not end early
      exact absurd hall (Nat.ne_of_lt hearly)
    · obtain ⟨hid', hn'⟩ := nodup_rowsBeforeCall hid hn htable
      unfold poll at hearly ⊢
      rw [hend] at hearly ⊢
      exact (pollOnce_done_iff hid' hn' hzero).mpr (h j table hearly htable)

end Cycle

/-! ### A cycle that is done, and one that is not -/

/-- A message of conversation 7 and one of conversation 8. -/
def twoConversations : List OutboxRow :=
  (insertOutboxEvent (sampleInsert 1 7) 1 0).toList ++
    (insertOutboxEvent (sampleInsert 2 8) 2 0).toList

/-- Calls a second apart, of a producer that rejects the event of message 1 or 2. -/
def pollBatches (rejected : Nat) (k : Nat) : PollBatch where
  producer := rejecting (· == Uuid.ofNat rejected) .other
  clock := { claimAt := k * 1000000, markAt := k * 1000000, dateNow := k * 1000 }

/-- The table when the first message has been published. -/
def firstPublished : List OutboxRow :=
  (pollOnce DEFAULT_OPTIONS (pollBatches 2 0) twoConversations).rows

/-- With the last conversation rejected nothing is left. -/
theorem endsWhenDone_iff_sample :
    EndsWhenDone DEFAULT_OPTIONS (pollBatches 2) twoConversations := by
  apply (endsWhenDone_iff (by decide +kernel) (by decide +kernel) _ _).mpr
  intro k before _ hbefore frontier hfirst hrejects
  have hsecond : rowsBeforeCall DEFAULT_OPTIONS (pollBatches 2) twoConversations 1 =
      some firstPublished :=
    (rowsBeforeCall_succ rfl).trans (if_neg (by decide +kernel))
  have hk : k ≤ 1 := le_of_processed_eq_zero hsecond (by decide +kernel) hbefore
  rcases Nat.le_one_iff_eq_zero_or_eq_one.mp hk with rfl | rfl
  · -- the first batch is accepted
    obtain rfl := Option.some.inj hbefore
    refine absurd hrejects ?_
    unfold Rejects
    decide +kernel
  · obtain rfl := Option.some.inj (hsecond.symm.trans hbefore)
    have hrest : ∀ f ∈ firstPublished, isFrontier firstPublished 1000000 f = true →
        (∀ r ∈ firstPublished, isFrontier firstPublished 1000000 r = true → r = f) ∧
        (∀ r ∈ batchOf firstPublished 1000000 100 (fun _ => false) f,
          1000000 < retryAt DEFAULT_OPTIONS (pollBatches 2 1).clock r) ∧
        ∃ r ∈ batchOf firstPublished 1000000 100 (fun _ => false) f,
          ¬ isLastAttempt DEFAULT_OPTIONS r := by
      decide +kernel
    obtain ⟨hothers, hretried, e, he, hleft⟩ := hrest frontier hfirst.mem hfirst.isFrontier
    exact ⟨hothers, fun r hr _ _ => hretried r hr, fun hlast => absurd (hlast e he) hleft⟩

/-- **The other conversation waits** when the batch of the first is rejected. -/
theorem poll_leaves_conversation : ∃ (rows : List OutboxRow) (settings : OutboxRelaySettings)
    (batches : Nat → PollBatch), (rows.map OutboxRow.id).Nodup ∧
      (rows.map OutboxRow.sequenceNumber).Nodup ∧ ¬ EndsWhenDone settings batches rows := by
  refine ⟨twoConversations, DEFAULT_OPTIONS, pollBatches 1, by decide +kernel, by decide +kernel,
    ?_⟩
  intro h
  have hleft : (poll DEFAULT_OPTIONS (pollBatches 1) twoConversations).calls = 1 ∧
      ∃ r ∈ (poll DEFAULT_OPTIONS (pollBatches 1) twoConversations).rows,
        isFrontier (poll DEFAULT_OPTIONS (pollBatches 1) twoConversations).rows 0 r = true := by
    decide +kernel
  obtain ⟨hcalls, r, hr, hf⟩ := hleft
  have hdone := h (by rw [hcalls]; decide) r hr
  rw [hcalls] at hdone
  exact absurd hf (Bool.eq_false_iff.mp hdone)

end MernChat
