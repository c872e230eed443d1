import MernChat.Outbox.Repository

/-!
# The rows a claim takes

A claim is to take a first part of the unfinished rows of an aggregate. Rows that other
transactions hold locked are passed over, by both selects: a locked frontier hides its aggregate,
but a locked row behind a free frontier is left out of the middle of what the claim takes.

## Main definitions

* `ClaimsPrefix`: what a claim is to return and to leave alone
* `LeavesNoGap`, `LocksLeaveNoGap`: the locks that take nothing out of the middle

## Main results

* `claimsPrefix_iff`: a claim takes a first part exactly when the locks leave no gap
* `claim_skips_locked`: a claim of the first and the third row of a conversation
-/

namespace MernChat

open Library

variable {rows : List OutboxRow} {now batchSize leaseMs : Int} {locked : Uuid → Bool}

/-! ## What a claim is to do -/

/-- **A claim takes a gap-free prefix**: the rows and the events it returns, out of `rows`. -/
structure ClaimsPrefix (rows : List OutboxRow) (now batchSize : Int)
    (result : List OutboxRow × List OutboxEvent) : Prop where
  aggregate : ∀ e ∈ result.2, ∀ e' ∈ result.2, e.aggregateId = e'.aggregateId
  sorted : result.2.Pairwise fun e e' => e.sequenceNumber < e'.sequenceNumber
  length : (result.2.length : Int) ≤ boundedBatchSize batchSize
  eligible : ∀ e ∈ result.2, ∃ r ∈ rows, e.Of r ∧ r.eligible now = true
  gapFree : ∀ e ∈ result.2, ∀ r ∈ rows, r.aggregateId = e.aggregateId →
    r.sequenceNumber < e.sequenceNumber → r.unfinished = true → ∃ e' ∈ result.2, e'.id = r.id
  unchanged : List.Forall₂ (fun r r' => r.id ∉ result.2.map OutboxEvent.id → r' = r) rows result.1

/-- The first of the frontier rows that are not locked. -/
structure FirstFrontier (rows : List OutboxRow) (now : Int) (locked : Uuid → Bool)
    (frontier : OutboxRow) : Prop where
  mem : frontier ∈ rows
  isFrontier : isFrontier rows now frontier = true
  unlocked : locked frontier.id = false
  first : ∀ r ∈ rows, MernChat.isFrontier rows now r = true → locked r.id = false →
    frontier.sequenceNumber ≤ r.sequenceNumber

/-- A row that may be claimed with `frontier`. -/
abbrev CandidateOf (rows : List OutboxRow) (now : Int) (frontier r : OutboxRow) : Prop :=
  isCandidate rows now frontier.aggregateId frontier.sequenceNumber r = true

/-- The candidates before `n` that are not locked. -/
def freeBefore (rows : List OutboxRow) (now : Int) (locked : Uuid → Bool) (frontier : OutboxRow)
    (n : Nat) : List OutboxRow :=
  rows.filter fun r => decide (CandidateOf rows now frontier r) && !locked r.id &&
    decide (r.sequenceNumber < n)

/-- Every locked candidate has no free candidate behind it, or a whole batch of them before it. -/
def LeavesNoGap (rows : List OutboxRow) (now batchSize : Int) (locked : Uuid → Bool)
    (frontier : OutboxRow) : Prop :=
  ∀ r ∈ rows, CandidateOf rows now frontier r → locked r.id = true →
    (∀ r' ∈ rows, CandidateOf rows now frontier r' → r.sequenceNumber < r'.sequenceNumber →
      locked r'.id = true) ∨
    boundedBatchSize batchSize ≤ (freeBefore rows now locked frontier r.sequenceNumber).length

instance (rows : List OutboxRow) (now batchSize : Int) (locked : Uuid → Bool)
    (frontier : OutboxRow) : Decidable (LeavesNoGap rows now batchSize locked frontier) :=
  inferInstanceAs (Decidable (∀ r ∈ rows, _ → _ → (∀ r' ∈ rows, _ → _ → _) ∨ _ ≤ _))

/-- The locked candidates of the first frontier leave no gap. -/
def LocksLeaveNoGap (rows : List OutboxRow) (now batchSize : Int) (locked : Uuid → Bool) : Prop :=
  ∀ frontier, FirstFrontier rows now locked frontier →
    LeavesNoGap rows now batchSize locked frontier

/-- A row from which candidates are selected. Rows before it may have become visible since it was
selected; they are no more than eligible. -/
structure ClaimFrontier (rows : List OutboxRow) (now : Int) (frontier : OutboxRow) : Prop where
  mem : frontier ∈ rows
  eligible : frontier.eligible now = true
  earlier : ∀ r ∈ rows, r.aggregateId = frontier.aggregateId →
    r.sequenceNumber < frontier.sequenceNumber → r.unfinished = true → r.eligible now = true

/-! ## The frontier -/

theorem selectFrontier_eq_none (h : selectFrontier rows now locked = none) (frontier : OutboxRow) :
    ¬ FirstFrontier rows now locked frontier := by
  intro hf
  rw [selectFrontier, List.head?_eq_none_iff, List.filter_eq_nil_iff] at h
  have hmem : frontier ∈ sortBy OutboxRow.sequenceNumber (rows.filter (isFrontier rows now)) :=
    mem_sortBy.mpr (List.mem_filter.mpr ⟨hf.mem, hf.isFrontier⟩)
  exact h frontier hmem (by simp [hf.unlocked])

theorem firstFrontier_of_selectFrontier {frontier : OutboxRow}
    (h : selectFrontier rows now locked = some frontier) :
    FirstFrontier rows now locked frontier := by
  obtain ⟨hmem, hfrontier, hunlocked⟩ := selectFrontier_eq_some h
  refine ⟨hmem, hfrontier, hunlocked, ?_⟩
  intro r hr hrf hrl
  -- the rows are looked at in the order of their numbers
  have hsorted := (pairwise_sortBy OutboxRow.sequenceNumber
    (rows.filter (isFrontier rows now))).filter fun r => !locked r.id
  obtain ⟨later, hlist⟩ := List.head?_eq_some_iff.mp h
  have hin : r ∈ frontier :: later := by
    rw [← hlist, List.mem_filter, mem_sortBy, List.mem_filter]
    exact ⟨⟨hr, hrf⟩, by simp [hrl]⟩
  rw [hlist, List.pairwise_cons] at hsorted
  rcases List.mem_cons.mp hin with rfl | hin
  · exact le_rfl
  · exact hsorted.1 r hin

/-- There is one first frontier. -/
theorem FirstFrontier.unique (hn : (rows.map OutboxRow.sequenceNumber).Nodup)
    {f f' : OutboxRow} (h : FirstFrontier rows now locked f)
    (h' : FirstFrontier rows now locked f') : f = f' :=
  eq_of_key hn h.mem h'.mem (le_antisymm (h.first f' h'.mem h'.isFrontier h'.unlocked)
    (h'.first f h.mem h.isFrontier h.unlocked))

/-- Everything before a frontier is finished. -/
theorem FirstFrontier.claimFrontier {frontier : OutboxRow}
    (h : FirstFrontier rows now locked frontier) : ClaimFrontier rows now frontier where
  mem := h.mem
  eligible := (isFrontier_iff.mp h.isFrontier).1
  earlier r hr hagg hlt hu := by
    rw [(isFrontier_iff.mp h.isFrontier).2 r hr hagg hlt] at hu
    cases hu

/-! ## The candidates -/

section Candidates

variable {frontier : OutboxRow}

/-- The rows a claim selects. -/
def batchOf (rows : List OutboxRow) (now batchSize : Int) (locked : Uuid → Bool)
    (frontier : OutboxRow) : List OutboxRow :=
  selectCandidates rows now frontier.aggregateId frontier.sequenceNumber
    (boundedBatchSize batchSize) locked

/-- Every unfinished row before a candidate of the aggregate is a candidate. -/
theorem candidateOf_of_lt (hn : (rows.map OutboxRow.sequenceNumber).Nodup)
    (hf : ClaimFrontier rows now frontier) {r e : OutboxRow}
    (hr : CandidateOf rows now frontier r) (he : e ∈ rows) (hagg : e.aggregateId = r.aggregateId)
    (hu : e.unfinished = true) (hlt : e.sequenceNumber < r.sequenceNumber) :
    CandidateOf rows now frontier e := by
  obtain ⟨hra, -, hblockers⟩ := isCandidate_iff.mp hr
  have heligible : e.eligible now = true := by
    rcases lt_trichotomy e.sequenceNumber frontier.sequenceNumber with hlt' | heq | hgt
    · exact hf.earlier e he (hagg.trans hra) hlt' hu
    · exact eq_of_key hn he hf.mem heq ▸ hf.eligible
    · exact hblockers e he hagg hgt hlt hu
  refine isCandidate_iff.mpr ⟨hagg.trans hra, heligible, ?_⟩
  intro b hb hba hgt hbe hbu
  exact hblockers b hb (hba.trans hagg) hgt (hbe.trans hlt) hbu

/-- The free candidates in the order of their rows. -/
def freeCandidates (rows : List OutboxRow) (now : Int) (locked : Uuid → Bool)
    (frontier : OutboxRow) : List OutboxRow :=
  (sortBy OutboxRow.sequenceNumber (rows.filter
    (isCandidate rows now frontier.aggregateId frontier.sequenceNumber))).filter
      fun r => !locked r.id

theorem mem_freeCandidates {r : OutboxRow} : r ∈ freeCandidates rows now locked frontier ↔
    r ∈ rows ∧ CandidateOf rows now frontier r ∧ locked r.id = false := by
  rw [freeCandidates, List.mem_filter, mem_sortBy, List.mem_filter, Bool.not_eq_true', and_assoc]

/-- The free candidates before `n`, counted in the order of their rows. -/
theorem length_freeBefore (n : Nat) : (freeBefore rows now locked frontier n).length =
    ((freeCandidates rows now locked frontier).filter
      fun r => decide (r.sequenceNumber < n)).length := by
  -- sorting does not change what is counted
  have hperm := ((perm_sortBy OutboxRow.sequenceNumber (rows.filter
    (isCandidate rows now frontier.aggregateId frontier.sequenceNumber))).filter
      fun r => !locked r.id).filter fun r => decide (r.sequenceNumber < n)
  rw [freeCandidates, hperm.length_eq, List.filter_filter, List.filter_filter, freeBefore]
  congr 1
  apply List.filter_congr
  intro r _
  simp only [Bool.decide_eq_true]
  rw [Bool.and_comm, Bool.and_comm (isCandidate _ _ _ _ r), Bool.and_assoc]

/-- A claim reaches beyond a locked row when a free candidate is behind it, and few before it. -/
theorem exists_mem_batchOf_iff (hn : (rows.map OutboxRow.sequenceNumber).Nodup) {r : OutboxRow}
    (hr : r ∈ rows) (hlocked : locked r.id = true) :
    (∃ r' ∈ batchOf rows now batchSize locked frontier, r.sequenceNumber < r'.sequenceNumber) ↔
      (∃ r' ∈ freeCandidates rows now locked frontier, r.sequenceNumber < r'.sequenceNumber) ∧
        ((freeBefore rows now locked frontier r.sequenceNumber).length : Int) <
          boundedBatchSize batchSize := by
  have hsorted : (freeCandidates rows now locked frontier).Pairwise
      fun a b => a.sequenceNumber < b.sequenceNumber :=
    (pairwise_lt_sortBy (hn.sublist (List.filter_sublist.map _))).filter _
  -- the locked row is not among the free ones
  have hne : ∀ r' ∈ freeCandidates rows now locked frontier,
      r'.sequenceNumber ≠ r.sequenceNumber := by
    intro r' hr' heq
    obtain ⟨hmem, -, hfree⟩ := mem_freeCandidates.mp hr'
    obtain rfl := eq_of_key hn hmem hr heq
    rw [hfree] at hlocked
    cases hlocked
  have hnat : ((freeBefore rows now locked frontier r.sequenceNumber).length : Int) <
      boundedBatchSize batchSize ↔
        ((freeCandidates rows now locked frontier).filter
          fun a => decide (a.sequenceNumber < r.sequenceNumber)).length <
            (boundedBatchSize batchSize).toNat := by
    rw [length_freeBefore]
    omega
  rw [hnat]
  exact exists_mem_take_iff hsorted hne _

/-- **A batch has no gap** exactly when the locks leave none. -/
theorem batchOf_gapFree_iff (hn : (rows.map OutboxRow.sequenceNumber).Nodup)
    (hf : ClaimFrontier rows now frontier) :
    (∀ r ∈ batchOf rows now batchSize locked frontier, ∀ e ∈ rows, e.aggregateId = r.aggregateId →
      e.sequenceNumber < r.sequenceNumber → e.unfinished = true →
        e ∈ batchOf rows now batchSize locked frontier) ↔
    LeavesNoGap rows now batchSize locked frontier := by
  constructor
  · intro hgap e he hce hlocked
    by_contra hneither
    push Not at hneither
    obtain ⟨⟨r, hr, hcr, hlt, hfree⟩, hfew⟩ := hneither
    have hfree : locked r.id = false := by simpa using hfree
    -- the claim reaches beyond `e`, so that it has to take `e`, which is locked
    obtain ⟨r', hr', hlt'⟩ := (exists_mem_batchOf_iff hn he hlocked).mpr
      ⟨⟨r, mem_freeCandidates.mpr ⟨hr, hcr, hfree⟩, hlt⟩, hfew⟩
    obtain ⟨hagg, heligible, -⟩ := isCandidate_iff.mp hce
    have hagg' := (isCandidate_iff.mp (mem_selectCandidates hr').2.1).1
    have hmem := hgap r' hr' e he (hagg.trans hagg'.symm) hlt'
      (OutboxRow.unfinished_of_eligible heligible)
    rw [(mem_selectCandidates hmem).2.2] at hlocked
    cases hlocked
  · -- an unfinished row before one of the batch is a candidate, and free
    intro hlocks r hr e he hagg hlt hu
    obtain ⟨hmem, hcr, hfree⟩ := mem_selectCandidates hr
    have hce := candidateOf_of_lt hn hf hcr he hagg hu hlt
    cases hlocked : locked e.id with
    | false => exact mem_selectCandidates_of_lt hn hr he hce hlocked hlt
    | true =>
      rcases hlocks e he hce hlocked with hbehind | hmany
      · rw [hbehind r hmem hcr hlt] at hfree
        cases hfree
      · have hfew := ((exists_mem_batchOf_iff hn he hlocked).mp ⟨r, hr, hlt⟩).2
        exact absurd hmany (not_le.mpr hfew)

end Candidates

/-! ## What a claim does -/

section Claim

variable {frontier : OutboxRow} {batch : List OutboxRow}

theorem nodup_batchOf (hid : (rows.map OutboxRow.id).Nodup) :
    ((batchOf rows now batchSize locked frontier).map OutboxRow.id).Nodup :=
  nodup_selectCandidates hid ..

theorem length_batchOf_le :
    ((batchOf rows now batchSize locked frontier).length : Int) ≤ boundedBatchSize batchSize := by
  have htake : (batchOf rows now batchSize locked frontier).length ≤
      (boundedBatchSize batchSize).toNat := List.length_take_le _ _
  have hone := boundedBatchSize_pos batchSize
  omega

/-- What a claim from a frontier returns is sorted, of one aggregate, bounded and eligible; it is a
prefix when the batch has no gap. -/
theorem claimsPrefix_batch_iff (hid : (rows.map OutboxRow.id).Nodup)
    (hn : (rows.map OutboxRow.sequenceNumber).Nodup)
    (hbatch : batchOf rows now batchSize locked frontier = batch) (leaseMs : Int) :
    ClaimsPrefix rows now batchSize (rows.map (claimRow (batch.map OutboxRow.id) now leaseMs),
        claimedEvents rows (batch.map OutboxRow.id) now leaseMs) ↔
      ∀ r ∈ batch, ∀ e ∈ rows, e.aggregateId = r.aggregateId →
        e.sequenceNumber < r.sequenceNumber → e.unfinished = true → e ∈ batch := by
  have hcandidate : ∀ r ∈ batch, r ∈ rows ∧ CandidateOf rows now frontier r := by
    intro r hr
    obtain ⟨hmem, hc, -⟩ := mem_selectCandidates (hbatch ▸ hr)
    exact ⟨hmem, hc⟩
  have hmem : ∀ r ∈ batch, r ∈ rows ∧ r.unfinished = true := by
    intro r hr
    obtain ⟨hr, hc⟩ := hcandidate r hr
    exact ⟨hr, OutboxRow.unfinished_of_eligible (isCandidate_iff.mp hc).2.1⟩
  -- the events are the rows of the batch, whose ids and numbers a claim does not change
  have hupdate := claimRow_rowUpdate (batch.map OutboxRow.id) now leaseMs
  have hevent : ∀ e, e ∈ claimedEvents rows (batch.map OutboxRow.id) now leaseMs ↔
      ∃ r ∈ batch, mapOutboxEvent (claimRow (batch.map OutboxRow.id) now leaseMs r) = e :=
    fun _ => mem_claimedEvents_map_id hid hmem
  constructor
  · intro h r hr e he hagg hlt hu
    obtain ⟨e', he', hide⟩ := h.gapFree _ ((hevent _).mpr ⟨r, hr, rfl⟩) e he
      (hagg.trans (hupdate r).aggregateId.symm) (hlt.trans_eq (hupdate r).sequenceNumber.symm) hu
    obtain ⟨r', hr', rfl⟩ := (hevent _).mp he'
    have heq := eq_of_key hid (hmem r' hr').1 he ((hupdate r').id.symm.trans hide)
    exact heq ▸ hr'
  · intro hgap
    refine ⟨?aggregate, pairwise_claimedEvents hn _ _ _, ?length, ?eligible, ?gapFree, ?unchanged⟩
    case aggregate =>
      intro e he e' he'
      obtain ⟨r, hr, rfl⟩ := (hevent _).mp he
      obtain ⟨r', hr', rfl⟩ := (hevent _).mp he'
      have hagg := (isCandidate_iff.mp (hcandidate r hr).2).1
      have hagg' := (isCandidate_iff.mp (hcandidate r' hr').2).1
      exact (hupdate r).aggregateId.trans
        (hagg.trans (hagg'.symm.trans (hupdate r').aggregateId.symm))
    case length =>
      have hlength := (perm_claimedEvents hid hmem (hbatch ▸ nodup_batchOf hid) now
        leaseMs).length_eq
      rw [List.length_map, List.length_map] at hlength
      show ((claimedEvents rows (batch.map OutboxRow.id) now leaseMs).length : Int) ≤ _
      rw [hlength, ← hbatch]
      exact length_batchOf_le
    case eligible =>
      intro e he
      obtain ⟨r, hr, rfl⟩ := (hevent _).mp he
      obtain ⟨hrow, hc⟩ := hcandidate r hr
      exact ⟨r, hrow, ⟨(hupdate r).id, (hupdate r).sequenceNumber, (hupdate r).aggregateId,
        (hupdate r).topic, (hupdate r).partitionKey, (hupdate r).payload, (hupdate r).headers⟩,
        (isCandidate_iff.mp hc).2.1⟩
    case gapFree =>
      -- the row behind the event is of the batch, and so is the one before it
      intro e he r hr hagg hlt hu
      obtain ⟨r', hr', rfl⟩ := (hevent _).mp he
      have hb := hgap r' hr' r hr (hagg.trans (hupdate r').aggregateId)
        (hlt.trans_eq (hupdate r').sequenceNumber) hu
      exact ⟨_, (hevent _).mpr ⟨r, hb, rfl⟩, (hupdate r).id⟩
    case unchanged =>
      rw [List.forall₂_map_right_iff, List.forall₂_same]
      intro r hr hnot
      unfold claimRow
      rw [if_neg]
      intro hc
      have hb := (claimable_map_id_iff hid hmem hr).mp hc
      exact hnot (List.mem_map.mpr ⟨_, (hevent _).mpr ⟨r, hb, rfl⟩, (hupdate r).id⟩)

end Claim

/-! ## When a claim takes a prefix -/

/-- **When a claim takes a gap-free prefix**: exactly when every locked candidate of the first free
frontier has no free candidate behind it, or a whole batch of free ones before it. -/
theorem claimsPrefix_iff (hid : (rows.map OutboxRow.id).Nodup)
    (hn : (rows.map OutboxRow.sequenceNumber).Nodup) (now : Int) (locked : Uuid → Bool)
    (batchSize leaseMs : Int) :
    ClaimsPrefix rows now batchSize (claimPendingOutboxEvents rows now locked batchSize leaseMs) ↔
      LocksLeaveNoGap rows now batchSize locked := by
  unfold claimPendingOutboxEvents
  cases hf : selectFrontier rows now locked with
  | none =>
    -- nothing is claimed, and there is no frontier to have a gap
    refine iff_of_true ?_ fun frontier h => absurd h (selectFrontier_eq_none hf frontier)
    refine ⟨by simp, List.Pairwise.nil, ?_, by simp, by simp, ?_⟩
    · unfold boundedBatchSize
      simp
    · rw [List.forall₂_same]
      exact fun _ _ _ => rfl
  | some frontier =>
    have hfirst := firstFrontier_of_selectFrontier hf
    refine (claimsPrefix_batch_iff hid hn rfl leaseMs).trans
      ((batchOf_gapFree_iff hn hfirst.claimFrontier).trans ?_)
    constructor
    · intro h frontier' hfirst'
      obtain rfl := hfirst.unique hn hfirst'
      exact h
    · exact fun h => h frontier hfirst

/-- A batch of a conversation after its lease, thirty seconds, is over: its send has failed, the
first row is rescheduled, and the second is about to be. -/
def halfRescheduled : List OutboxRow :=
  ([1, 2, 3].filterMap fun n => insertOutboxEvent (sampleInsert n 7) n 0).map fun r =>
    if r.sequenceNumber = 1 then
      { r with attemptCount := 1, availableAt := 33000000, lastError := some (js "timeout") }
    else { r with status := .processing, attemptCount := 1, lockedUntil := some 30000000 }

/-- With the last row locked the first two are claimed. -/
theorem claimsPrefix_iff_sample : ClaimsPrefix halfRescheduled 40000000 100
    (claimPendingOutboxEvents halfRescheduled 40000000 (· == Uuid.ofNat 3) 100 30000) := by
  apply (claimsPrefix_iff (by decide +kernel) (by decide +kernel) _ _ _ _).mpr
  intro frontier _ r hr _ hlocked
  left
  have hlast : ∀ r ∈ halfRescheduled, (r.id == Uuid.ofNat 3) = true →
      ∀ r' ∈ halfRescheduled, ¬ r.sequenceNumber < r'.sequenceNumber := by decide +kernel
  exact fun r' hr' _ hlt => absurd hlt (hlast r hr hlocked r' hr')

/-- **A claim takes the first and the third row**, while the second is being rescheduled. -/
theorem claim_skips_locked : ∃ (rows : List OutboxRow) (now : Int) (locked : Uuid → Bool)
    (batchSize leaseMs : Int), (rows.map OutboxRow.id).Nodup ∧
      (rows.map OutboxRow.sequenceNumber).Nodup ∧
      ¬ ClaimsPrefix rows now batchSize
        (claimPendingOutboxEvents rows now locked batchSize leaseMs) := by
  refine ⟨halfRescheduled, 40000000, (· == Uuid.ofNat 2), 100, 30000, by decide +kernel,
    by decide +kernel, ?_⟩
  intro h
  have hclaimed : ∃ e ∈ (claimPendingOutboxEvents halfRescheduled 40000000 (· == Uuid.ofNat 2) 100
      30000).2, ∃ r ∈ halfRescheduled, r.aggregateId = e.aggregateId ∧
        r.sequenceNumber < e.sequenceNumber ∧ r.unfinished = true ∧
          ∀ e' ∈ (claimPendingOutboxEvents halfRescheduled 40000000 (· == Uuid.ofNat 2) 100
            30000).2, e'.id ≠ r.id := by
    decide +kernel
  obtain ⟨e, he, r, hr, hagg, hlt, hu, hnone⟩ := hclaimed
  obtain ⟨e', he', hid⟩ := h.gapFree e he r hr hagg hlt hu
  exact hnone e' he' hid

end MernChat
