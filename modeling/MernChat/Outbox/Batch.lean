import MernChat.Outbox.Publisher

/-!
# The fate of a batch

A call decides the outcome of its batch as a whole: the batch is published when every send of it
is accepted, and otherwise each of its events is put back, or dead-lettered when its own attempts
are used up. An event that could be published shares the failures of the events it is claimed
with.

## Main definitions

* `rejecting`: a producer that rejects the sends with an unpublishable event
* `RelayCall`, `runOutboxRelay`: calls one after the other
* `LastAttempt`: a call that claims an event for its last attempt, with an unpublishable one

## Main results

* `runOutboxRelayOnce_rows`: what a call does to each row
* `dead_lettered_iff`: an event is dead-lettered exactly by such a call
-/

namespace MernChat

open Library

variable {unpublishable : Uuid → Bool} {error : JsError}

/-- A producer that rejects a send exactly when it contains an unpublishable event. -/
def rejecting (unpublishable : Uuid → Bool) (error : JsError) : Producer := fun _ events =>
  if events.any fun event => unpublishable event.id then some error else none

/-! ## Sends -/

/-- The sends of a batch throw when one of them contains an unpublishable event. -/
theorem publishOutboxEvents_error (events : List OutboxEvent) (topics : List JsString) :
    (publishOutboxEvents (rejecting unpublishable error) events topics).2 =
      if ∃ topic ∈ topics, ∃ e ∈ topicBatch events topic, unpublishable e.id = true then
        some error else none := by
  induction topics with
  | nil => simp [publishOutboxEvents]
  | cons topic topics ih =>
    unfold publishOutboxEvents
    by_cases hu : ∃ e ∈ topicBatch events topic, unpublishable e.id = true
    · have hany : ((topicBatch events topic).any fun e => unpublishable e.id) = true := by
        simpa using hu
      simp [rejecting, hany, hu]
    · have hany : ((topicBatch events topic).any fun e => unpublishable e.id) = false := by
        simpa using hu
      simp [rejecting, hany, hu, ih]

/-- A batch is published when it contains no unpublishable event. -/
theorem publishOutboxEvents_batch (events : List OutboxEvent) :
    (publishOutboxEvents (rejecting unpublishable error) events (topicsOf events)).2 =
      if ∃ e ∈ events, unpublishable e.id = true then some error else none := by
  rw [publishOutboxEvents_error]
  refine if_congr ⟨?_, ?_⟩ rfl rfl
  · rintro ⟨topic, -, e, he, hu⟩
    exact ⟨e, (mem_topicBatch.mp he).1, hu⟩
  · rintro ⟨e, he, hu⟩
    exact ⟨e.topic, mem_topicsOf he, e, mem_topicBatch.mpr ⟨he, rfl⟩, hu⟩

/-! ## The handler -/

variable (settings : OutboxRelaySettings) (message : JsString) (dateNow : Int)

/-- The writes of the handler for one row. -/
def settleAll (events : List OutboxEvent) (r : OutboxRow) : OutboxRow :=
  events.foldl (fun r event => settleRow settings event message dateNow r) r

variable {settings message dateNow}

theorem settleRow_of_ne {e : OutboxEvent} {r : OutboxRow} (h : e.id ≠ r.id) :
    settleRow settings e message dateNow r = r := by
  simp [settleRow, deadLetterRow, rescheduleRow, h.symm]

theorem settleAll_of_ne {events : List OutboxEvent} {r : OutboxRow}
    (h : ∀ e ∈ events, e.id ≠ r.id) : settleAll settings message dateNow events r = r := by
  induction events with
  | nil => rfl
  | cons e events ih =>
    have he : settleAll settings message dateNow (e :: events) r =
        settleAll settings message dateNow events (settleRow settings e message dateNow r) := rfl
    rw [he, settleRow_of_ne (h e List.mem_cons_self)]
    exact ih fun e' he' => h e' (List.mem_cons_of_mem e he')

/-- The handler writes a row once, for its own event. -/
theorem settleAll_of_mem {events : List OutboxEvent} (hn : (events.map OutboxEvent.id).Nodup)
    {e : OutboxEvent} (he : e ∈ events) {r : OutboxRow} (hid : e.id = r.id) :
    settleAll settings message dateNow events r = settleRow settings e message dateNow r := by
  induction events with
  | nil => cases he
  | cons e' events ih =>
    have hcons : settleAll settings message dateNow (e' :: events) r =
        settleAll settings message dateNow events (settleRow settings e' message dateNow r) := rfl
    rw [List.map_cons, List.nodup_cons] at hn
    rw [hcons]
    rcases List.mem_cons.mp he with rfl | he
    · -- the write does not change the id, and no later event has it
      refine settleAll_of_ne fun e' he' hid' => hn.1 ?_
      rw [(settleRow_rowUpdate settings e message dateNow r).id, ← hid] at hid'
      exact hid' ▸ List.mem_map_of_mem he'
    · have hne : e'.id ≠ r.id := fun hid' =>
        hn.1 (hid'.trans hid.symm ▸ List.mem_map_of_mem he)
      rw [settleRow_of_ne hne]
      exact ih hn.2 he

/-! ## Calls -/

/-- One call of the relay: its settings and its clock. -/
structure RelayCall where
  settings : OutboxRelaySettings
  clock : RelayClock

/-- The claim of a call. -/
def RelayCall.claim (call : RelayCall) (rows : List OutboxRow) :
    List OutboxRow × List OutboxEvent :=
  claimPendingOutboxEvents rows call.clock.claimAt (fun _ => false) call.settings.batchSize
    call.settings.leaseMs

/-- Calls one after the other. -/
def runOutboxRelay (producer : Producer) (calls : List RelayCall) (rows : List OutboxRow) :
    List OutboxRow :=
  calls.foldl (fun rows call => (runOutboxRelayOnce producer call.settings call.clock rows).rows)
    rows

theorem runOutboxRelay_cons (producer : Producer) (call : RelayCall) (calls : List RelayCall)
    (rows : List OutboxRow) :
    runOutboxRelay producer (call :: calls) rows = runOutboxRelay producer calls
      (runOutboxRelayOnce producer call.settings call.clock rows).rows := rfl

/-- The call claims the event for an attempt that reaches `maxAttempts`, in a batch with an
unpublishable event. -/
def LastAttempt (unpublishable : Uuid → Bool) (call : RelayCall) (rows : List OutboxRow)
    (id : Uuid) : Prop :=
  (∃ e ∈ (call.claim rows).2, e.id = id ∧ call.settings.maxAttempts ≤ e.attemptCount) ∧
    ∃ e ∈ (call.claim rows).2, unpublishable e.id = true

/-- What a call does to a row, when it claims `ids` and the events `events`. -/
def callRow (unpublishable : Uuid → Bool) (error : JsError) (call : RelayCall) (ids : List Uuid)
    (events : List OutboxEvent) (r : OutboxRow) : OutboxRow :=
  if ∃ e ∈ events, unpublishable e.id = true then
    settleAll call.settings (errorMessage error) call.clock.dateNow events
      (claimRow ids call.clock.claimAt call.settings.leaseMs r)
  else
    markPublishedRow (events.map OutboxEvent.id) call.clock.markAt
      (claimRow ids call.clock.claimAt call.settings.leaseMs r)

/-- **A call** updates each row by the outcome of its batch. -/
theorem runOutboxRelayOnce_rows (unpublishable : Uuid → Bool) (error : JsError)
    (call : RelayCall) (rows : List OutboxRow) :
    ∃ ids, (call.claim rows).2 = claimedEvents rows ids call.clock.claimAt call.settings.leaseMs ∧
      (runOutboxRelayOnce (rejecting unpublishable error) call.settings call.clock rows).rows =
        rows.map (callRow unpublishable error call ids (call.claim rows).2) := by
  obtain ⟨ids, heq⟩ := claimPendingOutboxEvents_eq rows call.clock.claimAt (fun _ => false)
    call.settings.batchSize call.settings.leaseMs
  have hclaim : (call.claim rows).2 =
      claimedEvents rows ids call.clock.claimAt call.settings.leaseMs := by
    rw [RelayCall.claim, heq]
  refine ⟨ids, hclaim, ?_⟩
  rw [hclaim]
  unfold runOutboxRelayOnce
  simp only [heq]
  -- all that follows depends on the batch alone
  generalize claimedEvents rows ids call.clock.claimAt call.settings.leaseMs = events
  rcases hp : publishOutboxEvents (rejecting unpublishable error) events (topicsOf events) with
    ⟨sent, result⟩
  have hres : result = if ∃ e ∈ events, unpublishable e.id = true then some error else none := by
    rw [← publishOutboxEvents_batch events, hp]
  by_cases hu : ∃ e ∈ events, unpublishable e.id = true
  · rw [if_pos hu] at hres
    subst hres
    simp only [foldl_map, List.map_map]
    refine List.map_congr_left fun r _ => ?_
    rw [callRow, if_pos hu]
    rfl
  · rw [if_neg hu] at hres
    subst hres
    simp only [List.map_map]
    refine List.map_congr_left fun r _ => ?_
    rw [callRow, if_neg hu]
    rfl

theorem settleAll_rowUpdate (settings : OutboxRelaySettings) (message : JsString) (dateNow : Int)
    (events : List OutboxEvent) (r : OutboxRow) :
    RowUpdate r (settleAll settings message dateNow events r) := by
  induction events generalizing r with
  | nil => exact .refl r
  | cons e events ih => exact (settleRow_rowUpdate settings e message dateNow r).trans (ih _)

theorem callRow_rowUpdate (call : RelayCall) (ids : List Uuid) (events : List OutboxEvent)
    (r : OutboxRow) : RowUpdate r (callRow unpublishable error call ids events r) := by
  unfold callRow
  split_ifs
  · exact (claimRow_rowUpdate ids _ _ r).trans (settleAll_rowUpdate _ _ _ events _)
  · exact (claimRow_rowUpdate ids _ _ r).trans (markPublishedRow_rowUpdate _ _ _)

/-- A row is claimed when its event is in the batch. -/
theorem claimable_iff {rows : List OutboxRow} (hn : (rows.map OutboxRow.id).Nodup)
    {ids : List Uuid} {t leaseMs : Int} {r : OutboxRow} (hr : r ∈ rows) :
    claimable ids r = true ↔ ∃ e ∈ claimedEvents rows ids t leaseMs, e.id = r.id := by
  constructor
  · intro hc
    exact ⟨_, mem_claimedEvents.mpr ⟨r, hr, hc, rfl⟩, (claimRow_rowUpdate ids t leaseMs r).id⟩
  · rintro ⟨e, he, hid⟩
    obtain ⟨r', hr', hc, rfl⟩ := mem_claimedEvents.mp he
    obtain rfl := eq_of_key hn hr' hr ((claimRow_rowUpdate ids t leaseMs r').id.symm.trans hid)
    exact hc

/-- The handler dead-letters a claimed row exactly at its last attempt. -/
theorem settleRow_claimed {ids : List Uuid} {t leaseMs : Int} {r : OutboxRow}
    (hc : claimable ids r = true) :
    (settleRow settings (mapOutboxEvent (claimRow ids t leaseMs r)) message dateNow
      (claimRow ids t leaseMs r)).status = .dead_lettered ↔
      settings.maxAttempts ≤ (mapOutboxEvent (claimRow ids t leaseMs r)).attemptCount := by
  have hst : (claimRow ids t leaseMs r).status = .processing := by simp [claimRow, hc]
  have hid : (mapOutboxEvent (claimRow ids t leaseMs r)).id = (claimRow ids t leaseMs r).id := rfl
  unfold settleRow
  split_ifs with hm
  · simp [deadLetterRow, hid, hst, hm]
  · simp [rescheduleRow, hid, hst, hm]

/-- A call dead-letters a row exactly at a last attempt with an unpublishable event. -/
theorem callRow_dead_lettered (unpublishable : Uuid → Bool) (error : JsError)
    {rows : List OutboxRow} (hn : (rows.map OutboxRow.id).Nodup) {call : RelayCall}
    {ids : List Uuid}
    (hev : (call.claim rows).2 =
      claimedEvents rows ids call.clock.claimAt call.settings.leaseMs)
    {r : OutboxRow} (hr : r ∈ rows) (hd : r.status ≠ .dead_lettered) :
    (callRow unpublishable error call ids (call.claim rows).2 r).status = .dead_lettered ↔
      LastAttempt unpublishable call rows r.id := by
  have hnev := nodup_claimedEvents hn ids call.clock.claimAt call.settings.leaseMs
  simp only [LastAttempt, hev, callRow]
  by_cases hu : ∃ e ∈ claimedEvents rows ids call.clock.claimAt call.settings.leaseMs,
      unpublishable e.id = true
  · rw [if_pos hu, and_iff_left hu]
    by_cases hc : claimable ids r = true
    · have hmem : mapOutboxEvent (claimRow ids call.clock.claimAt call.settings.leaseMs r) ∈
          claimedEvents rows ids call.clock.claimAt call.settings.leaseMs :=
        mem_claimedEvents.mpr ⟨r, hr, hc, rfl⟩
      have hid := (claimRow_rowUpdate ids call.clock.claimAt call.settings.leaseMs r).id
      rw [settleAll_of_mem hnev hmem rfl, settleRow_claimed hc]
      constructor
      · exact fun hm => ⟨_, hmem, hid, hm⟩
      · rintro ⟨e, he, heid, hm⟩
        obtain rfl := eq_of_key hnev he hmem (heid.trans hid.symm)
        exact hm
    · -- a row that is not in the batch is written by nothing
      have hnot : ∀ e ∈ claimedEvents rows ids call.clock.claimAt call.settings.leaseMs,
          e.id ≠ r.id := fun e he hid => hc ((claimable_iff hn hr).mpr ⟨e, he, hid⟩)
      have hsame : claimRow ids call.clock.claimAt call.settings.leaseMs r = r := by
        simp [claimRow, hc]
      rw [hsame, settleAll_of_ne hnot]
      refine iff_of_false hd ?_
      rintro ⟨e, he, hid, -⟩
      exact hnot e he hid
  · rw [if_neg hu]
    -- the batch is published
    refine iff_of_false ?_ fun h => hu h.2
    unfold markPublishedRow claimRow
    split_ifs <;> simp_all

/-- Calls keep a finished row. -/
theorem finished_mem_runOutboxRelay {calls : List RelayCall} {rows : List OutboxRow}
    {r : OutboxRow} (hr : r ∈ rows) (hf : r.unfinished = false) :
    r ∈ runOutboxRelay (rejecting unpublishable error) calls rows := by
  induction calls generalizing rows with
  | nil => exact hr
  | cons call calls ih =>
    obtain ⟨ids, -, heq⟩ := runOutboxRelayOnce_rows unpublishable error call rows
    rw [runOutboxRelay_cons, heq]
    refine ih ?_
    exact List.mem_map.mpr ⟨r, hr, (callRow_rowUpdate call ids _ r).finished hf⟩

/-- **Dead letters of a batch.** For every sequence of calls, at any times and with any settings,
and a producer that rejects exactly the sends with an unpublishable event: an event is
dead-lettered exactly when one of the calls claims it for an attempt that reaches `maxAttempts`, in
a batch with an unpublishable event. -/
theorem dead_lettered_iff {rows : List OutboxRow} (hn : (rows.map OutboxRow.id).Nodup)
    (unpublishable : Uuid → Bool) (error : JsError) (calls : List RelayCall) {r : OutboxRow}
    (hr : r ∈ rows) (hd : r.status ≠ .dead_lettered) :
    (∃ r' ∈ runOutboxRelay (rejecting unpublishable error) calls rows,
      r'.id = r.id ∧ r'.status = .dead_lettered) ↔
    ∃ before call after, calls = before ++ call :: after ∧
      LastAttempt unpublishable call
        (runOutboxRelay (rejecting unpublishable error) before rows) r.id := by
  induction calls generalizing rows r with
  | nil =>
    refine iff_of_false ?_ (by simp)
    rintro ⟨r', hr', hid, hst⟩
    obtain rfl := eq_of_key hn hr' hr hid
    exact hd hst
  | cons call calls ih =>
    obtain ⟨ids, hev, heq⟩ := runOutboxRelayOnce_rows unpublishable error call rows
    have hu : RowUpdate r (callRow unpublishable error call ids (call.claim rows).2 r) :=
      callRow_rowUpdate call ids _ r
    have hn' : (((runOutboxRelayOnce (rejecting unpublishable error) call.settings call.clock
        rows).rows).map OutboxRow.id).Nodup := by
      rw [heq, map_key_map fun r => (callRow_rowUpdate call ids _ r).id]
      exact hn
    have hr' : callRow unpublishable error call ids (call.claim rows).2 r ∈
        (runOutboxRelayOnce (rejecting unpublishable error) call.settings call.clock rows).rows :=
      heq ▸ List.mem_map_of_mem hr
    have hlast := callRow_dead_lettered unpublishable error hn hev hr hd
    rw [runOutboxRelay_cons]
    by_cases hdead : (callRow unpublishable error call ids (call.claim rows).2 r).status =
        .dead_lettered
    · -- this call dead-letters the row, and later calls leave it so
      refine iff_of_true ⟨_, finished_mem_runOutboxRelay hr' ?_, hu.id, hdead⟩
        ⟨[], call, calls, rfl, hlast.mp hdead⟩
      simp [OutboxRow.unfinished, hdead]
    · -- this call is no last attempt: a later one is
      rw [← hu.id, ih hn' hr' hdead, hu.id]
      constructor
      · rintro ⟨before, call', after, rfl, hla⟩
        exact ⟨call :: before, call', after, rfl, hla⟩
      · rintro ⟨_ | ⟨call', before⟩, call'', after, hsplit, hla⟩
        · obtain ⟨rfl, rfl⟩ := List.cons.inj hsplit
          exact absurd (hlast.mpr hla) hdead
        · obtain ⟨rfl, rfl⟩ := List.cons.inj hsplit
          exact ⟨before, call'', after, rfl, hla⟩

/-- Two messages of a conversation. -/
def sampleRows : List OutboxRow :=
  (insertOutboxEvent (sampleInsert 1 7) 1 0).toList ++
    (insertOutboxEvent (sampleInsert 2 7) 2 0).toList

/-- Eight calls, an hour apart. -/
def hourlyCalls : List RelayCall :=
  (List.range 8).map fun n =>
    { settings := DEFAULT_OPTIONS
      clock := { claimAt := n * 3600000000, markAt := n * 3600000000, dateNow := n * 3600000 } }

theorem dead_lettered_iff_sample : ∃ r ∈ sampleRows, r.status ≠ .dead_lettered ∧
    ((∃ r' ∈ runOutboxRelay (rejecting (· == Uuid.ofNat 1) .other) hourlyCalls sampleRows,
        r'.id = r.id ∧ r'.status = .dead_lettered) ↔
      ∃ before call after, hourlyCalls = before ++ call :: after ∧
        LastAttempt (· == Uuid.ofNat 1) call
          (runOutboxRelay (rejecting (· == Uuid.ofNat 1) .other) before sampleRows) r.id) := by
  obtain ⟨r, hr, hd⟩ : ∃ r ∈ sampleRows, r.status ≠ .dead_lettered := by decide +kernel
  exact ⟨r, hr, hd, dead_lettered_iff (by decide +kernel) _ _ _ hr hd⟩

/-- **A healthy event is dead-lettered** with its unpublishable neighbour, under the default
options. -/
theorem healthy_dead_lettered : ∃ r ∈ sampleRows, r.status = .pending ∧
    (r.id == Uuid.ofNat 1) = false ∧
    ∃ r' ∈ runOutboxRelay (rejecting (· == Uuid.ofNat 1) .other) hourlyCalls sampleRows,
      r'.id = r.id ∧ r'.status = .dead_lettered := by
  decide +kernel

end MernChat
