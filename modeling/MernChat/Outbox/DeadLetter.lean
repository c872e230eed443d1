import MernChat.Outbox.Delivery

/-!
# Dead letters

The handler dead-letters an event by its attempt count alone. It is reached by a failed send, by
a send that fails after those of other topics have completed, and by a mark that fails after
every send has, and cannot tell them apart: an event that Kafka has acknowledged is dead-lettered
when its last attempt ends there.

## Main definitions

* `RelayState.Acknowledged`: Kafka has acknowledged the event of a row
* `SparesAcknowledged`: the steps that bring no acknowledged event to the handler at its last
  attempt
* `RelayState.Spared`

## Main results

* `acknowledged_not_dead_lettered`: runs of such steps dead-letter no acknowledged event
* `acknowledged_dead_lettered`: a failed mark does
-/

namespace MernChat

open Library Library.TransitionSystem

variable {settings : Nat → OutboxRelaySettings} {s s' : RelayState} {a : RelayAction}

/-- Kafka has acknowledged the event with this id. -/
def RelayState.Acknowledged (s : RelayState) (id : Uuid) : Prop := ∃ e ∈ s.acknowledged, e.id = id

/-- The events the handler has still to write. -/
def WorkerPhase.toSettle : WorkerPhase → List OutboxEvent
  | .failing _ _ _ events => events
  | _ => []

theorem held_of_mem_toSettle {p : WorkerPhase} {e : OutboxEvent} (h : e ∈ p.toSettle) :
    e ∈ p.held := by
  cases p with
  | failing => exact h
  | _ => cases h

/-- No event at its last attempt reaches the handler acknowledged, unless its row is finished or
the mark that fails was written; and no send completes for an event that is dead-lettered, or
that another worker's handler is about to dead-letter. -/
def SparesAcknowledged (settings : Nat → OutboxRelaySettings) (s : RelayState) :
    RelayAction → Prop
  | .send w (.rejected _) | .send w (.unacknowledged _) => ∀ e ∈ (s.workers w).held,
      (settings w).maxAttempts ≤ e.attemptCount → ∀ r ∈ s.rows, r.id = e.id →
      r.unfinished = true → ¬s.Acknowledged r.id
  | .markError w written _ => ∀ e ∈ (s.workers w).held,
      (settings w).maxAttempts ≤ e.attemptCount → ∀ r ∈ s.rows, r.id = e.id →
      r.unfinished = true → written = true ∧ r.status = .processing
  | .send w .acknowledged => ∀ e ∈ sentBy s (.send w .acknowledged), ∀ r ∈ s.rows, r.id = e.id →
      r.status ≠ .dead_lettered ∧ ∀ w', ∀ e' ∈ (s.workers w').toSettle, e'.id = e.id →
        (settings w').maxAttempts ≤ e'.attemptCount → r.unfinished = false
  | _ => True

/-- No acknowledged event is dead-lettered, or about to be. -/
structure RelayState.Spared (settings : Nat → OutboxRelaySettings) (s : RelayState) : Prop where
  settling : ∀ w, ∀ e ∈ (s.workers w).toSettle, (settings w).maxAttempts ≤ e.attemptCount →
    ∀ r ∈ s.rows, r.id = e.id → r.unfinished = true → ¬s.Acknowledged r.id
  dead_lettered : ∀ r ∈ s.rows, r.status = .dead_lettered → ¬s.Acknowledged r.id

/-- An event is acknowledged already, or in a send that completes. -/
theorem RelayStep.acknowledged_cases (h : RelayStep settings s a s') {id : Uuid}
    (hack : s'.Acknowledged id) : s.Acknowledged id ∨
      ∃ w, a = .send w .acknowledged ∧ ∃ e ∈ sentBy s a, e.id = id := by
  obtain ⟨e, he, hid⟩ := hack
  rcases h.acknowledged_eq with heq | ⟨w, ha, heq⟩
  · exact Or.inl ⟨e, heq ▸ he, hid⟩
  · rw [heq, List.mem_append] at he
    rcases he with he | he
    · exact Or.inl ⟨e, he, hid⟩
    · exact Or.inr ⟨w, ha, e, he, hid⟩

/-- The row of an open transaction is not acknowledged. -/
theorem RelayState.WellFormed.open_not_acknowledged (hw : s.WellFormed) {tx : Nat}
    {r : OutboxRow} (hp : s.senders tx = .inserted r) : ¬s.Acknowledged r.id := by
  rintro ⟨e, he, hid⟩
  obtain ⟨r', hr', hof⟩ := hw.accepted_row e (hw.acknowledged_accepted e he)
  exact (hw.open_hidden tx r hp r' hr').1 (hof.id.symm.trans hid)

/-- A written mark finishes the rows of its batch that are `processing`. -/
theorem finished_of_mark {w : Nat} {lease : Int} {events : List OutboxEvent} {error : JsError}
    (hp : s.workers w = .marking lease events) {e : OutboxEvent} (he : e ∈ events)
    {r : OutboxRow} (hid : r.id = e.id) (hst : r.status = .processing) :
    (rowEffect settings s (.markError w true error) r).unfinished = false := by
  have hmem : (events.map OutboxEvent.id).contains r.id = true :=
    List.contains_iff_mem.mpr (hid ▸ List.mem_map_of_mem he)
  simp [rowEffect, hp, markPublishedRow, hst, OutboxRow.unfinished,
    List.contains_iff_mem.mp hmem]

namespace RelayState.Spared

theorem step_dead_lettered (hw : s.WellFormed) (hs : s.Spared settings)
    (hg : SparesAcknowledged settings s a) (h : RelayStep settings s a s') :
    ∀ r ∈ s'.rows, r.status = .dead_lettered → ¬s'.Acknowledged r.id := by
  intro r' hr' hdead hack
  rcases h.row_cases hr' with ⟨r, hr, hu, hc⟩ | ⟨tx, -, hp⟩
  · cases hc with
    | same =>
      rcases h.acknowledged_cases hack with hack | ⟨w, rfl, e, he, hid⟩
      · exact hs.dead_lettered r' hr hdead hack
      · -- the guard excludes a send of a dead-lettered event
        exact (hg e he r' hr hid.symm).1 hdead
    | @deadLettered w _ _ _ _ e _ ha hp hid hst hm =>
      rcases h.acknowledged_cases hack with hack | ⟨w', hsend, -⟩
      · refine hs.settling w e ?_ hm r hr hid.symm (by simp [OutboxRow.unfinished, hst]) hack
        rw [hp]
        exact List.mem_cons_self
      · rw [ha] at hsend
        cases hsend
    | claimed | published | rescheduled => cases hdead
  · rw [(hw.open_fresh tx r' hp).1] at hdead
    cases hdead

theorem step_settling (hw : s.WellFormed) (hs : s.Spared settings)
    (hg : SparesAcknowledged settings s a) (h : RelayStep settings s a s') :
    ∀ w, ∀ e ∈ (s'.workers w).toSettle, (settings w).maxAttempts ≤ e.attemptCount →
      ∀ r ∈ s'.rows, r.id = e.id → r.unfinished = true → ¬s'.Acknowledged r.id := by
  intro w e he hm r' hr' hid hunf hack
  rcases h.mem_rows.mp hr' with ⟨r, hr, rfl⟩ | hc
  · have hu : RowUpdate r (rowEffect settings s a r) := rowEffect_rowUpdate r
    have hru := hu.unfinished_of hunf
    rw [hu.id] at hid hack
    cases h.worker w with
    | same _ hp =>
      rw [hp] at he
      rcases h.acknowledged_cases hack with hack | ⟨w', rfl, e', he', hid'⟩
      · exact hs.settling w e he hm r hr hid hru hack
      · -- no send completes while a handler is about to dead-letter its event
        have hfin := (hg e' he' r hr hid'.symm).2 w e he (hid.symm.trans hid'.symm) hm
        simp [hru] at hfin
    | sendFailed ha hp hp' =>
      rw [hp'] at he
      have hheld : e ∈ (s.workers w).held := by rw [hp]; exact he
      rcases h.acknowledged_cases hack with hack | ⟨w', hsend, -⟩
      · rcases ha with rfl | rfl <;> exact hg e hheld hm r hr hid hru hack
      · rcases ha with rfl | rfl <;> cases hsend
    | markFailed ha hp hp' =>
      subst ha
      rw [hp'] at he
      -- the mark was written, so that the row is finished
      obtain ⟨rfl, hst⟩ := hg e (by rw [hp]; exact he) hm r hr hid hru
      simp [finished_of_mark hp he hid hst] at hunf
    | settled ha hp hp' =>
      rw [hp'] at he
      rcases h.acknowledged_cases hack with hack | ⟨w', hsend, -⟩
      · refine hs.settling w e ?_ hm r hr hid hru hack
        rw [hp]
        exact List.mem_cons_of_mem _ he
      · rw [ha] at hsend
        cases hsend
    | idle hp' | begun _ hp' | frontier _ _ _ hp' | candidates _ _ _ _ hp' | claimed _ _ _ hp'
    | sent _ _ hp' | allSent _ _ hp' =>
      rw [hp'] at he
      cases he
  · obtain ⟨tx, rfl, hp⟩ := mem_committedBy.mp hc
    rcases h.acknowledged_cases hack with hack | ⟨w', hsend, -⟩
    · exact hw.open_not_acknowledged hp hack
    · cases hsend

theorem step (hw : s.WellFormed) (hs : s.Spared settings) (hg : SparesAcknowledged settings s a)
    (h : RelayStep settings s a s') : s'.Spared settings :=
  ⟨hs.step_settling hw hg h, hs.step_dead_lettered hw hg h⟩

theorem empty (now : Int) : (RelayState.empty now).Spared settings := by
  constructor
  · intro w e he
    cases he
  · intro r hr
    cases hr

end RelayState.Spared

/-- **No acknowledged event is dead-lettered** in any run in which no event reaches the handler
acknowledged at its last attempt. -/
theorem acknowledged_not_dead_lettered
    (h : (relaySystem settings).Reachable (SparesAcknowledged settings) s) :
    ∀ r ∈ s.rows, (∃ e ∈ s.acknowledged, e.id = r.id) → r.status ≠ .dead_lettered := by
  have hs : s.Spared settings := by
    refine h.invariant_of (fun s hs => wellFormed_of_reachable hs) ?_
      fun s a t hw _ hs hg hst => hs.step hw hg (relayStep_cases hst)
    rintro s ⟨now, rfl⟩
    exact .empty now
  exact fun r hr hack hdead => hs.dead_lettered r hr hdead hack

/-- No failure at a last attempt follows an acknowledgement, and no send completes for a row at its
last attempt. -/
def sparesAcknowledged (maxAttempts : Int) (s : RelayState) : RelayAction → Bool
  | .send w (.rejected _) | .send w (.unacknowledged _) => (s.workers w).held.all fun e =>
      decide (maxAttempts ≤ e.attemptCount → ∀ e' ∈ s.acknowledged, e'.id ≠ e.id)
  | .markError w _ _ => (s.workers w).held.all fun e => decide (e.attemptCount < maxAttempts)
  | .send w .acknowledged => (sentBy s (.send w .acknowledged)).all fun e =>
      s.rows.all fun r => decide (r.id = e.id →
        r.status ≠ .dead_lettered ∧ (r.attemptCount : Int) < maxAttempts)
  | _ => true

theorem sparesAcknowledged_sound {maxAttempts : Int}
    (hm : ∀ w, (settings w).maxAttempts = maxAttempts) (hw : s.WellFormed)
    (h : sparesAcknowledged maxAttempts s a = true) : SparesAcknowledged settings s a := by
  have hfail : ∀ w, ((s.workers w).held.all fun e => decide (maxAttempts ≤ e.attemptCount →
      ∀ e' ∈ s.acknowledged, e'.id ≠ e.id)) = true →
      ∀ e ∈ (s.workers w).held, (settings w).maxAttempts ≤ e.attemptCount → ∀ r ∈ s.rows,
        r.id = e.id → r.unfinished = true → ¬s.Acknowledged r.id := by
    rintro w hall e he hmax r - hid - ⟨e', he', hid'⟩
    simp only [List.all_eq_true, decide_eq_true_eq] at hall
    exact hall e he (hm w ▸ hmax) e' he' (hid'.trans hid)
  cases a with
  | send w outcome =>
    cases outcome with
    | rejected | unacknowledged => exact hfail w h
    | acknowledged =>
      simp only [sparesAcknowledged, List.all_eq_true, decide_eq_true_eq] at h
      intro e he r hr hid
      obtain ⟨hlive, hlt⟩ := h e he r hr hid
      refine ⟨hlive, fun w' e' he' hid' hmax => ?_⟩
      -- no handler can hold the event at its last attempt
      obtain ⟨r', hr', hof, -, hle⟩ := hw.held_row w' e' (held_of_mem_toSettle he')
      obtain rfl := hw.eq_of_id hr' hr (hof.id.symm.trans (hid'.trans hid.symm))
      rw [hm w'] at hmax
      omega
  | markError w written error =>
    simp only [sparesAcknowledged, List.all_eq_true, decide_eq_true_eq] at h
    intro e he hmax
    exact absurd (h e he) (not_lt.mpr (hm w ▸ hmax))
  | _ => trivial

/-- One event is published, and another one is dead-lettered after eight failed attempts. -/
theorem acknowledged_not_dead_lettered_sample :
    ∃ t, (relaySystem fun _ => DEFAULT_OPTIONS).runIf (sparesAcknowledged 8) (.empty 0)
        (sendRun 1 7 ++ claimRun 0 ++ [.send 0 .acknowledged, .mark 0] ++ sendRun 2 8 ++
          crashRun 7 ++ claimRun 0 ++ [.send 0 (.rejected .other), .settle 0 0]) = some t ∧
      t.rows.map OutboxRow.status = [.published, .dead_lettered] ∧
      ∀ r ∈ t.rows, (∃ e ∈ t.acknowledged, e.id = r.id) → r.status ≠ .dead_lettered := by
  obtain ⟨t, ht, hst⟩ := exists_of_any
    (o := (relaySystem fun _ => DEFAULT_OPTIONS).runIf (sparesAcknowledged 8) (.empty 0)
      (sendRun 1 7 ++ claimRun 0 ++ [.send 0 .acknowledged, .mark 0] ++ sendRun 2 8 ++
        crashRun 7 ++ claimRun 0 ++ [.send 0 (.rejected .other), .settle 0 0]))
    (fun t => t.rows.map OutboxRow.status = [.published, .dead_lettered]) (by decide +kernel)
  have hr : (relaySystem fun _ => DEFAULT_OPTIONS).Reachable
      (SparesAcknowledged fun _ => DEFAULT_OPTIONS) t :=
    .of_runIf (fun s a hs => sparesAcknowledged_sound (fun _ => rfl) (wellFormed_of_reachable hs))
      (.init ⟨0, rfl⟩) ht
  exact ⟨t, ht, hst, acknowledged_not_dead_lettered hr⟩

/-- **A failed mark dead-letters an acknowledged event**: seven workers die, the eighth claim is
sent and acknowledged, and its mark throws. -/
theorem acknowledged_dead_lettered :
    ∃ t, (relaySystem fun _ => DEFAULT_OPTIONS).Reachable Guard.all t ∧
      ∃ r ∈ t.rows, (∃ e ∈ t.acknowledged, e.id = r.id) ∧ r.status = .dead_lettered := by
  obtain ⟨t, ht, hP⟩ := exists_of_any
    (o := (relaySystem fun _ => DEFAULT_OPTIONS).runFrom (.empty 0)
      (sendRun 1 7 ++ crashRun 7 ++ claimRun 0 ++
        [.send 0 .acknowledged, .markError 0 false .other, .settle 0 0]))
    (fun t => ∃ r ∈ t.rows, (∃ e ∈ t.acknowledged, e.id = r.id) ∧ r.status = .dead_lettered)
    (by decide +kernel)
  exact ⟨t, .of_runFrom (.init ⟨0, rfl⟩) ht, hP⟩

end MernChat
