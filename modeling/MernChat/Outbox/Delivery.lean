import MernChat.Outbox.Invariants

/-!
# No event is lost

A worker marks a batch only after each of its sends has completed, so a published row was
acknowledged by Kafka. Finished rows stay as they are, and every other row becomes eligible for
a claim again: a pending one at its date, a processing one at the end of its lease.

## Main definitions

* `RelayState.Delivered`: what workers and rows know about the acknowledgements of Kafka
* `RelayState.NothingLost`: the guarantees of the relay in one state and over its next step

## Main results

* `delivered_of_reachable`
* `relay_loses_nothing`: the guarantees hold in every reachable state
-/

namespace MernChat

open Library Library.TransitionSystem

variable {settings : Nat → OutboxRelaySettings} {s s' : RelayState} {a : RelayAction}

/-! ## Acknowledged events -/

/-- Workers send topic after topic and mark at the end; published rows were acknowledged, and
processing rows are leased. -/
structure RelayState.Delivered (s : RelayState) : Prop where
  publishing : ∀ w lease events topics, s.workers w = .publishing lease events topics →
    ∀ e ∈ events, e.topic ∈ topics ∨ e ∈ s.acknowledged
  marking : ∀ w lease events, s.workers w = .marking lease events →
    ∀ e ∈ events, e ∈ s.acknowledged
  published : ∀ r ∈ s.rows, r.status = .published → ∃ e ∈ s.acknowledged, e.Of r
  leased : ∀ r ∈ s.rows, r.status = .processing → ∃ t, r.lockedUntil = some t

/-- Kafka takes no acknowledgement back. -/
theorem RelayStep.acknowledged_mono (h : RelayStep settings s a s') {e : OutboxEvent}
    (he : e ∈ s.acknowledged) : e ∈ s'.acknowledged := by
  rcases h.acknowledged_eq with heq | ⟨w, -, heq⟩
  · exact heq ▸ he
  · exact heq ▸ List.mem_append_left _ he

/-- A completed send acknowledges the events of its topic. -/
theorem RelayStep.acknowledged_of_send {w : Nat}
    (h : RelayStep settings s (.send w .acknowledged) s') {lease : Int}
    {events : List OutboxEvent} {topic : JsString} {topics : List JsString}
    (hp : s.workers w = .publishing lease events (topic :: topics)) {e : OutboxEvent}
    (he : e ∈ events) (ht : e.topic = topic) : e ∈ s'.acknowledged := by
  cases h with
  | acknowledged hq =>
    rw [hp] at hq
    injection hq with _ hev htop
    injection htop with htop _
    subst hev htop
    exact List.mem_append_right _ (mem_topicBatch.mpr ⟨he, ht⟩)

namespace RelayState.Delivered

theorem step (hw : s.WellFormed) (hs : s.Delivered) (h : RelayStep settings s a s') :
    s'.Delivered where
  publishing w lease events topics hq e he := by
    cases h.worker w with
    | same _ hp =>
      exact (hs.publishing w lease events topics (hp ▸ hq) e he).imp_right h.acknowledged_mono
    | claimed _ _ _ hp' =>
      injection hp'.symm.trans hq with _ hev htop
      subst hev htop
      exact Or.inl (mem_topicsOf he)
    | sent ha hp hp' =>
      injection hp'.symm.trans hq with hl hev htop
      subst ha hl hev htop
      -- the events of the topic just sent are acknowledged, the others wait for theirs
      rcases hs.publishing w _ _ _ hp e he with ht | hack
      · rcases List.mem_cons.mp ht with ht | ht
        · exact Or.inr (h.acknowledged_of_send hp he ht)
        · exact Or.inl ht
      · exact Or.inr (h.acknowledged_mono hack)
    | idle hp' | begun _ hp' | frontier _ _ _ hp' | candidates _ _ _ _ hp' | allSent _ _ hp'
    | sendFailed _ _ hp' | markFailed _ _ hp' | settled _ _ hp' => cases hp'.symm.trans hq
  marking w lease events hq e he := by
    cases h.worker w with
    | same _ hp => exact h.acknowledged_mono (hs.marking w lease events (hp ▸ hq) e he)
    | allSent ha hp hp' =>
      injection hp'.symm.trans hq with hl hev
      subst ha hl hev
      rcases hs.publishing w _ _ _ hp e he with ht | hack
      · exact h.acknowledged_of_send hp he (List.mem_singleton.mp ht)
      · exact h.acknowledged_mono hack
    | idle hp' | begun _ hp' | frontier _ _ _ hp' | candidates _ _ _ _ hp' | claimed _ _ _ hp'
    | sent _ _ hp' | sendFailed _ _ hp' | markFailed _ _ hp' | settled _ _ hp' =>
      cases hp'.symm.trans hq
  published r' hr' hpub := by
    rcases h.row_cases hr' with ⟨r, hr, hu, hc⟩ | ⟨tx, -, hp⟩
    · cases hc with
      | same =>
        obtain ⟨e, he, hof⟩ := hs.published r' hr hpub
        exact ⟨e, h.acknowledged_mono he, hof⟩
      | @published w lease events ha hp e he hid hst =>
        -- the worker that marks has every event of its batch acknowledged
        obtain ⟨r₀, hr₀, hof, -⟩ := hw.held_row w e (by rw [hp]; exact he)
        obtain rfl := hw.eq_of_id hr₀ hr (hof.id.symm.trans hid)
        exact ⟨e, h.acknowledged_mono (hs.marking w lease events hp e he), hu.of hof⟩
      | claimed | deadLettered | rescheduled => cases hpub
    · rw [(hw.open_fresh tx r' hp).1] at hpub
      cases hpub
  leased r' hr' hproc := by
    rcases h.row_cases hr' with ⟨r, hr, hu, hc⟩ | ⟨tx, -, hp⟩
    · cases hc with
      | same => exact hs.leased r' hr hproc
      | claimed => exact ⟨_, rfl⟩
      | published | deadLettered | rescheduled => cases hproc
    · rw [(hw.open_fresh tx r' hp).1] at hproc
      cases hproc

theorem empty (now : Int) : (RelayState.empty now).Delivered := by
  constructor <;> simp [RelayState.empty]

end RelayState.Delivered

theorem delivered_of_reachable {G : Guard RelayState RelayAction}
    (h : (relaySystem settings).Reachable G s) : s.Delivered := by
  refine h.invariant_of (fun s hs => wellFormed_of_reachable hs) ?_
    fun s a t hw _ hs _ hst => hs.step hw (relayStep_cases hst)
  rintro s ⟨now, rfl⟩
  exact .empty now

/-! ## The guarantees of the relay -/

/-- What the relay promises about the outbox: a published row was sent as it is stored, finished
rows stay, a row is dead-lettered only after a last attempt, and every other row will be eligible
again. -/
structure RelayState.NothingLost (settings : Nat → OutboxRelaySettings) (s : RelayState) :
    Prop where
  published : ∀ r ∈ s.rows, r.status = .published →
    ∃ e ∈ s.acknowledged, e.id = r.id ∧ kafkaRecord e = kafkaRecord (mapOutboxEvent r)
  kept : ∀ a s', relayStep settings s a = some s' → ∀ r ∈ s.rows, ∃ r' ∈ s'.rows, r'.id = r.id ∧
    (r.status = .published ∨ r.status = .dead_lettered → r' = r)
  dead_lettered : ∀ a s', relayStep settings s a = some s' →
    ∀ r' ∈ s'.rows, r'.status = .dead_lettered → r' ∈ s.rows ∨
      ∃ w dateNow, a = .settle w dateNow ∧ ∃ e ∈ (s.workers w).held, e.id = r'.id ∧
        (settings w).maxAttempts ≤ e.attemptCount ∧ e.attemptCount ≤ r'.attemptCount
  unfinished : ∀ r ∈ s.rows, r.status ≠ .published → r.status ≠ .dead_lettered →
    (r.status = .pending ∨ r.status = .processing ∧ ∃ t, r.lockedUntil = some t) ∧
      ∃ T, ∀ now, T ≤ now → r.eligible now = true

/-- A pending row is eligible from its date on, a processing one from the end of its lease. -/
theorem eventually_eligible {r : OutboxRow}
    (h : r.status = .pending ∨ r.status = .processing ∧ ∃ t, r.lockedUntil = some t) :
    ∃ T, ∀ now, T ≤ now → r.eligible now = true := by
  rcases h with hp | ⟨hp, t, ht⟩
  · exact ⟨r.availableAt, fun now hn => OutboxRow.eligible_iff.mpr (Or.inl ⟨hp, hn⟩)⟩
  · exact ⟨t, fun now hn => OutboxRow.eligible_iff.mpr (Or.inr ⟨hp, t, ht, hn⟩)⟩

/-- A step dead-letters a row only for an event at its last attempt. -/
theorem RelayStep.dead_lettered (hw : s.WellFormed) (h : RelayStep settings s a s')
    {r' : OutboxRow} (hr' : r' ∈ s'.rows) (hd : r'.status = .dead_lettered) : r' ∈ s.rows ∨
      ∃ w dateNow, a = .settle w dateNow ∧ ∃ e ∈ (s.workers w).held, e.id = r'.id ∧
        (settings w).maxAttempts ≤ e.attemptCount ∧ e.attemptCount ≤ r'.attemptCount := by
  rcases h.row_cases hr' with ⟨r, hr, -, hc⟩ | ⟨tx, -, hp⟩
  · cases hc with
    | same => exact Or.inl hr
    | @deadLettered w dateNow lease message marked e events ha hp hid _ hm =>
      have he : e ∈ (s.workers w).held := by
        rw [hp]
        exact List.mem_cons_self
      obtain ⟨r₀, hr₀, hof, -, hle⟩ := hw.held_row w e he
      obtain rfl := hw.eq_of_id hr₀ hr (hof.id.symm.trans hid)
      exact Or.inr ⟨w, dateNow, ha, e, he, hid, hm, hle⟩
    | claimed | published | rescheduled => cases hd
  · rw [(hw.open_fresh tx r' hp).1] at hd
    cases hd

/-- **No event is lost**: the guarantees hold in every state the relay can reach, whatever the
senders and the workers do. -/
theorem relay_loses_nothing (h : (relaySystem settings).Reachable Guard.all s) :
    s.NothingLost settings := by
  have hw := wellFormed_of_reachable h
  have hd := delivered_of_reachable h
  refine ⟨fun r hr hp => ?_, fun a s' hst r hr => ?_, fun a s' hst r' hr' hl => ?_,
    fun r hr hnp hnd => ?_⟩
  · obtain ⟨e, he, hof⟩ := hd.published r hr hp
    exact ⟨e, he, hof.id, hof.kafkaRecord_eq⟩
  · have hu : RowUpdate r (rowEffect settings s a r) := rowEffect_rowUpdate r
    refine ⟨_, (relayStep_cases hst).row_kept hr, hu.id, fun hf => hu.finished ?_⟩
    rcases hf with hf | hf <;> simp [OutboxRow.unfinished, hf]
  · exact (relayStep_cases hst).dead_lettered hw hr' hl
  · have hor : r.status = .pending ∨ r.status = .processing ∧ ∃ t, r.lockedUntil = some t := by
      cases hst : r.status with
      | pending => exact Or.inl rfl
      | processing => exact Or.inr ⟨rfl, hd.leased r hr hst⟩
      | published => exact absurd hst hnp
      | dead_lettered => exact absurd hst hnd
    exact ⟨hor, eventually_eligible hor⟩

/-- One event is published, and the send of another one fails. -/
def deliveryRun : List RelayAction :=
  sendRun 1 7 ++ sendRun 2 8 ++ claimRun 0 ++ [.send 0 .acknowledged, .mark 0] ++
    claimRun 0 ++ [.send 0 (.rejected .other), .settle 0 0]

theorem relay_loses_nothing_sample :
    ∃ t, (relaySystem fun _ => DEFAULT_OPTIONS).runFrom (.empty 0) deliveryRun = some t ∧
      t.rows.map OutboxRow.status = [.published, .pending] ∧
      t.NothingLost fun _ => DEFAULT_OPTIONS := by
  obtain ⟨t, ht, hst⟩ := exists_of_any
    (o := (relaySystem fun _ => DEFAULT_OPTIONS).runFrom (.empty 0) deliveryRun)
    (fun t => t.rows.map OutboxRow.status = [.published, .pending]) (by decide +kernel)
  exact ⟨t, ht, hst, relay_loses_nothing (.of_runFrom (.init ⟨0, rfl⟩) ht)⟩

end MernChat
