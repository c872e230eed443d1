import MernChat.Library.Log
import MernChat.Outbox.Lease
import MernChat.Outbox.Prefix

/-!
# Publication order

A claim takes a first part of the unfinished rows of a conversation, so that an event is sent only
when the rows before it are finished or sent with it. That reasoning is about the rows a claim
can see. A row whose transaction commits after a later row of its conversation was taken, a row
that a select passes over because another statement holds it locked, a row before the frontier that
another worker took in the meantime, and an event that a stalled worker still holds when it is
dead-lettered are not seen, and are sent late.

## Main definitions

* `FirstAcceptedInOrder`: events are first accepted in the order of their rows
* `FromSendMessage`, `KeepsOrder`: the steps of message transactions, and those that keep the order
* `RelayState.ClaimOrder`, `RelayState.LogOrder`: what a claim and the log have before an event

## Main results

* `accepted_in_order`: the order holds in runs of such steps
* `accepted_out_of_order`: two transactions that commit in the other order break it
-/

namespace MernChat

open Library Library.TransitionSystem

variable {settings : Nat → OutboxRelaySettings} {s s' : RelayState} {a : RelayAction}

/-- An event is never accepted for the first time after a later event of its conversation. -/
def FirstAcceptedInOrder (accepted : List OutboxEvent) : Prop :=
  FirstOccurrences OutboxEvent.id
    (fun e' e => e'.aggregateId = e.aggregateId → e'.sequenceNumber < e.sequenceNumber) accepted

/-- The rows are inserted by `sendMessage`. -/
def FromSendMessage : RelayAction → Prop
  | .insertOutbox _ input => ∃ eventId occurredAt m, input = messageInsert eventId occurredAt m
  | _ => True

/-- A worker has selected the row as a candidate, or has claimed it and still has to send it. -/
def WorkerPhase.taking : WorkerPhase → OutboxRow → Prop
  | .candidates _ ids, r => r.id ∈ ids
  | .publishing _ events _, r => ∃ e ∈ events, e.id = r.id
  | _, _ => False

/-- A transaction commits before any later row of its conversation is taken or accepted; when a
claim selects its candidates, what is unfinished before its frontier is eligible at its `NOW()`,
and the locks of other statements leave no gap; and an event that was dead-lettered meanwhile is
not sent after a later one. -/
def KeepsOrder (settings : Nat → OutboxRelaySettings) (s : RelayState) : RelayAction → Prop
  | .commitTx tx => ∀ r, s.senders tx = .inserted r → ∀ r' ∈ s.rows,
      r'.aggregateId = r.aggregateId → r.sequenceNumber < r'.sequenceNumber →
      (∀ e ∈ s.accepted, e.id ≠ r'.id) ∧ ∀ w, ¬(s.workers w).taking r'
  | .selectCandidates w inFlight => ∀ t, ∀ f ∈ s.rows,
      s.workers w = .frontier t f.aggregateId f.sequenceNumber →
      (∀ r ∈ s.rows, r.aggregateId = f.aggregateId → r.sequenceNumber < f.sequenceNumber →
        r.unfinished = true → r.eligible t = true) ∧
      LeavesNoGap s.rows t (settings w).batchSize (s.passedOver w inFlight) f
  | .send w outcome => ∀ e ∈ sentBy s (.send w outcome), ∀ r ∈ s.rows, r.id = e.id →
      r.status = .dead_lettered → ∀ e' ∈ s.accepted, e'.aggregateId = e.aggregateId →
      e.sequenceNumber < e'.sequenceNumber → ∃ e₀ ∈ s.accepted, e₀.id = e.id
  | _ => True

/-! ## Claims -/

/-- A frontier stays eligible, and claims take the rows of a conversation from the first unfinished
one on. -/
structure RelayState.ClaimOrder (s : RelayState) : Prop where
  frontier : ∀ w t aggregateId n, s.workers w = .frontier t aggregateId n → ∃ r ∈ s.rows,
    r.aggregateId = aggregateId ∧ r.sequenceNumber = n ∧ (w, r.id) ∈ s.locks ∧
      r.eligible t = true
  candidates : ∀ w t ids, s.workers w = .candidates t ids → ∀ r' ∈ s.rows, r'.id ∈ ids →
    ∀ r ∈ s.rows, r.aggregateId = r'.aggregateId → r.sequenceNumber < r'.sequenceNumber →
    r.unfinished = true → r.id ∈ ids
  publishing : ∀ w lease events topics, s.workers w = .publishing lease events topics →
    ∀ e' ∈ events, ∀ r ∈ s.rows, r.aggregateId = e'.aggregateId →
    r.sequenceNumber < e'.sequenceNumber → r.unfinished = true → ∃ e ∈ events, e.id = r.id

/-- A worker locks its frontier row. -/
theorem RelayStep.frontier_locked {w : Nat} {inFlight : List Uuid} {t : Int} {row : OutboxRow}
    (h : RelayStep settings s (.selectFrontier w inFlight) s') (hp : s.workers w = .begun t)
    (hr : MernChat.selectFrontier s.rows t (s.passedOver w inFlight) = some row)
    (hq : s'.workers w = .frontier t row.aggregateId row.sequenceNumber) :
    (w, row.id) ∈ s'.locks := by
  cases h with
  | noFrontier => cases (Function.update_self ..).symm.trans hq
  | selectFrontier hp₀ hr₀ =>
    obtain rfl := WorkerPhase.begun.inj (hp₀.symm.trans hp)
    obtain rfl := Option.some.inj (hr₀.symm.trans hr)
    exact mem_lock.mpr (Or.inl ⟨rfl, List.mem_singleton_self _⟩)

namespace RelayState.ClaimOrder

/-- The candidates selected have every unfinished row of the conversation before them. -/
theorem selected (hw : s.WellFormed) (hs : s.ClaimOrder) {w : Nat} {t : Int} {aggregateId : Uuid}
    {n : Nat} {inFlight : List Uuid} (hp : s.workers w = .frontier t aggregateId n)
    (hg : KeepsOrder settings s (.selectCandidates w inFlight)) {r r' : OutboxRow}
    (hr' : r' ∈ selectCandidates s.rows t aggregateId n (boundedBatchSize (settings w).batchSize)
      (s.passedOver w inFlight))
    (hr : r ∈ s.rows) (hagg : r.aggregateId = r'.aggregateId)
    (hlt : r.sequenceNumber < r'.sequenceNumber) (hu : r.unfinished = true) :
    r ∈ selectCandidates s.rows t aggregateId n (boundedBatchSize (settings w).batchSize)
      (s.passedOver w inFlight) := by
  obtain ⟨f, hf, rfl, rfl, -, hel⟩ := hs.frontier w t aggregateId n hp
  obtain ⟨hearlier, hgap⟩ := hg t f hf hp
  have hfrontier : ClaimFrontier s.rows t f := ⟨hf, hel, hearlier⟩
  exact (batchOf_gapFree_iff hw.sequence_nodup hfrontier).mpr hgap r' hr' r hr hagg hlt hu

/-! ### Preservation, field by field -/

theorem step_frontier (hl : s.Locked) (hs : s.ClaimOrder) (h : RelayStep settings s a s') :
    ∀ w t aggregateId n, s'.workers w = .frontier t aggregateId n → ∃ r ∈ s'.rows,
      r.aggregateId = aggregateId ∧ r.sequenceNumber = n ∧ (w, r.id) ∈ s'.locks ∧
        r.eligible t = true := by
  intro w t aggregateId n hq
  cases h.worker w with
  | same hwk hp =>
    obtain ⟨r, hr, hagg, hn, hlock, hel⟩ := hs.frontier w t aggregateId n (hp ▸ hq)
    refine ⟨r, ?_, hagg, hn, h.locks_kept hlock hwk, hel⟩
    have hkept := h.row_kept hr
    rwa [hl.unchanged h hr hlock hwk (rowEffect_change r)] at hkept
  | frontier ha hp hr hp' =>
    subst ha
    injection hp'.symm.trans hq with ht hagg hn
    subst ht hagg hn
    obtain ⟨hrow, hf, -⟩ := selectFrontier_eq_some hr
    exact ⟨_, h.row_kept hrow, rfl, rfl, h.frontier_locked hp hr hp', (isFrontier_iff.mp hf).1⟩
  | idle hp' | begun _ hp' | candidates _ _ _ _ hp' | claimed _ _ _ hp' | sent _ _ hp'
  | allSent _ _ hp' | sendFailed _ _ hp' | markFailed _ _ hp' | settled _ _ hp' =>
    cases hp'.symm.trans hq

theorem step_candidates (hw : s.WellFormed) (hl : s.Locked) (hs : s.ClaimOrder)
    (hg : KeepsOrder settings s a) (h : RelayStep settings s a s') :
    ∀ w t ids, s'.workers w = .candidates t ids → ∀ r' ∈ s'.rows, r'.id ∈ ids →
      ∀ r ∈ s'.rows, r.aggregateId = r'.aggregateId → r.sequenceNumber < r'.sequenceNumber →
      r.unfinished = true → r.id ∈ ids := by
  intro w t ids hq r₁' hr₁' hid r₂' hr₂' hagg hlt hunf
  cases h.worker w with
  | same hwk hp =>
    rw [hp] at hq
    rcases h.row_cases hr₁' with ⟨r₁, hr₁, hu₁, -⟩ | ⟨tx, rfl, hp⟩
    · rw [hu₁.id] at hid
      rw [hu₁.aggregateId] at hagg
      rw [hu₁.sequenceNumber] at hlt
      rcases h.row_cases hr₂' with ⟨r₂, hr₂, hu₂, -⟩ | ⟨tx, rfl, hp⟩
      · rw [hu₂.id]
        exact hs.candidates w t ids hq r₁ hr₁ hid r₂ hr₂ (hu₂.aggregateId ▸ hagg)
          (hu₂.sequenceNumber ▸ hlt) (hu₂.unfinished_of hunf)
      · -- no row becomes visible before one that is held
        refine absurd ?_ ((hg r₂' hp r₁ hr₁ hagg.symm hlt).2 w)
        rw [hq]
        exact hid
    · -- the row that becomes visible is not among the candidates
      obtain ⟨-, r, hr, hrid, -⟩ := hl.candidates w t ids hq r₁'.id hid
      exact absurd hrid (hw.open_hidden tx r₁' hp r hr).1
  | candidates ha hp hi hne hp' =>
    subst ha
    injection hp'.symm.trans hq with ht hids
    subst ht hids hi
    have hrows : s'.rows = s.rows := by simpa [rowEffect, committedBy] using h.rows_eq
    rw [hrows] at hr₁' hr₂'
    obtain ⟨r, hr, hrid⟩ := List.mem_map.mp hid
    obtain rfl := hw.eq_of_id (mem_selectCandidates hr).1 hr₁' hrid
    exact List.mem_map_of_mem (hs.selected hw hp hg hr hr₂' hagg hlt hunf)
  | idle hp' | begun _ hp' | frontier _ _ _ hp' | claimed _ _ _ hp' | sent _ _ hp'
  | allSent _ _ hp' | sendFailed _ _ hp' | markFailed _ _ hp' | settled _ _ hp' =>
    cases hp'.symm.trans hq

theorem step_publishing (hw : s.WellFormed) (hs : s.ClaimOrder) (hg : KeepsOrder settings s a)
    (h : RelayStep settings s a s') :
    ∀ w lease events topics, s'.workers w = .publishing lease events topics →
      ∀ e' ∈ events, ∀ r ∈ s'.rows, r.aggregateId = e'.aggregateId →
      r.sequenceNumber < e'.sequenceNumber → r.unfinished = true → ∃ e ∈ events, e.id = r.id := by
  have key : ∀ w lease events topics, s.workers w = .publishing lease events topics →
      ∀ e' ∈ events, ∀ r ∈ s'.rows, r.aggregateId = e'.aggregateId →
      r.sequenceNumber < e'.sequenceNumber → r.unfinished = true →
      ∃ e ∈ events, e.id = r.id := by
    intro w lease events topics hp e' he' r' hr' hagg hlt hunf
    rcases h.row_cases hr' with ⟨r, hr, hu, -⟩ | ⟨tx, rfl, hp'⟩
    · rw [hu.id]
      exact hs.publishing w lease events topics hp e' he' r hr (hu.aggregateId ▸ hagg)
        (hu.sequenceNumber ▸ hlt) (hu.unfinished_of hunf)
    · -- no row becomes visible before one that is held
      obtain ⟨r₀, hr₀, hof, -⟩ := hw.held_row w e' (by rw [hp]; exact he')
      refine absurd ?_ ((hg r' hp' r₀ hr₀ (hof.aggregateId.symm.trans hagg.symm)
        (hof.sequenceNumber ▸ hlt)).2 w)
      rw [hp]
      exact ⟨e', he', hof.id⟩
  intro w lease events topics hq e' he' r' hr' hagg hlt hunf
  cases h.worker w with
  | same _ hp => exact key w lease events topics (hp ▸ hq) e' he' r' hr' hagg hlt hunf
  | sent _ hp hp' =>
    injection hp'.symm.trans hq with _ hev _
    subst hev
    exact key w _ _ _ hp e' he' r' hr' hagg hlt hunf
  | @claimed t ids _ ha hp hev hp' =>
    subst ha
    injection hp'.symm.trans hq with _ hev' _
    subst hev' hev
    -- what came before a candidate is a candidate, and is claimed with it
    obtain ⟨r₁, hr₁, hc₁, rfl⟩ := mem_claimedEvents.mp he'
    have hu₁ := claimRow_rowUpdate ids t (settings w).leaseMs r₁
    rcases h.row_cases hr' with ⟨r, hr, hu, -⟩ | ⟨tx, hc, -⟩
    · have hid₁ : r₁.id ∈ ids := by simpa using (Bool.and_eq_true_iff.mp hc₁).1
      have hagg' : r.aggregateId = r₁.aggregateId :=
        hu.aggregateId.symm.trans (hagg.trans hu₁.aggregateId)
      have hlt' : r.sequenceNumber < r₁.sequenceNumber := by
        have := hu₁.sequenceNumber
        simp only [mapOutboxEvent] at hlt
        rw [hu.sequenceNumber] at hlt
        omega
      have hid := hs.candidates w t ids hp r₁ hr₁ hid₁ r hr hagg' hlt' (hu.unfinished_of hunf)
      refine ⟨mapOutboxEvent (claimRow ids t (settings w).leaseMs r), ?_, ?_⟩
      · refine mem_claimedEvents.mpr ⟨r, hr, ?_, rfl⟩
        simp [claimable, hid, hu.unfinished_of hunf]
      · exact (claimRow_rowUpdate ids t _ r).id.trans hu.id.symm
    · cases hc
  | idle hp' | begun _ hp' | frontier _ _ _ hp' | candidates _ _ _ _ hp' | allSent _ _ hp'
  | sendFailed _ _ hp' | markFailed _ _ hp' | settled _ _ hp' => cases hp'.symm.trans hq

theorem step (hw : s.WellFormed) (hl : s.Locked) (hs : s.ClaimOrder)
    (hg : KeepsOrder settings s a) (h : RelayStep settings s a s') : s'.ClaimOrder where
  frontier := hs.step_frontier hl h
  candidates := hs.step_candidates hw hl hg h
  publishing := hs.step_publishing hw hg h

theorem empty (now : Int) : (RelayState.empty now).ClaimOrder := by
  constructor <;> simp [RelayState.empty]

end RelayState.ClaimOrder

/-! ## Batches -/

/-- Every row is a row of `sendMessage`, so that a batch is one send. -/
structure RelayState.OneTopic (s : RelayState) : Prop where
  rows : ∀ r ∈ s.rows, r.topic = MESSAGE_CREATED_TOPIC
  inserted : ∀ tx r, s.senders tx = .inserted r → r.topic = MESSAGE_CREATED_TOPIC
  publishing : ∀ w lease events topics, s.workers w = .publishing lease events topics →
    ∀ topic ∈ topics, topic = MESSAGE_CREATED_TOPIC

namespace RelayState.OneTopic

theorem step (hs : s.OneTopic) (hg : FromSendMessage a) (h : RelayStep settings s a s') :
    s'.OneTopic where
  rows r' hr' := by
    rcases h.row_cases hr' with ⟨r, hr, hu, -⟩ | ⟨tx, -, hp⟩
    · exact hu.topic.trans (hs.rows r hr)
    · exact hs.inserted tx r' hp
  inserted tx r hr := by
    rcases h.sender_cases hr with ⟨hp, -⟩ | ⟨input, startedAt, rfl, -, hfresh⟩
    · exact hs.inserted tx r hp
    · obtain ⟨eventId, occurredAt, m, rfl⟩ := hg
      have hvar : pgVarchar 249 MESSAGE_CREATED_TOPIC = some MESSAGE_CREATED_TOPIC := by decide
      exact (Option.some.inj (hvar.symm.trans hfresh.topic)).symm
  publishing w lease events topics hq topic ht := by
    cases h.worker w with
    | same _ hp => exact hs.publishing w lease events topics (hp ▸ hq) topic ht
    | sent _ hp hp' =>
      injection hp'.symm.trans hq with _ _ htop
      subst htop
      exact hs.publishing w _ _ _ hp topic (List.mem_cons_of_mem _ ht)
    | @claimed t ids _ _ hp hev hp' =>
      injection hp'.symm.trans hq with _ _ htop
      subst htop hev
      simp only [topicsOf, List.mem_eraseDups, List.mem_map] at ht
      obtain ⟨e, he, rfl⟩ := ht
      obtain ⟨r, hr, -, rfl⟩ := mem_claimedEvents.mp he
      exact (claimRow_rowUpdate ids t _ r).topic.trans (hs.rows r hr)
    | idle hp' | begun _ hp' | frontier _ _ _ hp' | candidates _ _ _ _ hp' | allSent _ _ hp'
    | sendFailed _ _ hp' | markFailed _ _ hp' | settled _ _ hp' => cases hp'.symm.trans hq

theorem empty (now : Int) : (RelayState.empty now).OneTopic := by
  constructor <;> simp [RelayState.empty]

/-- A send has all events of its batch. -/
theorem topicBatch_eq (hw : s.WellFormed) (hs : s.OneTopic) {w : Nat} {lease : Int}
    {events : List OutboxEvent} {topic : JsString} {topics : List JsString}
    (hp : s.workers w = .publishing lease events (topic :: topics)) :
    topicBatch events topic = events := by
  refine List.filter_eq_self.mpr fun e he => ?_
  obtain ⟨r, hr, hof, -⟩ := hw.held_row w e (by rw [hp]; exact he)
  rw [beq_iff_eq, hof.topic, hs.rows r hr,
    hs.publishing w _ _ _ hp topic List.mem_cons_self]

end RelayState.OneTopic

/-- A batch is sorted. -/
def RelayState.Sorted (s : RelayState) : Prop :=
  ∀ w, (s.workers w).held.Pairwise fun e' e => e'.sequenceNumber < e.sequenceNumber

theorem RelayState.Sorted.step (hw : s.WellFormed) (hs : s.Sorted)
    (h : RelayStep settings s a s') : s'.Sorted := by
  intro w
  rcases h.held_eq w with hsub | ⟨t, ids, -, -, heq⟩
  · exact (hs w).sublist hsub
  · rw [heq]
    refine pairwise_lt_sortBy ?_
    rw [map_claimed fun r => (claimRow_rowUpdate ids t _ r).sequenceNumber]
    exact hw.sequence_nodup.sublist (List.filter_sublist.map _)

/-! ## The log -/

/-- What Kafka has accepted before an event: every earlier row of its conversation that is not
dead-lettered. -/
structure RelayState.LogOrder (s : RelayState) : Prop where
  earlier : ∀ e' ∈ s.accepted, ∀ r ∈ s.rows, r.aggregateId = e'.aggregateId →
    r.sequenceNumber < e'.sequenceNumber →
    (∃ e ∈ s.accepted, e.id = r.id) ∨ r.status = .dead_lettered
  first : FirstAcceptedInOrder s.accepted

/-- The invariants a send relies on. -/
structure RelayState.Batched (s : RelayState) : Prop where
  wellFormed : s.WellFormed
  delivered : s.Delivered
  locked : s.Locked
  claimOrder : s.ClaimOrder
  oneTopic : s.OneTopic
  sorted : s.Sorted

theorem sentBy_cases (s : RelayState) (a : RelayAction) :
    sentBy s a = [] ∨ ∃ w outcome lease events topic topics, a = .send w outcome ∧
      s.workers w = .publishing lease events (topic :: topics) ∧
      sentBy s a = topicBatch events topic := by
  unfold sentBy
  split
  · split
    · exact Or.inr ⟨_, _, _, _, _, _, rfl, ‹_›, rfl⟩
    · exact Or.inl rfl
  · split
    · exact Or.inr ⟨_, _, _, _, _, _, rfl, ‹_›, rfl⟩
    · exact Or.inl rfl
  · exact Or.inl rfl

namespace RelayState.LogOrder

/-- The rows before an event that is sent are accepted, dead-lettered, or sent with it. -/
theorem earlier_sent (hb : s.Batched) {w : Nat} {lease : Int} {events : List OutboxEvent}
    {topics : List JsString} (hp : s.workers w = .publishing lease events topics)
    {e' : OutboxEvent} (he' : e' ∈ events) {r : OutboxRow} (hr : r ∈ s.rows)
    (hagg : r.aggregateId = e'.aggregateId) (hlt : r.sequenceNumber < e'.sequenceNumber) :
    (∃ e ∈ s.accepted ++ events, e.id = r.id) ∨ r.status = .dead_lettered := by
  cases hst : r.status with
  | dead_lettered => exact Or.inr rfl
  | published =>
    obtain ⟨e, he, hof⟩ := hb.delivered.published r hr hst
    exact Or.inl ⟨e, List.mem_append_left _ (hb.wellFormed.acknowledged_accepted e he), hof.id⟩
  | pending | processing =>
    have hu : r.unfinished = true := by simp [OutboxRow.unfinished, hst]
    obtain ⟨e, he, hid⟩ := hb.claimOrder.publishing w lease events topics hp e' he' r hr hagg hlt hu
    exact Or.inl ⟨e, List.mem_append_right _ he, hid⟩

theorem step_earlier (hb : s.Batched) (hs : s.LogOrder) (hg : KeepsOrder settings s a)
    (h : RelayStep settings s a s') :
    ∀ e' ∈ s'.accepted, ∀ r ∈ s'.rows, r.aggregateId = e'.aggregateId →
      r.sequenceNumber < e'.sequenceNumber →
      (∃ e ∈ s'.accepted, e.id = r.id) ∨ r.status = .dead_lettered := by
  intro e' he' r' hr' hagg hlt
  rw [h.accepted_eq] at he' ⊢
  rcases h.row_cases hr' with ⟨r, hr, hu, -⟩ | ⟨tx, rfl, hp⟩
  · have hold : (∃ e ∈ s.accepted ++ sentBy s a, e.id = r.id) ∨ r.status = .dead_lettered := by
      have hagg' := hu.aggregateId.symm.trans hagg
      have hlt' := hu.sequenceNumber ▸ hlt
      rcases List.mem_append.mp he' with he' | he'
      · refine (hs.earlier e' he' r hr hagg' hlt').imp_left ?_
        rintro ⟨e, he, hid⟩
        exact ⟨e, List.mem_append_left _ he, hid⟩
      · rcases sentBy_cases s a with hnil | ⟨w, _, lease, events, topic, topics, -, hp, hsent⟩
        · rw [hnil] at he'
          cases he'
        · rw [hsent, hb.oneTopic.topicBatch_eq hb.wellFormed hp] at he' ⊢
          exact earlier_sent hb hp he' hr hagg' hlt'
    rcases hold with ⟨e, he, hid⟩ | hdead
    · exact Or.inl ⟨e, he, hid.trans hu.id.symm⟩
    · rw [hu.finished (by simp [OutboxRow.unfinished, hdead])]
      exact Or.inr hdead
  · -- a row that becomes visible has no accepted row after it
    rw [show sentBy s (.commitTx tx) = [] from rfl, List.append_nil] at he'
    obtain ⟨r, hr, hof⟩ := hb.wellFormed.accepted_row e' he'
    have hfree := (hg r' hp r hr (hof.aggregateId.symm.trans hagg.symm)
      (hof.sequenceNumber ▸ hlt)).1 e' he'
    exact absurd hof.id hfree

theorem step_first (hb : s.Batched) (hs : s.LogOrder) (hg : KeepsOrder settings s a)
    (h : RelayStep settings s a s') : FirstAcceptedInOrder s'.accepted := by
  rw [h.accepted_eq]
  rcases sentBy_cases s a with hnil | ⟨w, outcome, lease, events, topic, topics, rfl, hp, hsent⟩
  · rw [hnil, List.append_nil]
    exact hs.first
  · have hheld : ∀ e ∈ events, e ∈ (s.workers w).held := fun e he => by rwa [hp]
    have hguard : ∀ e ∈ events, e ∈ sentBy s (.send w outcome) := fun e he => by
      rwa [hsent, hb.oneTopic.topicBatch_eq hb.wellFormed hp]
    rw [hsent, hb.oneTopic.topicBatch_eq hb.wellFormed hp]
    refine FirstOccurrences.append hs.first ?_ fun e he hnew e' he' hagg => ?_
    · have hsorted : events.Pairwise fun e' e => e'.sequenceNumber < e.sequenceNumber := by
        simpa [hp] using hb.sorted w
      refine hsorted.imp ?_
      exact fun hlt _ => hlt
    · obtain ⟨r, hr, hof, -⟩ := hb.wellFormed.held_row w e (hheld e he)
      obtain ⟨r', hr', hof'⟩ := hb.wellFormed.accepted_row e' he'
      -- an accepted event after this one had it accepted first, or dead-lettered
      by_contra hge
      rcases Nat.lt_or_eq_of_le (not_lt.mp hge) with hlt | heq
      · rcases hs.earlier e' he' r hr (hof.aggregateId.symm.trans hagg.symm)
          (hof.sequenceNumber ▸ hlt) with ⟨e₀, he₀, hid⟩ | hdead
        · exact hnew e₀ he₀ (hid.trans hof.id.symm)
        · obtain ⟨e₀, he₀, hid⟩ := hg e (hguard e he) r hr hof.id.symm hdead e' he' hagg hlt
          exact hnew e₀ he₀ hid
      · obtain rfl := hb.wellFormed.eq_of_sequenceNumber hr hr'
          (hof.sequenceNumber.symm.trans (heq.trans hof'.sequenceNumber))
        exact hnew e' he' (hof'.id.trans hof.id.symm)

end RelayState.LogOrder

/-- The steps of message transactions that keep the order. -/
def OrderGuard (settings : Nat → OutboxRelaySettings) (s : RelayState) (a : RelayAction) : Prop :=
  FromSendMessage a ∧ KeepsOrder settings s a

theorem batched_of_reachable (h : (relaySystem settings).Reachable (OrderGuard settings) s) :
    s.Batched := by
  have hclaim : s.ClaimOrder := by
    refine h.invariant_of (J := fun s => s.WellFormed ∧ s.Locked)
      (fun s hs => ⟨wellFormed_of_reachable hs, locked_of_reachable hs⟩) ?_
      fun s a t hJ _ hs hg hst => hs.step hJ.1 hJ.2 hg.2 (relayStep_cases hst)
    rintro s ⟨now, rfl⟩
    exact .empty now
  have htopic : s.OneTopic := by
    refine h.invariant ?_ fun s a t hs hg hst => hs.step hg.1 (relayStep_cases hst)
    rintro s ⟨now, rfl⟩
    exact .empty now
  have hsorted : s.Sorted := by
    refine h.invariant_of (fun s hs => wellFormed_of_reachable hs) ?_
      fun s a t hw _ hs _ hst => hs.step hw (relayStep_cases hst)
    rintro s ⟨now, rfl⟩ w
    exact List.Pairwise.nil
  exact ⟨wellFormed_of_reachable h, delivered_of_reachable h, locked_of_reachable h, hclaim,
    htopic, hsorted⟩

/-- **Publication order.** In every run of message transactions in which no transaction commits
after a later row of its conversation was taken, no select of candidates leaves out an unfinished
row before a selected one, and no dead-lettered event is sent after a later one, the events of a
conversation are first accepted in the order of their rows. -/
theorem accepted_in_order (h : (relaySystem settings).Reachable (OrderGuard settings) s) :
    FirstAcceptedInOrder s.accepted := by
  have hlog : s.LogOrder := by
    refine h.invariant_of (fun s hs => batched_of_reachable hs) ?_
      fun s a t hb _ hs hg hst => ⟨hs.step_earlier hb hg.2 (relayStep_cases hst),
        hs.step_first hb hg.2 (relayStep_cases hst)⟩
    rintro s ⟨now, rfl⟩
    exact ⟨by simp [RelayState.empty], firstOccurrences_nil⟩
  exact hlog.first

/-- The check of `FromSendMessage`. -/
def fromSendMessage : RelayAction → Bool
  | .insertOutbox _ input => decide (input =
      messageInsert input.event.eventId input.event.occurredAt
        { messageId := input.event.data.messageId
          conversationId := input.event.data.conversationId
          senderId := input.event.data.senderId
          recipientId := input.event.data.recipientId
          createdAt := input.event.data.createdAt
          correlationId := input.event.correlationId })
  | _ => true

theorem fromSendMessage_sound (h : fromSendMessage a = true) : FromSendMessage a := by
  cases a with
  | insertOutbox tx input => exact ⟨_, _, _, of_decide_eq_true h⟩
  | _ => trivial

/-- The steps of the worker 0 and of transactions. -/
def FirstWorkerOnly (a : RelayAction) : Prop := ∀ w, a.worker = some w → w = 0

/-- The check of `OrderGuard` in runs of one worker, where nothing is dead-lettered: a transaction
commits as the last of its conversation, or before anything is taken. -/
def ordered (settings : Nat → OutboxRelaySettings) (s : RelayState) (a : RelayAction) : Bool :=
  fromSendMessage a && a.worker.all (· == 0) &&
    match a with
    | .commitTx tx =>
      match s.senders tx with
      | .inserted r =>
        (s.rows.all fun r' =>
          decide (r'.aggregateId = r.aggregateId → r'.sequenceNumber ≤ r.sequenceNumber)) ||
        s.accepted.isEmpty && (s.workers 0).candidateIds.isEmpty && (s.workers 0).held.isEmpty
      | _ => true
    | .selectCandidates w inFlight =>
      match s.workers w with
      | .frontier t _ _ => s.rows.all fun f =>
        (s.rows.all fun r => decide (r.unfinished = true → r.eligible t = true)) &&
          decide (LeavesNoGap s.rows t (settings w).batchSize (s.passedOver w inFlight) f)
      | _ => true
    | .send _ _ => s.rows.all fun r => decide (r.status ≠ .dead_lettered)
    | _ => true

/-- The other workers have nothing. -/
theorem workers_idle
    (h : (relaySystem settings).Reachable (fun s a => OrderGuard settings s a ∧ FirstWorkerOnly a)
      s) : ∀ w, w ≠ 0 → s.workers w = .idle := by
  have hinit : ∀ s, (relaySystem settings).init s → ∀ w, w ≠ 0 → s.workers w = .idle := by
    rintro s ⟨now, rfl⟩ w -
    rfl
  refine h.invariant hinit ?_
  intro s a t hidle hg hst w hw
  have hmoved : a.worker ≠ some w := fun ha => hw (hg.2 w ha)
  exact ((relayStep_cases hst).workers_eq hmoved).trans (hidle w hw)

theorem orderGuard_of_ordered (hidle : ∀ w, w ≠ 0 → s.workers w = .idle)
    (h : ordered settings s a = true) : OrderGuard settings s a ∧ FirstWorkerOnly a := by
  simp only [ordered, Bool.and_eq_true] at h
  obtain ⟨⟨hmsg, hworker⟩, h⟩ := h
  refine ⟨⟨fromSendMessage_sound hmsg, ?_⟩, fun w hw => by simpa [hw] using hworker⟩
  cases a with
  | commitTx tx =>
    intro r hp r' hr' hagg hlt
    simp only [hp, Bool.or_eq_true, List.all_eq_true, decide_eq_true_eq, Bool.and_eq_true,
      List.isEmpty_iff] at h
    rcases h with hlast | ⟨⟨haccepted, hcandidates⟩, hheld⟩
    · exact absurd (hlast r' hr' hagg) (not_le.mpr hlt)
    · refine ⟨by simp [haccepted], fun w htaking => ?_⟩
      by_cases hw : w = 0
      · subst hw
        cases hphase : s.workers 0 <;>
          simp_all [WorkerPhase.taking, WorkerPhase.candidateIds]
      · rw [hidle w hw] at htaking
        exact htaking
  | selectCandidates w inFlight =>
    intro t f hf hp
    simp only [hp, List.all_eq_true, Bool.and_eq_true, decide_eq_true_eq] at h
    exact ⟨fun r hr _ _ hu => (h f hf).1 r hr hu, (h f hf).2⟩
  | send w outcome =>
    intro e _ r hr _ hdead
    simp only [List.all_eq_true, decide_eq_true_eq] at h
    exact absurd hdead (h r hr)
  | _ => trivial

/-- Three messages of a conversation. The transaction of the first commits when a worker has
selected the second as its frontier, and the third is locked while it selects its candidates. -/
def lateVisibleRun : List RelayAction :=
  [.beginTx 1, .insertOutbox 1 (sampleInsert 1 7)] ++ sendRun 2 7 ++ sendRun 3 7 ++
    [.beginClaim 0, .selectFrontier 0 [], .commitTx 1, .selectCandidates 0 [Uuid.ofNat 3],
      .claim 0, .send 0 .acknowledged, .mark 0] ++ claimRun 0 ++ [.send 0 .acknowledged]

/-- The first two are published in one batch, and the third after them. -/
theorem accepted_in_order_sample :
    ∃ t, (relaySystem fun _ => DEFAULT_OPTIONS).runIf (ordered fun _ => DEFAULT_OPTIONS)
        (.empty 0) lateVisibleRun = some t ∧
      t.accepted.map OutboxEvent.sequenceNumber = [1, 2, 3] ∧ FirstAcceptedInOrder t.accepted := by
  obtain ⟨t, ht, hacc⟩ := exists_of_any
    (o := (relaySystem fun _ => DEFAULT_OPTIONS).runIf (ordered fun _ => DEFAULT_OPTIONS)
      (.empty 0) lateVisibleRun)
    (fun t => t.accepted.map OutboxEvent.sequenceNumber = [1, 2, 3]) (by decide +kernel)
  have hr : (relaySystem fun _ => DEFAULT_OPTIONS).Reachable
      (fun s a => OrderGuard (fun _ => DEFAULT_OPTIONS) s a ∧ FirstWorkerOnly a) t :=
    .of_runIf (fun _ _ hs ha => orderGuard_of_ordered (workers_idle hs) ha) (.init ⟨0, rfl⟩) ht
  exact ⟨t, ht, hacc, accepted_in_order (hr.mono fun _ _ hg => hg.1)⟩

/-- Two transactions of a conversation insert in one order and commit in the other, and the later
row is published between the commits. -/
def lateCommitRun : List RelayAction :=
  [.beginTx 1, .insertOutbox 1 (sampleInsert 1 7), .beginTx 2, .insertOutbox 2 (sampleInsert 2 7),
    .commitTx 2] ++ claimRun 0 ++ [.send 0 .acknowledged, .mark 0, .commitTx 1] ++ claimRun 0 ++
    [.send 0 .acknowledged]

/-- **The order fails** for two message transactions and one worker, without any failure. -/
theorem accepted_out_of_order :
    ∃ t, (relaySystem fun _ => DEFAULT_OPTIONS).Reachable (fun _ a => FromSendMessage a) t ∧
      ¬FirstAcceptedInOrder t.accepted := by
  obtain ⟨t, ht, hacc⟩ := exists_of_any
    (o := (relaySystem fun _ => DEFAULT_OPTIONS).runIf (fun _ => fromSendMessage) (.empty 0)
      lateCommitRun)
    (fun t => t.accepted.map (fun e => (e.id, e.aggregateId, e.sequenceNumber)) =
      [(Uuid.ofNat 2, Uuid.ofNat 7, 2), (Uuid.ofNat 1, Uuid.ofNat 7, 1)]) (by decide +kernel)
  refine ⟨t, .of_runIf (fun _ _ _ => fromSendMessage_sound) (.init ⟨0, rfl⟩) ht, fun hfirst => ?_⟩
  obtain ⟨e₂, l, hl, h₂, hacc⟩ := List.map_eq_cons_iff.mp hacc
  obtain ⟨e₁, l', hl', h₁, -⟩ := List.map_eq_cons_iff.mp hacc
  simp only [Prod.mk.injEq] at h₁ h₂
  have hlt := hfirst [e₂] e₁ l' (hl'.symm ▸ hl) (by simp [h₁.1, h₂.1]; decide) e₂
    (List.mem_singleton_self _) (h₂.2.1.trans h₁.2.1.symm)
  omega

end MernChat
