import MernChat.Outbox.Delivery

/-!
# Leases

A claim locks its candidates, so that no two claims take one row, and a lease keeps the row out
of the candidates of the claims that start inside it. The outcome writes look at neither: they
ask only that the row is `processing`. A worker whose row was claimed again after its lease can
therefore end the lease of the worker that holds it now.

## Main definitions

* `WorkerPhase.unwritten`: the events a worker has not finished with
* `RelayState.Locked`: the rows a claim has selected stay eligible until it takes them
* `WritesOwnClaim`: the steps that write no outcome over the lease of a later claim
* `RelayState.Leased`: a lease protects its row

## Main results

* `lease_exclusive`: leases are exclusive in runs of such steps
* `lease_not_exclusive`: a run in which a late write ends a lease
-/

namespace MernChat

open Library Library.TransitionSystem

variable {settings : Nat → OutboxRelaySettings} {s s' : RelayState} {a : RelayAction}

/-! ## Phases of a claim -/

/-- The start of the transaction of a claim that is not complete. -/
def WorkerPhase.startedAt : WorkerPhase → Option Int
  | .begun t => some t
  | .frontier t _ _ => some t
  | .candidates t _ => some t
  | _ => none

theorem RelayStep.startedAt_cases (h : RelayStep settings s a s') {w : Nat} {t : Int}
    (ht : t ∈ (s'.workers w).startedAt) : t ∈ (s.workers w).startedAt ∨ t = s.now := by
  cases h.worker w with
  | same _ hp => exact Or.inl (hp ▸ ht)
  | begun _ hp' =>
    rw [hp'] at ht
    exact Or.inr (Option.some.inj ht).symm
  | frontier _ hp _ hp' | candidates _ hp _ _ hp' =>
    rw [hp'] at ht
    rw [hp]
    exact Or.inl ht
  | idle hp' | claimed _ _ _ hp' | sent _ _ hp' | allSent _ _ hp' | sendFailed _ _ hp'
  | markFailed _ _ hp' | settled _ _ hp' =>
    rw [hp'] at ht
    cases ht

/-- The clock does not run backwards. -/
theorem RelayStep.now_le (h : RelayStep settings s a s') : s.now ≤ s'.now := by
  cases h with
  | tick d => exact Int.le_add_of_nonneg_right (Int.natCast_nonneg d)
  | _ => exact le_rfl

/-! ## Locks -/

theorem lockedByOther_eq_false {w : Nat} {id : Uuid} :
    s.lockedByOther w id = false ↔ ∀ w', (w', id) ∈ s.locks → w' = w := by
  simp only [RelayState.lockedByOther, List.any_eq_false, Bool.and_eq_true, bne_iff_ne, ne_eq,
    beq_iff_eq, not_and]
  constructor
  · intro h w' hl
    by_contra hne
    exact h _ hl hne rfl
  · rintro h ⟨w', id'⟩ hl hne rfl
    exact hne (h w' hl)

theorem mem_lock {w w' : Nat} {ids : List Uuid} {id : Uuid} :
    (w', id) ∈ (s.lock w ids).locks ↔ w' = w ∧ id ∈ ids ∨ (w', id) ∈ s.locks := by
  simp [RelayState.lock, eq_comm, and_comm]

theorem mem_unlock {w w' : Nat} {id : Uuid} :
    (w', id) ∈ (s.unlock w).locks ↔ (w', id) ∈ s.locks ∧ w' ≠ w := by
  simp [RelayState.unlock]

/-- A lock is held already, or taken on a row that no other claim holds locked. -/
theorem RelayStep.locks_cases (h : RelayStep settings s a s') {w : Nat} {id : Uuid}
    (hl : (w, id) ∈ s'.locks) :
    (w, id) ∈ s.locks ∨ a.worker = some w ∧ s.lockedByOther w id = false := by
  cases h with
  | selectFrontier _ hr =>
    rcases mem_lock.mp hl with ⟨rfl, hid⟩ | hl
    · obtain rfl := List.mem_singleton.mp hid
      have hpass := (selectFrontier_eq_some hr).2.2
      exact Or.inr ⟨rfl, (Bool.or_eq_false_iff.mp hpass).1⟩
    · exact Or.inl hl
  | selectCandidates _ hi _ =>
    rcases mem_lock.mp hl with ⟨rfl, hid⟩ | hl
    · subst hi
      obtain ⟨r, hr, rfl⟩ := List.mem_map.mp hid
      have hpass := (mem_selectCandidates hr).2.2
      exact Or.inr ⟨rfl, (Bool.or_eq_false_iff.mp hpass).1⟩
    · exact Or.inl hl
  | noCandidates | claim | crash => exact Or.inl (mem_unlock.mp hl).1
  | _ => exact Or.inl hl

/-- A claim keeps its locks while others take steps. -/
theorem RelayStep.locks_kept (h : RelayStep settings s a s') {w : Nat} {id : Uuid}
    (hl : (w, id) ∈ s.locks) (hw : a.worker ≠ some w) : (w, id) ∈ s'.locks := by
  cases h with
  | selectFrontier | selectCandidates => exact mem_lock.mpr (Or.inr hl)
  | noCandidates | claim | crash =>
    exact mem_unlock.mpr ⟨hl, fun hww => hw (congrArg some hww.symm)⟩
  | _ => exact hl

/-- A worker locks its candidates. -/
theorem RelayStep.candidates_locked {w : Nat} {inFlight : List Uuid}
    (h : RelayStep settings s (.selectCandidates w inFlight) s') {t : Int} {ids : List Uuid}
    (hq : s'.workers w = .candidates t ids) {id : Uuid} (hid : id ∈ ids) :
    (w, id) ∈ s'.locks := by
  cases h with
  | noCandidates => cases (Function.update_self ..).symm.trans hq
  | selectCandidates =>
    injection (Function.update_self ..).symm.trans hq with _ hids
    exact mem_lock.mpr (Or.inl ⟨rfl, hids ▸ hid⟩)

/-- An outcome write waits for the claims that hold its rows locked. -/
theorem RelayStep.written_unlocked (h : RelayStep settings s a s') {e : OutboxEvent}
    (he : e ∈ writtenBy s a) {r : OutboxRow} (hr : r ∈ s.rows) (hid : e.id = r.id)
    (hst : r.status = .processing) {w : Nat} (hl : (w, r.id) ∈ s.locks) : a.worker = some w := by
  have key : ∀ w' ids, s.waits w' ids = false → e.id ∈ ids → w = w' := by
    intro w' ids hwait hmem
    simp only [RelayState.waits, List.any_eq_false, Bool.and_eq_true, List.contains_iff_mem,
      beq_iff_eq, not_and, Bool.not_eq_true] at hwait
    exact lockedByOther_eq_false.mp (hwait r hr ⟨hid ▸ hmem, hst⟩) w hl
  cases h with
  | mark hp hw | markLost hp hw =>
    simp only [writtenBy, WorkerPhase.marked, hp] at he
    rw [key _ _ hw (List.mem_map_of_mem he)]
    rfl
  | settle hp hw =>
    simp only [writtenBy, WorkerPhase.settling, hp, List.head?_cons, Option.toList_some,
      List.mem_singleton] at he
    rw [key _ _ hw (by simp [he])]
    rfl
  | _ => cases he

/-- The rows a claim has selected are locked by it alone, and stay eligible until it takes
them. -/
structure RelayState.Locked (s : RelayState) : Prop where
  started : ∀ w, ∀ t ∈ (s.workers w).startedAt, t ≤ s.now
  exclusive : ∀ w w' id, (w, id) ∈ s.locks → (w', id) ∈ s.locks → w = w'
  candidates : ∀ w t ids, s.workers w = .candidates t ids → ∀ id ∈ ids, (w, id) ∈ s.locks ∧
    ∃ r ∈ s.rows, r.id = id ∧ r.eligible t = true

namespace RelayState.Locked

/-- A row that a claim holds locked is changed by no one else. -/
theorem unchanged (hs : s.Locked) (h : RelayStep settings s a s') {w : Nat} {r r' : OutboxRow}
    (hr : r ∈ s.rows) (hl : (w, r.id) ∈ s.locks) (hw : a.worker ≠ some w)
    (hc : RowChange settings s a r r') : r' = r := by
  rcases hc.eq_or with heq | ⟨w', t, ids, rfl, hp, hid⟩ | ⟨e, he, hid, hst⟩
  · exact heq
  · -- a claim of another worker would need the lock
    obtain ⟨hl', -⟩ := hs.candidates w' t ids hp r.id hid
    exact absurd (congrArg some (hs.exclusive w' w r.id hl' hl)) hw
  · exact absurd (h.written_unlocked he hr hid hst hl) hw

theorem step (hs : s.Locked) (h : RelayStep settings s a s') : s'.Locked where
  started w t ht := by
    rcases h.startedAt_cases ht with ht | rfl
    · exact (hs.started w t ht).trans h.now_le
    · exact h.now_le
  exclusive w w' id hl hl' := by
    rcases h.locks_cases hl with hl | ⟨hw, hfree⟩ <;>
      rcases h.locks_cases hl' with hl' | ⟨hw', hfree'⟩
    · exact hs.exclusive w w' id hl hl'
    · exact lockedByOther_eq_false.mp hfree' w hl
    · exact (lockedByOther_eq_false.mp hfree w' hl').symm
    · exact Option.some.inj (hw.symm.trans hw')
  candidates w t ids hq id hid := by
    cases h.worker w with
    | same hw hp =>
      obtain ⟨hl, r, hr, rfl, hel⟩ := hs.candidates w t ids (hp ▸ hq) id hid
      refine ⟨h.locks_kept hl hw, r, ?_, rfl, hel⟩
      have hkept := h.row_kept hr
      rwa [hs.unchanged h hr hl hw (rowEffect_change r)] at hkept
    | candidates ha hp hi _ hp' =>
      subst hi
      injection hp'.symm.trans hq with ht hids
      subst ha ht hids
      obtain ⟨r, hr, rfl⟩ := List.mem_map.mp hid
      obtain ⟨hrow, hcand, -⟩ := mem_selectCandidates hr
      exact ⟨h.candidates_locked hp' hid, r, h.row_kept hrow, rfl, (isCandidate_iff.mp hcand).2.1⟩
    | idle hp' | begun _ hp' | frontier _ _ _ hp' | claimed _ _ _ hp' | sent _ _ hp'
    | allSent _ _ hp' | sendFailed _ _ hp' | markFailed _ _ hp' | settled _ _ hp' =>
      cases hp'.symm.trans hq

theorem empty (now : Int) : (RelayState.empty now).Locked := by
  constructor <;> simp [RelayState.empty, WorkerPhase.startedAt]

end RelayState.Locked

theorem locked_of_reachable {G : Guard RelayState RelayAction}
    (h : (relaySystem settings).Reachable G s) : s.Locked := by
  refine h.invariant ?_ fun s a t hs _ hst => hs.step (relayStep_cases hst)
  rintro s ⟨now, rfl⟩
  exact .empty now

/-- A claim does not take a row inside its lease. -/
theorem RelayState.Locked.not_claimed (hw : s.WellFormed) (hs : s.Locked) {w : Nat} {t : Int}
    {ids : List Uuid} (hp : s.workers w = .candidates t ids) {r : OutboxRow} (hr : r ∈ s.rows)
    (hst : r.status = .processing) {lease : Int} (hl : r.lockedUntil = some lease)
    (hnow : s.now < lease) : r.id ∉ ids := by
  intro hid
  obtain ⟨-, r₀, hr₀, hid₀, hel⟩ := hs.candidates w t ids hp r.id hid
  obtain rfl := hw.eq_of_id hr₀ hr hid₀
  have ht : t ≤ s.now := hs.started w t (by rw [hp]; rfl)
  -- it was eligible when the claim began, and the clock has only gone on
  rcases OutboxRow.eligible_iff.mp hel with ⟨hpend, -⟩ | ⟨-, t', ht', hle⟩
  · rw [hst] at hpend
    cases hpend
  · obtain rfl := Option.some.inj (hl.symm.trans ht')
    omega

/-! ## Leases -/

/-- The events a worker has claimed and written no outcome for. -/
def WorkerPhase.unwritten : WorkerPhase → List OutboxEvent
  | .publishing _ events _ => events
  | .marking _ events => events
  | .failing _ _ false events => events
  | _ => []

theorem held_of_mem_unwritten {p : WorkerPhase} {e : OutboxEvent} (h : e ∈ p.unwritten) :
    e ∈ p.held := by
  rcases p with _ | _ | _ | _ | _ | _ | ⟨_, _, _ | _, _⟩
  case publishing | marking | failing.false => exact h
  all_goals cases h

/-- Events that are not written after a step were not written before it, under the same lease, or
are returned by the claim that the step completes. -/
theorem RelayStep.unwritten_cases (h : RelayStep settings s a s') {w : Nat} {e : OutboxEvent}
    (he : e ∈ (s'.workers w).unwritten) :
    (e ∈ (s.workers w).unwritten ∧ (s'.workers w).lease = (s.workers w).lease ∧
      (a.worker = some w → ∀ e' ∈ writtenBy s a, ∃ events, (s.workers w).held = e' :: events ∧
        e ∈ events)) ∨
      ∃ t ids, a = .claim w ∧ s.workers w = .candidates t ids ∧
        e ∈ claimedEvents s.rows ids t (settings w).leaseMs ∧
        (s'.workers w).lease = leaseEnd t (settings w).leaseMs := by
  cases h.worker w with
  | same hw hp =>
    rw [hp] at he ⊢
    exact Or.inl ⟨he, rfl, fun haw => absurd haw hw⟩
  | claimed ha hp hev hp' =>
    rw [hp'] at he ⊢
    exact Or.inr ⟨_, _, ha, hp, hev ▸ he, rfl⟩
  | sent ha hp hp' | allSent ha hp hp' =>
    rw [hp'] at he ⊢
    rw [hp]
    refine Or.inl ⟨he, rfl, fun _ e' he' => ?_⟩
    rw [ha] at he'
    cases he'
  | sendFailed ha hp hp' =>
    rw [hp'] at he ⊢
    rw [hp]
    refine Or.inl ⟨he, rfl, fun _ e' he' => ?_⟩
    rcases ha with rfl | rfl <;> cases he'
  | @markFailed _ _ written _ ha hp hp' =>
    rw [hp'] at he ⊢
    -- a mark that was written leaves no event unwritten
    cases written with
    | true => cases he
    | false =>
      rw [hp]
      refine Or.inl ⟨he, rfl, fun _ e' he' => ?_⟩
      rw [ha] at he'
      cases he'
  | @settled _ _ marked _ _ _ ha hp hp' =>
    rw [hp'] at he ⊢
    cases marked with
    | true => cases he
    | false =>
      rw [hp]
      refine Or.inl ⟨List.mem_cons_of_mem _ he, rfl, fun _ e' he' => ?_⟩
      simp only [ha, writtenBy, hp, WorkerPhase.settling, List.head?_cons, Option.toList_some,
        List.mem_singleton] at he'
      exact ⟨_, he' ▸ rfl, he⟩
  | idle hp' | begun _ hp' | frontier _ _ _ hp' | candidates _ _ _ _ hp' =>
    rw [hp'] at he
    cases he

/-- A claim counts one attempt more than any worker knows of. -/
theorem RelayState.WellFormed.attemptCount_lt (hw : s.WellFormed) {w : Nat} {ids : List Uuid}
    {t leaseMs : Int} {e e' : OutboxEvent} (he : e ∈ (s.workers w).held)
    (he' : e' ∈ claimedEvents s.rows ids t leaseMs) (hid : e.id = e'.id) :
    e.attemptCount < e'.attemptCount := by
  obtain ⟨r, hr, hof, -, hle⟩ := hw.held_row w e he
  obtain ⟨r', hr', hc, rfl⟩ := mem_claimedEvents.mp he'
  have hid' : r.id = r'.id :=
    hof.id.symm.trans (hid.trans (claimRow_rowUpdate ids t leaseMs r').id)
  obtain rfl := hw.eq_of_id hr hr' hid'
  -- the `UPDATE` of the claim adds one
  simp only [mapOutboxEvent, claimRow, hc, if_true]
  omega

/-- Workers hold the events of distinct claims. -/
structure RelayState.Claims (s : RelayState) : Prop where
  distinct : ∀ w, ((s.workers w).held.map OutboxEvent.id).Nodup
  owner : ∀ w w' e e', e ∈ (s.workers w).held → e' ∈ (s.workers w').held → e.id = e'.id →
    e.attemptCount = e'.attemptCount → w = w'

namespace RelayState.Claims

theorem step (hw : s.WellFormed) (hs : s.Claims) (h : RelayStep settings s a s') :
    s'.Claims where
  distinct w := by
    rcases h.held_eq w with hsub | ⟨t, ids, -, -, heq⟩
    · exact (hs.distinct w).sublist (hsub.map _)
    · exact heq ▸ nodup_claimedEvents hw.ids_nodup ids t _
  owner w w' e e' he he' hid hn := by
    rcases h.held_cases he with he | ⟨t, ids, ha, hp, he⟩ <;>
      rcases h.held_cases he' with he' | ⟨t', ids', ha', hp', he'⟩
    · exact hs.owner w w' e e' he he' hid hn
    · exact absurd hn (hw.attemptCount_lt he he' hid).ne
    · exact absurd hn.symm (hw.attemptCount_lt he' he hid.symm).ne
    · exact RelayAction.claim.inj (ha.symm.trans ha')

theorem empty (now : Int) : (RelayState.empty now).Claims := by
  constructor <;> simp [RelayState.empty]

end RelayState.Claims

theorem claims_of_reachable {G : Guard RelayState RelayAction}
    (h : (relaySystem settings).Reachable G s) : s.Claims := by
  refine h.invariant_of (fun s hs => wellFormed_of_reachable hs) ?_
    fun s a t hw _ hs _ hst => hs.step hw (relayStep_cases hst)
  rintro s ⟨now, rfl⟩
  exact .empty now

theorem RelayStep.claim_held {w : Nat} (h : RelayStep settings s (.claim w) s') :
    ∃ t ids, s.workers w = .candidates t ids ∧
      (s'.workers w).held = claimedEvents s.rows ids t (settings w).leaseMs := by
  cases h with
  | @claim _ t ids hp =>
    refine ⟨t, ids, hp, ?_⟩
    simp only [RelayState.setWorker, Function.update_self, startPublishing]
    split_ifs with he
    · exact he.symm
    · rfl

/-- No outcome is written over the lease of a later claim: a row that is written belongs to the
claim of the writer, or its lease has run out. -/
def WritesOwnClaim (s : RelayState) (a : RelayAction) : Prop :=
  ∀ e ∈ writtenBy s a, ∀ r ∈ s.rows, r.id = e.id → r.status = .processing →
    r.attemptCount = e.attemptCount ∨ ∀ lease ∈ r.lockedUntil, lease ≤ s.now

/-- The row of an event that worker `w` has not written, inside its lease. -/
structure LeasedRow (s : RelayState) (w : Nat) (e : OutboxEvent) (r : OutboxRow) : Prop where
  mem : r ∈ s.rows
  id : r.id = e.id
  status : r.status = .processing
  lockedUntil : r.lockedUntil = some (s.workers w).lease
  attemptCount : r.attemptCount = e.attemptCount

/-- A row inside a lease is changed by no step of another worker. -/
theorem LeasedRow.unchanged {w : Nat} {e : OutboxEvent} {r r' : OutboxRow}
    (hr : LeasedRow s w e r) (hw : s.WellFormed) (hl : s.Locked) (hs : s.Claims)
    (hg : WritesOwnClaim s a) (he : e ∈ (s.workers w).held) (hnow : s.now < (s.workers w).lease)
    (ha : a.worker ≠ some w) (hc : RowChange settings s a r r') : r' = r := by
  rcases hc.eq_or with heq | ⟨w', t, ids, rfl, hp, hid⟩ | ⟨e', he', hid, hst⟩
  · exact heq
  · exact absurd hid (hl.not_claimed hw hp hr.mem hr.status hr.lockedUntil hnow)
  · obtain ⟨w', haw, hheld⟩ := held_of_mem_writtenBy he'
    rcases hg e' he' r hr.mem hid.symm hst with hn | hexp
    · -- the writer's claim is the claim of `w`
      obtain rfl := hs.owner w' w e' e hheld he (hid.trans hr.id)
        (hn.symm.trans hr.attemptCount)
      exact absurd haw ha
    · have hle := hexp _ hr.lockedUntil
      omega

/-- An event not written yet inside its lease has its row. -/
def RelayState.Leased (s : RelayState) : Prop :=
  ∀ w, ∀ e ∈ (s.workers w).unwritten, s.now < (s.workers w).lease → ∃ r, LeasedRow s w e r

theorem RelayState.Leased.step (hw : s.WellFormed) (hl : s.Locked) (hcl : s.Claims)
    (hs : s.Leased) (hg : WritesOwnClaim s a) (h : RelayStep settings s a s') : s'.Leased := by
  intro w e he hnow
  rcases h.unwritten_cases he with ⟨he, hlease, hown⟩ | ⟨t, ids, rfl, hp, he, hlease⟩
  · have hnow' : s.now < (s.workers w).lease := h.now_le.trans_lt (hlease ▸ hnow)
    obtain ⟨r, hr⟩ := hs w e he hnow'
    have hchange : RowChange settings s a r (rowEffect settings s a r) := rowEffect_change r
    have heq : rowEffect settings s a r = r := by
      by_cases ha : a.worker = some w
      · rcases hchange.eq_or with heq | ⟨w', t, ids, rfl, hp, hid⟩ | ⟨e', he', hid, hst⟩
        · exact heq
        · exact absurd hid (hl.not_claimed hw hp hr.mem hr.status hr.lockedUntil hnow')
        · -- the worker writes another event of its batch
          obtain ⟨events, hheld, hmem⟩ := hown ha e' he'
          have hn := hcl.distinct w
          rw [hheld, List.map_cons, List.nodup_cons] at hn
          exact absurd (hid.trans hr.id ▸ List.mem_map_of_mem hmem) hn.1
      · exact hr.unchanged hw hl hcl hg (held_of_mem_unwritten he) hnow' ha hchange
    exact ⟨r, heq ▸ h.row_kept hr.mem, hr.id, hr.status, hlease ▸ hr.lockedUntil,
      hr.attemptCount⟩
  · -- the claim itself writes the lease
    obtain ⟨r, hr, hc, rfl⟩ := mem_claimedEvents.mp he
    have hkept := h.row_kept hr
    simp only [rowEffect, hp] at hkept
    refine ⟨_, hkept, rfl, ?_, ?_, rfl⟩
    · simp [claimRow, hc]
    · simp [claimRow, hc, hlease]

/-- **Leases are exclusive** in every run in which no outcome is written over the lease of a later
claim: inside its lease, and until its worker writes an outcome, a row stays `processing`, and no
step of another worker changes it or claims it. -/
theorem lease_exclusive (h : (relaySystem settings).Reachable WritesOwnClaim s) {w : Nat}
    {e : OutboxEvent} (he : e ∈ (s.workers w).unwritten) (hnow : s.now < (s.workers w).lease) :
    ∃ r ∈ s.rows, r.id = e.id ∧ r.status = .processing ∧
      ∀ a s', WritesOwnClaim s a → relayStep settings s a = some s' → a.worker ≠ some w →
        r ∈ s'.rows ∧ ∀ w', a = .claim w' → ∀ e' ∈ (s'.workers w').held, e'.id ≠ e.id := by
  have hw := wellFormed_of_reachable h
  have hl := locked_of_reachable h
  have hcl := claims_of_reachable h
  have hs : s.Leased := by
    refine h.invariant_of (J := fun s => s.WellFormed ∧ s.Locked ∧ s.Claims)
      (fun s hs => ⟨wellFormed_of_reachable hs, locked_of_reachable hs, claims_of_reachable hs⟩)
      ?_ fun s a t hJ _ hs hg hst => hs.step hJ.1 hJ.2.1 hJ.2.2 hg (relayStep_cases hst)
    rintro s ⟨now, rfl⟩ w e he
    cases he
  obtain ⟨r, hr⟩ := hs w e he hnow
  refine ⟨r, hr.mem, hr.id, hr.status, fun a s' hg hst ha => ?_⟩
  have hstep := relayStep_cases hst
  have hkept := hstep.row_kept hr.mem
  rw [hr.unchanged hw hl hcl hg (held_of_mem_unwritten he) hnow ha (rowEffect_change r)] at hkept
  refine ⟨hkept, ?_⟩
  rintro w' rfl e' he' hid
  obtain ⟨t, ids, hp, heq⟩ := hstep.claim_held
  obtain ⟨r', -, hc, rfl⟩ := mem_claimedEvents.mp (heq ▸ he')
  have hid' : r'.id = r.id :=
    (claimRow_rowUpdate ids t _ r').id.symm.trans (hid.trans hr.id.symm)
  refine hl.not_claimed hw hp hr.mem hr.status hr.lockedUntil hnow ?_
  simp only [claimable, Bool.and_eq_true, List.contains_iff_mem] at hc
  exact hid' ▸ hc.1

instance (s : RelayState) : DecidablePred (WritesOwnClaim s) := fun a =>
  inferInstanceAs (Decidable (∀ e ∈ writtenBy s a, ∀ r ∈ s.rows, _ → _ → _ ∨ _))

/-- Two workers claim the row of one event, the second when the lease of the first has run out. -/
def reclaimRun : List RelayAction :=
  sendRun 1 7 ++ claimRun 0 ++ [.tick 30000000] ++ claimRun 1

/-- The second claim holds its lease while the first worker dies. -/
theorem lease_exclusive_sample :
    ∃ t, (relaySystem fun _ => DEFAULT_OPTIONS).runIf (fun s a => decide (WritesOwnClaim s a))
        (.empty 0) (reclaimRun ++ [.crash 0]) = some t ∧
      ∃ e ∈ (t.workers 1).unwritten, t.now < (t.workers 1).lease ∧
        ∃ r ∈ t.rows, r.id = e.id ∧ r.status = .processing ∧
          ∀ a s', WritesOwnClaim t a →
            relayStep (fun _ => DEFAULT_OPTIONS) t a = some s' → a.worker ≠ some 1 →
            r ∈ s'.rows ∧ ∀ w', a = .claim w' → ∀ e' ∈ (s'.workers w').held, e'.id ≠ e.id := by
  obtain ⟨t, ht, e, he, hnow⟩ := exists_of_any
    (o := (relaySystem fun _ => DEFAULT_OPTIONS).runIf (fun s a => decide (WritesOwnClaim s a))
      (.empty 0) (reclaimRun ++ [.crash 0]))
    (fun t => ∃ e ∈ (t.workers 1).unwritten, t.now < (t.workers 1).lease) (by decide +kernel)
  have hr : (relaySystem fun _ => DEFAULT_OPTIONS).Reachable WritesOwnClaim t :=
    .of_runIf (fun _ _ _ => of_decide_eq_true) (.init ⟨0, rfl⟩) ht
  exact ⟨t, ht, e, he, hnow, lease_exclusive hr he hnow⟩

/-- **A late write ends a lease**: the first worker comes back with a failed send and puts the row
back, while the second one is inside its lease, and a third worker claims the row. -/
theorem lease_not_exclusive :
    (∃ t, (relaySystem fun _ => DEFAULT_OPTIONS).Reachable Guard.all t ∧
      ∃ e ∈ (t.workers 1).unwritten, t.now < (t.workers 1).lease ∧
        ∀ r ∈ t.rows, r.id = e.id → r.status = .pending) ∧
    ∃ t, (relaySystem fun _ => DEFAULT_OPTIONS).Reachable Guard.all t ∧
      ∃ e ∈ (t.workers 1).unwritten, t.now < (t.workers 1).lease ∧
        ∃ e' ∈ (t.workers 2).held, e'.id = e.id := by
  constructor
  · obtain ⟨t, ht, hP⟩ := exists_of_any (o := (relaySystem fun _ => DEFAULT_OPTIONS).runFrom
        (.empty 0) (reclaimRun ++ [.send 0 (.rejected .other), .settle 0 0]))
      (fun t => ∃ e ∈ (t.workers 1).unwritten, t.now < (t.workers 1).lease ∧
        ∀ r ∈ t.rows, r.id = e.id → r.status = .pending) (by decide +kernel)
    exact ⟨t, .of_runFrom (.init ⟨0, rfl⟩) ht, hP⟩
  · obtain ⟨t, ht, hP⟩ := exists_of_any (o := (relaySystem fun _ => DEFAULT_OPTIONS).runFrom
        (.empty 0) (reclaimRun ++ [.send 0 (.rejected .other), .settle 0 0] ++ claimRun 2))
      (fun t => ∃ e ∈ (t.workers 1).unwritten, t.now < (t.workers 1).lease ∧
        ∃ e' ∈ (t.workers 2).held, e'.id = e.id) (by decide +kernel)
    exact ⟨t, .of_runFrom (.init ⟨0, rfl⟩) ht, hP⟩

end MernChat
