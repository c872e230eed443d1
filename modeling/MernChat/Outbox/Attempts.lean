import MernChat.Outbox.Delivery

/-!
# Attempts

The counter of a row is incremented by the claim, and compared with the maximum only in the
handler of a failure. A worker that dies, or whose lease has run out, never gets to that
comparison, and the claim queries do not make it: a row can be claimed once more for every lease
that runs out.

## Main definitions

* `AttemptsLeft`: the steps that keep the bound
* `RelayState.Bounded`

## Main results

* `attemptCount_le_maxAttempts`: runs of such steps keep `attempt_count <= maxAttempts`
* `attemptCount_exceeds_maxAttempts`: a run that does not
-/

namespace MernChat

open Library Library.TransitionSystem

variable {settings : Nat → OutboxRelaySettings} {s s' : RelayState} {a : RelayAction}

/-- A row whose lease has run out is claimed, and a row is put back, only while it has attempts
left. -/
def AttemptsLeft (maxAttempts : Int) (s : RelayState) : RelayAction → Prop
  | .claim w => ∀ r ∈ s.rows, r.id ∈ (s.workers w).candidateIds → r.status = .processing →
      r.attemptCount < maxAttempts
  | .settle w _ => ∀ e ∈ (s.workers w).settling, e.attemptCount < maxAttempts →
      ∀ r ∈ s.rows, r.id = e.id → r.status = .processing → r.attemptCount < maxAttempts
  | _ => True

/-- No row has more attempts than the maximum, and a pending row has attempts left. -/
structure RelayState.Bounded (maxAttempts : Int) (s : RelayState) : Prop where
  attemptCount_le : ∀ r ∈ s.rows, r.attemptCount ≤ maxAttempts
  pending_lt : ∀ r ∈ s.rows, r.status = .pending → r.attemptCount < maxAttempts

namespace RelayState.Bounded

variable {maxAttempts : Int}

/-- A row with more attempts than before was claimed by the step. -/
theorem attemptCount_step (hs : s.Bounded maxAttempts) (hg : AttemptsLeft maxAttempts s a)
    {r r' : OutboxRow} (hr : r ∈ s.rows) (hc : RowChange settings s a r r') :
    (r'.attemptCount : Int) ≤ maxAttempts := by
  cases hc with
  | claimed ha hp hid hu =>
    subst ha
    have hlt : (r.attemptCount : Int) < maxAttempts := by
      rcases OutboxRow.unfinished_iff.mp hu with hst | hst
      · exact hs.pending_lt r hr hst
      · exact hg r hr (by rwa [hp]) hst
    push_cast
    omega
  | same | published | deadLettered | rescheduled => exact hs.attemptCount_le r hr

theorem pending_step (hs : s.Bounded maxAttempts) (hm : ∀ w, (settings w).maxAttempts = maxAttempts)
    (hg : AttemptsLeft maxAttempts s a) {r r' : OutboxRow} (hr : r ∈ s.rows)
    (hc : RowChange settings s a r r') (hp : r'.status = .pending) :
    (r'.attemptCount : Int) < maxAttempts := by
  cases hc with
  | same => exact hs.pending_lt r hr hp
  | @rescheduled w _ _ _ _ e _ ha hph hid hst hlt =>
    subst ha
    exact hg e (by rw [hph]; rfl) (hm w ▸ hlt) r hr hid.symm hst
  | claimed | published | deadLettered => cases hp

theorem step (hw : s.WellFormed) (h1 : 1 ≤ maxAttempts)
    (hm : ∀ w, (settings w).maxAttempts = maxAttempts) (hs : s.Bounded maxAttempts)
    (hg : AttemptsLeft maxAttempts s a) (h : RelayStep settings s a s') :
    s'.Bounded maxAttempts where
  attemptCount_le r' hr' := by
    rcases h.row_cases hr' with ⟨r, hr, -, hc⟩ | ⟨tx, -, hp⟩
    · exact hs.attemptCount_step hg hr hc
    · rw [(hw.open_fresh tx r' hp).2.1]
      omega
  pending_lt r' hr' hst := by
    rcases h.row_cases hr' with ⟨r, hr, -, hc⟩ | ⟨tx, -, hp⟩
    · exact hs.pending_step hm hg hr hc hst
    · rw [(hw.open_fresh tx r' hp).2.1]
      omega

end RelayState.Bounded

/-- **Attempts are bounded** in every run of workers with one positive `maxAttempts` in which no
expired lease is taken over, and no row put back, that has used up its attempts. -/
theorem attemptCount_le_maxAttempts {maxAttempts : Int} (h1 : 1 ≤ maxAttempts)
    (hm : ∀ w, (settings w).maxAttempts = maxAttempts)
    (h : (relaySystem settings).Reachable (AttemptsLeft maxAttempts) s) :
    ∀ r ∈ s.rows, r.attemptCount ≤ maxAttempts ∧
      (r.status = .pending → r.attemptCount < maxAttempts) := by
  have hb : s.Bounded maxAttempts := by
    refine h.invariant_of (fun s hs => wellFormed_of_reachable hs) ?_
      fun s a t hw _ hs hg hst => hs.step hw h1 hm hg (relayStep_cases hst)
    rintro s ⟨now, rfl⟩
    constructor <;> simp [RelayState.empty]
  exact fun r hr => ⟨hb.attemptCount_le r hr, hb.pending_lt r hr⟩

/-- **The bound fails** under the default options: nine leases run out, and the row has been
claimed nine times. -/
theorem attemptCount_exceeds_maxAttempts :
    ∃ t, (relaySystem fun _ => DEFAULT_OPTIONS).Reachable Guard.all t ∧
      ∃ r ∈ t.rows, DEFAULT_OPTIONS.maxAttempts < r.attemptCount := by
  obtain ⟨t, ht, hr⟩ := exists_of_any (o := (relaySystem fun _ => DEFAULT_OPTIONS).runFrom
      (.empty 0) (sendRun 1 7 ++ crashRun 9))
    (fun t => ∃ r ∈ t.rows, DEFAULT_OPTIONS.maxAttempts < r.attemptCount) (by decide +kernel)
  exact ⟨t, .of_runFrom (.init ⟨0, rfl⟩) ht, hr⟩

instance (maxAttempts : Int) (s : RelayState) : DecidablePred (AttemptsLeft maxAttempts s)
  | .claim _ => inferInstanceAs (Decidable (∀ r ∈ s.rows, _ → _ → _))
  | .settle w _ => inferInstanceAs (Decidable (∀ e ∈ (s.workers w).settling, _ → ∀ r ∈ s.rows, _))
  | .tick _ | .beginTx _ | .insertOutbox _ _ | .commitTx _ | .abortTx _ | .beginClaim _
  | .selectFrontier _ _ | .selectCandidates _ _ | .send _ _ | .mark _ | .markError _ _ _
  | .crash _ => instDecidableTrue

/-- Eight leases run out under the default options: the row has used up its attempts. -/
theorem attemptCount_le_maxAttempts_sample :
    ∃ t, (relaySystem fun _ => DEFAULT_OPTIONS).runIf
        (fun s a => decide (AttemptsLeft 8 s a)) (.empty 0) (sendRun 1 7 ++ crashRun 8) = some t ∧
      t.rows.map OutboxRow.attemptCount = [8] ∧
      ∀ r ∈ t.rows, (r.attemptCount : Int) ≤ 8 ∧
        (r.status = .pending → (r.attemptCount : Int) < 8) := by
  obtain ⟨t, ht, hrow⟩ := exists_of_any
    (o := (relaySystem fun _ => DEFAULT_OPTIONS).runIf
      (fun s a => decide (AttemptsLeft 8 s a)) (.empty 0) (sendRun 1 7 ++ crashRun 8))
    (fun t => t.rows.map OutboxRow.attemptCount = [8]) (by decide +kernel)
  have hr : (relaySystem fun _ => DEFAULT_OPTIONS).Reachable (AttemptsLeft 8) t :=
    .of_runIf (fun _ _ _ => of_decide_eq_true) (.init ⟨0, rfl⟩) ht
  exact ⟨t, ht, hrow, attemptCount_le_maxAttempts (by decide) (fun _ => rfl) hr⟩

end MernChat
