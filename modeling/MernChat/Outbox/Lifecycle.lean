import MernChat.Library.Transition
import MernChat.Outbox.Publisher

/-!
# Starting and stopping the relay

A process has one timer and one flag. Starting the relay polls at once and sets the timer; every
tick polls again, unless the flag says that a poll is running. A poll claims and settles batch after
batch, and clears the flag when it ends. Stopping the relay clears the timer and the flag, but the
body of a poll goes on.

## Main definitions

* `RelayProcess`, `relayProcess`: the state of the module, and its steps in any order
* `Lifecycle`: one poll at a time, and no batch claimed after a stop
* `StopsIdle`: the relay is stopped between two polls

## Main results

* `relay_lifecycle`: runs in which the relay is only stopped between two polls keep the lifecycle,
  and any other stop lets the next start run a second poll beside the first
* `relay_breaks_lifecycle`: a restart during a poll, and a stop during one
-/

namespace MernChat

open Library

/-- What the calls of the module and its polls do, as seen from outside. -/
inductive RelayEvent
  | started
  | stopped
  | claimed (events : Nat)
deriving DecidableEq

/-- A poll waits for the claim of a batch, or for the outcome of the batch it has claimed. -/
inductive PollPhase
  | claiming
  | settling (events : Nat)
deriving DecidableEq

/-- The body of a poll: the number of its batch, and what it waits for. -/
structure PollBody where
  batch : Nat
  phase : PollPhase
deriving DecidableEq

/-- The variables `relayTimer` and `relayRunning`, the bodies of `poll` that have not ended, and
what has happened, the latest first. -/
structure RelayProcess where
  relayTimer : Bool
  relayRunning : Bool
  polls : List PollBody
  log : List RelayEvent
deriving DecidableEq

inductive RelayProcessAction
  | start
  | stop
  | tick
  /-- The claim of a poll returns this many events, or throws. -/
  | claim (poll : Nat) (events : Option Nat)
  /-- The rest of the call for the batch returns whether it was published, or throws. -/
  | settle (poll : Nat) (published : Option Bool)
deriving DecidableEq

namespace RelayProcess

def initial : RelayProcess where
  relayTimer := false
  relayRunning := false
  polls := []
  log := []

def record (s : RelayProcess) (e : RelayEvent) : RelayProcess := { s with log := e :: s.log }

/-- `poll()`, up to the claim of its first batch. -/
def poll (s : RelayProcess) : RelayProcess :=
  if s.relayRunning then s
  else
    { s with relayRunning := true, polls := s.polls ++ [{ batch := 0, phase := .claiming }] }

def startOutboxRelay (s : RelayProcess) : RelayProcess :=
  if s.relayTimer then s.record .started
  else { (s.record .started).poll with relayTimer := true }

def stopOutboxRelay (s : RelayProcess) : RelayProcess :=
  if s.relayTimer then { s.record .stopped with relayTimer := false, relayRunning := false }
  else s.record .stopped

/-- The body of poll `i` ends, and its `finally` clears the flag. -/
def endPoll (s : RelayProcess) (i : Nat) : RelayProcess :=
  { s with polls := s.polls.eraseIdx i, relayRunning := false }

/-- Poll `i` has claimed a batch. -/
def claimed (s : RelayProcess) (i : Nat) (body : PollBody) (events : Nat) : RelayProcess :=
  { s with
    polls := s.polls.set i { body with phase := .settling events }
    -- an empty claim takes no batch
    log := if events = 0 then s.log else .claimed events :: s.log }

/-- `runOutboxRelayOnce` has returned `processed`: the loop ends, or claims its next batch. -/
def processed (s : RelayProcess) (i : Nat) (body : PollBody) (processed : Nat) : RelayProcess :=
  if processed = 0 ∨ maxBatchesPerPoll ≤ body.batch + 1 then s.endPoll i
  else { s with polls := s.polls.set i { batch := body.batch + 1, phase := .claiming } }

def step (s : RelayProcess) : RelayProcessAction → Option RelayProcess
  | .start => some s.startOutboxRelay
  | .stop => some s.stopOutboxRelay
  | .tick => if s.relayTimer then some s.poll else none
  | .claim i result =>
    match s.polls[i]? with
    | some { batch, phase := .claiming } =>
      match result with
      | some events => some (s.claimed i { batch, phase := .claiming } events)
      | none => some (s.endPoll i)
    | _ => none
  | .settle i result =>
    match s.polls[i]? with
    | some { batch, phase := .settling events } =>
      match result with
      -- a batch that is not published counts as none
      | some published =>
        some (s.processed i { batch, phase := .settling events } (if published then events else 0))
      | none => some (s.endPoll i)
    | _ => none

end RelayProcess

def relayProcess : TransitionSystem RelayProcess RelayProcessAction where
  init s := s = .initial
  step := RelayProcess.step

/-! ## The lifecycle -/

/-- Between a stop and a later claim the relay was started. -/
def StartedBeforeClaims (log : List RelayEvent) : Prop :=
  ∀ later between earlier events,
    log = later ++ .claimed events :: (between ++ .stopped :: earlier) → .started ∈ between

/-- **The lifecycle of the relay**: at most one poll executes, and no batch is claimed after a stop
until the next start. -/
structure RelayProcess.Lifecycle (s : RelayProcess) : Prop where
  exclusive : s.polls.length ≤ 1
  started : StartedBeforeClaims s.log

/-- The relay is stopped while no poll executes. -/
def StopsIdle (s : RelayProcess) : RelayProcessAction → Prop
  | .stop => s.relayTimer = true → s.polls = []
  | _ => True

instance (s : RelayProcess) : (a : RelayProcessAction) → Decidable (StopsIdle s a)
  | .stop => inferInstanceAs (Decidable (s.relayTimer = true → s.polls = []))
  | .start | .tick | .claim _ _ | .settle _ _ => inferInstanceAs (Decidable True)

/-- The last stop was followed by a start. -/
def StartedLast (log : List RelayEvent) : Prop :=
  ∀ between earlier, log = between ++ .stopped :: earlier → .started ∈ between

theorem StartedLast.started (log : List RelayEvent) : StartedLast (.started :: log) := by
  intro between earlier h
  cases between with
  | nil => cases (List.cons.inj h).1
  | cons e between =>
    obtain ⟨rfl, -⟩ := List.cons.inj h
    exact List.mem_cons_self

theorem StartedLast.claimed {log : List RelayEvent} (h : StartedLast log) (events : Nat) :
    StartedLast (.claimed events :: log) := by
  intro between earlier heq
  cases between with
  | nil => cases (List.cons.inj heq).1
  | cons e between =>
    obtain ⟨-, heq⟩ := List.cons.inj heq
    exact List.mem_cons_of_mem e (h between earlier heq)

theorem StartedBeforeClaims.cons {log : List RelayEvent} (h : StartedBeforeClaims log)
    {e : RelayEvent} (he : ∀ events, e = .claimed events → StartedLast log) :
    StartedBeforeClaims (e :: log) := by
  intro later between earlier events heq
  cases later with
  | nil =>
    obtain ⟨rfl, hlog⟩ := List.cons.inj heq
    exact he events rfl between earlier hlog
  | cons e' later =>
    obtain ⟨-, heq⟩ := List.cons.inj heq
    exact h later between earlier events heq

namespace RelayProcess

variable {s t : RelayProcess}

/-! ## Runs that stop between polls -/

/-- The flag is set exactly while a poll executes, the timer is set then, and a set timer means that
the relay was started last. -/
structure Running (s : RelayProcess) : Prop extends s.Lifecycle where
  running : s.relayRunning = true ↔ s.polls ≠ []
  timer : s.polls ≠ [] → s.relayTimer = true
  startedLast : s.relayTimer = true → StartedLast s.log

theorem poll_of_running (h : s.relayRunning = true) : s.poll = s := if_pos h

/-- A poll begins when none executes. -/
theorem Running.poll (h : s.Running) (ht : s.relayTimer = true) : s.poll.Running := by
  cases hr : s.relayRunning with
  | true => exact (poll_of_running hr).symm ▸ h
  | false =>
    have hnil : s.polls = [] := by
      by_contra hne
      rw [h.running.mpr hne] at hr
      cases hr
    have hpoll : s.poll = { s with
        relayRunning := true, polls := [{ batch := 0, phase := .claiming }] } := by
      unfold RelayProcess.poll
      simp [hr, hnil]
    rw [hpoll]
    exact ⟨⟨Nat.le_refl 1, h.started⟩, by simp, fun _ => ht, h.startedLast⟩

theorem Running.start (h : s.Running) : s.startOutboxRelay.Running := by
  have hlog : StartedBeforeClaims (.started :: s.log) := h.started.cons (by simp)
  cases ht : s.relayTimer with
  | true =>
    have hstart : s.startOutboxRelay = s.record .started := if_pos ht
    rw [hstart]
    exact ⟨⟨h.exclusive, hlog⟩, h.running, h.timer, fun _ => .started _⟩
  | false =>
    have hnil : s.polls = [] := by
      by_contra hne
      rw [h.timer hne] at ht
      cases ht
    have hr : s.relayRunning = false := by
      rw [Bool.eq_false_iff]
      exact fun hr => h.running.mp hr hnil
    have hstart : s.startOutboxRelay = { s.record .started with
        relayTimer := true, relayRunning := true,
        polls := [{ batch := 0, phase := .claiming }] } := by
      simp [startOutboxRelay, RelayProcess.poll, record, ht, hr, hnil]
    rw [hstart]
    exact ⟨⟨Nat.le_refl 1, hlog⟩, by simp, fun _ => rfl, fun _ => .started _⟩

theorem Running.stop (h : s.Running) (hg : s.relayTimer = true → s.polls = []) :
    s.stopOutboxRelay.Running := by
  have hlog : StartedBeforeClaims (.stopped :: s.log) := h.started.cons (by simp)
  cases ht : s.relayTimer with
  | true =>
    have hstop : s.stopOutboxRelay =
        { s.record .stopped with relayTimer := false, relayRunning := false } := if_pos ht
    have hnil := hg ht
    rw [hstop]
    refine ⟨⟨h.exclusive, hlog⟩, ?_, fun hne => absurd hnil hne, by simp⟩
    simpa [record] using hnil
  | false =>
    have hstop : s.stopOutboxRelay = s.record .stopped := if_neg (by simp [ht])
    rw [hstop]
    refine ⟨⟨h.exclusive, hlog⟩, h.running, h.timer, ?_⟩
    intro ht'
    rw [show (s.record .stopped).relayTimer = s.relayTimer from rfl, ht] at ht'
    cases ht'

/-- With at most one poll, the end of one leaves none. -/
theorem Running.endPoll (h : s.Running) {i : Nat} {body : PollBody}
    (hi : s.polls[i]? = some body) : (s.endPoll i).Running := by
  have hnil : (s.endPoll i).polls = [] := by
    have hlt := (List.getElem?_eq_some_iff.mp hi).1
    have hone := h.exclusive
    show s.polls.eraseIdx i = []
    rw [← List.length_eq_zero_iff, List.length_eraseIdx_of_lt hlt]
    omega
  refine ⟨⟨?_, h.started⟩, ?_, fun hne => absurd hnil hne, h.startedLast⟩
  · rw [hnil]
    exact Nat.zero_le 1
  · exact iff_of_false Bool.false_ne_true fun hne => hne hnil

/-- A poll goes on, with another body. -/
theorem Running.continue (h : s.Running) {i : Nat} {body : PollBody}
    (hi : s.polls[i]? = some body) (body' : PollBody) :
    ({ s with polls := s.polls.set i body' } : RelayProcess).Running := by
  have hne : s.polls ≠ [] := List.ne_nil_of_mem (List.mem_of_getElem? hi)
  have hne' : s.polls.set i body' ≠ [] := by
    rw [← List.length_pos_iff, List.length_set]
    exact List.length_pos_iff.mpr hne
  refine ⟨⟨?_, h.started⟩, ?_, fun _ => h.timer hne, h.startedLast⟩
  · show (s.polls.set i body').length ≤ 1
    rw [List.length_set]
    exact h.exclusive
  · exact iff_of_true (h.running.mpr hne) hne'

theorem Running.claimed (h : s.Running) {i : Nat} {body : PollBody}
    (hi : s.polls[i]? = some body) (events : Nat) : (s.claimed i body events).Running := by
  have hne : s.polls ≠ [] := List.ne_nil_of_mem (List.mem_of_getElem? hi)
  have hlast := h.startedLast (h.timer hne)
  have hgo := h.continue hi { body with phase := .settling events }
  unfold RelayProcess.claimed
  split_ifs
  · exact hgo
  · exact ⟨⟨hgo.exclusive, h.started.cons fun _ _ => hlast⟩, hgo.running, hgo.timer,
      fun _ => hlast.claimed events⟩

theorem Running.processed (h : s.Running) {i : Nat} {body : PollBody}
    (hi : s.polls[i]? = some body) (n : Nat) : (s.processed i body n).Running := by
  unfold RelayProcess.processed
  split_ifs
  · exact h.endPoll hi
  · exact h.continue hi _

/-- **A step** keeps the invariant when the relay is stopped idle. -/
theorem Running.step (h : s.Running) {a : RelayProcessAction} (hg : StopsIdle s a)
    (hst : s.step a = some t) : t.Running := by
  cases a with
  | start => exact Option.some.inj hst ▸ h.start
  | stop => exact Option.some.inj hst ▸ h.stop hg
  | tick =>
    simp only [RelayProcess.step] at hst
    split_ifs at hst with ht
    exact Option.some.inj hst ▸ h.poll ht
  | claim i result =>
    simp only [RelayProcess.step] at hst
    split at hst
    case h_1 hi =>
      cases result with
      | some events => exact Option.some.inj hst ▸ h.claimed hi events
      | none => exact Option.some.inj hst ▸ h.endPoll hi
    case h_2 => cases hst
  | settle i result =>
    simp only [RelayProcess.step] at hst
    split at hst
    case h_1 hi =>
      cases result with
      | some published => exact Option.some.inj hst ▸ h.processed hi _
      | none => exact Option.some.inj hst ▸ h.endPoll hi
    case h_2 => cases hst

theorem running_initial : initial.Running where
  exclusive := Nat.zero_le 1
  started later between earlier events h := by simp [initial] at h
  running := by simp [initial]
  timer h := absurd rfl h
  startedLast h := by cases h

/-! ## A stop during a poll -/

/-- A poll that executes when the relay is stopped is joined by that of the next start. -/
theorem exists_two_polls (ht : s.relayTimer = true) (hp : s.polls ≠ []) :
    1 < s.stopOutboxRelay.startOutboxRelay.polls.length := by
  have hlen := List.length_pos_iff.mpr hp
  simp only [stopOutboxRelay, startOutboxRelay, poll, record, ht, if_true, Bool.false_eq_true,
    if_false, List.length_append, List.length_singleton]
  omega

end RelayProcess

/-- **The relay keeps its lifecycle** in every run in which it is only stopped between two polls.
Any other stop leaves it in a state in which the next start runs a second poll. -/
theorem relay_lifecycle (s : RelayProcess) :
    (relayProcess.Reachable StopsIdle s → s.Lifecycle) ∧
      ∀ t, ¬ StopsIdle s .stop → relayProcess.step s .stop = some t →
        ∃ u, relayProcess.step t .start = some u ∧ ¬ u.Lifecycle := by
  constructor
  · intro h
    have hrunning : s.Running := by
      apply h.invariant
      · rintro _ rfl
        exact RelayProcess.running_initial
      · intro s a t hs hg hst
        exact hs.step hg hst
    exact hrunning.toLifecycle
  · intro t hbusy hst
    obtain ⟨ht, hp⟩ : s.relayTimer = true ∧ s.polls ≠ [] := by
      simpa [StopsIdle] using hbusy
    refine ⟨_, rfl, ?_⟩
    intro h
    have htwo := RelayProcess.exists_two_polls ht hp
    rw [Option.some.inj hst] at htwo
    exact absurd h.exclusive (Nat.not_le.mpr htwo)

/-- The relay is started, claims a batch and publishes it, is stopped between two polls, and started
again; a stop during the poll that has begun leaves two polls to the next start. -/
theorem relay_lifecycle_sample : ∃ s : RelayProcess,
    s.log = [.started, .stopped, .claimed 5, .started] ∧ s.polls ≠ [] ∧ s.Lifecycle ∧
      ∃ t u, relayProcess.step s .stop = some t ∧ relayProcess.step t .start = some u ∧
        ¬ u.Lifecycle := by
  have hrun : (relayProcess.runIf (fun s a => decide (StopsIdle s a)) .initial
      [.start, .claim 0 (some 5), .settle 0 (some true), .claim 0 (some 0), .settle 0 (some true),
        .stop, .start]).any (fun t => decide
          (t.log = [.started, .stopped, .claimed 5, .started] ∧ t.relayTimer = true ∧
            t.polls ≠ [])) = true := by
    decide
  obtain ⟨s, hs, hlog, htimer, hpolls⟩ := TransitionSystem.exists_of_any _ hrun
  have hreach : relayProcess.Reachable StopsIdle s :=
    .of_runIf (fun _ _ _ => of_decide_eq_true) (.init rfl) hs
  have hbusy : ¬ StopsIdle s .stop := fun hidle => hpolls (hidle htimer)
  obtain ⟨u, hu, hbroken⟩ := (relay_lifecycle s).2 _ hbusy rfl
  exact ⟨s, hlog, hpolls, (relay_lifecycle s).1 hreach, _, u, rfl, hu, hbroken⟩

/-- **Two polls at once**, after a restart during a poll; and **batches claimed** after a stop. -/
theorem relay_breaks_lifecycle :
    (∃ s, relayProcess.Reachable Guard.all s ∧ 1 < s.polls.length) ∧
      ∃ s, relayProcess.Reachable Guard.all s ∧ ¬ StartedBeforeClaims s.log := by
  have hinit : relayProcess.Reachable Guard.all .initial := .init rfl
  constructor
  · have hrun : (relayProcess.runFrom .initial [.start, .stop, .start]).any
        (fun t => decide (1 < t.polls.length)) = true := by decide
    obtain ⟨t, ht, hlt⟩ := TransitionSystem.exists_of_any _ hrun
    exact ⟨t, hinit.of_runFrom ht, hlt⟩
  · have hrun : (relayProcess.runFrom .initial [.start, .claim 0 (some 5), .stop,
        .settle 0 (some true), .claim 0 (some 3)]).any
        (fun t => decide (t.log = [.claimed 3, .stopped, .claimed 5, .started])) = true := by
      decide
    obtain ⟨t, ht, hlog⟩ := TransitionSystem.exists_of_any _ hrun
    refine ⟨t, hinit.of_runFrom ht, ?_⟩
    intro h
    have hstarted := h [] [] [.claimed 5, .started] 3 hlog
    cases hstarted

end MernChat
