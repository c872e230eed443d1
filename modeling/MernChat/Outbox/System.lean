import Mathlib.Logic.Function.Basic
import MernChat.Library.Transition
import MernChat.Outbox.Publisher

/-!
# The relay system

Any number of senders and relay workers share one outbox table and one Kafka log. A sender runs
the transaction of a message: it draws its sequence number when it inserts its row, and the row
becomes visible when it commits. A worker runs one relay call after another. Each statement, each
send and each tick of the clock is one step, so that every interleaving is a run; a worker that
takes no step is stalled, and a worker that dies leaves its call where it stands.

A claim holds the rows its selects return locked until it ends. Its selects pass over the rows
that other claims hold locked, and over any rows that other statements in flight hold locked at
that moment. An outcome write waits for the locks of the rows it is about to change.

## Main definitions

* `SenderPhase`, `WorkerPhase`: how far a sender's transaction and a worker's call have come
* `RelayState`, `RelayAction`: the shared state, and the steps
* `relayStep`, `relaySystem`: the step function, and the transition system of all runs
* `RelayStep`: the steps, case by case

## Main results

* `relayStep_cases`: every step is one of the cases
-/

namespace MernChat

open Library

/-- A sender's transaction. -/
inductive SenderPhase
  | idle
  /-- After `BEGIN`, at `NOW()`. -/
  | begun (startedAt : Int)
  /-- After the insert of the row, which is not visible yet. -/
  | inserted (row : OutboxRow)

/-- A worker's call of `runOutboxRelayOnce`. From the claim on, a phase holds the end of the
lease the claim wrote and the events the worker has not finished with. -/
inductive WorkerPhase
  | idle
  /-- After `BEGIN` of the claim, at `NOW()`. -/
  | begun (startedAt : Int)
  /-- The frontier row is selected and locked. -/
  | frontier (startedAt : Int) (aggregateId : Uuid) (sequenceNumber : Nat)
  /-- The candidate rows are selected and locked. -/
  | candidates (startedAt : Int) (ids : List Uuid)
  /-- Claimed; the sends to `topics` are still to come. -/
  | publishing (lease : Int) (events : List OutboxEvent) (topics : List JsString)
  /-- Every send has completed. -/
  | marking (lease : Int) (events : List OutboxEvent)
  /-- In the handler, with the events it has not settled yet; `marked` when the mark that threw
  was written. -/
  | failing (lease : Int) (message : JsString) (marked : Bool) (events : List OutboxEvent)

/-- The events a worker has claimed and not finished with. -/
def WorkerPhase.held : WorkerPhase → List OutboxEvent
  | .publishing _ events _ => events
  | .marking _ events => events
  | .failing _ _ _ events => events
  | _ => []

/-- The end of the lease of the events held. -/
def WorkerPhase.lease : WorkerPhase → Int
  | .publishing lease _ _ => lease
  | .marking lease _ => lease
  | .failing lease _ _ _ => lease
  | _ => 0

/-- The rows a worker is about to claim. -/
def WorkerPhase.candidateIds : WorkerPhase → List Uuid
  | .candidates _ ids => ids
  | _ => []

/-- The events a mark is about. -/
def WorkerPhase.marked : WorkerPhase → List OutboxEvent
  | .marking _ events => events
  | _ => []

/-- The event the handler writes next. -/
def WorkerPhase.settling : WorkerPhase → Option OutboxEvent
  | .failing _ _ _ events => events.head?
  | _ => none

/-- The phase after a claim: `publishOutboxEvents` returns at once for no events. -/
def startPublishing (lease : Int) (events : List OutboxEvent) : WorkerPhase :=
  if events = [] then .idle else .publishing lease events (topicsOf events)

/-- The phase after a completed send. -/
def afterSend (lease : Int) (events : List OutboxEvent) (topics : List JsString) : WorkerPhase :=
  if topics = [] then .marking lease events else .publishing lease events topics

/-- The phase after the handler's write for one event. -/
def afterSettle (lease : Int) (message : JsString) (marked : Bool) (events : List OutboxEvent) :
    WorkerPhase :=
  if events = [] then .idle else .failing lease message marked events

/-- The shared state. `accepted` and `acknowledged` are the events Kafka has accepted, in order,
and those of the sends that completed. -/
structure RelayState where
  now : Int
  rows : List OutboxRow
  nextSequence : Nat
  issuedIds : List Uuid
  senders : Nat → SenderPhase
  workers : Nat → WorkerPhase
  locks : List (Nat × Uuid)
  accepted : List OutboxEvent
  acknowledged : List OutboxEvent

namespace RelayState

/-- An empty outbox at time `now`. -/
def empty (now : Int) : RelayState where
  now := now
  rows := []
  nextSequence := 1
  issuedIds := []
  senders := fun _ => .idle
  workers := fun _ => .idle
  locks := []
  accepted := []
  acknowledged := []

def setSender (s : RelayState) (tx : Nat) (p : SenderPhase) : RelayState :=
  { s with senders := Function.update s.senders tx p }

def setWorker (s : RelayState) (w : Nat) (p : WorkerPhase) : RelayState :=
  { s with workers := Function.update s.workers w p }

/-- The end of a claim's transaction releases its locks. -/
def unlock (s : RelayState) (w : Nat) : RelayState :=
  { s with locks := s.locks.filter fun l => l.1 != w }

def lock (s : RelayState) (w : Nat) (ids : List Uuid) : RelayState :=
  { s with locks := ids.map (fun id => (w, id)) ++ s.locks }

/-- The row is locked by the claim of another worker. -/
def lockedByOther (s : RelayState) (w : Nat) (id : Uuid) : Bool :=
  s.locks.any fun l => l.1 != w && l.2 == id

/-- The rows a select of worker `w` passes over, where other statements hold `inFlight`
locked. -/
def passedOver (s : RelayState) (w : Nat) (inFlight : List Uuid) (id : Uuid) : Bool :=
  s.lockedByOther w id || inFlight.contains id

/-- An outcome write of worker `w` waits for the lock of a row it is about to change. -/
def waits (s : RelayState) (w : Nat) (ids : List Uuid) : Bool :=
  s.rows.any fun r => ids.contains r.id && r.status == .processing && s.lockedByOther w r.id

end RelayState

/-- How a send ends. -/
inductive SendOutcome
  | acknowledged
  /-- Rejected: nothing was accepted. -/
  | rejected (error : JsError)
  /-- Accepted, but the send throws. -/
  | unacknowledged (error : JsError)

inductive RelayAction
  | tick (d : Nat)
  | beginTx (tx : Nat)
  | insertOutbox (tx : Nat) (input : OutboxInsertInput)
  | commitTx (tx : Nat)
  | abortTx (tx : Nat)
  | beginClaim (w : Nat)
  | selectFrontier (w : Nat) (inFlight : List Uuid)
  | selectCandidates (w : Nat) (inFlight : List Uuid)
  /-- The update of the claim, and its `COMMIT`. -/
  | claim (w : Nat)
  | send (w : Nat) (outcome : SendOutcome)
  | mark (w : Nat)
  /-- The mark throws, after or before it was written. -/
  | markError (w : Nat) (written : Bool) (error : JsError)
  /-- The handler's write for the next event, at `Date.now()`. -/
  | settle (w : Nat) (dateNow : Int)
  /-- The worker dies, or its call throws; an open claim is rolled back. -/
  | crash (w : Nat)

/-- The worker that takes a step. -/
def RelayAction.worker : RelayAction → Option Nat
  | .beginClaim w | .selectFrontier w _ | .selectCandidates w _ | .claim w | .send w _
  | .mark w | .markError w _ _ | .settle w _ | .crash w => some w
  | _ => none

section Steps

variable (settings : Nat → OutboxRelaySettings) (s : RelayState)

def stepInsertOutbox (tx : Nat) (input : OutboxInsertInput) : Option RelayState :=
  match s.senders tx with
  | .begun startedAt =>
    -- the identity column draws its number now, not at the commit
    (insertOutboxEvent input s.nextSequence startedAt).bind fun row =>
      if s.issuedIds.contains row.id then none
      else some { s.setSender tx (.inserted row) with
        nextSequence := s.nextSequence + 1
        issuedIds := row.id :: s.issuedIds }
  | _ => none

def stepCommitTx (tx : Nat) : Option RelayState :=
  match s.senders tx with
  | .inserted row => some { s.setSender tx .idle with rows := s.rows ++ [row] }
  | _ => none

def stepSelectFrontier (w : Nat) (inFlight : List Uuid) : Option RelayState :=
  match s.workers w with
  | .begun startedAt =>
    match selectFrontier s.rows startedAt (s.passedOver w inFlight) with
    -- the call commits, and returns 0
    | none => some (s.setWorker w .idle)
    | some r =>
      some ((s.lock w [r.id]).setWorker w (.frontier startedAt r.aggregateId r.sequenceNumber))
  | _ => none

def stepSelectCandidates (w : Nat) (inFlight : List Uuid) : Option RelayState :=
  match s.workers w with
  | .frontier startedAt aggregateId sequenceNumber =>
    let ids := (selectCandidates s.rows startedAt aggregateId sequenceNumber
      (boundedBatchSize (settings w).batchSize) (s.passedOver w inFlight)).map OutboxRow.id
    if ids = [] then some ((s.unlock w).setWorker w .idle)
    else some ((s.lock w ids).setWorker w (.candidates startedAt ids))
  | _ => none

def stepClaim (w : Nat) : Option RelayState :=
  match s.workers w with
  | .candidates startedAt ids =>
    let leaseMs := (settings w).leaseMs
    some { (s.unlock w).setWorker w
        (startPublishing (leaseEnd startedAt leaseMs)
          (claimedEvents s.rows ids startedAt leaseMs)) with
      rows := s.rows.map (claimRow ids startedAt leaseMs) }
  | _ => none

def stepSend (w : Nat) (outcome : SendOutcome) : Option RelayState :=
  match s.workers w with
  | .publishing lease events (topic :: topics) =>
    match outcome with
    | .acknowledged => some { s.setWorker w (afterSend lease events topics) with
        accepted := s.accepted ++ topicBatch events topic
        acknowledged := s.acknowledged ++ topicBatch events topic }
    | .rejected error => some (s.setWorker w (.failing lease (errorMessage error) false events))
    -- Kafka has the events, and the handler is told that the send failed
    | .unacknowledged error =>
      some { s.setWorker w (.failing lease (errorMessage error) false events) with
        accepted := s.accepted ++ topicBatch events topic }
  | _ => none

/-- The mark, followed by the phase `next`. -/
def stepMark (w : Nat) (written : Bool) (next : Int → List OutboxEvent → WorkerPhase) :
    Option RelayState :=
  match s.workers w with
  | .marking lease events =>
    -- the update waits for the claim that holds one of its rows
    if written && s.waits w (events.map OutboxEvent.id) then none
    else some { s.setWorker w (next lease events) with
      rows := if written then
          s.rows.map (markPublishedRow (events.map OutboxEvent.id) s.now)
        else s.rows }
  | _ => none

def stepSettle (w : Nat) (dateNow : Int) : Option RelayState :=
  match s.workers w with
  | .failing lease message marked (event :: events) =>
    if s.waits w [event.id] then none
    else some { s.setWorker w (afterSettle lease message marked events) with
      rows := s.rows.map (settleRow (settings w) event message dateNow) }
  | _ => none

/-- **The steps of the relay system.** -/
def relayStep : RelayAction → Option RelayState
  | .tick d => some { s with now := s.now + d }
  | .beginTx tx =>
    match s.senders tx with
    | .idle => some (s.setSender tx (.begun s.now))
    | _ => none
  | .insertOutbox tx input => stepInsertOutbox s tx input
  | .commitTx tx => stepCommitTx s tx
  | .abortTx tx => some (s.setSender tx .idle)
  | .beginClaim w =>
    match s.workers w with
    | .idle => some (s.setWorker w (.begun s.now))
    | _ => none
  | .selectFrontier w inFlight => stepSelectFrontier s w inFlight
  | .selectCandidates w inFlight => stepSelectCandidates settings s w inFlight
  | .claim w => stepClaim settings s w
  | .send w outcome => stepSend s w outcome
  | .mark w => stepMark s w true fun _ _ => .idle
  | .markError w written error =>
    stepMark s w written fun lease events => .failing lease (errorMessage error) written events
  | .settle w dateNow => stepSettle settings s w dateNow
  -- the rows it has claimed stay `processing` until their lease runs out
  | .crash w => some ((s.unlock w).setWorker w .idle)

end Steps

/-- The runs of the relay system from an empty outbox. -/
def relaySystem (settings : Nat → OutboxRelaySettings) :
    TransitionSystem RelayState RelayAction where
  init s := ∃ now, s = RelayState.empty now
  step := relayStep settings

/-! ## The steps, case by case -/

section Cases

variable {settings : Nat → OutboxRelaySettings}

/-- The steps of the relay system, one case for each way a statement can go. -/
inductive RelayStep (settings : Nat → OutboxRelaySettings) (s : RelayState) :
    RelayAction → RelayState → Prop
  | tick (d) : RelayStep settings s (.tick d) { s with now := s.now + d }
  | beginTx {tx} (hp : s.senders tx = .idle) :
    RelayStep settings s (.beginTx tx) (s.setSender tx (.begun s.now))
  | insertOutbox {tx input startedAt row} (hp : s.senders tx = .begun startedAt)
    (hr : insertOutboxEvent input s.nextSequence startedAt = some row)
    (hf : row.id ∉ s.issuedIds) :
    RelayStep settings s (.insertOutbox tx input) { s.setSender tx (.inserted row) with
      nextSequence := s.nextSequence + 1
      issuedIds := row.id :: s.issuedIds }
  | commitTx {tx row} (hp : s.senders tx = .inserted row) :
    RelayStep settings s (.commitTx tx) { s.setSender tx .idle with rows := s.rows ++ [row] }
  | abortTx {tx} : RelayStep settings s (.abortTx tx) (s.setSender tx .idle)
  | beginClaim {w} (hp : s.workers w = .idle) :
    RelayStep settings s (.beginClaim w) (s.setWorker w (.begun s.now))
  | noFrontier {w inFlight startedAt} (hp : s.workers w = .begun startedAt) :
    RelayStep settings s (.selectFrontier w inFlight) (s.setWorker w .idle)
  | selectFrontier {w inFlight startedAt row} (hp : s.workers w = .begun startedAt)
    (hr : selectFrontier s.rows startedAt (s.passedOver w inFlight) = some row) :
    RelayStep settings s (.selectFrontier w inFlight)
      ((s.lock w [row.id]).setWorker w
        (.frontier startedAt row.aggregateId row.sequenceNumber))
  | noCandidates {w inFlight startedAt aggregateId sequenceNumber}
    (hp : s.workers w = .frontier startedAt aggregateId sequenceNumber) :
    RelayStep settings s (.selectCandidates w inFlight) ((s.unlock w).setWorker w .idle)
  | selectCandidates {w inFlight startedAt aggregateId sequenceNumber ids}
    (hp : s.workers w = .frontier startedAt aggregateId sequenceNumber)
    (hi : ids = (selectCandidates s.rows startedAt aggregateId sequenceNumber
      (boundedBatchSize (settings w).batchSize) (s.passedOver w inFlight)).map OutboxRow.id)
    (hne : ids ≠ []) :
    RelayStep settings s (.selectCandidates w inFlight)
      ((s.lock w ids).setWorker w (.candidates startedAt ids))
  | claim {w startedAt ids} (hp : s.workers w = .candidates startedAt ids) :
    RelayStep settings s (.claim w) { (s.unlock w).setWorker w
        (startPublishing (leaseEnd startedAt (settings w).leaseMs)
          (claimedEvents s.rows ids startedAt (settings w).leaseMs)) with
      rows := s.rows.map (claimRow ids startedAt (settings w).leaseMs) }
  | acknowledged {w lease events topic topics}
    (hp : s.workers w = .publishing lease events (topic :: topics)) :
    RelayStep settings s (.send w .acknowledged)
      { s.setWorker w (afterSend lease events topics) with
        accepted := s.accepted ++ topicBatch events topic
        acknowledged := s.acknowledged ++ topicBatch events topic }
  | rejected {w lease events topic topics error}
    (hp : s.workers w = .publishing lease events (topic :: topics)) :
    RelayStep settings s (.send w (.rejected error))
      (s.setWorker w (.failing lease (errorMessage error) false events))
  | unacknowledged {w lease events topic topics error}
    (hp : s.workers w = .publishing lease events (topic :: topics)) :
    RelayStep settings s (.send w (.unacknowledged error))
      { s.setWorker w (.failing lease (errorMessage error) false events) with
        accepted := s.accepted ++ topicBatch events topic }
  | mark {w lease events} (hp : s.workers w = .marking lease events)
    (hw : s.waits w (events.map OutboxEvent.id) = false) :
    RelayStep settings s (.mark w) { s.setWorker w .idle with
      rows := s.rows.map (markPublishedRow (events.map OutboxEvent.id) s.now) }
  | markLost {w lease events error} (hp : s.workers w = .marking lease events)
    (hw : s.waits w (events.map OutboxEvent.id) = false) :
    RelayStep settings s (.markError w true error)
      { s.setWorker w (.failing lease (errorMessage error) true events) with
        rows := s.rows.map (markPublishedRow (events.map OutboxEvent.id) s.now) }
  | markError {w lease events error} (hp : s.workers w = .marking lease events) :
    RelayStep settings s (.markError w false error)
      (s.setWorker w (.failing lease (errorMessage error) false events))
  | settle {w lease message marked event events dateNow}
    (hp : s.workers w = .failing lease message marked (event :: events))
    (hw : s.waits w [event.id] = false) :
    RelayStep settings s (.settle w dateNow)
      { s.setWorker w (afterSettle lease message marked events) with
        rows := s.rows.map (settleRow (settings w) event message dateNow) }
  | crash {w} : RelayStep settings s (.crash w) ((s.unlock w).setWorker w .idle)

/-- **Every step is one of the cases.** -/
theorem relayStep_cases {s s' : RelayState} {a : RelayAction}
    (h : relayStep settings s a = some s') : RelayStep settings s a s' := by
  cases a with
  | tick d =>
    obtain rfl := Option.some.inj h
    exact .tick d
  | beginTx tx =>
    simp only [relayStep] at h
    split at h
    · obtain rfl := Option.some.inj h
      exact .beginTx ‹_›
    · cases h
  | insertOutbox tx input =>
    simp only [relayStep, stepInsertOutbox] at h
    split at h
    · obtain ⟨row, hr, h⟩ := Option.bind_eq_some_iff.mp h
      split_ifs at h with hf
      obtain rfl := Option.some.inj h
      exact .insertOutbox ‹_› hr (by simpa using hf)
    · cases h
  | commitTx tx =>
    simp only [relayStep, stepCommitTx] at h
    split at h
    · obtain rfl := Option.some.inj h
      exact .commitTx ‹_›
    · cases h
  | abortTx tx =>
    obtain rfl := Option.some.inj h
    exact .abortTx
  | beginClaim w =>
    simp only [relayStep] at h
    split at h
    · obtain rfl := Option.some.inj h
      exact .beginClaim ‹_›
    · cases h
  | selectFrontier w inFlight =>
    simp only [relayStep, stepSelectFrontier] at h
    split at h
    · split at h <;> obtain rfl := Option.some.inj h
      · exact .noFrontier ‹_›
      · exact .selectFrontier ‹_› ‹_›
    · cases h
  | selectCandidates w inFlight =>
    simp only [relayStep, stepSelectCandidates] at h
    split at h
    · split_ifs at h with hids <;> obtain rfl := Option.some.inj h
      · exact .noCandidates ‹_›
      · exact .selectCandidates ‹_› rfl hids
    · cases h
  | claim w =>
    simp only [relayStep, stepClaim] at h
    split at h
    · obtain rfl := Option.some.inj h
      exact .claim ‹_›
    · cases h
  | send w outcome =>
    simp only [relayStep, stepSend] at h
    split at h
    · cases outcome <;> obtain rfl := Option.some.inj h
      · exact .acknowledged ‹_›
      · exact .rejected ‹_›
      · exact .unacknowledged ‹_›
    · cases h
  | mark w =>
    simp only [relayStep, stepMark] at h
    split at h
    · split_ifs at h with hw
      obtain rfl := Option.some.inj h
      exact .mark ‹_› (by simpa using hw)
    · cases h
  | markError w written error =>
    simp only [relayStep, stepMark] at h
    split at h
    · split_ifs at h with hw hwr <;> obtain rfl := Option.some.inj h
      · subst hwr
        exact .markLost ‹_› (by simpa using hw)
      · obtain rfl := Bool.eq_false_iff.mpr hwr
        exact .markError ‹_›
    · cases h
  | settle w dateNow =>
    simp only [relayStep, stepSettle] at h
    split at h
    · split_ifs at h with hw
      obtain rfl := Option.some.inj h
      exact .settle ‹_› (by simpa using hw)
    · cases h
  | crash w =>
    obtain rfl := Option.some.inj h
    exact .crash

end Cases

/-! ## Parts of runs -/

/-- A sender's whole transaction. -/
def sendRun (n c : Nat) : List RelayAction :=
  [.beginTx n, .insertOutbox n (sampleInsert n c), .commitTx n]

/-- A worker's whole claim. -/
def claimRun (w : Nat) : List RelayAction :=
  [.beginClaim w, .selectFrontier w [], .selectCandidates w [], .claim w]

/-- A worker that dies after each of its claims, until the lease has run out. -/
def crashRun (n : Nat) : List RelayAction :=
  (List.replicate n (claimRun 0 ++ [.crash 0, .tick 30000000])).flatten

end MernChat
