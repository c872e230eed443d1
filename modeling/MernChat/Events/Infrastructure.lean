import MernChat.Outbox.Lifecycle
import Mathlib.Data.List.Induction

/-!
# The Kafka clients

Initialization connects the producer, then the consumer, and starts the relay; a failure on the way
closes what was opened. The module knows what is open by two flags, which the failure path clears
before it closes.

## Main definitions

* `KafkaState`: the variables of the modules, and whether the clients are connected
* `KafkaState.initializeKafkaInfrastructure`, `KafkaState.closeKafkaInfrastructure`
* `ReleasedOnEveryPath`: the clients are released, and the flag of the producer is right
* `FailsBeforeConnect`: initialization fails before there is a connected client

## Main results

* `releasedOnEveryPath_iff`: the clients are released on every path of a sequence of calls exactly
  when every failure comes before the first client is connected
* `producer_left_connected`: a consumer that cannot connect leaves the producer connected
-/

namespace MernChat

/-- The steps of an initialization that may fail. -/
inductive InitStep
  | adminConnect
  | createTopics
  | adminDisconnect
  | producerConnect
  | consumerConnect
  | subscribe
  | run
  | groupJoin
deriving DecidableEq

inductive KafkaClient
  | producer
  | consumer
deriving DecidableEq

/-- `producerConnected`, `consumerConnected` and `runningConsumer` are the variables of the modules;
`producer` and `consumer` tell whether the client is in fact connected. -/
structure KafkaState where
  producerConnected : Bool
  consumerConnected : Bool
  runningConsumer : Option KafkaClient
  producer : Bool
  consumer : Bool
  relay : RelayProcess
deriving DecidableEq

namespace KafkaState

def initial : KafkaState where
  producerConnected := false
  consumerConnected := false
  runningConsumer := none
  producer := false
  consumer := false
  relay := .initial

def getKafkaProducer (s : KafkaState) : Option KafkaClient :=
  if s.producerConnected then some .producer else none

/-- A step that fails throws, and leaves the state as it was. -/
def attempt (failsAt : Option InitStep) (step : InitStep) (s : KafkaState) :
    Except KafkaState KafkaState :=
  if failsAt = some step then .error s else .ok s

def startMessageNotificationConsumer (failsAt : Option InitStep) (s : KafkaState) :
    Except KafkaState KafkaState := do
  let s ← s.attempt failsAt .subscribe
  let s := { s with runningConsumer := some .consumer }
  let s ← s.attempt failsAt .run
  s.attempt failsAt .groupJoin

/-- `runningConsumer.stop()` leaves the consumer connected. -/
def stopMessageNotificationConsumer (s : KafkaState) : KafkaState :=
  { s with runningConsumer := none }

def closeKafkaInfrastructure (s : KafkaState) : KafkaState :=
  let s := { s with relay := s.relay.stopOutboxRelay }
  let s := s.stopMessageNotificationConsumer
  let s := if s.consumerConnected then { s with consumer := false } else s
  let s := if s.producerConnected then { s with producer := false } else s
  { s with consumerConnected := false, producerConnected := false }

/-- The `try` block of an initialization. -/
def connectAll (failsAt : Option InitStep) (s : KafkaState) : Except KafkaState KafkaState := do
  let s ← s.attempt failsAt .adminConnect
  let s ← s.attempt failsAt .createTopics
  -- the `finally` of the topics
  let s ← s.attempt failsAt .adminDisconnect
  let s ← s.attempt failsAt .producerConnect
  let s := { s with producer := true, producerConnected := true }
  let s ← s.attempt failsAt .consumerConnect
  let s := { s with consumer := true, consumerConnected := true }
  let s ← s.startMessageNotificationConsumer failsAt
  return { s with relay := s.relay.startOutboxRelay }

/-- The state after an initialization, and what it returns. -/
def initializeKafkaInfrastructure (enabled : Bool) (failsAt : Option InitStep) (s : KafkaState) :
    KafkaState × Bool :=
  if enabled then
    match s.connectAll failsAt with
    | .ok s => (s, true)
    | .error s =>
      let s := { s with producerConnected := false, consumerConnected := false }
      (s.closeKafkaInfrastructure, false)
  else (s, false)

end KafkaState

/-! ## Sequences of calls -/

/-- A call, and the step at which an initialization fails, if it does. -/
inductive KafkaCall
  | initializeKafka (failsAt : Option InitStep)
  | closeKafka
deriving DecidableEq

/-- The state after a call, and whether the infrastructure is up according to the call. -/
def KafkaCall.exec (enabled : Bool) (call : KafkaCall) (s : KafkaState) : KafkaState × Bool :=
  match call with
  | .initializeKafka failsAt => s.initializeKafkaInfrastructure enabled failsAt
  | .closeKafka => (s.closeKafkaInfrastructure, false)

/-- The state after a sequence of calls. -/
def kafkaRun (enabled : Bool) (calls : List KafkaCall) : KafkaState :=
  calls.foldl (fun s call => (call.exec enabled s).1) .initial

/-- Neither client is connected, and no timer of the relay is set. -/
structure KafkaState.Released (s : KafkaState) : Prop where
  producer : s.producer = false
  consumer : s.consumer = false
  relayTimer : s.relay.relayTimer = false

/-- **The clients are released on every path**: after each call that closes or returns false; and
between the calls the producer is returned exactly when it is connected. -/
structure ReleasedOnEveryPath (enabled : Bool) (calls : List KafkaCall) : Prop where
  released : ∀ before call after, calls = before ++ call :: after →
    (call.exec enabled (kafkaRun enabled before)).2 = false →
      (call.exec enabled (kafkaRun enabled before)).1.Released
  returned : ∀ before after, calls = before ++ after →
    ((kafkaRun enabled before).getKafkaProducer = some .producer ↔
      (kafkaRun enabled before).producer = true)

/-- The producer is connected before this step, which fails. -/
def InitStep.afterProducer : InitStep → Bool
  | .consumerConnect | .subscribe | .run | .groupJoin => true
  | _ => false

/-- The consumer is. -/
def InitStep.afterConsumer : InitStep → Bool
  | .subscribe | .run | .groupJoin => true
  | _ => false

/-- An initialization that fails does so before it connects the producer, and finds it not
connected. -/
def FailsBeforeConnect (enabled : Bool) (s : KafkaState) : KafkaCall → Prop
  | .initializeKafka (some step) => enabled = true → s.producer = false ∧ step.afterProducer = false
  | _ => True

/-! ## What a call does -/

@[simp] theorem RelayProcess.stopOutboxRelay_relayTimer (s : RelayProcess) :
    s.stopOutboxRelay.relayTimer = false := by
  unfold stopOutboxRelay
  split_ifs with h
  · rfl
  · exact Bool.eq_false_iff.mpr h

namespace KafkaState

variable {s : KafkaState} {enabled : Bool}

/-- A failure leaves connected what was connected before it. -/
theorem initialize_failed (step : InitStep) (s : KafkaState) :
    s.initializeKafkaInfrastructure true (some step) =
      ({ producerConnected := false
         consumerConnected := false
         runningConsumer := none
         producer := s.producer || step.afterProducer
         consumer := s.consumer || step.afterConsumer
         relay := s.relay.stopOutboxRelay }, false) := by
  cases step <;> simp [initializeKafkaInfrastructure, connectAll, startMessageNotificationConsumer,
    attempt, closeKafkaInfrastructure, stopMessageNotificationConsumer, InitStep.afterProducer,
    InitStep.afterConsumer, bind, Except.bind]

/-- A success leaves both clients connected. -/
theorem initialize_succeeded (s : KafkaState) :
    s.initializeKafkaInfrastructure true none =
      ({ producerConnected := true
         consumerConnected := true
         runningConsumer := some .consumer
         producer := true
         consumer := true
         relay := s.relay.startOutboxRelay }, true) := by
  simp [initializeKafkaInfrastructure, connectAll, startMessageNotificationConsumer, attempt, bind,
    Except.bind, pure, Except.pure]

/-- The flags tell which clients are connected, both or none; only with both is the timer set. -/
structure Consistent (s : KafkaState) : Prop where
  producer : s.producerConnected = s.producer
  consumer : s.consumerConnected = s.consumer
  both : s.consumer = s.producer
  timer : s.producer = false → s.relay.relayTimer = false

theorem consistent_initial : initial.Consistent := ⟨rfl, rfl, rfl, fun _ => rfl⟩

/-- Closing releases what the flags tell. -/
theorem Consistent.close (h : s.Consistent) :
    s.closeKafkaInfrastructure.Consistent ∧ s.closeKafkaInfrastructure.Released := by
  obtain ⟨hp, hc, -, -⟩ := h
  have hproducer : s.closeKafkaInfrastructure.producer = false := by
    unfold closeKafkaInfrastructure stopMessageNotificationConsumer
    cases hs : s.producerConnected <;> cases hs' : s.consumerConnected <;> simp_all
  have hconsumer : s.closeKafkaInfrastructure.consumer = false := by
    unfold closeKafkaInfrastructure stopMessageNotificationConsumer
    cases hs : s.producerConnected <;> cases hs' : s.consumerConnected <;> simp_all
  have htimer : s.closeKafkaInfrastructure.relay.relayTimer = false := by
    unfold closeKafkaInfrastructure stopMessageNotificationConsumer
    cases s.producerConnected <;> cases s.consumerConnected <;> simp
  refine ⟨⟨hproducer.symm, hconsumer.symm, ?_, fun _ => htimer⟩, hproducer, hconsumer, htimer⟩
  rw [hconsumer, hproducer]

/-- **A call** that fails early keeps the flags right, and releases the clients when it says so. -/
theorem Consistent.exec (h : s.Consistent) {call : KafkaCall}
    (hcall : FailsBeforeConnect enabled s call) (hdown : enabled = false → s.producer = false) :
    (call.exec enabled s).1.Consistent ∧
      (enabled = false → (call.exec enabled s).1.producer = false) ∧
      ((call.exec enabled s).2 = false → (call.exec enabled s).1.Released) := by
  cases call with
  | closeKafka => exact ⟨h.close.1, fun _ => h.close.2.producer, fun _ => h.close.2⟩
  | initializeKafka failsAt =>
    cases enabled with
    | false =>
      -- nothing is connected while Kafka is off
      have hp := hdown rfl
      refine ⟨h, fun _ => hp, fun _ => ⟨hp, h.both.trans hp, h.timer hp⟩⟩
    | true =>
      cases failsAt with
      | none =>
        rw [KafkaCall.exec, initialize_succeeded]
        exact ⟨⟨rfl, rfl, rfl, by simp⟩, by simp, by simp⟩
      | some step =>
        -- a failure before the producer is one before the consumer
        obtain ⟨hp, hearly⟩ := hcall rfl
        have hlate : step.afterConsumer = false := by
          cases step <;> first | rfl | cases hearly
        rw [KafkaCall.exec, initialize_failed, hp, h.both, hp, hearly, hlate]
        exact ⟨⟨rfl, rfl, rfl, fun _ => RelayProcess.stopOutboxRelay_relayTimer _⟩, by simp,
          fun _ => ⟨rfl, rfl, RelayProcess.stopOutboxRelay_relayTimer _⟩⟩

end KafkaState

/-! ## Every path -/

theorem kafkaRun_concat (enabled : Bool) (calls : List KafkaCall) (call : KafkaCall) :
    kafkaRun enabled (calls ++ [call]) = (call.exec enabled (kafkaRun enabled calls)).1 := by
  rw [kafkaRun, List.foldl_append]
  rfl

/-- Calls that fail early keep the flags right. -/
theorem consistent_kafkaRun {enabled : Bool} {calls : List KafkaCall}
    (h : ∀ before call after, calls = before ++ call :: after →
      FailsBeforeConnect enabled (kafkaRun enabled before) call) :
    (kafkaRun enabled calls).Consistent ∧
      (enabled = false → (kafkaRun enabled calls).producer = false) := by
  induction calls using List.reverseRecOn with
  | nil => exact ⟨KafkaState.consistent_initial, fun _ => rfl⟩
  | append_singleton calls call ih =>
    -- the calls before the last one fail early as well
    have hbefore : ∀ before c after, calls = before ++ c :: after →
        FailsBeforeConnect enabled (kafkaRun enabled before) c := by
      rintro before c after rfl
      exact h before c (after ++ [call]) (by simp)
    obtain ⟨hcons, hdown⟩ := ih hbefore
    obtain ⟨hcons', hdown', -⟩ := hcons.exec (h calls call [] rfl) hdown
    rw [kafkaRun_concat]
    exact ⟨hcons', hdown'⟩

/-- **When the clients are released on every path**: exactly when each initialization that fails
does so before it connects the producer, and finds it not connected. -/
theorem releasedOnEveryPath_iff (enabled : Bool) (calls : List KafkaCall) :
    ReleasedOnEveryPath enabled calls ↔
      ∀ before call after, calls = before ++ call :: after →
        FailsBeforeConnect enabled (kafkaRun enabled before) call := by
  constructor
  · intro h before call after hsplit
    match call with
    | .closeKafka => trivial
    | .initializeKafka none => trivial
    | .initializeKafka (some step) =>
      rintro rfl
      -- the call returns false, and the producer is connected after it unless it fails early
      have hexec := KafkaState.initialize_failed step (kafkaRun true before)
      have hreleased := (h.released before _ after hsplit (by rw [KafkaCall.exec, hexec])).producer
      rw [KafkaCall.exec, hexec] at hreleased
      exact Bool.or_eq_false_iff.mp hreleased
  · intro h
    have hprefix : ∀ before after, calls = before ++ after →
        (kafkaRun enabled before).Consistent ∧
          (enabled = false → (kafkaRun enabled before).producer = false) := by
      rintro before after rfl
      apply consistent_kafkaRun
      rintro before' call after' rfl
      exact h before' call (after' ++ after) (by simp)
    refine ⟨?_, ?_⟩
    · intro before call after hsplit hdown
      obtain ⟨hcons, hoff⟩ := hprefix before (call :: after) hsplit
      exact (hcons.exec (h before call after hsplit) hoff).2.2 hdown
    · -- the producer is returned as its flag says
      intro before after hsplit
      obtain ⟨hcons, -⟩ := hprefix before after hsplit
      rw [KafkaState.getKafkaProducer, hcons.producer]
      cases (kafkaRun enabled before).producer <;> simp

/-- **The producer is left connected** by an initialization whose consumer cannot connect. -/
theorem producer_left_connected :
    ¬ ReleasedOnEveryPath true [.initializeKafka (some .consumerConnect)] := by
  intro h
  have hreleased := (h.released [] _ [] rfl (by decide)).producer
  revert hreleased
  decide

end MernChat
