import Mathlib.Data.List.Infix
import MernChat.Library.Transition
import MernChat.Runtime.Text

/-!
# The response interceptor

The axios instance of the frontend. Its response interceptor refreshes the session and sends a
request again, both through the instance itself. The answers of requests arrive in any order, and
so do the callbacks of promises run: the handlers of answers, the `finally` of a refresh, what
follows an `await`.

## Main definitions

* `interceptorRejects`, `refreshSession`, `intercept`: the functions of the module
* `InstanceCall`, `ApiClient`: calls of the instance, and the state of the page
* `ApiAction`, `apiSystem`: requests, answers and callbacks in any order
* `ApiStep`: the steps, case by case

## Main results

* `apiStep_cases`: every step is one of the cases
-/

namespace MernChat

open Library

/-! ## Requests -/

/-- `s.includes(part)`. -/
def includes (s part : JsString) : Bool := decide (part <:+: s)

/-- What is read of `RetryableRequestConfig`. -/
structure RequestConfig where
  url : Option JsString
  _retry : Bool

/-- The paths of authentication. -/
def authPaths : List JsString :=
  [js "/api/user/login", js "/api/user/signup", js "/api/user/refresh", js "/api/user/logout"]

def isAuthRequest (url : JsString) : Bool := authPaths.any (includes url)

/-- `request?.url ?? ""`. -/
def requestUrl (request : Option RequestConfig) : JsString := (request.bind (·.url)).getD []

/-- `!isUnauthorized || !request || request._retry || isAuthRequest`. -/
def interceptorRejects (request : Option RequestConfig) (status : Option ℕ) : Bool :=
  status != some 401 || request.isNone || request.any (·._retry) ||
    isAuthRequest (requestUrl request)

/-! ## The state -/

/-- Who called the instance: a caller of the module, `refreshSession`, or the interceptor to send a
request again. -/
inductive CallOrigin
  | caller
  | refresh
  | retry
deriving DecidableEq

/-- Where the promise of a call stands. -/
inductive RequestPhase
  /-- The attempt is in flight. -/
  | sent
  /-- It was answered, and the interceptor is to run. -/
  | fulfilled
  /-- It failed, with `error.config` or without, and the interceptor is to run. -/
  | rejected (config : Bool) (status : Option ℕ)
  /-- At `await refreshSession()`, for a refresh. -/
  | awaitsRefresh (n : ℕ)
  /-- At `return instance(request)`, for the promise of that call. -/
  | awaitsRetry (j : ℕ)
  | settled (ok : Bool)
deriving DecidableEq

/-- A call of the instance. It sends a request, which is named by the call that sent it first. -/
structure InstanceCall where
  config : RequestConfig
  origin : CallOrigin
  request : ℕ
  phase : RequestPhase

/-- A promise that `refreshPromise` was set to: the call it comes from, the call whose interceptor
started it, and how it was settled after its `finally`. -/
structure Refresh where
  call : ℕ
  startedBy : ℕ
  outcome : Option Bool

/-- The calls of the instance, the promises of refreshes, and the `auth:expired` events, each with
the refresh that was awaited. -/
structure ApiClient where
  calls : List InstanceCall
  refreshes : List Refresh
  refreshPromise : Option ℕ
  expired : List ℕ

namespace ApiClient

def initial : ApiClient := ⟨[], [], none, []⟩

def update (s : ApiClient) (i : ℕ) (f : InstanceCall → InstanceCall) : ApiClient :=
  { s with calls := s.calls.modify i f }

def setPhase (s : ApiClient) (i : ℕ) (phase : RequestPhase) : ApiClient :=
  s.update i fun call => { call with phase := phase }

def phase (s : ApiClient) (i : ℕ) : Option RequestPhase := (s.calls[i]?).map InstanceCall.phase

/-- How often a request was sent. -/
def sends (s : ApiClient) (request : ℕ) : ℕ := s.calls.countP fun call => call.request == request

end ApiClient

/-! ## The functions -/

section Functions

-- the config of a call, as axios merges it from what it is given
variable (mergeConfig : RequestConfig → RequestConfig)

/-- `instance(config)`. -/
def instanceCall (s : ApiClient) (config : RequestConfig) (origin : CallOrigin) (request : ℕ) :
    ApiClient :=
  { s with calls := s.calls ++ [⟨mergeConfig config, origin, request, .sent⟩] }

/-- `refreshSession`, called by the interceptor of a call, with the promise it returns. -/
def refreshSession (s : ApiClient) (i : ℕ) : ApiClient × ℕ :=
  match s.refreshPromise with
  | some n => (s, n)
  | none =>
    let post := instanceCall mergeConfig s ⟨some (js "/api/user/refresh"), false⟩ .refresh
      s.calls.length
    ({ post with
        refreshes := s.refreshes ++ [⟨s.calls.length, i, none⟩]
        refreshPromise := some s.refreshes.length },
      s.refreshes.length)

/-- The interceptor runs on the answer of a call. -/
def intercept (s : ApiClient) (i : ℕ) : Option ApiClient :=
  match s.calls[i]? with
  | none => none
  | some call =>
    match call.phase with
    | .fulfilled => some (s.setPhase i (.settled true))
    | .rejected config status =>
      if interceptorRejects (if config then some call.config else none) status then
        some (s.setPhase i (.settled false))
      else
        let refresh := refreshSession mergeConfig s i
        some (refresh.1.update i fun call =>
          { call with config._retry := true, phase := .awaitsRefresh refresh.2 })
    | _ => none

/-- The `finally` of a refresh. -/
def finallyRefresh (s : ApiClient) (n : ℕ) : Option ApiClient :=
  match s.refreshes[n]? with
  | none => none
  | some refresh =>
    match refresh.outcome, s.phase refresh.call with
    | none, some (.settled ok) =>
      some { s with
        refreshes := s.refreshes.modify n fun refresh => { refresh with outcome := some ok }
        refreshPromise := none }
    | _, _ => none

/-- What follows `await refreshSession()`. -/
def resume (s : ApiClient) (i : ℕ) : Option ApiClient :=
  match s.calls[i]? with
  | none => none
  | some call =>
    match call.phase with
    | .awaitsRefresh n =>
      match (s.refreshes[n]?).bind (·.outcome) with
      | some true =>
        some ((instanceCall mergeConfig s call.config .retry call.request).setPhase i
          (.awaitsRetry s.calls.length))
      | some false => some ({ s with expired := s.expired ++ [n] }.setPhase i (.settled false))
      | none => none
    | _ => none

/-- The promise of the interceptor is settled as that of the call it returned. -/
def settleRetry (s : ApiClient) (i : ℕ) : Option ApiClient :=
  match s.calls[i]? with
  | none => none
  | some call =>
    match call.phase with
    | .awaitsRetry j =>
      match s.phase j with
      | some (.settled ok) => some (s.setPhase i (.settled ok))
      | _ => none
    | _ => none

end Functions

/-! ## The system -/

/-- Callbacks of promises. -/
inductive ApiJob
  | intercept (i : ℕ)
  | finallyRefresh (n : ℕ)
  | resume (i : ℕ)
  | settleRetry (i : ℕ)

/-- How an attempt ends: with a response, or an error with its `config` or without. -/
inductive AttemptOutcome
  | response
  | error (config : Bool) (status : Option ℕ)

/-- The phase of a call whose attempt has ended. -/
def AttemptOutcome.phase : AttemptOutcome → RequestPhase
  | .response => .fulfilled
  | .error config status => .rejected config status

/-- A caller sends a request, an attempt ends, or a callback runs. -/
inductive ApiAction
  | request (config : RequestConfig)
  | answer (i : ℕ) (outcome : AttemptOutcome)
  | job (job : ApiJob)

section System

variable (mergeConfig : RequestConfig → RequestConfig)

def runJob (s : ApiClient) : ApiJob → Option ApiClient
  | .intercept i => intercept mergeConfig s i
  | .finallyRefresh n => finallyRefresh s n
  | .resume i => resume mergeConfig s i
  | .settleRetry i => settleRetry s i

/-- The attempt of a call ends. -/
def answer (s : ApiClient) (i : ℕ) (outcome : AttemptOutcome) : Option ApiClient :=
  match s.phase i with
  | some .sent => some (s.setPhase i outcome.phase)
  | _ => none

def apiStep (s : ApiClient) : ApiAction → Option ApiClient
  | .request config => some (instanceCall mergeConfig s config .caller s.calls.length)
  | .answer i outcome => answer s i outcome
  | .job job => runJob mergeConfig s job

/-- All pages, from their loading on. -/
def apiSystem : TransitionSystem ApiClient ApiAction where
  init s := s = .initial
  step := apiStep mergeConfig

end System

/-! ## Case by case -/

/-- A request that the interceptor does not reject has a config that is not sent again, of no path
of authentication. -/
theorem of_interceptorRejects_eq_false {config : Bool} {request : RequestConfig}
    {status : Option ℕ}
    (h : interceptorRejects (if config then some request else none) status = false) :
    config = true ∧ status = some 401 ∧ request._retry = false ∧
      isAuthRequest (requestUrl (some request)) = false := by
  cases config with
  | false =>
    simp only [interceptorRejects, Bool.false_eq_true, if_false, Option.isNone_none, Bool.or_true,
      Bool.true_or, reduceCtorEq] at h
  | true =>
    simp only [interceptorRejects, if_true, Bool.or_eq_false_iff, Option.any_some] at h
    obtain ⟨⟨⟨hstatus, -⟩, hretry⟩, hauth⟩ := h
    exact ⟨rfl, by simpa using hstatus, hretry, hauth⟩

variable {mergeConfig : RequestConfig → RequestConfig}

/-- The steps, case by case. -/
inductive ApiStep (mergeConfig : RequestConfig → RequestConfig) (s : ApiClient) :
    ApiAction → ApiClient → Prop
  /-- A caller sends a request. -/
  | request (config : RequestConfig) : ApiStep mergeConfig s (.request config)
      (instanceCall mergeConfig s config .caller s.calls.length)
  /-- An attempt ends. -/
  | answer {i : ℕ} (outcome : AttemptOutcome) {call : InstanceCall}
      (hcall : s.calls[i]? = some call) (hphase : call.phase = .sent) :
      ApiStep mergeConfig s (.answer i outcome) (s.setPhase i outcome.phase)
  /-- A response is passed on. -/
  | fulfil {i : ℕ} {call : InstanceCall} (hcall : s.calls[i]? = some call)
      (hphase : call.phase = .fulfilled) :
      ApiStep mergeConfig s (.job (.intercept i)) (s.setPhase i (.settled true))
  /-- An error is passed on. -/
  | reject {i : ℕ} {call : InstanceCall} {config : Bool} {status : Option ℕ}
      (hcall : s.calls[i]? = some call) (hphase : call.phase = .rejected config status) :
      ApiStep mergeConfig s (.job (.intercept i)) (s.setPhase i (.settled false))
  /-- The refresh in flight is awaited. -/
  | join {i n : ℕ} {call : InstanceCall} {status : Option ℕ} (hcall : s.calls[i]? = some call)
      (hphase : call.phase = .rejected true status) (hretry : call.config._retry = false)
      (hauth : isAuthRequest (requestUrl (some call.config)) = false)
      (hpromise : s.refreshPromise = some n) :
      ApiStep mergeConfig s (.job (.intercept i)) (s.update i fun call =>
        { call with config._retry := true, phase := .awaitsRefresh n })
  /-- A refresh is started, and awaited. -/
  | start {i : ℕ} {call : InstanceCall} {status : Option ℕ} (hcall : s.calls[i]? = some call)
      (hphase : call.phase = .rejected true status) (hretry : call.config._retry = false)
      (hauth : isAuthRequest (requestUrl (some call.config)) = false)
      (hpromise : s.refreshPromise = none) :
      ApiStep mergeConfig s (.job (.intercept i)) ((refreshSession mergeConfig s i).1.update i
        fun call => { call with config._retry := true, phase := .awaitsRefresh s.refreshes.length })
  /-- A refresh is settled. -/
  | finish {n : ℕ} {refresh : Refresh} {call : InstanceCall} {ok : Bool}
      (hrefresh : s.refreshes[n]? = some refresh) (houtcome : refresh.outcome = none)
      (hcall : s.calls[refresh.call]? = some call) (hphase : call.phase = .settled ok) :
      ApiStep mergeConfig s (.job (.finallyRefresh n))
        { s with
          refreshes := s.refreshes.modify n fun refresh => { refresh with outcome := some ok }
          refreshPromise := none }
  /-- The request is sent again after the refresh. -/
  | again {i n : ℕ} {call : InstanceCall} {refresh : Refresh} (hcall : s.calls[i]? = some call)
      (hphase : call.phase = .awaitsRefresh n) (hrefresh : s.refreshes[n]? = some refresh)
      (houtcome : refresh.outcome = some true) :
      ApiStep mergeConfig s (.job (.resume i))
        ((instanceCall mergeConfig s call.config .retry call.request).setPhase i
          (.awaitsRetry s.calls.length))
  /-- The refresh has failed. -/
  | expire {i n : ℕ} {call : InstanceCall} {refresh : Refresh} (hcall : s.calls[i]? = some call)
      (hphase : call.phase = .awaitsRefresh n) (hrefresh : s.refreshes[n]? = some refresh)
      (houtcome : refresh.outcome = some false) :
      ApiStep mergeConfig s (.job (.resume i))
        ({ s with expired := s.expired ++ [n] }.setPhase i (.settled false))
  /-- The second attempt has settled. -/
  | adopt {i j : ℕ} {call retry : InstanceCall} {ok : Bool} (hcall : s.calls[i]? = some call)
      (hphase : call.phase = .awaitsRetry j) (hretry : s.calls[j]? = some retry)
      (hok : retry.phase = .settled ok) :
      ApiStep mergeConfig s (.job (.settleRetry i)) (s.setPhase i (.settled ok))

theorem ApiClient.phase_eq_some {s : ApiClient} {i : ℕ} {phase : RequestPhase} :
    s.phase i = some phase ↔ ∃ call, s.calls[i]? = some call ∧ call.phase = phase := by
  rw [ApiClient.phase, Option.map_eq_some_iff]

theorem apiStep_intercept {s t : ApiClient} {i : ℕ} (h : intercept mergeConfig s i = some t) :
    ApiStep mergeConfig s (.job (.intercept i)) t := by
  rw [intercept] at h
  split at h
  · cases h
  · rename_i call hcall
    split at h
    · rename_i hphase
      cases h
      exact .fulfil hcall hphase
    · rename_i config status hphase
      cases hrejects : interceptorRejects (if config then some call.config else none) status with
      | true =>
        rw [if_pos hrejects] at h
        cases h
        exact .reject hcall hphase
      | false =>
        rw [if_neg (Bool.eq_false_iff.mp hrejects)] at h
        obtain rfl := Option.some.inj h
        obtain ⟨rfl, -, hretry, hauth⟩ := of_interceptorRejects_eq_false hrejects
        cases hpromise : s.refreshPromise with
        | none =>
          have hrefresh : (refreshSession mergeConfig s i).2 = s.refreshes.length := by
            rw [refreshSession, hpromise]
          rw [hrefresh]
          exact .start hcall hphase hretry hauth hpromise
        | some n =>
          have hrefresh : refreshSession mergeConfig s i = (s, n) := by
            rw [refreshSession, hpromise]
          rw [hrefresh]
          exact .join hcall hphase hretry hauth hpromise
    · cases h

theorem apiStep_finallyRefresh {s t : ApiClient} {n : ℕ} (h : finallyRefresh s n = some t) :
    ApiStep mergeConfig s (.job (.finallyRefresh n)) t := by
  rw [finallyRefresh] at h
  split at h
  · cases h
  · rename_i refresh hrefresh
    split at h
    · rename_i ok houtcome hphase
      cases h
      obtain ⟨call, hcall, hok⟩ := ApiClient.phase_eq_some.mp hphase
      exact .finish hrefresh houtcome hcall hok
    · cases h

theorem apiStep_resume {s t : ApiClient} {i : ℕ} (h : resume mergeConfig s i = some t) :
    ApiStep mergeConfig s (.job (.resume i)) t := by
  rw [resume] at h
  split at h
  · cases h
  · rename_i call hcall
    split at h
    · rename_i n hphase
      split at h
      · rename_i houtcome
        cases h
        obtain ⟨refresh, hrefresh, houtcome⟩ := Option.bind_eq_some_iff.mp houtcome
        exact .again hcall hphase hrefresh houtcome
      · rename_i houtcome
        cases h
        obtain ⟨refresh, hrefresh, houtcome⟩ := Option.bind_eq_some_iff.mp houtcome
        exact .expire hcall hphase hrefresh houtcome
      · cases h
    · cases h

theorem apiStep_settleRetry {s t : ApiClient} {i : ℕ} (h : settleRetry s i = some t) :
    ApiStep mergeConfig s (.job (.settleRetry i)) t := by
  rw [settleRetry] at h
  split at h
  · cases h
  · rename_i call hcall
    split at h
    · rename_i j hphase
      split at h
      · rename_i ok hok
        cases h
        obtain ⟨retry, hretry, hok⟩ := ApiClient.phase_eq_some.mp hok
        exact .adopt hcall hphase hretry hok
      · cases h
    · cases h

/-- **Every step is one of the cases.** -/
theorem apiStep_cases {s t : ApiClient} {action : ApiAction}
    (h : apiStep mergeConfig s action = some t) : ApiStep mergeConfig s action t := by
  cases action with
  | request config =>
    cases h
    exact .request config
  | answer i outcome =>
    rw [apiStep, answer] at h
    split at h
    · rename_i hphase
      cases h
      obtain ⟨call, hcall, hsent⟩ := ApiClient.phase_eq_some.mp hphase
      exact .answer outcome hcall hsent
    · cases h
  | job job =>
    cases job with
    | intercept i => exact apiStep_intercept h
    | finallyRefresh n => exact apiStep_finallyRefresh h
    | resume i => exact apiStep_resume h
    | settleRetry i => exact apiStep_settleRetry h

end MernChat
