import MernChat.Auth.RateLimit
import MernChat.Library.WindowCounter

/-!
# Credentials are throttled

The counters of the limiter are counters of fixed windows, and a request that gets past has found a
count up to the limit. The identity that is counted is the e-mail as well-formed text, and a request
is counted in the window in which its script is executed, whenever it gets past.

## Main definitions

* `RateLimitState.windows`: the counters and the scripts that were executed
* `CountedIn`, `ThrottlesCredentials`: what is counted, and what holds of it

## Main results

* `throttles_credentials`: it holds in every reachable state, and for every account
* `credentials_not_told_apart`: two e-mails that share a budget, and a window in which too many
  requests get past
-/

namespace MernChat

open Library Library.TransitionSystem

/-- The length of a window in milliseconds. -/
def WINDOW : Nat := 1000 * (15 * 60)

@[simp] theorem window_eq (route : CredentialRoute) :
    1000 * route.options.windowSeconds = WINDOW := by
  cases route <;> rfl

/-- Request `r` gets past the limiter. -/
def GetsPast (s : RateLimitState) (r : Nat) : Prop :=
  ∃ q time answer, s.requests r = some q ∧ q.answer = some (time, answer) ∧ answer.error = none

/-- Request `r` is refused. -/
def RefusedWith (s : RateLimitState) (r : Nat) (error : AppError) : Prop :=
  ∃ q time answer, s.requests r = some q ∧ q.answer = some (time, answer) ∧
    answer.error = some error

instance (s : RateLimitState) (r : Nat) : Decidable (GetsPast s r) :=
  decidable_of_iff ((s.requests r).any (fun q => q.answer.any fun a => a.2.error = none) = true)
    (by simp [GetsPast, Option.any_eq_true])

instance (s : RateLimitState) (r : Nat) (error : AppError) : Decidable (RefusedWith s r error) :=
  decidable_of_iff
    ((s.requests r).any (fun q => q.answer.any fun a => a.2.error = some error) = true)
    (by simp [RefusedWith, Option.any_eq_true])

section Throttling

variable (toLowerCase : JsString → JsString) (sha256 : List UInt8 → JsString)

/-- **Counted in a window.** The script of request `first` has created a counter, and that of
request `r`, for the same route and identity, was executed from then until the counter expires. -/
def CountedIn (s : RateLimitState) (first r : Nat) : Prop :=
  ∃ q₀ x₀ q x, s.requests first = some q₀ ∧ q₀.execution = some x₀ ∧ x₀.counter.count = 1 ∧
    s.requests r = some q ∧ q.execution = some x ∧ q.route = q₀.route ∧
    credentialIdentity toLowerCase q.email = credentialIdentity toLowerCase q₀.email ∧
    x₀.time ≤ x.time ∧ x.time ≤ x₀.time + 1000 * q₀.route.options.windowSeconds

/-- **Credentials are throttled**, in a state of the limiter. -/
structure ThrottlesCredentials (s : RateLimitState) : Prop where
  /-- Of the requests counted in a window at most `limit` get past. -/
  limit : ∀ first q₀ (rs : List Nat), s.requests first = some q₀ → rs.Nodup →
    (∀ r ∈ rs, CountedIn toLowerCase s first r ∧ GetsPast s r) →
      rs.length ≤ q₀.route.options.limit
  /-- One that is refused for their number comes after `limit` others of its own identity. -/
  budget : ∀ r q, s.requests r = some q → RefusedWith s r tooManyRequests →
    ∃ first, CountedIn toLowerCase s first r ∧ ∃ rs : List Nat, rs.Nodup ∧
      rs.length = q.route.options.limit ∧ r ∉ rs ∧
        ∀ r' ∈ rs, CountedIn toLowerCase s first r'
  /-- A counter expires within a window, -/
  expiry : ∀ key counter, s.counters key = some counter →
    ∃ t, counter.expiresAt = some t ∧ s.clock ≤ t ∧ t ≤ s.clock + WINDOW
  /-- so that after one there is none. -/
  returns : ∀ ms t, WINDOW < ms → rateLimitStep toLowerCase sha256 s (.tick ms) = some t →
    ∀ key, t.counters key = none
  /-- A request gets past only with a count of its script, -/
  answered : ∀ r q, s.requests r = some q → GetsPast s r →
    ∃ x, q.execution = some x ∧ x.counter.count ≤ q.route.options.limit
  /-- and it is refused if the call fails. -/
  failed : ∀ r t, rateLimitStep toLowerCase sha256 s (.fail r) = some t →
    RefusedWith t r securityControlUnavailable

/-- **Requests for one account are counted on one key**, whatever spellings of the e-mail the user
is found under. -/
def AccountsOnOneKey : Prop :=
  ∀ (route : CredentialRoute) (email email' : JsString) (user : UserRecord)
    (db db' db₁ db₁' : AuthDatabase),
    findByEmail (normalizeEmail toLowerCase email) true db = .ok (some user, db₁) →
    findByEmail (normalizeEmail toLowerCase email') true db' = .ok (some user, db₁') →
      rateLimitKey toLowerCase sha256 route.options
          (credentialRateLimitKey toLowerCase (some email)) =
        rateLimitKey toLowerCase sha256 route.options
          (credentialRateLimitKey toLowerCase (some email'))

/-- The counters, and the scripts that were executed. -/
def RateLimitState.windows (s : RateLimitState) : Windows JsString Nat where
  clock := s.clock
  counters key := (s.counters key).map fun c => ⟨c.count, c.expiresAt.getD 0⟩
  hits r := (s.requests r).bind fun q => q.execution.map fun x =>
    ⟨q.key toLowerCase sha256, x.time, x.counter.count, x.counter.expiresAt.getD 0⟩

/-- The invariant. -/
structure RateLimitInv (s : RateLimitState) : Prop where
  counted : (s.windows toLowerCase sha256).WellFormed WINDOW
  expiry : ∀ key counter, s.counters key = some counter → counter.expiresAt.isSome = true
  answers : ∀ r q time answer, s.requests r = some q → q.answer = some (time, answer) →
    (answer.error = none →
      ∃ x, q.execution = some x ∧ x.counter.count ≤ q.route.options.limit) ∧
    (answer.error = some tooManyRequests →
      ∃ x, q.execution = some x ∧ q.route.options.limit < x.counter.count)

end Throttling

/-! ## The invariant -/

namespace RateLimitInv

variable {toLowerCase : JsString → JsString} {sha256 : List UInt8 → JsString}
  {s t : RateLimitState} {r : Nat} {q : CredentialRequest}

/-- What a handler answers. -/
theorem answer_cases (options : RateLimitOptions) (now : Nat) (result : Option Nat) :
    ((createRedisRateLimiter options now result).error = none ∧
      ∃ count, result = some count ∧ count ≤ options.limit) ∨
    ((createRedisRateLimiter options now result).error = some tooManyRequests ∧
      ∃ count, result = some count ∧ options.limit < count) ∨
    ((createRedisRateLimiter options now result).error = some securityControlUnavailable ∧
      result = none) := by
  cases result with
  | none => exact Or.inr (Or.inr ⟨rfl, rfl⟩)
  | some count =>
    -- the count is compared with the limit
    by_cases h : options.limit < count
    · right
      left
      exact ⟨by simp [createRedisRateLimiter, h], count, rfl, h⟩
    · left
      exact ⟨by simp [createRedisRateLimiter, h], count, rfl, not_lt.mp h⟩

/-- A request of the same key and with the same execution leaves what is counted. -/
theorem windows_setRequest {q' : CredentialRequest}
    (h : (s.requests r).bind (fun q => q.execution.map fun x => (q.key toLowerCase sha256, x)) =
      q'.execution.map fun x => (q'.key toLowerCase sha256, x)) :
    (s.setRequest r q').windows toLowerCase sha256 = s.windows toLowerCase sha256 := by
  -- the counters are not touched, and the hits are read off keys and executions
  have hhits : ((s.setRequest r q').windows toLowerCase sha256).hits =
      (s.windows toLowerCase sha256).hits := by
    funext r'
    by_cases hr : r' = r
    · subst hr
      have hmap := congrArg (Option.map fun p : JsString × Execution =>
        (⟨p.1, p.2.time, p.2.counter.count, p.2.counter.expiresAt.getD 0⟩ : Hit JsString)) h
      simpa [RateLimitState.windows, Option.map_bind, Function.comp_def] using hmap.symm
    · simp only [RateLimitState.windows, RateLimitState.setRequest_of_ne _ hr]
  exact congrArg (Windows.mk _ _) hhits

/-- A request is set, counted as it was, and answered according to its count. -/
theorem setRequest (h : RateLimitInv toLowerCase sha256 s) {q' : CredentialRequest}
    (hq : (s.requests r).bind (fun q => q.execution.map fun x => (q.key toLowerCase sha256, x)) =
      q'.execution.map fun x => (q'.key toLowerCase sha256, x))
    (hanswer : ∀ time answer, q'.answer = some (time, answer) →
      (answer.error = none →
        ∃ x, q'.execution = some x ∧ x.counter.count ≤ q'.route.options.limit) ∧
      (answer.error = some tooManyRequests →
        ∃ x, q'.execution = some x ∧ q'.route.options.limit < x.counter.count)) :
    RateLimitInv toLowerCase sha256 (s.setRequest r q') := by
  refine ⟨windows_setRequest hq ▸ h.counted, h.expiry, ?_⟩
  -- the other requests have the answers they had
  intro r' q time answer hr' hq'
  by_cases hr : r' = r
  · subst hr
    obtain rfl := Option.some.inj ((RateLimitState.setRequest_self ..).symm.trans hr')
    exact hanswer time answer hq'
  · rw [RateLimitState.setRequest_of_ne _ hr] at hr'
    exact h.answers r' q time answer hr' hq'

/-- A request is answered. -/
theorem answer (h : RateLimitInv toLowerCase sha256 s) (hr : s.requests r = some q)
    {result : Option Nat}
    (hresult : ∀ count, result = some count →
      ∃ x, q.execution = some x ∧ x.counter.count = count) :
    RateLimitInv toLowerCase sha256 (s.answer r q result) := by
  refine h.setRequest (by rw [hr]; rfl) ?_
  intro time answer heq
  obtain rfl : createRedisRateLimiter q.route.options s.clock result = answer :=
    (Prod.mk.inj (Option.some.inj heq)).2
  rcases answer_cases q.route.options s.clock result with
    ⟨herror, count, hcount, hle⟩ | ⟨herror, count, hcount, hlt⟩ | ⟨herror, -⟩
  · obtain ⟨x, hx, rfl⟩ := hresult count hcount
    refine ⟨fun _ => ⟨x, hx, hle⟩, fun h' => ?_⟩
    rw [herror] at h'
    cases h'
  · obtain ⟨x, hx, rfl⟩ := hresult count hcount
    refine ⟨fun h' => ?_, fun _ => ⟨x, hx, hlt⟩⟩
    rw [herror] at h'
    cases h'
  · -- the third answer is neither of the two that are told of
    refine ⟨fun h' => ?_, fun h' => ?_⟩
    · rw [herror] at h'
      cases h'
    · rw [herror] at h'
      exact absurd h' (by decide)

/-- What the script leaves on a key is the next counter of its window. -/
theorem script_eq (h : RateLimitInv toLowerCase sha256 s) {route : CredentialRoute}
    {key : JsString} {counter : Counter}
    (hscript : INCREMENT_SCRIPT s.clock route.options.windowSeconds (s.counters key) =
      some counter) :
    ∃ d, counter.expiresAt = some d ∧ WindowCounter.next WINDOW s.clock
      ((s.windows toLowerCase sha256).counters key) = ⟨counter.count, d⟩ := by
  unfold INCREMENT_SCRIPT at hscript
  rw [window_eq] at hscript
  cases hc : s.counters key with
  | none =>
    -- the key is created at one, and expires
    rw [hc] at hscript
    obtain rfl := Option.some.inj hscript
    exact ⟨s.clock + WINDOW, rfl, by simp [RateLimitState.windows, hc, WindowCounter.next]⟩
  | some c =>
    obtain ⟨d, hd⟩ := Option.isSome_iff_exists.mp (h.expiry key c hc)
    have hwindow : (s.windows toLowerCase sha256).counters key = some ⟨c.count, d⟩ := by
      simp [RateLimitState.windows, hc, hd]
    -- a counter that is there was created by a hit, and is not at zero
    obtain ⟨-, i, x, hx, -, hcount, -⟩ := h.counted.live key _ hwindow
    obtain ⟨-, -, -, hpos, -⟩ := h.counted.bounds i x hx
    have hne : c.count ≠ 0 := by
      rw [hcount] at hpos
      exact Nat.one_le_iff_ne_zero.mp hpos
    rw [hc, incr] at hscript
    split_ifs at hscript
    · rw [Option.map_some, if_neg (by simpa using hne)] at hscript
      obtain rfl := Option.some.inj hscript
      exact ⟨d, hd, by rw [hwindow]; rfl⟩
    · cases hscript

/-- The script is a hit. -/
theorem windows_executeScript (h : RateLimitInv toLowerCase sha256 s)
    (ht : executeScript toLowerCase sha256 s r q = some t) :
    t.windows toLowerCase sha256 = (s.windows toLowerCase sha256).hit WINDOW r
      (q.key toLowerCase sha256) ∧
    (∀ key counter, t.counters key = some counter → counter.expiresAt.isSome = true) ∧
    ∃ x, t.requests = Function.update s.requests r (some { q with execution := some x }) := by
  obtain ⟨counter, hcounter, rfl⟩ := Option.map_eq_some_iff.mp ht
  obtain ⟨d, hd, hnext⟩ := h.script_eq hcounter
  refine ⟨?_, ?_, _, rfl⟩
  · have hclock : (s.windows toLowerCase sha256).clock = s.clock := rfl
    rw [Windows.hit, hclock, hnext]
    -- the counter of the key and the hit of the request, and nothing else
    refine congrArg₂ (Windows.mk s.clock) ?_ ?_
    · funext key
      by_cases hkey : key = q.key toLowerCase sha256
      · subst hkey
        simp [RateLimitState.setRequest, hd]
      · simp [RateLimitState.setRequest, RateLimitState.windows, Function.update_of_ne hkey]
    · funext r'
      by_cases hr : r' = r
      · subst hr
        simp [RateLimitState.setRequest, hd, CredentialRequest.key]
      · simp [RateLimitState.setRequest, RateLimitState.windows, Function.update_of_ne hr]
  · intro key c hc
    have hupdate : Function.update s.counters (q.key toLowerCase sha256) (some counter) key =
      some c := hc
    by_cases hkey : key = q.key toLowerCase sha256
    · rw [hkey, Function.update_self, Option.some.injEq] at hupdate
      rw [← hupdate, hd]
      rfl
    · rw [Function.update_of_ne hkey] at hupdate
      exact h.expiry key c hupdate

/-- **The script is executed.** -/
theorem execute (h : RateLimitInv toLowerCase sha256 s) (hr : s.requests r = some q)
    (hx : q.execution = none) (ht : executeScript toLowerCase sha256 s r q = some t) :
    RateLimitInv toLowerCase sha256 t := by
  obtain ⟨hwindows, hexpiry, x, hrequests⟩ := h.windows_executeScript ht
  refine ⟨?_, hexpiry, ?_⟩
  · rw [hwindows]
    exact h.counted.hit (by simp [RateLimitState.windows, hr, hx]) _
  · intro r' q' time answer hr' hanswer
    rw [hrequests] at hr'
    by_cases hr'' : r' = r
    · rw [hr'', Function.update_self] at hr'
      obtain rfl := Option.some.inj hr'
      -- it can only have been answered that the call failed
      have hold := h.answers r q time answer hr hanswer
      refine ⟨fun herror => ?_, fun herror => ?_⟩
      · obtain ⟨_, hsome, -⟩ := hold.1 herror
        rw [hx] at hsome
        cases hsome
      · obtain ⟨_, hsome, -⟩ := hold.2 herror
        rw [hx] at hsome
        cases hsome
    · rw [Function.update_of_ne hr''] at hr'
      exact h.answers r' q' time answer hr' hanswer

/-- **Time passes.** -/
theorem tick (h : RateLimitInv toLowerCase sha256 s) {ms : Nat}
    (ht : rateLimitStep toLowerCase sha256 s (.tick ms) = some t) :
    t.windows toLowerCase sha256 = (s.windows toLowerCase sha256).tick ms ∧
      RateLimitInv toLowerCase sha256 t := by
  obtain rfl := Option.some.inj ht
  have hwindows : RateLimitState.windows toLowerCase sha256 { s with
      clock := s.clock + ms
      counters := fun key => (s.counters key).bind (unexpired (s.clock + ms)) } =
      (s.windows toLowerCase sha256).tick ms := by
    refine congrArg (fun counters => Windows.mk _ counters _) ?_
    funext key
    cases hc : s.counters key with
    | none => simp [RateLimitState.windows, hc]
    | some c =>
      obtain ⟨d, hd⟩ := Option.isSome_iff_exists.mp (h.expiry key c hc)
      -- both sides drop what has expired by now
      by_cases hlt : d < s.clock + ms
      · simp [RateLimitState.windows, hc, unexpired, hd, hlt, Option.filter_some, not_le.mpr hlt]
      · simp [RateLimitState.windows, hc, unexpired, hd, hlt, Option.filter_some, not_lt.mp hlt]
  refine ⟨hwindows, ?_, ?_, h.answers⟩
  · rw [hwindows]
    exact h.counted.tick ms
  · intro key counter hcounter
    obtain ⟨c, hc, hunexpired⟩ := Option.bind_eq_some_iff.mp hcounter
    unfold unexpired at hunexpired
    split_ifs at hunexpired
    exact Option.some.inj hunexpired ▸ h.expiry key c hc

theorem step (h : RateLimitInv toLowerCase sha256 s) {a : RateLimitAction}
    (ht : rateLimitStep toLowerCase sha256 s a = some t) : RateLimitInv toLowerCase sha256 t := by
  cases a with
  | receive r route email =>
    -- a request that is not counted yet
    rw [rateLimitStep] at ht
    split_ifs at ht with hr
    exact Option.some.inj ht ▸ h.setRequest (by rw [hr]; rfl) (by simp)
  | execute r =>
    obtain ⟨q, hr, ht⟩ := Option.bind_eq_some_iff.mp ht
    split_ifs at ht with hx
    exact h.execute hr hx ht
  | reply r =>
    -- the answer is made from the count of the request's own script
    obtain ⟨q, hr, ht⟩ := Option.bind_eq_some_iff.mp ht
    obtain ⟨x, hx, ht⟩ := Option.bind_eq_some_iff.mp ht
    split_ifs at ht
    exact Option.some.inj ht ▸ h.answer hr fun count hcount =>
      ⟨x, hx, Option.some.inj hcount⟩
  | fail r =>
    obtain ⟨q, hr, ht⟩ := Option.bind_eq_some_iff.mp ht
    split_ifs at ht
    exact Option.some.inj ht ▸ h.answer hr fun count hcount => by cases hcount
  | tick ms => exact (h.tick ht).2

theorem initial (hc : ∀ key, s.counters key = none) (hr : ∀ r, s.requests r = none) :
    RateLimitInv toLowerCase sha256 s := by
  refine ⟨.initial ?_ ?_, ?_, ?_⟩
  · intro key
    simp [RateLimitState.windows, hc]
  · intro r
    simp [RateLimitState.windows, hr]
  · intro key counter h
    rw [hc] at h
    cases h
  · intro r q time answer h
    rw [hr] at h
    cases h

end RateLimitInv

/-! ## Every run -/

section Runs

variable {toLowerCase : JsString → JsString} {sha256 : List UInt8 → JsString}
  {s : RateLimitState}

theorem hits_eq_some {r : Nat} {y : Hit JsString} :
    (s.windows toLowerCase sha256).hits r = some y ↔ ∃ q x, s.requests r = some q ∧
      q.execution = some x ∧ y = ⟨q.key toLowerCase sha256, x.time, x.counter.count,
        x.counter.expiresAt.getD 0⟩ := by
  simp only [RateLimitState.windows, Option.bind_eq_some_iff, Option.map_eq_some_iff]
  constructor
  · rintro ⟨q, hq, x, hx, rfl⟩
    exact ⟨q, x, hq, hx, rfl⟩
  · rintro ⟨q, x, hq, hx, rfl⟩
    exact ⟨q, hq, x, hx, rfl⟩

/-- Requests are counted in a window by route and identity. -/
theorem countedIn_iff (hlower : LowerCase toLowerCase) (hsha : Function.Injective sha256)
    {first r : Nat} : CountedIn toLowerCase s first r ↔
      Windows.Counted WINDOW (s.windows toLowerCase sha256) first r := by
  constructor
  · rintro ⟨q₀, x₀, q, x, hq₀, hx₀, h1, hq, hx, hroute, hidentity, hge, hle⟩
    refine ⟨_, _, hits_eq_some.mpr ⟨q₀, x₀, hq₀, hx₀, rfl⟩, hits_eq_some.mpr ⟨q, x, hq, hx, rfl⟩,
      h1, ?_, hge, ?_⟩
    · exact (rateLimitKey_eq_iff hlower hsha).mpr ⟨hroute, hidentity⟩
    · rwa [window_eq] at hle
  · rintro ⟨y₀, y, hy₀, hy, h1, hkey, hge, hle⟩
    obtain ⟨q₀, x₀, hq₀, hx₀, rfl⟩ := hits_eq_some.mp hy₀
    obtain ⟨q, x, hq, hx, rfl⟩ := hits_eq_some.mp hy
    obtain ⟨hroute, hidentity⟩ := (rateLimitKey_eq_iff hlower hsha).mp hkey
    refine ⟨q₀, x₀, q, x, hq₀, hx₀, h1, hq, hx, hroute, hidentity, hge, ?_⟩
    rw [window_eq]
    exact hle

theorem rateLimitInv_of_reachable
    (h : (rateLimitSystem toLowerCase sha256).Reachable Guard.all s) :
    RateLimitInv toLowerCase sha256 s := by
  apply h.invariant
  · rintro s ⟨hc, hr⟩
    exact .initial hc hr
  · intro s a t hs _ ht
    exact hs.step ht

/-- **Credentials are throttled.** For every run of requests to any number of instances: of the
requests of one route and identity that are counted between the creation of a counter and its
expiry at most `limit` get past; only `limit` others of the same identity make one be refused for
their number; every counter expires; a request whose call fails is refused; and requests for one
account are counted on one key. -/
theorem throttles_credentials (hlower : LowerCase toLowerCase) (hsha : Function.Injective sha256)
    (h : (rateLimitSystem toLowerCase sha256).Reachable Guard.all s) :
    ThrottlesCredentials toLowerCase sha256 s ∧ AccountsOnOneKey toLowerCase sha256 := by
  have hinv := rateLimitInv_of_reachable h
  -- what the answers say of the counts
  have hanswered : ∀ r q, s.requests r = some q → GetsPast s r →
      ∃ x, q.execution = some x ∧ x.counter.count ≤ q.route.options.limit := by
    rintro r q hq ⟨q', time, answer, hq', hanswer, herror⟩
    obtain rfl := Option.some.inj (hq.symm.trans hq')
    exact (hinv.answers r q time answer hq hanswer).1 herror
  have hexpiry : ∀ key counter, s.counters key = some counter →
      ∃ t, counter.expiresAt = some t ∧ s.clock ≤ t ∧ t ≤ s.clock + WINDOW := by
    intro key counter hcounter
    obtain ⟨t, ht⟩ := Option.isSome_iff_exists.mp (hinv.expiry key counter hcounter)
    have hwindow : (s.windows toLowerCase sha256).counters key = some ⟨counter.count, t⟩ := by
      simp [RateLimitState.windows, hcounter, ht]
    exact ⟨t, ht, hinv.counted.deadline_le hwindow⟩
  refine ⟨⟨?limit, ?budget, hexpiry, ?returns, hanswered, ?failed⟩, ?accounts⟩
  case limit =>
    intro first q₀ rs hq₀ hnodup hrs
    -- the counts of one window are distinct, and those of the requests are within the limit
    refine hinv.counted.length_le (i := first) hnodup fun r hr => ?_
    obtain ⟨hcounted, hpast⟩ := hrs r hr
    refine ⟨(countedIn_iff hlower hsha).mp hcounted, fun y hy => ?_⟩
    obtain ⟨q, x, hq, hx, rfl⟩ := hits_eq_some.mp hy
    obtain ⟨q₀', -, q', -, hq₀', -, -, hq', -, hroute, -⟩ := hcounted
    obtain rfl := Option.some.inj (hq₀.symm.trans hq₀')
    obtain rfl := Option.some.inj (hq.symm.trans hq')
    obtain ⟨x', hx', hle⟩ := hanswered r q hq hpast
    obtain rfl := Option.some.inj (hx.symm.trans hx')
    exact hroute ▸ hle
  case budget =>
    rintro r q hq ⟨q', time, answer, hq', hanswer, herror⟩
    obtain rfl := Option.some.inj (hq.symm.trans hq')
    -- a count beyond the limit has a hit for every number below it
    obtain ⟨x, hx, hlt⟩ := (hinv.answers r q time answer hq hanswer).2 herror
    obtain ⟨first, hfirst, rs, hnodup, hlength, hnot, hrs⟩ :=
      hinv.counted.exists_counted (hits_eq_some.mpr ⟨q, x, hq, hx, rfl⟩) hlt
    exact ⟨first, (countedIn_iff hlower hsha).mpr hfirst, rs, hnodup, hlength, hnot,
      fun r' hr' => (countedIn_iff hlower hsha).mpr (hrs r' hr')⟩
  case returns =>
    intro ms t hms ht key
    -- every counter expires within the time that has passed
    obtain rfl := Option.some.inj ht
    show (s.counters key).bind (unexpired (s.clock + ms)) = none
    cases hc : s.counters key with
    | none => rfl
    | some counter =>
      obtain ⟨d, hd, -, hle⟩ := hexpiry key counter hc
      have hlt : d < s.clock + ms := by omega
      simp [unexpired, hd, hlt]
  case failed =>
    intro r t ht
    obtain ⟨q, hr, ht⟩ := Option.bind_eq_some_iff.mp ht
    split_ifs at ht
    obtain rfl := Option.some.inj ht
    exact ⟨_, _, _, RateLimitState.setRequest_self .., rfl, rfl⟩
  case accounts =>
    intro route email email' user db db' db₁ db₁' hfound hfound'
    exact (rateLimitKey_eq_iff hlower hsha).mpr ⟨rfl, credentialIdentity_of_account hfound hfound'⟩

end Runs

/-! ## E-mails that share a budget -/

/-- A digest without collisions. -/
def sampleSha256 (bytes : List UInt8) : JsString := bytes.map UInt8.toUInt16

theorem sampleSha256_injective : Function.Injective sampleSha256 := by
  refine List.map_injective_iff.mpr fun a b h => ?_
  have hval := congrArg UInt16.toNat h
  rw [UInt8.toNat_toUInt16, UInt8.toNat_toUInt16] at hval
  exact UInt8.toNat_inj.mp hval

def sampleSystem : TransitionSystem RateLimitState RateLimitAction :=
  rateLimitSystem (List.map asciiLower) sampleSha256

def sampleStart : RateLimitState := ⟨0, fun _ => none, fun _ => none⟩

theorem reachable_sampleStart : sampleSystem.Reachable Guard.all sampleStart :=
  .init ⟨fun _ => rfl, fun _ => rfl⟩

def sampleLogin (email : JsString) (r : Nat) : List RateLimitAction :=
  [.receive r .login (some email), .execute r, .reply r]

/-- Five logins, and a sixth one of the same identity. -/
theorem throttles_credentials_sample :
    ∃ s, sampleSystem.runFrom sampleStart
        ((List.range 5).flatMap (sampleLogin (js " Ada@example.org")) ++
          sampleLogin (js "ada@example.org") 5) = some s ∧
      RefusedWith s 5 tooManyRequests ∧
      ThrottlesCredentials (List.map asciiLower) sampleSha256 s ∧
      AccountsOnOneKey (List.map asciiLower) sampleSha256 := by
  obtain ⟨s, hrun, hrefused⟩ := exists_of_any
    (o := sampleSystem.runFrom sampleStart
      ((List.range 5).flatMap (sampleLogin (js " Ada@example.org")) ++
        sampleLogin (js "ada@example.org") 5))
    (fun s => RefusedWith s 5 tooManyRequests) (by decide +kernel)
  exact ⟨s, hrun, hrefused, throttles_credentials lowerCase_asciiLower sampleSha256_injective
    (reachable_sampleStart.of_runFrom hrun)⟩

/-- Request `r` gets past between the creation of a counter by the script of request `first`, for
the same route and e-mail, and its expiry. -/
def GetsPastBetween (s : RateLimitState) (first r : Nat) : Prop :=
  (s.requests first).any (fun q₀ => q₀.execution.any fun x₀ => x₀.counter.count = 1 ∧
    (s.requests r).any (fun q => (q.route = q₀.route ∧ q.email = q₀.email) ∧
      q.answer.any fun a => a.2.error = none ∧ x₀.time ≤ a.1 ∧
        a.1 ≤ x₀.time + 1000 * q₀.route.options.windowSeconds)) = true

instance (s : RateLimitState) (first r : Nat) : Decidable (GetsPastBetween s first r) :=
  inferInstanceAs (Decidable (_ = true))

/-- **Two e-mails share a budget, and more than `limit` requests get past in a window.** Unpaired
surrogates are one character as UTF-8, and so five logins with one of them use up the budget of
another one, which a login without them finds in full. And the answers to five requests may wait
for the next window, which a sixth request opens. -/
theorem credentials_not_told_apart :
    (normalizeEmail (List.map asciiLower) (0xD800 :: js "@example.org") ≠
        normalizeEmail (List.map asciiLower) (0xDBFF :: js "@example.org") ∧
      (∃ s, sampleSystem.runFrom sampleStart
        ((List.range 5).flatMap (sampleLogin (0xD800 :: js "@example.org")) ++
          sampleLogin (0xDBFF :: js "@example.org") 5) = some s ∧
        RefusedWith s 5 tooManyRequests) ∧
      ∃ s, sampleSystem.runFrom sampleStart (sampleLogin (0xDBFF :: js "@example.org") 5) =
        some s ∧ GetsPast s 5) ∧
    ∃ s, sampleSystem.runFrom sampleStart
        ((List.range 5).flatMap (fun r =>
          [.receive r .login (some (js "ada@example.org")), .execute r]) ++ [.tick (WINDOW + 1)] ++
          sampleLogin (js "ada@example.org") 5 ++ (List.range 5).map .reply) = some s ∧
      CredentialRoute.login.options.limit < (List.range 6).length ∧
      ∀ r ∈ List.range 6, GetsPastBetween s 5 r := by
  refine ⟨⟨by decide, ?_, ?_⟩, ?_⟩
  · exact exists_of_any (fun s => RefusedWith s 5 tooManyRequests) (by decide +kernel)
  · exact exists_of_any (fun s => GetsPast s 5) (by decide +kernel)
  · exact exists_of_any (fun s => CredentialRoute.login.options.limit < (List.range 6).length ∧
      ∀ r ∈ List.range 6, GetsPastBetween s 5 r) (by decide +kernel)

end MernChat
