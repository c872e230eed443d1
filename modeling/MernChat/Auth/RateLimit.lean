import MernChat.Auth.Passwords

/-!
# Rate limits of credentials

A request to sign up or to log in is counted in Redis, on a key made of the route and a digest of
the e-mail. A script increments the counter, and gives a new one the end of its window. Requests
reach Redis in any order, and a call may fail before or after its script was executed.

Times are milliseconds since 1970, and the clock of Redis is that of its clients.

## Main definitions

* `credentialRateLimitKey`, `rateLimitKey`: what is counted
* `INCREMENT_SCRIPT`, `createRedisRateLimiter`: the counter, and the answer to a request
* `rateLimitSystem`: requests to any number of instances
* `credentialIdentity`: who a request claims to be

## Main results

* `rateLimitKey_eq_iff`: keys are those of the routes and identities
* `credentialIdentity_of_account`: requests for one account have one identity
-/

namespace MernChat

open Library

/-! ## Letter case -/

/-- What is known of `toLowerCase`: it is the usual one on ASCII, it changes nothing the second
time, and it neither makes white space nor removes it. -/
structure LowerCase (toLowerCase : JsString → JsString) : Prop where
  ascii : ∀ s, Ascii s → toLowerCase s = s.map asciiLower
  idempotent : ∀ s, toLowerCase (toLowerCase s) = toLowerCase s
  trimmed : ∀ s, trim (toLowerCase (trim s)) = toLowerCase (trim s)

/-- ASCII letters in lower case, as a `toLowerCase` of its own. -/
theorem lowerCase_asciiLower : LowerCase (List.map asciiLower) where
  ascii _ _ := rfl
  idempotent s := by
    rw [List.map_map]
    exact List.map_congr_left fun c _ => asciiLower_asciiLower c
  trimmed s := by rw [trim_map_asciiLower, trim_trim]

/-! ## The keys -/

structure RateLimitOptions where
  name : JsString
  limit : Nat
  windowSeconds : Nat

/-- The routes with a limit. -/
inductive CredentialRoute
  | signup
  | login
deriving DecidableEq

def authRateLimit (name : JsString) : RateLimitOptions where
  name := name
  limit := 5
  windowSeconds := 15 * 60

def CredentialRoute.options : CredentialRoute → RateLimitOptions
  | .signup => authRateLimit (js "signup")
  | .login => authRateLimit (js "login")

section Keys

variable (toLowerCase : JsString → JsString) (sha256 : List UInt8 → JsString)

/-- `crypto.createHash("sha256").update(value).digest("hex")`. -/
def digest (value : JsString) : JsString := sha256 (utf8Encode value)

/-- `email` is that of the body, where there is one and it is a string. -/
def credentialRateLimitKey (email : Option JsString) : JsString :=
  toLowerCase (trim (email.getD (js "anonymous")))

/-- The empty text is falsy. -/
def orAnonymous (value : JsString) : JsString := if value = [] then js "anonymous" else value

def rateLimitKey (options : RateLimitOptions) (value : JsString) : JsString :=
  let rawKey := orAnonymous (toLowerCase (trim value))
  js "chatapp:ratelimit:" ++ options.name ++ js ":" ++ digest sha256 rawKey

/-- **The identity** of a request: the e-mail as the service normalizes it, as well-formed text. -/
def credentialIdentity (email : Option JsString) : JsString :=
  match email with
  | some email => toWellFormed (orAnonymous (normalizeEmail toLowerCase email))
  | none => js "anonymous"

end Keys

/-! ## The counter -/

structure Counter where
  count : Nat
  expiresAt : Option Nat
deriving DecidableEq

/-- `INCR`, which fails on the greatest 64-bit integer. -/
def incr : Option Counter → Option Counter
  | none => some ⟨1, none⟩
  | some counter =>
    if counter.count < 2 ^ 63 - 1 then some { counter with count := counter.count + 1 } else none

/-- The script: the counter after it, whose `count` it returns. `EXPIRE` is given a positive number
of seconds. -/
def INCREMENT_SCRIPT (now windowSeconds : Nat) (counter : Option Counter) : Option Counter :=
  (incr counter).map fun current =>
    if current.count = 1 then { current with expiresAt := some (now + 1000 * windowSeconds) }
    else current

def tooManyRequests : AppError := ⟨js "Too many requests", 429, .RATE_LIMITED, none⟩

def securityControlUnavailable : AppError :=
  ⟨js "Request security control unavailable", 503, .RATE_LIMIT_UNAVAILABLE, none⟩

/-- What a request gets from the limiter: the headers that are set, and the error that is passed
on, if it does not get past. -/
structure RateLimitAnswer where
  headers : List (JsString × JsString)
  error : Option AppError
deriving DecidableEq

/-- The handler at `now`, when the call has resolved with a count, or failed. -/
def createRedisRateLimiter (options : RateLimitOptions) (now : Nat) (result : Option Nat) :
    RateLimitAnswer :=
  match result with
  | some count =>
    let headers := [(js "RateLimit-Limit", js (toString options.limit)),
      (js "RateLimit-Reset", js (toString (now / 1000 + options.windowSeconds)))]
    if options.limit < count then
      { headers := headers ++ [(js "Retry-After", js (toString options.windowSeconds))]
        error := some tooManyRequests }
    else { headers := headers, error := none }
  | none => { headers := [], error := some securityControlUnavailable }

/-! ## Requests to any number of instances -/

/-- The script of a request was executed at `time`, and has left the counter so. -/
structure Execution where
  time : Nat
  counter : Counter
deriving DecidableEq

/-- A request that has arrived: when and how its script was executed, and when and what it was
answered. -/
structure CredentialRequest where
  route : CredentialRoute
  email : Option JsString
  execution : Option Execution := none
  answer : Option (Nat × RateLimitAnswer) := none
deriving DecidableEq

structure RateLimitState where
  clock : Nat
  counters : JsString → Option Counter
  requests : Nat → Option CredentialRequest

inductive RateLimitAction
  | receive (r : Nat) (route : CredentialRoute) (email : Option JsString)
  /-- Redis executes the script, also when the call has failed by then. -/
  | execute (r : Nat)
  | reply (r : Nat)
  | fail (r : Nat)
  | tick (ms : Nat)

/-- A counter past the end of its window is gone. -/
def unexpired (now : Nat) (counter : Counter) : Option Counter :=
  if counter.expiresAt.any (· < now) then none else some counter

namespace RateLimitState

def setRequest (s : RateLimitState) (r : Nat) (q : CredentialRequest) : RateLimitState :=
  { s with requests := Function.update s.requests r (some q) }

@[simp] theorem setRequest_self (s : RateLimitState) (r : Nat) (q : CredentialRequest) :
    (s.setRequest r q).requests r = some q := Function.update_self ..

theorem setRequest_of_ne (s : RateLimitState) {r r' : Nat} (h : r' ≠ r) (q : CredentialRequest) :
    (s.setRequest r q).requests r' = s.requests r' := Function.update_of_ne h ..

/-- The answer of the handler. -/
def answer (s : RateLimitState) (r : Nat) (q : CredentialRequest) (result : Option Nat) :
    RateLimitState :=
  s.setRequest r
    { q with answer := some (s.clock, createRedisRateLimiter q.route.options s.clock result) }

end RateLimitState

section System

variable (toLowerCase : JsString → JsString) (sha256 : List UInt8 → JsString)

/-- The key a request is counted on. -/
def CredentialRequest.key (q : CredentialRequest) : JsString :=
  rateLimitKey toLowerCase sha256 q.route.options (credentialRateLimitKey toLowerCase q.email)

/-- The script of a request that has not been executed. -/
def executeScript (s : RateLimitState) (r : Nat) (q : CredentialRequest) :
    Option RateLimitState :=
  let key := q.key toLowerCase sha256
  (INCREMENT_SCRIPT s.clock q.route.options.windowSeconds (s.counters key)).map fun counter =>
    { s with counters := Function.update s.counters key (some counter) }.setRequest r
      { q with execution := some ⟨s.clock, counter⟩ }

def rateLimitStep (s : RateLimitState) : RateLimitAction → Option RateLimitState
  | .receive r route email =>
    if s.requests r = none then some (s.setRequest r { route := route, email := email }) else none
  | .execute r => do
    let q ← s.requests r
    if q.execution = none then executeScript toLowerCase sha256 s r q else none
  | .reply r => do
    let q ← s.requests r
    let execution ← q.execution
    if q.answer = none then some (s.answer r q (some execution.counter.count)) else none
  | .fail r => do
    let q ← s.requests r
    if q.answer = none then some (s.answer r q none) else none
  | .tick ms =>
    some { s with
      clock := s.clock + ms
      counters := fun key => (s.counters key).bind (unexpired (s.clock + ms)) }

/-- Requests in any order, from a Redis without counters on. -/
def rateLimitSystem : TransitionSystem RateLimitState RateLimitAction where
  init s := (∀ key, s.counters key = none) ∧ ∀ r, s.requests r = none
  step := rateLimitStep toLowerCase sha256

end System

/-! ## Keys and identities -/

section Keys

variable {toLowerCase : JsString → JsString} {sha256 : List UInt8 → JsString}

theorem toWellFormed_eq_nil {s : JsString} : toWellFormed s = [] ↔ s = [] := by
  constructor
  · intro h
    unfold toWellFormed at h
    split at h
    · rfl
    · split_ifs at h
    · split_ifs at h
  · rintro rfl
    rfl

theorem toWellFormed_orAnonymous (s : JsString) :
    toWellFormed (orAnonymous s) = orAnonymous (toWellFormed s) := by
  unfold orAnonymous
  by_cases h : s = []
  · rw [if_pos h, if_pos (toWellFormed_eq_nil.mpr h)]
    rfl
  · rw [if_neg h, if_neg (toWellFormed_eq_nil.not.mpr h)]

/-- The limiter and the service normalize alike. -/
theorem rawKey_eq (hlower : LowerCase toLowerCase) (value : JsString) :
    toLowerCase (trim (toLowerCase (trim value))) = normalizeEmail toLowerCase value := by
  rw [hlower.trimmed, hlower.idempotent, normalizeEmail]

/-- The text whose digest is in the key is that of the identity. -/
theorem toWellFormed_rawKey (hlower : LowerCase toLowerCase) (email : Option JsString) :
    toWellFormed (orAnonymous (toLowerCase (trim (credentialRateLimitKey toLowerCase email)))) =
      credentialIdentity toLowerCase email := by
  rw [credentialRateLimitKey, rawKey_eq hlower]
  cases email with
  | some email => rfl
  | none =>
    have hanonymous : normalizeEmail toLowerCase (js "anonymous") = js "anonymous" := by
      rw [normalizeEmail, hlower.ascii _ (by decide)]
      rfl
    rw [Option.getD_none, hanonymous]
    rfl

/-- **Keys are those of the routes and identities.** -/
theorem rateLimitKey_eq_iff (hlower : LowerCase toLowerCase) (hsha : Function.Injective sha256)
    {route route' : CredentialRoute} {email email' : Option JsString} :
    rateLimitKey toLowerCase sha256 route.options (credentialRateLimitKey toLowerCase email) =
        rateLimitKey toLowerCase sha256 route'.options
          (credentialRateLimitKey toLowerCase email') ↔
      route = route' ∧
        credentialIdentity toLowerCase email = credentialIdentity toLowerCase email' := by
  have hdigest : ∀ s t : JsString, digest sha256 s = digest sha256 t ↔
      toWellFormed s = toWellFormed t := by
    intro s t
    rw [digest, digest, hsha.eq_iff, utf8Encode_eq_iff]
  simp only [rateLimitKey]
  cases route <;> cases route'
  case signup.signup =>
    rw [List.append_cancel_left_eq, hdigest, toWellFormed_rawKey hlower,
      toWellFormed_rawKey hlower]
    simp
  case login.login =>
    rw [List.append_cancel_left_eq, hdigest, toWellFormed_rawKey hlower,
      toWellFormed_rawKey hlower]
    simp
  -- the names of the routes differ in their first character
  all_goals
    simp [CredentialRoute.options, authRateLimit, js, utf16]

/-- The e-mails under which a user is found have one identity. -/
theorem credentialIdentity_of_account {email email' : JsString} {user : UserRecord}
    {db db' db₁ db₁' : AuthDatabase}
    (h : findByEmail (normalizeEmail toLowerCase email) true db = .ok (some user, db₁))
    (h' : findByEmail (normalizeEmail toLowerCase email') true db' = .ok (some user, db₁')) :
    credentialIdentity toLowerCase (some email) = credentialIdentity toLowerCase (some email') := by
  have hfound : ∀ {email : JsString} {db db₁ : AuthDatabase},
      findByEmail (normalizeEmail toLowerCase email) true db = .ok (some user, db₁) →
        user.email = toWellFormed (normalizeEmail toLowerCase email) := by
    intro email db db₁ h
    obtain ⟨e, he, huser, -⟩ := findByEmail_eq_ok.mp h
    obtain ⟨row, hrow, rfl⟩ := Option.map_eq_some_iff.mp huser.symm
    have heq : row.email = e := by simpa using List.find?_some hrow
    rw [pgText] at he
    split_ifs at he
    exact heq.trans (Option.some.inj he).symm
  rw [credentialIdentity, credentialIdentity, toWellFormed_orAnonymous, toWellFormed_orAnonymous,
    ← hfound h, ← hfound h']

end Keys

end MernChat
