import MernChat.Auth.RateLimit
import MernChat.Auth.Sessions
import MernChat.Chat.Api
import MernChat.Events.RoundTrip
import MernChat.Runtime.PercentEncoding

/-!
# Requests to the API

A request passes the layers of the application in order: its id, the headers of every response,
the check of its origin by CORS, the parsers of its body and its cookies, the routes that need no
origin, the check of its origin once more, and the routers. A layer hands the request on, answers
it, or hands on an error, which the error handler answers.

The router sees the segments of a path, without an empty one at its end, and a header that was not
sent is absent. `new URL(referer).origin` is a parameter, as is what the cookies of a response are
set with in production.

## Main definitions

* `HttpRequest`, `HttpResponse`
* `RequestError`, `errorHandler`: what is handed on as an error, and its answer
* `requestContext`, `securityHeaders`, `cors`, `verifyRequestOrigin`: the layers
* `Endpoint`, `route`: the routes
* `layers`: the layers before the handlers of a route

## Main results

* `layers_origin`: a request to a route with `POST` has passed the check of its origin
* `csrfBlocked_iff`: what the second check of the origin turns away
-/

namespace MernChat.Api

open Library

/-! ## Requests -/

/-- A cookie as it is parsed: absent, a string, or a value that was written as JSON. -/
inductive CookieValue
  | absent
  | text (s : JsString)
  | json

/-- The fields of a body, where they are strings; a body that is no object has none. -/
structure BodyFields where
  fullname : Option JsString := none
  email : Option JsString := none
  password : Option JsString := none
  confirmPassword : Option JsString := none
  message : Option JsString := none

/-- A body as it is parsed: an object or nothing, or the error of the parser. -/
inductive RequestBody
  | fields (body : BodyFields)
  /-- `entity.parse.failed` -/
  | malformed
  /-- `entity.too.large` -/
  | tooLarge
  | unreadable

structure HttpRequest where
  method : JsString
  originalUrl : JsString
  path : List JsString
  requestId : Option JsString
  origin : Option JsString
  referer : Option JsString
  accessToken : CookieValue
  refreshToken : CookieValue
  limit : QueryValue
  cursor : QueryValue
  body : RequestBody

namespace HttpRequest

/-- The fields of the body, where it was parsed. -/
def fields (r : HttpRequest) : BodyFields :=
  match r.body with
  | .fields body => body
  | _ => {}

def signupBody (r : HttpRequest) : SignupBody where
  fullname := r.fields.fullname
  email := r.fields.email
  password := r.fields.password
  confirmPassword := r.fields.confirmPassword

def loginBody (r : HttpRequest) : LoginBody where
  email := r.fields.email
  password := r.fields.password

end HttpRequest

/-! ## Errors -/

/-- A code of an error response: of the services, or of the layers only. -/
inductive ResponseCode
  | service (code : ErrorCode)
  | FORBIDDEN
  | SESSION_EXPIRED
  | CSRF_BLOCKED
  | REQUEST_TOO_LARGE
deriving DecidableEq

/-- An `AppError` with any code. -/
structure ApiError where
  message : JsString
  statusCode : Nat
  code : ResponseCode
  details : Option FieldErrors := none
deriving DecidableEq

/-- What a layer or a handler hands on as an error. -/
inductive RequestError
  | app (error : ApiError)
  | thrown (error : Thrown)
  /-- An error of the check of a token. -/
  | token (error : JwtError)
  | parseFailed
  | tooLarge
  | corsViolation
  /-- Any other error. -/
  | other

/-- The `AppError` of a service. -/
def ofAppError (error : AppError) : ApiError where
  message := error.message
  statusCode := error.statusCode
  code := .service error.code
  details := error.details

def internalServerError : ApiError :=
  ⟨js "Internal server error", 500, .service .INTERNAL_ERROR, none⟩

/-- The subclasses of `JsonWebTokenError`, and itself. -/
def isJsonWebTokenError (name : JsString) : Bool :=
  name == js "JsonWebTokenError" || name == js "NotBeforeError"

/-- The `AppError` the handler takes an error for. -/
def toApiError : RequestError → ApiError
  | .app error => error
  | .parseFailed => ⟨js "Malformed JSON request", 400, .service .VALIDATION_ERROR, none⟩
  | .tooLarge => ⟨js "Request payload is too large", 413, .REQUEST_TOO_LARGE, none⟩
  | .corsViolation => ⟨js "Origin is not allowed", 403, .FORBIDDEN, none⟩
  | .token error =>
    if error.name = js "TokenExpiredError" then ⟨js "Session expired", 401, .SESSION_EXPIRED, none⟩
    else if isJsonWebTokenError error.name then
      ⟨js "Invalid authentication", 401, .service .UNAUTHENTICATED, none⟩
    else internalServerError
  | .thrown error => ofAppError (toAppError error)
  | .other => internalServerError

/-! ## Responses -/

structure CookieOptions where
  httpOnly : Bool
  secure : Bool
  sameSite : JsString
  maxAge : Int
  path : JsString
deriving DecidableEq

/-- A cookie of a response. One without a value is that of `clearCookie`: it is sent with an empty
value, and with the options it was given. -/
structure SetCookie where
  name : JsString
  value : Option JsString
  options : CookieOptions
deriving DecidableEq

structure ErrorBody where
  error : JsString
  code : ResponseCode
  requestId : JsString
  details : Option FieldErrors
deriving DecidableEq

inductive ResponseBody
  | empty
  | error (body : ErrorBody)
  | user (message : Option JsString) (user : PublicUser)
  | users (users : List PublicUser)
  | message (data : SerializedMessage)
  | page (page : MessagePageResult)
  /-- The status of a health check, and of its dependencies. -/
  | status (fields : List (JsString × JsString))
  | text (s : JsString)
deriving DecidableEq

/-- What has been set on a response that is not sent yet. -/
structure PendingResponse where
  headers : List (JsString × JsString)
  cookies : List SetCookie
deriving DecidableEq

structure HttpResponse where
  statusCode : Nat
  headers : List (JsString × JsString)
  cookies : List SetCookie
  body : ResponseBody
deriving DecidableEq

namespace PendingResponse

def setHeaders (res : PendingResponse) (headers : List (JsString × JsString)) : PendingResponse :=
  { res with headers := res.headers ++ headers }

def cookie (res : PendingResponse) (cookie : SetCookie) : PendingResponse :=
  { res with cookies := res.cookies ++ [cookie] }

def send (res : PendingResponse) (statusCode : Nat) (body : ResponseBody) : HttpResponse :=
  ⟨statusCode, res.headers, res.cookies, body⟩

end PendingResponse

/-- The answer to an error. -/
def errorHandler (requestId : JsString) (res : PendingResponse) (error : RequestError) :
    HttpResponse :=
  let appError := toApiError error
  res.send appError.statusCode
    (.error ⟨appError.message, appError.code, requestId, appError.details⟩)

/-! ## The layers -/

/-- The configuration. `nodeEnv` is the variable as it is set, `production` what the configuration
makes of it. -/
structure AppConfig where
  corsOrigins : List JsString
  nodeEnv : Option JsString
  production : Bool

section Layers

variable (config : AppConfig) (urlOrigin : JsString → Option JsString)

def X_REQUEST_ID : JsString := js "X-Request-Id"

def securityHeaders : List (JsString × JsString) :=
  [(js "X-Content-Type-Options", js "nosniff"), (js "X-Frame-Options", js "DENY"),
    (js "Referrer-Policy", js "strict-origin-when-cross-origin"),
    (js "Permissions-Policy", js "camera=(), microphone=(), geolocation=(), payment=()")] ++
  if config.nodeEnv = some (js "production") then
    [(js "Strict-Transport-Security", js "max-age=31536000")]
  else []

/-- `requestContext`, then `securityHeaders`. -/
def requestContext (requestId : JsString) : PendingResponse where
  headers := (X_REQUEST_ID, requestId) :: securityHeaders config
  cookies := []

/-- A header that is sent and not empty. -/
def sent (header : Option JsString) : Option JsString := header.filter (· ≠ [])

/-- The origins CORS lets through: none, and those of the configuration. -/
def cors (r : HttpRequest) : Bool :=
  match sent r.origin with
  | none => true
  | some origin => config.corsOrigins.contains origin

def UNSAFE_METHODS : List JsString := [js "POST", js "PUT", js "PATCH", js "DELETE"]

def requestOrigin (r : HttpRequest) : Option JsString :=
  match sent r.origin with
  | some origin => some origin
  | none => (sent r.referer).bind urlOrigin

/-- The request is safe, or comes from one of the origins of the configuration. -/
def verifyRequestOrigin (r : HttpRequest) : Bool :=
  !UNSAFE_METHODS.contains r.method ||
    match sent (requestOrigin urlOrigin r) with
    | none => false
    | some origin => config.corsOrigins.contains origin

end Layers

def csrfBlocked : RequestError :=
  .app ⟨js "Request origin is not allowed", 403, .CSRF_BLOCKED, none⟩

def notFoundHandler (r : HttpRequest) : RequestError :=
  .app ⟨js "Route " ++ r.method ++ js " " ++ r.originalUrl ++ js " not found", 404,
    .service .NOT_FOUND, none⟩

/-! ## The routes -/

/-- A route, with its parameter. -/
inductive Endpoint
  | live
  | ready
  | metrics
  | signup
  | login
  | refresh
  | logout
  | logoutAll
  | me
  | allUsers
  | sendMessage (id : JsString)
  | getMessage (id : JsString)
deriving DecidableEq

/-- `GET` routes answer `HEAD` too. -/
def isGet (method : JsString) : Bool := method == js "GET" || method == js "HEAD"

/-- Segments are matched in either case of their letters. -/
def pathIs (path : List JsString) (names : List String) : Bool :=
  path.map (List.map asciiLower) == names.map js

/-- The routes before the check of the origin. -/
def healthRoute (r : HttpRequest) : Option Endpoint :=
  if isGet r.method = false then none
  else if pathIs r.path ["health", "live"] then some .live
  else if pathIs r.path ["health", "ready"] then some .ready
  else if pathIs r.path ["metrics"] then some .metrics
  else none

def userRoute (r : HttpRequest) : Option Endpoint :=
  if r.method = js "POST" then
    if pathIs r.path ["api", "user", "signup"] then some .signup
    else if pathIs r.path ["api", "user", "login"] then some .login
    else if pathIs r.path ["api", "user", "refresh"] then some .refresh
    else if pathIs r.path ["api", "user", "logout"] then some .logout
    else if pathIs r.path ["api", "user", "logout-all"] then some .logoutAll
    else none
  else if isGet r.method then
    if pathIs r.path ["api", "user", "me"] then some .me
    else if pathIs r.path ["api", "user", "allusers"] then some .allUsers
    else none
  else none

/-- The last segment is the parameter. One that cannot be decoded is an error, whatever the
method. -/
def messageRoute (r : HttpRequest) : Except RequestError (Option Endpoint) :=
  match r.path.getLast? with
  | none => .ok none
  | some id =>
    let send := pathIs r.path.dropLast ["api", "message", "send"]
    let get := pathIs r.path.dropLast ["api", "message", "get"]
    if send || get then
      match decodeURIComponent id with
      | .error _ => .error .other
      | .ok id =>
        if send && r.method == js "POST" then .ok (some (.sendMessage id))
        else if get && isGet r.method then .ok (some (.getMessage id))
        else .ok none
    else .ok none

def route (r : HttpRequest) : Except RequestError Endpoint :=
  match userRoute r with
  | some endpoint => .ok endpoint
  | none =>
    match messageRoute r with
    | .ok (some endpoint) => .ok endpoint
    | .ok none => .error (notFoundHandler r)
    | .error error => .error error

/-- What the layers before the handlers make of a request. -/
inductive Admission
  | error (error : RequestError)
  /-- CORS answers `OPTIONS` itself. -/
  | preflight
  | endpoint (endpoint : Endpoint)

/-- The error of a body that was not parsed. -/
def bodyError : RequestBody → Option RequestError
  | .fields _ => none
  | .malformed => some .parseFailed
  | .tooLarge => some .tooLarge
  | .unreadable => some .other

def layers (config : AppConfig) (urlOrigin : JsString → Option JsString) (r : HttpRequest) :
    Admission :=
  if cors config r = false then .error .corsViolation
  else if r.method = js "OPTIONS" then .preflight
  else
    match bodyError r.body with
    | some error => .error error
    | none =>
      match healthRoute r with
      | some endpoint => .endpoint endpoint
      | none =>
        if verifyRequestOrigin config urlOrigin r = false then .error csrfBlocked
        else
          match route r with
          | .ok endpoint => .endpoint endpoint
          | .error error => .error error

/-! ## What is admitted -/

/-- The routes that change something, or may. -/
def Endpoint.isUnsafe : Endpoint → Bool
  | .signup | .login | .refresh | .logout | .logoutAll | .sendMessage _ => true
  | _ => false

section Admission

variable {config : AppConfig} {urlOrigin : JsString → Option JsString} {r : HttpRequest}
  {endpoint : Endpoint}

theorem healthRoute_isUnsafe (h : healthRoute r = some endpoint) : endpoint.isUnsafe = false := by
  unfold healthRoute at h
  split_ifs at h <;> obtain rfl := Option.some.inj h <;> rfl

theorem userRoute_method (h : userRoute r = some endpoint) (hchanges : endpoint.isUnsafe = true) :
    r.method = js "POST" := by
  unfold userRoute at h
  split_ifs at h with hpost
  all_goals first | exact hpost | (obtain rfl := Option.some.inj h; cases hchanges)

theorem messageRoute_method (h : messageRoute r = .ok (some endpoint))
    (hchanges : endpoint.isUnsafe = true) : r.method = js "POST" := by
  unfold messageRoute at h
  split at h
  · cases h
  · simp only at h
    split at h
    · split at h
      · cases h
      · split at h
        · rename_i hsend
          simp only [Bool.and_eq_true, beq_iff_eq] at hsend
          exact hsend.2
        · split at h
          · obtain rfl := Option.some.inj (Except.ok.inj h)
            cases hchanges
          · cases h
    · cases h

/-- What changes something is asked for with `POST`. -/
theorem route_method (h : route r = .ok endpoint) (hchanges : endpoint.isUnsafe = true) :
    r.method = js "POST" := by
  unfold route at h
  split at h
  · rename_i found hfound
    obtain rfl := Except.ok.inj h
    exact userRoute_method hfound hchanges
  · split at h
    · rename_i found hfound
      obtain rfl := Except.ok.inj h
      exact messageRoute_method hfound hchanges
    · cases h
    · cases h

/-- The origin of a request, as the header or the referrer gives it, is one of the
configuration. -/
def OriginAllowed (config : AppConfig) (urlOrigin : JsString → Option JsString)
    (r : HttpRequest) : Prop :=
  ∃ origin, requestOrigin urlOrigin r = some origin ∧ origin ∈ config.corsOrigins

theorem originAllowed_of_verify (hpost : r.method = js "POST")
    (h : verifyRequestOrigin config urlOrigin r = true) :
    OriginAllowed config urlOrigin r := by
  unfold verifyRequestOrigin at h
  have hmethod : UNSAFE_METHODS.contains r.method = true := by
    rw [hpost]
    decide +kernel
  rw [hmethod, Bool.not_true, Bool.false_or] at h
  split at h
  · cases h
  · rename_i origin horigin
    exact ⟨origin, Option.eq_some_of_filter_eq_some horigin, List.contains_iff_mem.mp h⟩

/-- A request reaches a route without a check of its origin, or after it. -/
theorem layers_eq_endpoint (h : layers config urlOrigin r = .endpoint endpoint) :
    healthRoute r = some endpoint ∨
      verifyRequestOrigin config urlOrigin r = true ∧ route r = .ok endpoint := by
  unfold layers at h
  split at h
  · cases h
  · split at h
    · cases h
    · split at h
      · cases h
      · split at h
        · rename_i health hhealth
          obtain rfl := Admission.endpoint.inj h
          exact Or.inl hhealth
        · split at h
          · cases h
          · rename_i hverify
            split at h
            · rename_i found hroute
              obtain rfl := Admission.endpoint.inj h
              exact Or.inr ⟨Bool.not_eq_false _ ▸ hverify, hroute⟩
            · cases h

/-- **What changes something is asked for with `POST`, and from an origin of the configuration.** -/
theorem layers_origin (h : layers config urlOrigin r = .endpoint endpoint)
    (hchanges : endpoint.isUnsafe = true) :
    r.method = js "POST" ∧ OriginAllowed config urlOrigin r := by
  rcases layers_eq_endpoint h with hhealth | ⟨hverify, hroute⟩
  · rw [healthRoute_isUnsafe hhealth] at hchanges
    cases hchanges
  · have hpost := route_method hroute hchanges
    exact ⟨hpost, originAllowed_of_verify hpost hverify⟩

/-- The routes hand on other errors. -/
theorem route_ne_csrfBlocked : route r ≠ .error csrfBlocked := by
  intro h
  unfold route at h
  split at h
  · cases h
  · split at h
    · cases h
    · cases Except.error.inj h
    · rename_i error herror
      obtain rfl := Except.error.inj h
      unfold messageRoute at herror
      split at herror
      · cases herror
      · simp only at herror
        split at herror
        · split at herror
          · cases Except.error.inj herror
          · split at herror
            · cases herror
            · split at herror <;> cases herror
        · cases herror

theorem healthRoute_eq_none (h : r.method ∈ UNSAFE_METHODS) : healthRoute r = none := by
  have hget : isGet r.method = false := by
    have hall : ∀ method ∈ UNSAFE_METHODS, isGet method = false := by decide +kernel
    exact hall _ h
  rw [healthRoute, if_pos hget]

theorem sent_some {origin : JsString} (h : origin ≠ []) : sent (some origin) = some origin := by
  simp [sent, h]

theorem ne_nil_of_sent {header : Option JsString} {origin : JsString}
    (h : sent header = some origin) : origin ≠ [] := by
  simpa using (Option.filter_eq_some_iff.mp h).2

theorem verifyRequestOrigin_eq_false : verifyRequestOrigin config urlOrigin r = false ↔
    r.method ∈ UNSAFE_METHODS ∧ ∀ origin, requestOrigin urlOrigin r = some origin → origin ≠ [] →
      origin ∉ config.corsOrigins := by
  rw [verifyRequestOrigin, Bool.or_eq_false_iff, Bool.not_eq_false', List.contains_iff_mem]
  refine and_congr_right fun _ => ?_
  constructor
  · intro h origin horigin hne hmem
    rw [horigin, sent_some hne] at h
    rw [← List.contains_iff_mem] at hmem
    exact absurd hmem (Bool.not_eq_true _ ▸ h)
  · intro h
    split
    · rfl
    · rename_i origin horigin
      rw [List.contains_eq_mem, decide_eq_false_iff_not]
      exact h origin (Option.eq_some_of_filter_eq_some horigin) (ne_nil_of_sent horigin)

/-- **What the second check of the origin turns away** has no origin of its own, since CORS has let
it pass, and its referrer is of no origin of the configuration. -/
theorem csrfBlocked_iff : layers config urlOrigin r = .error csrfBlocked ↔
    bodyError r.body = none ∧ r.method ∈ UNSAFE_METHODS ∧ sent r.origin = none ∧
      ∀ origin, (sent r.referer).bind urlOrigin = some origin → origin ≠ [] →
        origin ∉ config.corsOrigins := by
  constructor
  · intro h
    unfold layers at h
    split at h
    · cases Admission.error.inj h
    · rename_i hcors
      split at h
      · cases h
      · split at h
        · rename_i error herror
          obtain rfl := Admission.error.inj h
          cases hbody : r.body <;> rw [hbody] at herror <;> cases herror
        · rename_i hbody
          split at h
          · cases h
          · split at h
            · rename_i hverify
              obtain ⟨hmethod, hverify⟩ := verifyRequestOrigin_eq_false.mp hverify
              cases hsent : sent r.origin with
              | some origin =>
                -- CORS and the check ask the same of an origin that is sent
                rw [cors, hsent] at hcors
                have horigin : requestOrigin urlOrigin r = some origin := by
                  rw [requestOrigin, hsent]
                have hnot := hverify origin horigin (ne_nil_of_sent hsent)
                rw [← List.contains_iff_mem, Bool.not_eq_true] at hnot
                exact absurd hnot hcors
              | none =>
                rw [requestOrigin, hsent] at hverify
                exact ⟨hbody, hmethod, rfl, hverify⟩
            · split at h
              · cases h
              · rename_i hroute
                exact absurd (Admission.error.inj h ▸ hroute) route_ne_csrfBlocked
  · rintro ⟨hbody, hmethod, hsent, hreferer⟩
    have hcors : ¬ cors config r = false := by simp [cors, hsent]
    have hoptions : r.method ≠ js "OPTIONS" := by
      intro h
      rw [h] at hmethod
      revert hmethod
      decide +kernel
    have horigin : requestOrigin urlOrigin r = (sent r.referer).bind urlOrigin := by
      rw [requestOrigin, hsent]
    have hverify : verifyRequestOrigin config urlOrigin r = false :=
      verifyRequestOrigin_eq_false.mpr ⟨hmethod, horigin ▸ hreferer⟩
    unfold layers
    rw [if_neg hcors, if_neg hoptions, hbody]
    simp only [healthRoute_eq_none hmethod, hverify, if_true]

end Admission

end MernChat.Api
