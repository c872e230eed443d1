import MernChat.Api.Server
import MernChat.Auth.SessionFrames

/-!
# What a step of a handler does

An operation of a handler reads, or makes a step of authentication, or runs a part of a call, and
the request goes on with the next phase of its route, or is answered. What is proved of the steps
of requests is read off these cases.

## Main definitions

* `Endpoint.has`: the phases of a route
* `isQuiet`: the steps of authentication that store no session and write no user
* `HandlerStep`, `SocketStep`: the ways a step of a handler can go

## Main results

* `httpStep_cases`, `socketStep_cases`: every step of a request or a socket is one of them
-/

namespace MernChat.Api

open Library

/-! ## Routes and phases -/

/-- The phases of a route. -/
def Endpoint.has : Endpoint → Phase → Bool
  | .ready, .checking | .metrics, .scraping => true
  | .signup, .limiting | .signup, .findingEmail | .signup, .insertingUser
  | .signup, .creatingSession _ | .signup, .issuingToken _ _ => true
  | .login, .limiting | .login, .authenticating | .login, .creatingSession _
  | .login, .issuingToken _ _ => true
  | .refresh, .refreshing _ | .refresh, .issuingRefreshed _ | .refresh, .findingUser _
  | .refresh, .revokingGone => true
  | .logout, .revoking _ => true
  | .logoutAll, .securing _ | .logoutAll, .secured | .logoutAll, .attached _
  | .logoutAll, .revokingAll => true
  | .me, .securing _ | .me, .secured | .me, .attached _ => true
  | .allUsers, .securing _ | .allUsers, .secured | .allUsers, .attached _
  | .allUsers, .listing _ => true
  | .sendMessage _, .securing _ | .sendMessage _, .secured | .sendMessage _, .attached _
  | .sendMessage _, .sending _ _ _ => true
  | .getMessage _, .securing _ | .getMessage _, .secured | .getMessage _, .attached _
  | .getMessage _, .findingChatUser _ | .getMessage _, .findingConversation _
  | .getMessage _, .findingPage _ _ _ => true
  | _, _ => false

/-- The routes with a limiter. -/
def Endpoint.isCredential : Endpoint → Bool
  | .signup | .login => true
  | _ => false

/-- The routes of refresh tokens. -/
def Endpoint.isRefresh : Endpoint → Bool
  | .refresh | .logout => true
  | _ => false

/-- The routes behind `secureRoute`. -/
def Endpoint.isSecured : Endpoint → Bool
  | .logoutAll | .me | .allUsers | .sendMessage _ | .getMessage _ => true
  | _ => false

/-- The secured routes that concern users. -/
def Endpoint.isAccount : Endpoint → Bool
  | .logoutAll | .me | .allUsers => true
  | _ => false

/-- The health checks and the metrics. -/
def Endpoint.isObserved : Endpoint → Bool
  | .live | .ready | .metrics => true
  | _ => false

/-- A session is being looked up. -/
def Phase.isSecuring : Phase → Bool
  | .securing _ => true
  | _ => false

/-- The body is no error, and has no messages. -/
def ResponseBody.isPlain : ResponseBody → Bool
  | .error _ | .message _ | .page _ => false
  | _ => true

theorem ResponseBody.isPlain_spec {body : ResponseBody} (h : body.isPlain = true) :
    (∀ error, body ≠ .error error) ∧ (∀ m, body ≠ .message m) ∧ ∀ page, body ≠ .page page := by
  refine ⟨?_, ?_, ?_⟩
  · rintro error rfl
    cases h
  · rintro m rfl
    cases h
  · rintro page rfl
    cases h

/-- A step of authentication that stores no session and writes no user. -/
def isQuiet : AuthAction → Bool
  | .createSession .. | .signup .. | .deleteUser _ | .present .. => false
  | _ => true

/-! ## The steps of handlers -/

section Steps

variable (B : Backend) (n : ℕ) (r : HttpRequest) (requestId : JsString) (drawn : Uuid)
  (endpoint : Endpoint) (res : PendingResponse) (s : ApiState)

/-- **What a step of a handler does**, one case for each way that its operation can go. -/
inductive HandlerStep : Phase → ApiAction → Flight × ApiState → Prop
  /-- What was read is refused, or the operation has failed. -/
  | refused {phase action} (error : RequestError) :
    HandlerStep phase action (refuse requestId res error, s)
  /-- What was read is answered. -/
  | answered {phase action statusCode body}
    (route : endpoint.isObserved = true ∨ endpoint.isAccount = true)
    (later : phase.isSecuring = false) (status : statusCode ∈ [200, 503])
    (plain : body.isPlain = true) :
    HandlerStep phase action (answer res statusCode body, s)
  /-- The limiter refuses, or the validation behind it. -/
  | limited {now count} (headers : List (JsString × JsString)) (error : RequestError) :
    HandlerStep .limiting (.limit now count) (refuse requestId (res.setHeaders headers) error, s)
  | admitted {now count next} (headers : List (JsString × JsString))
    (route : endpoint = .signup ∧ next = .findingEmail ∨
      endpoint = .login ∧ next = .authenticating) :
    HandlerStep .limiting (.limit now count) (.at (res.setHeaders headers) next, s)
  | emailFree (route : endpoint.isCredential = true)
    (free : findExisting B r.signupBody s.auth.db = none) :
    HandlerStep .findingEmail .query (.at res .insertingUser, s)
  | registered {env user db auth} (route : endpoint.isCredential = true)
    (inserted : createUser env.id (newUser B env r.signupBody) env.now s.auth.db = .ok (user, db))
    (step : authStep B.jwt B.hashToken s.auth
      (.signup n env.id (newUser B env r.signupBody) env.now) = some auth) :
    HandlerStep .insertingUser (.register env)
      (.at res (.creatingSession (sanitizeUser (toUserRecord user))), s.withUsers auth)
  | loggedIn {user t} (route : endpoint.isCredential = true)
    (found : (exec (authenticateUser B.bcrypt B.toLowerCase r.loginBody) s.auth.db).1 = .ok user)
    (step : s.authenticate B
      (.login n (normalizeEmail B.toLowerCase (r.fields.email.getD []))) = some t) :
    HandlerStep .authenticating .query (.at res (.creatingSession (sanitizeUser user)), t)
  | sessionCreated {user id refreshToken now dbNow userId session db t}
    (route : endpoint.isCredential = true)
    (request : s.auth.requests n = some (.authenticated userId))
    (created : createSession id ⟨userId, B.hashToken refreshToken, now + REFRESH_TOKEN_TTL_MS, now⟩
      dbNow s.auth.db = .ok (session, db))
    (step : s.authenticate B (.createSession n id refreshToken now dbNow) = some t) :
    HandlerStep (.creatingSession user) (.createSession id refreshToken now dbNow)
      (.at res (.issuingToken user refreshToken),
        { t with
          grants := ⟨n, .http r drawn, id, userId, B.hashToken refreshToken, now⟩ :: t.grants })
  | tokenIssued {user refreshToken now userId session t statusCode message}
    (route : endpoint.isCredential = true)
    (request : s.auth.requests n = some (.sessionCreated userId session))
    (step : s.authenticate B (.issueToken n now) = some t) (status : statusCode ∈ [200, 201]) :
    HandlerStep (.issuingToken user refreshToken) (.at now)
      (answer ((res.accessToken B.config
          (issueAccessToken B.jwt now userId session.id)).refreshToken B.config refreshToken)
        statusCode (.user (some message) user), t)
  | sessionFound {token now session db t} (route : endpoint.isRefresh = true)
    (found : findActiveSessionByTokenHash (B.hashToken token) now s.auth.db =
      .ok (some session, db))
    (step : s.authenticate B (.refresh n token now) = some t) :
    HandlerStep (.refreshing token) (.at now) (.at res (.issuingRefreshed session), t)
  | tokenReissued {session now t} (route : endpoint.isRefresh = true)
    (step : s.authenticate B (.issueToken n now) = some t) :
    HandlerStep (.issuingRefreshed session) (.at now)
      (.at (res.accessToken B.config (issueAccessToken B.jwt now session.userId session.id))
        (.findingUser session), t)
  | userGone {session t} (route : endpoint.isRefresh = true)
    (gone : readIn s.auth.db (findPublicById session.userId) = .ok none)
    (step : s.authenticate B (.findUser n) = some t) :
    HandlerStep (.findingUser session) .query (.at res .revokingGone, t)
  /-- The last statement on sessions was made, and the request is refused. -/
  | refusedAfter {phase action a t res'} (error : RequestError)
    (route : endpoint.isRefresh = true ∨ endpoint.isAccount = true)
    (writes : endpoint.has phase = true → endpoint.isUnsafe = true)
    (later : phase.isSecuring = false) (quiet : isQuiet a = true)
    (own : ∀ m, a.request = some m → m = n) (step : s.authenticate B a = some t)
    (cookies : res' = res ∨ res' = clearAuthCookies B.config res) :
    HandlerStep phase action (refuse requestId res' error, t)
  /-- The last statement on sessions was made, and the request is answered. -/
  | answeredAfter {phase action a t res' statusCode body}
    (route : endpoint.isRefresh = true ∨ endpoint.isAccount = true)
    (writes : endpoint.has phase = true → endpoint.isUnsafe = true)
    (later : phase.isSecuring = false) (quiet : isQuiet a = true)
    (own : ∀ m, a.request = some m → m = n) (step : s.authenticate B a = some t)
    (cookies : res' = res ∨ res' = clearAuthCookies B.config res)
    (status : statusCode ∈ [200, 204]) (plain : body.isPlain = true) :
    HandlerStep phase action (answer res' statusCode body, t)
  | presented {token now decoded session t} (route : endpoint.isSecured = true)
    (verified : verifyAccessToken B.jwt now token = .ok decoded)
    (found : readIn s.auth.db (findActiveSessionById decoded.sessionId decoded.userId now) =
      .ok (some session))
    (step : s.authenticate B (.present n .secureRoute token now) = some t) :
    HandlerStep (.securing token) (.at now) (.at res .secured, t)
  | attached {token now lookup user t} (route : endpoint.isSecured = true)
    (request : s.auth.requests n = some (.gate .secureRoute token now lookup))
    (passed : secureRoute B.jwt now (some token) lookup s.auth.db = .ok user)
    (step : s.authenticate B (.finishGate n) = some t) :
    HandlerStep .secured .query (.at res (.attached user), t)
  | listing {user} (route : endpoint = .allUsers) :
    HandlerStep (.attached user) .query (.at res (.listing user), s)
  | leaving {user t} (route : endpoint = .logoutAll)
    (step : s.authenticate B (.logoutAll n) = some t) :
    HandlerStep (.attached user) .query (.at res .revokingAll, t)
  /-- A call of `sendMessage` begins. -/
  | begun {user env id token now lookup found} (route : endpoint = .sendMessage id)
    (valid : validateRequest (sendMessageSchema id r.fields.message) = none)
    (request : s.auth.requests n = some (.attached token now lookup found)) :
    HandlerStep (.attached user) (.send env)
      (.at res (.sending user s.chat.calls.length
          ⟨env, ⟨user._id, id, r.fields.message.getD [], requestId⟩, .checkReceiver⟩),
        { s with
          chat := { s.chat with
            calls := s.chat.calls ++
              [⟨env, ⟨user._id, id, r.fields.message.getD [], requestId⟩, .checkReceiver⟩] }
          authorships := s.authorships ++
            [⟨n, .http r drawn, token, now, lookup, user, env,
              ⟨user._id, id, r.fields.message.getD [], requestId⟩⟩] })
  | proceeded {id user k call phase' db} (route : endpoint = .sendMessage id)
    (proceeds : call.proceed s.chat.db = some (phase', db))
    (pending : outcome call s.chat.db = none) :
    HandlerStep (.sending user k call) .query
      (.at res (.sending user k { call with phase := phase' }),
        { s with chat := ⟨db, s.chat.calls.set k { call with phase := phase' }⟩ })
  | threw {id user k call phase' db error} (route : endpoint = .sendMessage id)
    (proceeds : call.proceed s.chat.db = some (phase', db))
    (fails : outcome call s.chat.db = some (.error error)) :
    HandlerStep (.sending user k call) .query
      (refuse requestId res (.thrown error),
        { s with chat := ⟨db, s.chat.calls.set k { call with phase := phase' }⟩ })
  | returned {id user k call phase' db message} (route : endpoint = .sendMessage id)
    (proceeds : call.proceed s.chat.db = some (phase', db))
    (returns : outcome call s.chat.db = some (.ok message)) :
    HandlerStep (.sending user k call) .query
      (answer res 201 (.message message),
        { s with
          chat := ⟨db, s.chat.calls.set k { call with phase := phase' }⟩
          emitted := s.emitted ++ [⟨k, getUserRoomName id, message⟩] })
  | otherUser {id user} (route : endpoint = .getMessage id) (other : user._id ≠ id) :
    HandlerStep (.attached user) .query (.at res (.findingChatUser user), s)
  | chatUserFound {id user found} (route : endpoint = .getMessage id)
    (there : (exec (query none (findUserById id)) s.chat.db).1 = .ok (some found)) :
    HandlerStep (.findingChatUser user) .query (.at res (.findingConversation user), s)
  | conversationFound {id user conversation cursor} (route : endpoint = .getMessage id)
    (found : (exec (query none (findDirectConversation user._id id)) s.chat.db).1 =
      .ok (some conversation))
    (decoded : decodeCursor (queryText r.cursor) = some cursor) :
    HandlerStep (.findingConversation user) .query
      (.at res (.findingPage user conversation cursor), s)
  | pageRead {id user conversation cursor page result} (route : endpoint = .getMessage id)
    (found : (exec (query none (findMessagesByConversation conversation.id
      ((parseLimit r.limit).getD DEFAULT_MESSAGE_PAGE_SIZE) cursor)) s.chat.db).1 = .ok page)
    (serialized : serializePage user._id id ((parseLimit r.limit).getD DEFAULT_MESSAGE_PAGE_SIZE)
      page = some result) :
    HandlerStep (.findingPage user conversation cursor) .query (answer res 200 (.page result), s)

/-- **What a step of a socket does.** -/
inductive SocketStep (accessToken : Option JsString) :
    Phase → ApiAction → Flight × ApiState → Prop
  | refused {phase action} (error : SocketAuthError)
    (pending : phase = .handshake ∨ phase = .handshakeFound) :
    SocketStep accessToken phase action (⟨res, .refused error⟩, s)
  | presented {token now t} (cookie : accessToken = some token)
    (step : s.authenticate B (.present n .socketHandshake token now) = some t) :
    SocketStep accessToken .handshake (.at now) (⟨res, .handshakeFound⟩, t)
  | connected {token now lookup userId t}
    (request : s.auth.requests n = some (.gate .socketHandshake token now lookup))
    (passed : socketHandshake B.jwt now (some token) lookup s.auth.db = .ok userId)
    (step : s.authenticate B (.finishGate n) = some t) :
    SocketStep accessToken .handshakeFound .query (⟨res, .connected userId⟩, t)
  | received {userId j token now lookup found event}
    (request : s.auth.requests n = some (.connected token now lookup found))
    (emitted : s.emitted[j]? = some event) (room : event.room = getUserRoomName userId) :
    SocketStep accessToken (.connected userId) (.receive j)
      (⟨res, .connected userId⟩, { s with
        deliveries := ⟨n, .socket accessToken, token, now, lookup, userId, event⟩ ::
          s.deliveries })
  | disconnected {userId} :
    SocketStep accessToken (.connected userId) .disconnect (⟨res, .disconnected⟩, s)

end Steps

/-! ## The handlers, case by case -/

section Cases

variable {B : Backend} {n : ℕ} {r : HttpRequest} {requestId : JsString} {drawn : Uuid}
  {endpoint : Endpoint} {res : PendingResponse} {s : ApiState} {phase : Phase} {action : ApiAction}
  {x : Flight × ApiState}

/-- The step of a request is of no other request. -/
theorem own_request {a : AuthAction} (h : a.request = some n) :
    ∀ m, a.request = some m → m = n :=
  fun _ hm => (Option.some.inj (h.symm.trans hm)).symm

theorem handlerStep_validated {now : ℕ} {count : Option ℕ} {headers : List (JsString × JsString)}
    {errors : FieldErrors} {next : Phase}
    (hnext : endpoint = .signup ∧ next = .findingEmail ∨
      endpoint = .login ∧ next = .authenticating) :
    HandlerStep B n r requestId drawn endpoint res s .limiting (.limit now count)
      (validated requestId (res.setHeaders headers) errors next, s) := by
  unfold validated
  split
  · exact .limited headers _
  · exact .admitted headers hnext

theorem credentialStep_cases (hroute : endpoint.isCredential = true)
    (h : credentialStep B n r requestId drawn endpoint res s phase action = some x) :
    HandlerStep B n r requestId drawn endpoint res s phase action x := by
  have hor : endpoint = .signup ∨ endpoint = .login := by
    cases endpoint with
    | signup => exact Or.inl rfl
    | login => exact Or.inr rfl
    | _ => cases hroute
  unfold credentialStep at h
  split at h
  · simp only at h
    split at h
    · obtain rfl := Option.some.inj h
      exact .limited _ _
    · split_ifs at h with hsignup
      · obtain rfl := Option.some.inj h
        exact handlerStep_validated (Or.inl ⟨hsignup, rfl⟩)
      · obtain rfl := Option.some.inj h
        exact handlerStep_validated (Or.inr ⟨hor.resolve_left hsignup, rfl⟩)
  · split at h
    · obtain rfl := Option.some.inj h
      exact .refused _
    · obtain rfl := Option.some.inj h
      exact .emailFree hroute ‹_›
  · split at h
    · obtain rfl := Option.some.inj h
      exact .refused _
    · obtain ⟨auth, hauth, rfl⟩ := Option.map_eq_some_iff.mp h
      exact .registered hroute ‹_› hauth
  · split at h
    · obtain rfl := Option.some.inj h
      exact .refused _
    · obtain ⟨t, ht, rfl⟩ := Option.map_eq_some_iff.mp h
      exact .loggedIn hroute ‹_› ht
  · split at h
    · split at h
      · obtain rfl := Option.some.inj h
        exact .refused _
      · obtain ⟨t, ht, rfl⟩ := Option.map_eq_some_iff.mp h
        exact .sessionCreated hroute ‹_› ‹_› ht
    · cases h
  · split at h
    · obtain ⟨t, ht, rfl⟩ := Option.map_eq_some_iff.mp h
      simp only
      split_ifs
      · exact .tokenIssued hroute ‹_› ht (by decide)
      · exact .tokenIssued hroute ‹_› ht (by decide)
    · cases h
  · cases h

theorem refreshStep_cases (hroute : endpoint.isRefresh = true)
    (h : refreshStep B n requestId res s phase action = some x) :
    HandlerStep B n r requestId drawn endpoint res s phase action x := by
  have hwrites : endpoint.has phase = true → endpoint.isUnsafe = true := by
    cases endpoint with
    | refresh | logout => exact fun _ => rfl
    | _ => cases hroute
  unfold refreshStep at h
  split at h
  · rename_i token now
    split at h
    · obtain rfl := Option.some.inj h
      exact .refused _
    · rename_i session db hfound
      obtain ⟨t, ht, rfl⟩ := Option.map_eq_some_iff.mp h
      cases session with
      | some session => exact .sessionFound hroute hfound ht
      | none =>
        exact .refusedAfter (a := .refresh n token now) _ (Or.inl hroute) hwrites rfl rfl
          (own_request rfl) ht (Or.inr rfl)
  · obtain ⟨t, ht, rfl⟩ := Option.map_eq_some_iff.mp h
    exact .tokenReissued hroute ht
  · obtain ⟨t, ht, rfl⟩ := Option.map_eq_some_iff.mp h
    split
    · exact .answeredAfter (a := .findUser n) (Or.inl hroute) hwrites rfl rfl (own_request rfl) ht
        (Or.inl rfl) (by decide) rfl
    · exact .userGone hroute ‹_› ht
    · exact .refusedAfter (a := .findUser n) _ (Or.inl hroute) hwrites rfl rfl (own_request rfl) ht
        (Or.inl rfl)
  · obtain ⟨t, ht, rfl⟩ := Option.map_eq_some_iff.mp h
    exact .refusedAfter (a := .revokeAll n) _ (Or.inl hroute) hwrites rfl rfl (own_request rfl) ht
      (Or.inr rfl)
  · obtain ⟨t, ht, rfl⟩ := Option.map_eq_some_iff.mp h
    exact .refusedAfter (a := .revokeAll n) _ (Or.inl hroute) hwrites rfl rfl (own_request rfl) ht
      (Or.inl rfl)
  · rename_i token
    obtain ⟨t, ht, rfl⟩ := Option.map_eq_some_iff.mp h
    exact .answeredAfter (a := .logout token) (Or.inl hroute) hwrites rfl rfl nofun ht (Or.inr rfl)
      (by decide) rfl
  · rename_i token code
    obtain ⟨t, ht, rfl⟩ := Option.map_eq_some_iff.mp h
    exact .refusedAfter (a := .logout token) _ (Or.inl hroute) hwrites rfl rfl nofun ht (Or.inl rfl)
  · cases h

theorem secureStep_cases (hroute : endpoint.isSecured = true)
    (h : secureStep B n requestId res s phase action = some x) :
    HandlerStep B n r requestId drawn endpoint res s phase action x := by
  unfold secureStep at h
  split at h
  · split at h
    · obtain rfl := Option.some.inj h
      exact .refused _
    · split at h
      · obtain rfl := Option.some.inj h
        exact .refused _
      · obtain rfl := Option.some.inj h
        exact .refused _
      · obtain ⟨t, ht, rfl⟩ := Option.map_eq_some_iff.mp h
        exact .presented hroute ‹_› ‹_› ht
  · split at h
    · split at h
      · obtain rfl := Option.some.inj h
        exact .refused _
      · obtain ⟨t, ht, rfl⟩ := Option.map_eq_some_iff.mp h
        exact .attached hroute ‹_› ‹_› ht
    · cases h
  · cases h

theorem Endpoint.eq_logoutAll (h : endpoint.has .revokingAll = true) : endpoint = .logoutAll := by
  cases endpoint with
  | logoutAll => rfl
  | _ => cases h

theorem accountStep_cases (hroute : endpoint.isAccount = true)
    (h : accountStep B n requestId endpoint res s phase action = some x) :
    HandlerStep B n r requestId drawn endpoint res s phase action x := by
  have hwrites : endpoint.has .revokingAll = true → endpoint.isUnsafe = true := by
    intro hhas
    rw [Endpoint.eq_logoutAll hhas]
    rfl
  unfold accountStep at h
  split at h
  · split at h
    · obtain rfl := Option.some.inj h
      exact .answered (Or.inr rfl) rfl (by decide) rfl
    · obtain rfl := Option.some.inj h
      exact .listing rfl
    · obtain ⟨t, ht, rfl⟩ := Option.map_eq_some_iff.mp h
      exact .leaving rfl ht
    · cases h
  · split at h
    · obtain rfl := Option.some.inj h
      exact .refused _
    · obtain rfl := Option.some.inj h
      exact .answered (Or.inr hroute) rfl (by decide) rfl
  · obtain ⟨t, ht, rfl⟩ := Option.map_eq_some_iff.mp h
    exact .answeredAfter (a := .revokeAll n) (Or.inr hroute) hwrites rfl rfl (own_request rfl) ht
      (Or.inr rfl) (by decide) rfl
  · obtain ⟨t, ht, rfl⟩ := Option.map_eq_some_iff.mp h
    exact .refusedAfter (a := .revokeAll n) _ (Or.inr hroute) hwrites rfl rfl (own_request rfl) ht
      (Or.inl rfl)
  · cases h

theorem sendStep_cases {id : JsString}
    (h : sendStep n r requestId drawn id res s phase action = some x) :
    HandlerStep B n r requestId drawn (.sendMessage id) res s phase action x := by
  unfold sendStep at h
  split at h
  · split at h
    · obtain rfl := Option.some.inj h
      exact .refused _
    · split at h
      · obtain rfl := Option.some.inj h
        exact .begun rfl ‹_› ‹_›
      · cases h
  · obtain ⟨⟨phase', db⟩, hproceed, rfl⟩ := Option.map_eq_some_iff.mp h
    simp only
    split
    · exact .proceeded rfl hproceed ‹_›
    · exact .threw rfl hproceed ‹_›
    · exact .returned rfl hproceed ‹_›
  · cases h

theorem readStep_cases {id : JsString}
    (h : readStep r requestId id res s phase action = some x) :
    HandlerStep B n r requestId drawn (.getMessage id) res s phase action x := by
  unfold readStep at h
  split at h
  · split at h
    · obtain rfl := Option.some.inj h
      exact .refused _
    · split_ifs at h with hself
      · obtain rfl := Option.some.inj h
        exact .refused _
      · obtain rfl := Option.some.inj h
        exact .otherUser rfl hself
  · split at h
    · obtain rfl := Option.some.inj h
      exact .refused _
    · obtain rfl := Option.some.inj h
      exact .refused _
    · obtain rfl := Option.some.inj h
      exact .chatUserFound rfl ‹_›
  · split at h
    · obtain rfl := Option.some.inj h
      exact .refused _
    · obtain rfl := Option.some.inj h
      exact .refused _
    · split at h
      · obtain rfl := Option.some.inj h
        exact .refused _
      · obtain rfl := Option.some.inj h
        exact .conversationFound rfl ‹_› ‹_›
  · simp only at h
    split at h
    · obtain rfl := Option.some.inj h
      exact .refused _
    · split at h
      · obtain rfl := Option.some.inj h
        exact .refused _
      · obtain rfl := Option.some.inj h
        exact .pageRead rfl ‹_› ‹_›
  · cases h

theorem observeStep_cases (hroute : endpoint.isObserved = true)
    (h : observeStep res s phase action = some x) :
    HandlerStep B n r requestId drawn endpoint res s phase action x := by
  unfold observeStep at h
  split at h
  · simp only at h
    split at h
    · obtain rfl := Option.some.inj h
      exact .answered (Or.inl hroute) rfl (by decide) rfl
    · obtain rfl := Option.some.inj h
      exact .answered (Or.inl hroute) rfl (by decide) rfl
  · obtain rfl := Option.some.inj h
    exact .answered (Or.inl hroute) rfl (by decide) rfl
  · cases h

/-- **Every step of a request** is one of the cases, on its route. -/
theorem httpStep_cases
    (h : httpStep B n r requestId drawn ⟨res, phase⟩ action s = some x) :
    ∃ endpoint, layers B.config B.urlOrigin r = .endpoint endpoint ∧
      HandlerStep B n r requestId drawn endpoint res s phase action x := by
  unfold httpStep at h
  split at h
  · split_ifs at h
    obtain rfl := Option.some.inj h
    exact ⟨_, ‹_›, .refused _⟩
  · rename_i endpoint hlayers _
    refine ⟨endpoint, hlayers, ?_⟩
    unfold handlerStep at h
    cases endpoint with
    | live | ready | metrics => exact observeStep_cases rfl h
    | signup | login => exact credentialStep_cases rfl h
    | refresh | logout => exact refreshStep_cases rfl h
    | logoutAll | me | allUsers =>
      rcases Option.or_eq_some_iff.mp h with h | ⟨-, h⟩
      · exact secureStep_cases rfl h
      · exact accountStep_cases rfl h
    | sendMessage id =>
      rcases Option.or_eq_some_iff.mp h with h | ⟨-, h⟩
      · exact secureStep_cases rfl h
      · exact sendStep_cases h
    | getMessage id =>
      rcases Option.or_eq_some_iff.mp h with h | ⟨-, h⟩
      · exact secureStep_cases rfl h
      · exact readStep_cases h
  · cases h

/-- **Every step of a socket** is one of the cases. -/
theorem socketStep_cases {accessToken : Option JsString}
    (h : socketStep B n accessToken ⟨res, phase⟩ action s = some x) :
    SocketStep B n res s accessToken phase action x := by
  unfold socketStep at h
  simp only at h
  split at h
  · split at h
    · obtain rfl := Option.some.inj h
      exact .refused _ (Or.inl rfl)
    · obtain rfl := Option.some.inj h
      exact .refused _ (Or.inl rfl)
    · obtain ⟨t, ht, rfl⟩ := Option.map_eq_some_iff.mp h
      exact .presented rfl ht
  · split_ifs at h
    obtain rfl := Option.some.inj h
    exact .refused _ (Or.inl rfl)
  · split at h
    · split at h
      · obtain rfl := Option.some.inj h
        exact .refused _ (Or.inr rfl)
      · obtain ⟨t, ht, rfl⟩ := Option.map_eq_some_iff.mp h
        exact .connected ‹_› ‹_› ht
    · cases h
  · obtain rfl := Option.some.inj h
    exact .refused _ (Or.inr rfl)
  · split at h
    · split_ifs at h with hroom
      obtain rfl := Option.some.inj h
      exact .received ‹_› ‹_› hroom
    · cases h
  · obtain rfl := Option.some.inj h
    exact .disconnected
  · cases h

end Cases

end MernChat.Api
