import MernChat.Api.Requests
import MernChat.Auth.SessionSystem
import MernChat.Auth.Signup
import MernChat.Chat.Confidentiality
import MernChat.Library.Pool

/-!
# The server

Requests and sockets of any number of clients run side by side over one database, one operation of
a request at a time: a statement, or a transaction as a whole. The users and the sessions are the
tables of authentication, and the chat reads the same users. A handler that throws is answered by
the error handler; the limiter of a credential route is answered by Redis in whatever way.

A message that was stored is emitted to the room of its receiver. A socket is in the room of the
user its handshake has found, and is delivered what is emitted to that room, on whichever instance.
What sockets write to Redis about the presence of their users, and the lists of users they emit, are
left to `realtimeStep`; they touch none of the tables here.

## Main definitions

* `Backend`: the configuration, and the libraries the server is built on
* `ApiState`: the tables, what was emitted and delivered, and the history of sessions and messages
* `Arrival`, `Phase`, `Flight`: a request or a socket, and how far it is
* `enter`, `httpStep`, `socketStep`: the handlers, operation by operation
* `apiProgram`: the processes
-/

namespace MernChat.Api

open Library

/-- The configuration and the libraries. -/
structure Backend where
  config : AppConfig
  urlOrigin : JsString → Option JsString
  jwt : Jwt
  hashToken : JsString → JsString
  bcrypt : Bcrypt
  toLowerCase : JsString → JsString

/-- An HTTP request, with the id it is given if it brings none, or a socket with the cookie
`accessToken` of its handshake. -/
inductive Arrival
  | http (request : HttpRequest) (drawn : Uuid)
  | socket (accessToken : Option JsString)

/-! ## The state -/

/-- A session was created for a user by the request of a process, which had shown who it is, under
the hash of a refresh token. -/
structure Grant where
  process : ℕ
  arrival : Arrival
  sessionId : Uuid
  userId : JsString
  tokenHash : JsString
  createdAt : Int

/-- A call of `sendMessage` was begun by the request of a process, as the user that was attached
to it for its token. -/
structure Authorship where
  process : ℕ
  arrival : Arrival
  token : JsString
  now : Int
  lookup : AuthDatabase
  user : PublicUser
  env : SendEnv
  input : SendMessageInput

/-- `io.to(room).emit("newMessage", message)`, by a call. -/
structure RoomEvent where
  call : ℕ
  room : JsString
  message : SerializedMessage

/-- A message event has reached the socket of a process, which its handshake has connected as a
user. -/
structure Delivery where
  process : ℕ
  arrival : Arrival
  token : JsString
  now : Int
  lookup : AuthDatabase
  userId : JsString
  event : RoomEvent

/-- The tables, and the message events of the sockets. `auth.db.users` and `chat.db.users` are one
table. Grants, authorships and deliveries belong to the history; no step reads them, but the number
of the authorships is the number of the calls. -/
structure ApiState where
  auth : AuthState
  chat : MessagingState
  emitted : List RoomEvent
  grants : List Grant
  authorships : List Authorship
  deliveries : List Delivery

/-- Where a request or a socket is, by what it does next. -/
inductive Phase
  /-- `/health/ready` asks for its dependencies. -/
  | checking
  /-- `/metrics` reads the outbox. -/
  | scraping
  | limiting
  /-- `registerUser` looks up the e-mail. -/
  | findingEmail
  /-- `registerUser` inserts the user. -/
  | insertingUser
  | authenticating
  /-- `setAuthCookies` stores a session. -/
  | creatingSession (user : PublicUser)
  | issuingToken (user : PublicUser) (refreshToken : JsString)
  /-- `refreshSession` looks up the session. -/
  | refreshing (refreshToken : JsString)
  | issuingRefreshed (session : PostgresSession)
  /-- `refresh` looks up the user. -/
  | findingUser (session : PostgresSession)
  /-- `refresh` deletes the sessions of a user that is gone. -/
  | revokingGone
  /-- `logout` deletes the session. -/
  | revoking (refreshToken : JsString)
  /-- `secureRoute` looks up the session, and then the user. -/
  | securing (token : JsString)
  | secured
  | attached (user : PublicUser)
  | revokingAll
  | listing (user : PublicUser)
  | sending (user : PublicUser) (k : ℕ) (call : SendCall)
  /-- `getMessages` looks up the other user, the conversation, and the page. -/
  | findingChatUser (user : PublicUser)
  | findingConversation (user : PublicUser)
  | findingPage (user : PublicUser) (conversation : PostgresConversation)
    (cursor : Option MessageCursor)
  | answered (response : HttpResponse)
  /-- The handshake looks up the session, and then the user. -/
  | handshake
  | handshakeFound
  | connected (userId : JsString)
  | refused (error : SocketAuthError)
  | disconnected

/-- A request, with what is set on its response so far. -/
structure Flight where
  res : PendingResponse
  phase : Phase

/-- What the environment does: the clock, the ids and salts that are drawn, the answers of Redis
and of the dependencies, and the operations that fail. -/
inductive ApiAction
  | limit (now : ℕ) (count : Option ℕ)
  | observe (database redis : Bool)
  | scrape (text : JsString)
  | query
  | at (now : Int)
  | register (env : RegisterEnv)
  | createSession (id : Uuid) (refreshToken : JsString) (now dbNow : Int)
  | send (env : SendEnv)
  /-- The pending operation fails with an error of the database, or another one. -/
  | fail (code : Option SqlState)
  /-- The pending deletion is done, but its acknowledgement fails. -/
  | lost (code : Option SqlState)
  /-- The `j`-th event reaches the socket. -/
  | receive (j : ℕ)
  | disconnect

/-! ## Cookies -/

section Cookies

variable (config : AppConfig)

def ACCESS_COOKIE_MAX_AGE_MS : Int := 15 * 60 * 1000

/-- The options the two cookies share. -/
def cookieOptions (maxAge : Int) (path : JsString) : CookieOptions where
  httpOnly := true
  secure := config.production
  sameSite := if config.production then js "none" else js "lax"
  maxAge := maxAge
  path := path

def accessCookieOptions : CookieOptions := cookieOptions config ACCESS_COOKIE_MAX_AGE_MS (js "/")

def refreshCookieOptions : CookieOptions :=
  cookieOptions config REFRESH_TOKEN_TTL_MS (js "/api/user")

def PendingResponse.accessToken (res : PendingResponse) (token : JsString) : PendingResponse :=
  res.cookie ⟨js "accessToken", some token, accessCookieOptions config⟩

def PendingResponse.refreshToken (res : PendingResponse) (token : JsString) : PendingResponse :=
  res.cookie ⟨js "refreshToken", some token, refreshCookieOptions config⟩

/-- `clearCookie` is given the options with their `maxAge`: it sends cookies with an empty value,
which last as long as those that were set. -/
def clearAuthCookies (res : PendingResponse) : PendingResponse :=
  (res.cookie ⟨js "accessToken", none, accessCookieOptions config⟩).cookie
    ⟨js "refreshToken", none, refreshCookieOptions config⟩

end Cookies

/-! ## Answers -/

def Flight.at (res : PendingResponse) (phase : Phase) : Flight := ⟨res, phase⟩

/-- The response is sent. -/
def answer (res : PendingResponse) (statusCode : Nat) (body : ResponseBody) : Flight :=
  ⟨res, .answered (res.send statusCode body)⟩

/-- The error is handed on. -/
def refuse (requestId : JsString) (res : PendingResponse) (error : RequestError) : Flight :=
  ⟨res, .answered (errorHandler requestId res error)⟩

def sessionExpired : RequestError := .app ⟨js "Session expired", 401, .SESSION_EXPIRED, none⟩

def userCreated : JsString := js "User created successfully"

def userLoggedIn : JsString := js "User logged in successfully"

/-- `sanitizeUser`. -/
def sanitizeUser (user : UserRecord) : PublicUser := ⟨user._id, user.fullname, user.email⟩

section Handlers

variable (B : Backend)

/-- A request enters its route. -/
def enter (requestId : JsString) (res : PendingResponse) (r : HttpRequest) : Endpoint → Flight
  | .live => answer res 200 (.status [(js "status", js "ok")])
  | .ready => .at res .checking
  | .metrics => .at res .scraping
  | .signup | .login => .at res .limiting
  | .refresh =>
    match r.refreshToken with
    | .text token => .at res (.refreshing token)
    | _ => refuse requestId res sessionExpired
  | .logout =>
    match r.refreshToken with
    | .absent | .text [] => answer (clearAuthCookies B.config res) 204 .empty
    | .text token => .at res (.revoking token)
    -- the hash is of strings only
    | .json => refuse requestId res .other
  | _ =>
    match r.accessToken with
    | .text token => .at res (.securing token)
    | _ => refuse requestId res (.thrown authenticationRequired)

/-- The layers, up to the first operation of a handler. -/
def dispatch (requestId : JsString) (r : HttpRequest) : Flight :=
  let res := requestContext B.config requestId
  match layers B.config B.urlOrigin r with
  | .error error => refuse requestId res error
  | .preflight => answer res 204 .empty
  | .endpoint endpoint => enter B requestId res r endpoint

def apiStart (a : Arrival) (s : ApiState) : Option (Flight × ApiState) :=
  match a with
  | .http r drawn => some (dispatch B (normalizeRequestId drawn r.requestId) r, s)
  | .socket _ => some (.at ⟨[], []⟩ .handshake, s)

/-! ## Statements -/

/-- `registerUser` up to its first query, and that query: what it throws, if it does. -/
def findExisting (body : SignupBody) (db : AuthDatabase) : Option Thrown :=
  match body with
  | ⟨some fullname, some email, some password, some confirmPassword⟩ =>
    if (trim fullname).length < 2 ∨ MAX_FULLNAME_LENGTH < (trim fullname).length ∨
        MAX_EMAIL_LENGTH < (trim email).length ∨ email.contains 0x40 = false ∨
        password.length < 8 ∨ MAX_PASSWORD_LENGTH < password.length ∨
        confirmPassword.length < 8 ∨ MAX_PASSWORD_LENGTH < confirmPassword.length then
      some invalidSignup
    else if password = confirmPassword then
      match readIn db (findByEmail (normalizeEmail B.toLowerCase email) false) with
      | .ok none => none
      | .ok (some _) => some alreadyRegistered
      | .error error => some error
    else some passwordsDoNotMatch
  | _ => some invalidSignup

/-- What `registerUser` inserts. -/
def newUser (env : RegisterEnv) (body : SignupBody) : CreateUserInput where
  fullname := trim (body.fullname.getD [])
  email := normalizeEmail B.toLowerCase (body.email.getD [])
  passwordHash := B.bcrypt.hash env.salt (body.password.getD []) 12

/-- The chat reads the users that authentication writes. -/
def ApiState.withUsers (s : ApiState) (auth : AuthState) : ApiState :=
  { s with auth, chat := { s.chat with db := { s.chat.db with users := auth.db.users } } }

/-- A step of authentication. -/
def ApiState.authenticate (s : ApiState) (a : AuthAction) : Option ApiState :=
  (authStep B.jwt B.hashToken s.auth a).map fun auth => { s with auth }

/-- What an operation of a call makes of it: it returns a message or throws, if it was the last
one. -/
def outcome (call : SendCall) (db : Database) : Option (Except Thrown SerializedMessage) :=
  match call.phase with
  | .checkReceiver =>
    if call.input.senderId = call.input.receiverId then some (.error selfMessage)
    else
      match (exec (query (call.env.fault .findUserById)
          (findUserById call.input.receiverId)) db).1 with
      | .ok (some _) => none
      | .ok none => some (.error receiverNotFound)
      | .error error => some (.error error)
  | .findConversation =>
    match (exec (query (call.env.fault .findDirectConversation)
        (findDirectConversation call.input.senderId call.input.receiverId)) db).1 with
    | .ok _ => none
    | .error error => some (.error error)
  | .createConversation =>
    match (exec (createDirectConversation call.env call.input.senderId
        call.input.receiverId) db).1 with
    | .ok _ => none
    | .error error => some (.error error)
  | .storeMessage conversation =>
    match (exec (storeAndSerialize call.env call.input conversation) db).1 with
    | .ok result => some (.ok result.message)
    | .error error => some (.error error)
  | .ended => none

/-- `failed` is what the driver throws. -/
def failed : Option SqlState → RequestError
  | some code => .thrown (.database code)
  | none => .other

/-! ## The handlers -/

variable (n : ℕ) (r : HttpRequest) (requestId : JsString)

/-- What follows a limiter that lets the request pass. -/
def validated (res : PendingResponse) (errors : FieldErrors) (next : Phase) : Flight :=
  match validateRequest errors with
  | some error => refuse requestId res (.thrown error)
  | none => .at res next

/-- The handler of a credential route, with its limiter. -/
def credentialStep (drawn : Uuid) (endpoint : Endpoint) (res : PendingResponse) (s : ApiState) :
    Phase → ApiAction → Option (Flight × ApiState)
  | .limiting, .limit now count =>
    let options := if endpoint = .signup then CredentialRoute.signup.options
      else CredentialRoute.login.options
    let limited := createRedisRateLimiter options now count
    let res := res.setHeaders limited.headers
    match limited.error with
    | some error => some (refuse requestId res (.thrown (.app error)), s)
    | none =>
      if endpoint = .signup then
        some (validated requestId res (signupSchema r.signupBody) .findingEmail, s)
      else some (validated requestId res (loginSchema r.loginBody) .authenticating, s)
  | .findingEmail, .query =>
    match findExisting B r.signupBody s.auth.db with
    | some error => some (refuse requestId res (.thrown error), s)
    | none => some (.at res .insertingUser, s)
  | .insertingUser, .register env =>
    match createUser env.id (newUser B env r.signupBody) env.now s.auth.db with
    | .error error => some (refuse requestId res (.thrown error), s)
    | .ok (user, _) =>
      (authStep B.jwt B.hashToken s.auth
        (.signup n env.id (newUser B env r.signupBody) env.now)).map fun auth =>
          (.at res (.creatingSession (sanitizeUser (toUserRecord user))), s.withUsers auth)
  | .authenticating, .query =>
    match (exec (authenticateUser B.bcrypt B.toLowerCase r.loginBody) s.auth.db).1 with
    | .error error => some (refuse requestId res (.thrown error), s)
    | .ok user =>
      (s.authenticate B (.login n (normalizeEmail B.toLowerCase (r.fields.email.getD [])))).map
        fun s => (.at res (.creatingSession (sanitizeUser user)), s)
  | .creatingSession user, .createSession id refreshToken now dbNow =>
    match s.auth.requests n with
    | some (.authenticated userId) =>
      match createSession id ⟨userId, B.hashToken refreshToken, now + REFRESH_TOKEN_TTL_MS, now⟩
          dbNow s.auth.db with
      | .error error => some (refuse requestId res (.thrown error), s)
      | .ok _ =>
        (s.authenticate B (.createSession n id refreshToken now dbNow)).map fun s =>
          (.at res (.issuingToken user refreshToken),
            { s with
              grants := ⟨n, .http r drawn, id, userId, B.hashToken refreshToken, now⟩ :: s.grants })
    | _ => none
  | .issuingToken user refreshToken, .at now =>
    match s.auth.requests n with
    | some (.sessionCreated userId session) =>
      (s.authenticate B (.issueToken n now)).map fun s =>
        let res := (res.accessToken B.config (issueAccessToken B.jwt now userId session.id))
          |>.refreshToken B.config refreshToken
        (if endpoint = .signup then answer res 201 (.user (some userCreated) user)
          else answer res 200 (.user (some userLoggedIn) user), s)
    | _ => none
  | _, _ => none

/-- The handlers of `/refresh` and `/logout`. -/
def refreshStep (res : PendingResponse) (s : ApiState) :
    Phase → ApiAction → Option (Flight × ApiState)
  | .refreshing token, .at now =>
    match findActiveSessionByTokenHash (B.hashToken token) now s.auth.db with
    | .error error => some (refuse requestId res (.thrown error), s)
    | .ok (session, _) =>
      (s.authenticate B (.refresh n token now)).map fun s =>
        match session with
        | some session => (.at res (.issuingRefreshed session), s)
        | none => (refuse requestId (clearAuthCookies B.config res) sessionExpired, s)
  | .issuingRefreshed session, .at now =>
    (s.authenticate B (.issueToken n now)).map fun s =>
      (.at (res.accessToken B.config (issueAccessToken B.jwt now session.userId session.id))
        (.findingUser session), s)
  | .findingUser session, .query =>
    (s.authenticate B (.findUser n)).map fun s' =>
      match readIn s.auth.db (findPublicById session.userId) with
      | .ok (some user) => (answer res 200 (.user none user), s')
      | .ok none => (.at res .revokingGone, s')
      | .error error => (refuse requestId res (.thrown error), s')
  | .revokingGone, .query =>
    (s.authenticate B (.revokeAll n)).map fun s =>
      (refuse requestId (clearAuthCookies B.config res) sessionExpired, s)
  | .revokingGone, .lost code =>
    (s.authenticate B (.revokeAll n)).map fun s => (refuse requestId res (failed code), s)
  | .revoking token, .query =>
    (s.authenticate B (.logout token)).map fun s =>
      (answer (clearAuthCookies B.config res) 204 .empty, s)
  | .revoking token, .lost code =>
    (s.authenticate B (.logout token)).map fun s => (refuse requestId res (failed code), s)
  | _, _ => none

/-- `secureRoute`. -/
def secureStep (res : PendingResponse) (s : ApiState) :
    Phase → ApiAction → Option (Flight × ApiState)
  | .securing token, .at now =>
    match verifyAccessToken B.jwt now token with
    | .error error => some (refuse requestId res (.token error), s)
    | .ok decoded =>
      match readIn s.auth.db (findActiveSessionById decoded.sessionId decoded.userId now) with
      | .error error => some (refuse requestId res (.thrown error), s)
      | .ok none => some (refuse requestId res (.thrown invalidSession), s)
      | .ok (some _) =>
        (s.authenticate B (.present n .secureRoute token now)).map fun s => (.at res .secured, s)
  | .secured, .query =>
    match s.auth.requests n with
    | some (.gate .secureRoute token now lookup) =>
      match secureRoute B.jwt now (some token) lookup s.auth.db with
      | .error error => some (refuse requestId res (.thrown error), s)
      | .ok user =>
        (s.authenticate B (.finishGate n)).map fun s => (.at res (.attached user), s)
    | _ => none
  | _, _ => none

/-- The handlers behind `secureRoute` that concern users. -/
def accountStep (endpoint : Endpoint) (res : PendingResponse) (s : ApiState) :
    Phase → ApiAction → Option (Flight × ApiState)
  | .attached user, .query =>
    match endpoint with
    | .me => some (answer res 200 (.user none user), s)
    | .allUsers => some (.at res (.listing user), s)
    | .logoutAll =>
      (s.authenticate B (.logoutAll n)).map fun s => (.at res .revokingAll, s)
    | _ => none
  | .listing user, .query =>
    match readIn s.auth.db (listUsersExcept user._id) with
    | .error error => some (refuse requestId res (.thrown error), s)
    | .ok users => some (answer res 200 (.users users), s)
  | .revokingAll, .query =>
    (s.authenticate B (.revokeAll n)).map fun s =>
      (answer (clearAuthCookies B.config res) 204 .empty, s)
  | .revokingAll, .lost code =>
    (s.authenticate B (.revokeAll n)).map fun s => (refuse requestId res (failed code), s)
  | _, _ => none

/-- The handler of `POST /send/:id`. -/
def sendStep (drawn : Uuid) (id : JsString) (res : PendingResponse) (s : ApiState) :
    Phase → ApiAction → Option (Flight × ApiState)
  | .attached user, .send env =>
    match validateRequest (sendMessageSchema id r.fields.message) with
    | some error => some (refuse requestId res (.thrown error), s)
    | none =>
      match s.auth.requests n with
      | some (.attached token now lookup _) =>
        let input : SendMessageInput :=
          { senderId := user._id
            receiverId := id
            message := r.fields.message.getD []
            correlationId := requestId }
        let call : SendCall := ⟨env, input, .checkReceiver⟩
        some (.at res (.sending user s.chat.calls.length call),
          { s with
            chat := { s.chat with calls := s.chat.calls ++ [call] }
            authorships := s.authorships ++
              [⟨n, .http r drawn, token, now, lookup, user, env, input⟩] })
      | _ => none
  | .sending user k call, .query =>
    (call.proceed s.chat.db).map fun (phase, db) =>
      let call' : SendCall := { call with phase }
      let s' : ApiState := { s with chat := ⟨db, s.chat.calls.set k call'⟩ }
      match outcome call s.chat.db with
      | none => (.at res (.sending user k call'), s')
      | some (.error error) => (refuse requestId res (.thrown error), s')
      | some (.ok message) =>
        (answer res 201 (.message message),
          { s' with emitted := s.emitted ++ [⟨k, getUserRoomName id, message⟩] })
  | _, _ => none

/-- The handler of `GET /get/:id`. -/
def readStep (id : JsString) (res : PendingResponse) (s : ApiState) :
    Phase → ApiAction → Option (Flight × ApiState)
  | .attached user, .query =>
    match validateRequest (getMessageSchema id r.limit r.cursor) with
    | some error => some (refuse requestId res (.thrown error), s)
    | none =>
      if user._id = id then some (refuse requestId res (.thrown selfConversation), s)
      else some (.at res (.findingChatUser user), s)
  | .findingChatUser user, .query =>
    match (exec (query none (findUserById id)) s.chat.db).1 with
    | .error error => some (refuse requestId res (.thrown error), s)
    | .ok none => some (refuse requestId res (.thrown userNotFound), s)
    | .ok (some _) => some (.at res (.findingConversation user), s)
  | .findingConversation user, .query =>
    match (exec (query none (findDirectConversation user._id id)) s.chat.db).1 with
    | .error error => some (refuse requestId res (.thrown error), s)
    | .ok none => some (refuse requestId res (.thrown conversationNotFound), s)
    | .ok (some conversation) =>
      match decodeCursor (queryText r.cursor) with
      | none => some (refuse requestId res (.thrown invalidCursor), s)
      | some cursor => some (.at res (.findingPage user conversation cursor), s)
  | .findingPage user conversation cursor, .query =>
    let limit : Int := (parseLimit r.limit).getD DEFAULT_MESSAGE_PAGE_SIZE
    match (exec (query none
        (findMessagesByConversation conversation.id limit cursor)) s.chat.db).1 with
    | .error error => some (refuse requestId res (.thrown error), s)
    | .ok page =>
      match serializePage user._id id limit page with
      | none => some (refuse requestId res (.thrown invalidTime), s)
      | some page => some (answer res 200 (.page page), s)
  | _, _ => none

/-- The handlers of health checks and metrics. -/
def observeStep (res : PendingResponse) (s : ApiState) :
    Phase → ApiAction → Option (Flight × ApiState)
  | .checking, .observe database redis =>
    let status (up : Bool) := if up then js "connected" else js "unavailable"
    let fields (s : JsString) := [(js "status", s), (js "database", status database),
      (js "redis", status redis)]
    if database && redis then some (answer res 200 (.status (fields (js "ready"))), s)
    else some (answer res 503 (.status (fields (js "not_ready"))), s)
  | .scraping, .scrape text => some (answer res 200 (.text text), s)
  | _, _ => none

/-- The phases in which an operation is pending that rejects when it fails, or its
acknowledgement. -/
def Phase.mayFail : Phase → Bool
  | .findingEmail | .insertingUser | .authenticating | .creatingSession _ | .issuingToken _ _
  | .refreshing _ | .issuingRefreshed _ | .findingUser _ | .revokingGone | .revoking _
  | .securing _ | .secured | .listing _ | .revokingAll | .findingChatUser _
  | .findingConversation _ | .findingPage _ _ _ => true
  | _ => false

/-- The step of a handler. -/
def handlerStep (drawn : Uuid) (endpoint : Endpoint) (res : PendingResponse) (phase : Phase)
    (action : ApiAction) (s : ApiState) : Option (Flight × ApiState) :=
  match endpoint with
  | .live | .ready | .metrics => observeStep res s phase action
  | .signup | .login => credentialStep B n r requestId drawn endpoint res s phase action
  | .refresh | .logout => refreshStep B n requestId res s phase action
  | .logoutAll | .me | .allUsers =>
    (secureStep B n requestId res s phase action).or
      (accountStep B n requestId endpoint res s phase action)
  | .sendMessage id =>
    (secureStep B n requestId res s phase action).or
      (sendStep n r requestId drawn id res s phase action)
  | .getMessage id =>
    (secureStep B n requestId res s phase action).or
      (readStep r requestId id res s phase action)

/-- The step of a request that has reached its route. -/
def httpStep (drawn : Uuid) (f : Flight) (action : ApiAction) (s : ApiState) :
    Option (Flight × ApiState) :=
  match layers B.config B.urlOrigin r, action with
  | .endpoint _, .fail code =>
    if f.phase.mayFail then some (refuse requestId f.res (failed code), s) else none
  | .endpoint endpoint, action =>
    handlerStep B n r requestId drawn endpoint f.res f.phase action s
  | _, _ => none

/-- The handshake of a socket, and the messages that reach it. Its `connection` and `disconnect`
handlers write the presence of the user to Redis and emit `getOnlineUsers`, which is left to
`realtimeStep`. -/
def socketStep (accessToken : Option JsString) (f : Flight) (action : ApiAction) (s : ApiState) :
    Option (Flight × ApiState) :=
  match f.phase, action with
  | .handshake, .at now =>
    match accessToken with
    | none | some [] => some (⟨f.res, .refused ⟨.AUTH_REQUIRED, js "Authentication required"⟩⟩, s)
    | some token =>
      -- a handshake that fails at its first lookup fails with the second one here
      (s.authenticate B (.present n .socketHandshake token now)).map fun s =>
        (⟨f.res, .handshakeFound⟩, s)
  | .handshake, .fail _ =>
    if accessToken.all (· == []) then none
    else some (⟨f.res, .refused invalidAuthentication⟩, s)
  | .handshakeFound, .query =>
    match s.auth.requests n with
    | some (.gate .socketHandshake token now lookup) =>
      match socketHandshake B.jwt now (some token) lookup s.auth.db with
      | .error error => some (⟨f.res, .refused error⟩, s)
      | .ok userId =>
        (s.authenticate B (.finishGate n)).map fun s => (⟨f.res, .connected userId⟩, s)
    | _ => none
  | .handshakeFound, .fail _ => some (⟨f.res, .refused invalidAuthentication⟩, s)
  | .connected userId, .receive j =>
    match s.auth.requests n, s.emitted[j]? with
    | some (.connected token now lookup _), some event =>
      if event.room = getUserRoomName userId then
        some (f, { s with
          deliveries := ⟨n, .socket accessToken, token, now, lookup, userId, event⟩ ::
            s.deliveries })
      else none
    | _, _ => none
  | .connected _, .disconnect => some (⟨f.res, .disconnected⟩, s)
  | _, _ => none

def apiStep (a : Arrival) (f : Flight) (action : ApiAction) (s : ApiState) :
    Option (Flight × ApiState) :=
  match a with
  | .http r drawn => httpStep B n r (normalizeRequestId drawn r.requestId) drawn f action s
  | .socket accessToken => socketStep B n accessToken f action s

/-- The server, from the empty tables on. -/
def apiProgram : PoolProgram ApiState Arrival Flight ApiAction where
  init s := (authSystem B.jwt B.hashToken).init s.auth ∧ s.auth.db.users = [] ∧
    s.chat = ⟨Database.empty, []⟩ ∧ s.emitted = [] ∧ s.grants = [] ∧ s.authorships = [] ∧
    s.deliveries = []
  start _ a s := apiStart B a s
  step n a f action s := apiStep B n a f action s

end Handlers

end MernChat.Api
