import MernChat.Auth.Users

/-!
# Sessions and access tokens

A login stores a session under the hash of its refresh token and hands out access tokens that
name the user and the session. A request presents an access token; the session it names is
looked up, then the user. Two gates do this: `secureRoute` for the REST routes and the handshake
of the sockets. The lookups of one gate may see two states of the database.

## Main definitions

* `createSession`, `findActiveSessionByTokenHash`, `findActiveSessionById`,
  `revokeSessionByTokenHash`, `revokeAllSessionsForUser`: the statements on sessions
* `Jwt`, `verifyAccessToken`: the library of tokens, and the check of a token
* `secureRoute`, `socketHandshake`: the gates

## Main results

* `secureRoute_eq_ok`, `socketHandshake_eq_ok`: what a gate lets through
* `gates_agree`: they let through the same tokens, as the same user
-/

namespace MernChat

open Library

def REFRESH_TOKEN_TTL_MS : Int := 30 * 24 * 60 * 60 * 1000

/-! ## The repository -/

structure PostgresSession where
  id : JsString
  userId : JsString
  tokenHash : JsString
  expiresAt : JsDate
  lastUsedAt : JsDate
  createdAt : JsDate
  updatedAt : JsDate

def mapSession (row : SessionRow) : PostgresSession where
  id := row.id.toText
  userId := row.userId.toText
  tokenHash := row.tokenHash
  expiresAt := readTimestamp row.expiresAt
  lastUsedAt := readTimestamp row.lastUsedAt
  createdAt := readTimestamp row.createdAt
  updatedAt := readTimestamp row.updatedAt

structure CreateSessionInput where
  userId : JsString
  tokenHash : JsString
  expiresAt : Int
  lastUsedAt : Int

/-- `INSERT INTO sessions … RETURNING`, under a random id; dates are milliseconds. -/
def createSession (id : Uuid) (input : CreateSessionInput) (now : Int) :
    AuthTx PostgresSession := do
  let userId ← uuidOf input.userId
  let db ← get
  ensure (db.sessions.any (fun s => s.id == id) = false) .unique_violation
  ensure (db.sessions.any (fun s => s.tokenHash == input.tokenHash) = false) .unique_violation
  ensure (db.users.any (fun u => u.id == userId) = true) .foreign_key_violation
  let row : SessionRow :=
    { id
      userId
      tokenHash := input.tokenHash
      expiresAt := pgTimestamp input.expiresAt
      lastUsedAt := pgTimestamp input.lastUsedAt
      createdAt := now
      updatedAt := now }
  set { db with sessions := db.sessions ++ [row] }
  return mapSession row

/-- The row is unexpired at `now`. -/
def SessionRow.activeAt (row : SessionRow) (now : Int) : Bool :=
  decide (pgTimestamp now < row.expiresAt)

/-- The row as `SET last_used_at = $2, updated_at = $2` leaves it. -/
def SessionRow.touch (row : SessionRow) (now : Int) : SessionRow :=
  { row with lastUsedAt := pgTimestamp now, updatedAt := pgTimestamp now }

def SessionRow.refreshable (row : SessionRow) (tokenHash : JsString) (now : Int) : Bool :=
  row.tokenHash == tokenHash && row.activeAt now

/-- `UPDATE sessions … WHERE token_hash = $1 AND expires_at > $2 RETURNING`. -/
def findActiveSessionByTokenHash (tokenHash : JsString) (now : Int) :
    AuthTx (Option PostgresSession) := do
  let db ← get
  -- the session keeps its `expires_at`: a refresh does not prolong it
  set { db with
    sessions := db.sessions.map fun row : SessionRow =>
      if row.refreshable tokenHash now then row.touch now else row }
  return (db.sessions.find? fun row => row.refreshable tokenHash now).map fun row : SessionRow =>
    mapSession (row.touch now)

/-- `SELECT … FROM sessions WHERE id = $1 AND user_id = $2 AND expires_at > $3`. -/
def findActiveSessionById (sessionId userId : JsString) (now : Int) :
    AuthTx (Option PostgresSession) := do
  let id ← uuidOf sessionId
  let user ← uuidOf userId
  let db ← get
  return (db.sessions.find? fun row => row.id == id && row.userId == user && row.activeAt now).map
    mapSession

/-- `DELETE FROM sessions WHERE token_hash = $1`. -/
def revokeSessionByTokenHash (tokenHash : JsString) (db : AuthDatabase) : AuthDatabase :=
  { db with sessions := db.sessions.filter fun row => !(row.tokenHash == tokenHash) }

/-- `DELETE FROM sessions WHERE user_id = $1`. -/
def revokeAllSessionsForUser (userId : Uuid) (db : AuthDatabase) : AuthDatabase :=
  { db with sessions := db.sessions.filter fun row => !(row.userId == userId) }

/-! ## Access tokens -/

/-- An error of the check of a token. -/
structure JwtError where
  name : JsString
  message : JsString

/-- What a verified token holds: a text, or an object with its fields `userId` and `sessionId`
where they are strings. -/
inductive JwtDecoded where
  | text (payload : JsString)
  | fields (userId sessionId : Option JsString)

/-- The library of tokens, with the secret and the algorithm of the configuration: `sign` of a
user and a session at a time, `verify` at a time. An empty token is no token. -/
structure Jwt where
  sign : JsString → JsString → Int → JsString
  verify : JsString → Int → Except JwtError JwtDecoded
  verify_nil : ∀ now decoded, verify [] now ≠ .ok decoded

structure AccessTokenPayload where
  userId : JsString
  sessionId : JsString
deriving DecidableEq

/-- `/^[0-9a-f-]{36}$/i`. -/
def isTokenId (s : JsString) : Bool := s.length == 36 && s.all fun c => hexClass c || hyphenClass c

def invalidPayload : JwtError := ⟨js "Error", js "Invalid access token payload"⟩

section Gates

variable (J : Jwt) (now : Int)

def issueAccessToken (userId sessionId : JsString) : JsString := J.sign userId sessionId now

def verifyAccessToken (token : JsString) : Except JwtError AccessTokenPayload :=
  match J.verify token now with
  | .error e => .error e
  | .ok (.fields (some userId) (some sessionId)) =>
    if isTokenId userId && isTokenId sessionId then .ok { userId, sessionId }
    else .error invalidPayload
  | .ok _ => .error invalidPayload

/-! ## The gates -/

/-- A statement that only reads, in a state of the database. -/
def readIn {α : Type} (db : AuthDatabase) (x : AuthTx α) : Except Thrown α := (x db).map Prod.fst

def authenticationRequired : Thrown :=
  .app ⟨js "Authentication required", 401, .UNAUTHENTICATED, none⟩

def invalidSession : Thrown := .app ⟨js "Invalid session", 401, .UNAUTHENTICATED, none⟩

/-- The user attached to a request with the cookie `accessToken`, if it is a string. The session
is looked up in `db₁`, the user in `db₂`. -/
def secureRoute (accessToken : Option JsString) (db₁ db₂ : AuthDatabase) :
    Except Thrown PublicUser :=
  match accessToken with
  | none => .error authenticationRequired
  | some token =>
    match verifyAccessToken J now token with
    | .error e => .error (.error e.message)
    | .ok decoded =>
      match readIn db₁ (findActiveSessionById decoded.sessionId decoded.userId now) with
      | .error e => .error e
      | .ok none => .error invalidSession
      | .ok (some _) =>
        match readIn db₂ (findPublicById decoded.userId) with
        | .error e => .error e
        | .ok none => .error invalidSession
        | .ok (some user) => .ok user

inductive SocketAuthCode
  | AUTH_REQUIRED
  | AUTH_INVALID
  | AUTH_EXPIRED
deriving DecidableEq

structure SocketAuthError where
  code : SocketAuthCode
  message : JsString

def invalidAuthentication : SocketAuthError := ⟨.AUTH_INVALID, js "Invalid authentication"⟩

/-- The user id of a socket whose handshake has the cookie `accessToken`. -/
def socketHandshake (accessToken : Option JsString) (db₁ db₂ : AuthDatabase) :
    Except SocketAuthError JsString :=
  match accessToken with
  | none | some [] => .error ⟨.AUTH_REQUIRED, js "Authentication required"⟩
  | some token =>
    match verifyAccessToken J now token with
    | .error e =>
      if e.name = js "TokenExpiredError" then .error ⟨.AUTH_EXPIRED, js "Authentication expired"⟩
      else .error invalidAuthentication
    | .ok decoded =>
      match readIn db₁ (findActiveSessionById decoded.sessionId decoded.userId now) with
      | .error _ => .error invalidAuthentication
      | .ok none => .error invalidAuthentication
      | .ok (some _) =>
        match readIn db₂ (findPublicById decoded.userId) with
        | .error _ => .error invalidAuthentication
        | .ok none => .error invalidAuthentication
        | .ok (some user) => .ok user._id

end Gates

/-! ## What the statements do -/

section Statements

variable {db db' : AuthDatabase}

theorem createSession_eq_ok {id : Uuid} {input : CreateSessionInput} {now : Int}
    {r : PostgresSession} :
    createSession id input now db = .ok (r, db') ↔ ∃ row : SessionRow, row.id = id ∧
      Uuid.parse input.userId = some row.userId ∧ row.tokenHash = input.tokenHash ∧
        row.expiresAt = pgTimestamp input.expiresAt ∧
        row.lastUsedAt = pgTimestamp input.lastUsedAt ∧ row.createdAt = now ∧ row.updatedAt = now ∧
        (∀ s ∈ db.sessions, s.id ≠ id) ∧
        (∀ s ∈ db.sessions, s.tokenHash ≠ row.tokenHash) ∧ (∃ u ∈ db.users, u.id = row.userId) ∧
        r = mapSession row ∧ db' = { db with sessions := db.sessions ++ [row] } := by
  simp only [createSession, Tx.bind_eq_ok, uuidOf_eq_ok, Tx.get_eq_ok, ensure_eq_ok,
    Tx.set_eq_ok, Tx.pure_eq_ok, List.any_eq_false, List.any_eq_true, beq_iff_eq]
  constructor
  · rintro ⟨u, _, ⟨hu, rfl⟩, _, _, ⟨rfl, rfl⟩, _, _, ⟨hid, rfl⟩, _, _, ⟨hhash, rfl⟩, _, _,
      ⟨huser, rfl⟩, _, _, rfl, rfl, rfl⟩
    exact ⟨_, rfl, hu, rfl, rfl, rfl, rfl, rfl, hid, hhash, huser, rfl, rfl⟩
  · rintro ⟨⟨_, u, _, _, _, _, _⟩, rfl, hu, hh, he, hl, hc, hup, hid, hhash, huser, rfl, rfl⟩
    simp only at hh he hl hc hup
    subst hh he hl hc hup
    exact ⟨u, _, ⟨hu, rfl⟩, _, _, ⟨rfl, rfl⟩, (), _, ⟨hid, rfl⟩, (), _, ⟨hhash, rfl⟩, (), _,
      ⟨huser, rfl⟩, (), _, rfl, rfl, rfl⟩

theorem findActiveSessionByTokenHash_eq_ok {tokenHash : JsString} {now : Int}
    {r : Option PostgresSession} :
    findActiveSessionByTokenHash tokenHash now db = .ok (r, db') ↔
      r = (db.sessions.find? fun row => row.refreshable tokenHash now).map
        (fun row => mapSession (row.touch now)) ∧
      db' = { db with
        sessions := db.sessions.map fun row =>
          if row.refreshable tokenHash now then row.touch now else row } := by
  simp only [findActiveSessionByTokenHash, Tx.bind_eq_ok, Tx.get_eq_ok, Tx.set_eq_ok,
    Tx.pure_eq_ok]
  constructor
  · rintro ⟨_, _, ⟨rfl, rfl⟩, _, _, rfl, rfl, rfl⟩
    exact ⟨rfl, rfl⟩
  · rintro ⟨rfl, rfl⟩
    exact ⟨_, _, ⟨rfl, rfl⟩, (), _, rfl, rfl, rfl⟩

theorem findActiveSessionById_eq_ok {sessionId userId : JsString} {now : Int}
    {r : Option PostgresSession} :
    findActiveSessionById sessionId userId now db = .ok (r, db') ↔ ∃ s u,
      Uuid.parse sessionId = some s ∧ Uuid.parse userId = some u ∧
        r = (db.sessions.find? fun row => row.id == s && row.userId == u && row.activeAt now).map
          mapSession ∧ db' = db := by
  simp only [findActiveSessionById, Tx.bind_eq_ok, uuidOf_eq_ok, Tx.get_eq_ok, Tx.pure_eq_ok]
  constructor
  · rintro ⟨s, _, ⟨hs, rfl⟩, u, _, ⟨hu, rfl⟩, _, _, ⟨rfl, rfl⟩, rfl, rfl⟩
    exact ⟨s, u, hs, hu, rfl, rfl⟩
  · rintro ⟨s, u, hs, hu, rfl, rfl⟩
    exact ⟨s, _, ⟨hs, rfl⟩, u, _, ⟨hu, rfl⟩, _, _, ⟨rfl, rfl⟩, rfl, rfl⟩

theorem readIn_eq_ok {α : Type} {x : AuthTx α} {a : α} :
    readIn db x = .ok a ↔ ∃ db', x db = .ok (a, db') := by
  unfold readIn
  cases x db with
  | error e => simp [Except.map]
  | ok r =>
    obtain ⟨b, db''⟩ := r
    simp [Except.map]

/-- **The session lookup of a gate finds an active session**: the row is there. -/
theorem readIn_findActiveSessionById {sessionId userId : JsString} {now : Int} :
    (∃ session, readIn db (findActiveSessionById sessionId userId now) = .ok (some session)) ↔
      ∃ row ∈ db.sessions, Uuid.parse sessionId = some row.id ∧
        Uuid.parse userId = some row.userId ∧ pgTimestamp now < row.expiresAt := by
  simp only [readIn_eq_ok, findActiveSessionById_eq_ok]
  constructor
  · rintro ⟨session, db', s, u, hs, hu, hfind, rfl⟩
    obtain ⟨row, hrow, -⟩ := Option.map_eq_some_iff.mp hfind.symm
    have hmatch := List.find?_some hrow
    simp only [Bool.and_eq_true, beq_iff_eq, SessionRow.activeAt, decide_eq_true_eq] at hmatch
    obtain ⟨⟨rfl, rfl⟩, hactive⟩ := hmatch
    exact ⟨row, List.mem_of_find?_eq_some hrow, hs, hu, hactive⟩
  · rintro ⟨row, hrow, hs, hu, hactive⟩
    have hsome : (db.sessions.find? fun r =>
        r.id == row.id && r.userId == row.userId && r.activeAt now).isSome = true := by
      rw [List.find?_isSome]
      refine ⟨row, hrow, ?_⟩
      simp [SessionRow.activeAt, hactive]
    obtain ⟨found, hfound⟩ := Option.isSome_iff_exists.mp hsome
    exact ⟨mapSession found, db, _, _, hs, hu, by rw [hfound]; rfl, rfl⟩

end Statements

section Gates

variable {J : Jwt} {now : Int} {token : JsString} {db₁ db₂ : AuthDatabase}

theorem verifyAccessToken_eq_ok {decoded : AccessTokenPayload} :
    verifyAccessToken J now token = .ok decoded ↔
      J.verify token now = .ok (.fields (some decoded.userId) (some decoded.sessionId)) ∧
        isTokenId decoded.userId = true ∧ isTokenId decoded.sessionId = true := by
  unfold verifyAccessToken
  cases hv : J.verify token now with
  | error e => simp
  | ok d =>
    rcases d with s | ⟨_ | u, _ | s⟩
    · simp
    · simp
    · simp
    · simp
    · simp only [Except.ok.injEq, JwtDecoded.fields.injEq, Option.some.injEq]
      split_ifs with hid
      · rw [Bool.and_eq_true] at hid
        constructor
        · intro h
          obtain rfl := Except.ok.inj h
          exact ⟨⟨rfl, rfl⟩, hid⟩
        · rintro ⟨⟨rfl, rfl⟩, -⟩
          rfl
      · refine iff_of_false (by simp) ?_
        rintro ⟨⟨rfl, rfl⟩, h₁, h₂⟩
        exact hid (by simp [h₁, h₂])

/-- A gate lets a token through as a user: the token verifies, its session is found in the one
state of the database, and its user in the other. -/
def Passes (J : Jwt) (now : Int) (token : JsString) (db₁ db₂ : AuthDatabase)
    (user : PublicUser) : Prop :=
  ∃ decoded, verifyAccessToken J now token = .ok decoded ∧
    (∃ session, readIn db₁ (findActiveSessionById decoded.sessionId decoded.userId now) =
      .ok (some session)) ∧
    readIn db₂ (findPublicById decoded.userId) = .ok (some user)

/-- **What `secureRoute` lets through.** -/
theorem secureRoute_eq_ok {user : PublicUser} :
    secureRoute J now (some token) db₁ db₂ = .ok user ↔ Passes J now token db₁ db₂ user := by
  unfold Passes
  simp only [secureRoute]
  cases hv : verifyAccessToken J now token with
  | error e => simp
  | ok decoded =>
    simp only [Except.ok.injEq, exists_eq_left']
    cases readIn db₁ (findActiveSessionById decoded.sessionId decoded.userId now) with
    | error e => simp
    | ok session =>
      cases session with
      | none => simp
      | some session =>
        cases readIn db₂ (findPublicById decoded.userId) with
        | error e => simp
        | ok found => cases found <;> simp

/-- **What the handshake lets through.** -/
theorem socketHandshake_eq_ok {userId : JsString} :
    socketHandshake J now (some token) db₁ db₂ = .ok userId ↔
      ∃ user, Passes J now token db₁ db₂ user ∧ user._id = userId := by
  cases token with
  | nil =>
    refine iff_of_false (by simp [socketHandshake]) ?_
    rintro ⟨user, ⟨decoded, hv, -⟩, -⟩
    exact J.verify_nil now _ (verifyAccessToken_eq_ok.mp hv).1
  | cons c token =>
    unfold Passes
    simp only [socketHandshake]
    cases hv : verifyAccessToken J now (c :: token) with
    | error e =>
      simp only
      split_ifs <;> simp
    | ok decoded =>
      simp only [Except.ok.injEq, exists_eq_left']
      cases readIn db₁ (findActiveSessionById decoded.sessionId decoded.userId now) with
      | error e => simp
      | ok session =>
        cases session with
        | none => simp
        | some session =>
          cases readIn db₂ (findPublicById decoded.userId) with
          | error e => simp
          | ok found => cases found <;> simp

/-- **The gates agree**: at one time and in the same states of the database they let through the
same tokens, as the same user. -/
theorem gates_agree (J : Jwt) (now : Int) (token : Option JsString) (db₁ db₂ : AuthDatabase)
    (userId : JsString) :
    socketHandshake J now token db₁ db₂ = .ok userId ↔
      ∃ user, secureRoute J now token db₁ db₂ = .ok user ∧ user._id = userId := by
  cases token with
  | none => simp [socketHandshake, secureRoute]
  | some token =>
    rw [socketHandshake_eq_ok]
    simp only [secureRoute_eq_ok]

end Gates

end MernChat
