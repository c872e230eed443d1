import MernChat.Api.Handlers
import MernChat.Api.Known

/-!
# Requests keep what is known

Every way that a step of a handler can go keeps the tables coherent, leaves the other requests
alone, and leads to what is known of the phase that follows.

## Main results

* `apiProof`: what is known of requests and sockets, as a proof about processes
* `coherent_of_reachable`, `known_of_reachable`: it holds in every run
-/

namespace MernChat.Api

open Library

variable {B : Backend} {s t : ApiState} {n : ℕ} {r : HttpRequest} {drawn : Uuid}
  {requestId : JsString} {res : PendingResponse} {f : Flight} {action : ApiAction} {phase : Phase}
  {arrival : Arrival}

/-- What a step of a request leaves. -/
def Kept (B : Backend) (n : ℕ) (r : HttpRequest) (drawn : Uuid) (s : ApiState)
    (x : Flight × ApiState) : Prop :=
  Advance B n (.http r drawn) s x.2 ∧ KnownRequest B n r x.2 x.1.phase

theorem known_refuse (error : RequestError) :
    KnownRequest B n r s (refuse requestId res error).phase := by
  intro page hpage
  cases hpage

/-- A request is refused, and nothing else happens. -/
theorem kept_refuse (h : Coherent B s) (error : RequestError) :
    Kept B n r drawn s (refuse requestId res error, s) :=
  ⟨.refl h n _, known_refuse error⟩

/-- What an answer other than a page says is of no concern. -/
theorem known_answer {statusCode : Nat} {body : ResponseBody} (h : ∀ page, body ≠ .page page) :
    KnownRequest B n r s (answer res statusCode body).phase := by
  intro page hpage
  exact absurd hpage (h page)

/-- A request enters its route knowing its token only. -/
theorem known_enter (endpoint : Endpoint) :
    KnownRequest B n r s (enter B requestId res r endpoint).phase := by
  unfold enter
  split
  · exact known_answer nofun
  · exact trivial
  · exact trivial
  · exact trivial
  · exact trivial
  · split
    · rename_i token htoken
      exact htoken
    · exact known_refuse _
  · split
    · exact known_answer nofun
    · exact known_answer nofun
    · exact trivial
    · exact known_refuse _
  · split
    · rename_i token htoken
      exact htoken
    · exact known_refuse _

theorem known_dispatch (requestId : JsString) :
    KnownRequest B n r s (dispatch B requestId r).phase := by
  unfold dispatch
  simp only
  split
  · exact known_refuse _
  · exact known_answer nofun
  · exact known_enter _

/-! ## Statements of authentication -/

theorem exists_authStep {a : AuthAction} (h : s.authenticate B a = some t) :
    ∃ auth, authStep B.jwt B.hashToken s.auth a = some auth ∧ t = { s with auth } := by
  obtain ⟨auth, hauth, rfl⟩ := Option.map_eq_some_iff.mp h
  exact ⟨auth, hauth, rfl⟩

theorem isQuiet_spec {a : AuthAction} (h : isQuiet a = true) (auth : AuthState) :
    Genuine B.jwt auth a ∧ a.writesUsers = false ∧ ∀ row, ¬ a.Stores B.hashToken auth row := by
  cases a with
  | createSession | signup | deleteUser | present => cases h
  | _ => exact ⟨trivial, rfl, nofun⟩

/-- A quiet step of a request. -/
theorem advance_quiet (hc : Coherent B s) {a : AuthAction} (hq : isQuiet a = true)
    (hn : ∀ m, a.request = some m → m = n) (h : s.authenticate B a = some t) :
    Advance B n arrival s t := by
  obtain ⟨hg, hwrites, hstores⟩ := isQuiet_spec (B := B) hq s.auth
  exact hc.authenticate hg hn hwrites hstores h

/-- A request goes on after a quiet step. -/
theorem kept_quiet (hc : Coherent B s) {a : AuthAction} (hq : isQuiet a = true)
    (hn : ∀ m, a.request = some m → m = n) (h : s.authenticate B a = some t)
    (hk : KnownRequest B n r t f.phase) : Kept B n r drawn s (f, t) :=
  ⟨advance_quiet hc hq hn h, hk⟩

section Own

variable {J : Jwt} {hashToken : JsString → JsString} {auth auth' : AuthState}

theorem requests_runStatement {α : Type} {x : AuthTx α} {g : α → AuthState → AuthState} {a : α}
    {db : AuthDatabase} (h : x auth.db = .ok (a, db)) :
    runStatement auth n x g = g a { auth with db } := by
  unfold runStatement
  rw [h]

/-- A login goes on as the user it has found. -/
theorem requests_login {email : JsString} {user : PostgresUser} {db : AuthDatabase}
    (hfind : findUserByNormalizedEmail email auth.db = .ok (some user, db))
    (h : authStep J hashToken auth (.login n email) = some auth') :
    auth'.requests n = some (.authenticated user.id) := by
  obtain rfl := Option.some.inj h
  rw [requests_runStatement hfind]
  exact requests_setRequest_self _ n _

/-- A session that is created is that of the request. -/
theorem requests_createSession {id : Uuid} {refreshToken userId : JsString} {now dbNow : Int}
    {session : PostgresSession} {db : AuthDatabase}
    (hreq : auth.requests n = some (.authenticated userId))
    (hcreate : createSession id ⟨userId, hashToken refreshToken, now + REFRESH_TOKEN_TTL_MS, now⟩
      dbNow auth.db = .ok (session, db))
    (h : authStep J hashToken auth (.createSession n id refreshToken now dbNow) = some auth') :
    auth'.requests n = some (.sessionCreated userId session) := by
  simp only [authStep, hreq] at h
  obtain rfl := Option.some.inj h
  rw [requests_runStatement hcreate]
  exact requests_setRequest_self _ n _

/-- A refresh goes on with the session it has found. -/
theorem requests_refresh {refreshToken : JsString} {now : Int} {session : PostgresSession}
    {db : AuthDatabase}
    (hfind : findActiveSessionByTokenHash (hashToken refreshToken) now auth.db =
      .ok (some session, db))
    (h : authStep J hashToken auth (.refresh n refreshToken now) = some auth') :
    auth'.requests n = some (.refreshed session) := by
  obtain rfl := Option.some.inj h
  rw [requests_runStatement hfind]
  exact requests_setRequest_self _ n _

theorem requests_issueToken {now : Int} {session : PostgresSession}
    (hreq : auth.requests n = some (.refreshed session))
    (h : authStep J hashToken auth (.issueToken n now) = some auth') :
    auth'.requests n = some (.refreshIssued session) := by
  simp only [authStep, hreq] at h
  obtain rfl := Option.some.inj h
  exact requests_setRequest_self _ n _

/-- A refresh whose user is gone deletes the sessions. -/
theorem requests_findUser {session : PostgresSession}
    (hreq : auth.requests n = some (.refreshIssued session))
    (hread : readIn auth.db (findPublicById session.userId) = .ok none)
    (h : authStep J hashToken auth (.findUser n) = some auth') :
    auth'.requests n = some (.revoking session.userId) := by
  simp only [authStep, hreq] at h
  obtain rfl := Option.some.inj h
  obtain ⟨db, hfind⟩ := readIn_eq_ok.mp hread
  rw [requests_runStatement hfind]
  exact requests_setRequest_self _ n _

theorem requests_present {gate : AuthGate} {token : JsString} {now : Int}
    (h : authStep J hashToken auth (.present n gate token now) = some auth') :
    auth'.requests n = some (.gate gate token now auth.db) := by
  obtain rfl := Option.some.inj h
  exact requests_setRequest_self _ n _

theorem requests_finishGate {gate : AuthGate} {token : JsString} {now : Int}
    {lookup : AuthDatabase} (hreq : auth.requests n = some (.gate gate token now lookup))
    (h : authStep J hashToken auth (.finishGate n) = some auth') :
    auth'.requests n = gateOutcome J gate token now lookup auth.db := by
  simp only [authStep, hreq] at h
  obtain rfl := Option.some.inj h
  exact requests_setRequest_self _ n _

theorem requests_logoutAll {token : JsString} {now : Int} {lookup : AuthDatabase}
    {user : PublicUser} (hreq : auth.requests n = some (.attached token now lookup user))
    (h : authStep J hashToken auth (.logoutAll n) = some auth') :
    auth'.requests n = some (.revoking user._id) := by
  simp only [authStep, hreq] at h
  obtain rfl := Option.some.inj h
  exact requests_setRequest_self _ n _

end Own

/-! ## Credentials -/

/-- A registration that finds nothing wrong has a password, under its e-mail. -/
theorem findExisting_eq_none {body : SignupBody} {db : AuthDatabase}
    (h : findExisting B body db = none) :
    ∃ fullname email password,
      body = ⟨some fullname, some email, some password, some password⟩ := by
  unfold findExisting at h
  split at h
  · rename_i fullname email password confirmPassword
    split_ifs at h with _ hsame
    exact ⟨fullname, email, password, by rw [hsame]⟩
  · cases h

/-- **A login that succeeds** has found a user whose hash the password matches. -/
theorem authenticateUser_eq_ok {body : LoginBody} {user : UserRecord} {db : AuthDatabase}
    (h : (exec (authenticateUser B.bcrypt B.toLowerCase body) db).1 = .ok user) :
    ∃ email password row, body = ⟨some email, some password⟩ ∧ row ∈ db.users ∧
      pgText (normalizeEmail B.toLowerCase email) = some row.email ∧
        B.bcrypt.compare password row.passwordHash = true ∧ user = toUserRecord (mapUser row) ∧
          findUserByNormalizedEmail (normalizeEmail B.toLowerCase email) db =
            .ok (some (mapUser row), db) := by
  obtain ⟨db', h⟩ : ∃ db', exec (authenticateUser B.bcrypt B.toLowerCase body) db =
      (.ok user, db') := ⟨_, Prod.ext h rfl⟩
  unfold authenticateUser at h
  split at h
  · rename_i email password _
    simp only [exec_bind_eq_ok, exec_require_eq_ok, exec_query_eq_ok] at h
    obtain ⟨_, _, ⟨-, rfl⟩, found, _, hfind, h⟩ := h
    obtain ⟨e, he, rfl, rfl⟩ := findByEmail_eq_ok.mp hfind
    split at h
    · cases h
    · rename_i record hrecord
      obtain ⟨row, hrow, rfl⟩ := Option.map_eq_some_iff.mp hrecord
      simp only [exec_bind_eq_ok, exec_require_eq_ok] at h
      obtain ⟨_, _, ⟨hmatch, rfl⟩, hpure⟩ := h
      obtain ⟨huser, -⟩ := Prod.mk.inj hpure
      obtain rfl : row.email = e := by simpa using List.find?_some hrow
      refine ⟨email, password, row, rfl, List.mem_of_find?_eq_some hrow, he, hmatch,
        (Except.ok.inj huser).symm, ?_⟩
      exact findUserByNormalizedEmail_eq_ok.mpr ⟨row.email, he, by rw [hrow]; rfl, rfl⟩
  · cases h

/-! ## The handlers -/

section Handlers

/-- A registration knows its e-mail and its password. -/
theorem known_emailFree (hk : KnownRequest B n r s .findingEmail)
    (hfree : findExisting B r.signupBody s.auth.db = none) :
    KnownRequest B n r s .insertingUser := by
  obtain ⟨fullname, email, password, hbody⟩ := findExisting_eq_none hfree
  exact ⟨hk, email, password, congrArg SignupBody.email hbody, congrArg SignupBody.password hbody⟩

/-- The row of a user that registers holds the hash of the password. -/
theorem kept_registered (hc : Coherent B s) (hk : KnownRequest B n r s .insertingUser)
    {env : RegisterEnv} {user : PostgresUser} {db : AuthDatabase} {auth : AuthState}
    (hcreate : createUser env.id (newUser B env r.signupBody) env.now s.auth.db = .ok (user, db))
    (hauth : authStep B.jwt B.hashToken s.auth
      (.signup n env.id (newUser B env r.signupBody) env.now) = some auth) :
    Kept B n r drawn s
      (.at res (.creatingSession (sanitizeUser (toUserRecord user))), s.withUsers auth) := by
  obtain ⟨hadvance, hdb, hreq⟩ := hc.register hcreate hauth
  obtain ⟨row, -, -, -, hemail, -, hhash, -, -, -, -, rfl, rfl⟩ := createUser_eq_ok.mp hcreate
  obtain ⟨hsignup, email, password, he, hp⟩ := hk
  have hrow : row ∈ auth.db.users := by
    rw [hdb]
    exact List.mem_append_right _ List.mem_cons_self
  have hbody : r.signupBody.email = some email ∧ r.signupBody.password = some password :=
    ⟨he, hp⟩
  simp only [newUser, hbody, Option.getD_some] at hemail hhash
  exact ⟨hadvance, hreq, row, hrow, rfl, email, password, he, hp, hemail,
    Or.inr ⟨hsignup, env.salt, hhash⟩⟩

/-- A login has shown the user it has found. -/
theorem kept_loggedIn (hc : Coherent B s) (hk : KnownRequest B n r s .authenticating)
    {user : UserRecord}
    (hlogin : (exec (authenticateUser B.bcrypt B.toLowerCase r.loginBody) s.auth.db).1 = .ok user)
    (ht : s.authenticate B
      (.login n (normalizeEmail B.toLowerCase (r.fields.email.getD []))) = some t) :
    Kept B n r drawn s (.at res (.creatingSession (sanitizeUser user)), t) := by
  obtain ⟨email, password, row, hbody, hrow, hemail, hmatch, rfl, hfind⟩ :=
    authenticateUser_eq_ok hlogin
  have he : r.fields.email = some email := congrArg LoginBody.email hbody
  have hp : r.fields.password = some password := congrArg LoginBody.password hbody
  rw [he, Option.getD_some] at ht
  have hadvance : Advance B n (.http r drawn) s t :=
    advance_quiet (a := .login n _) hc rfl (own_request rfl) ht
  obtain ⟨auth, hauth, rfl⟩ := exists_authStep ht
  exact ⟨hadvance, requests_login hfind hauth, row, hadvance.grows.users row hrow, rfl, email,
    password, he, hp, hemail, Or.inl ⟨hk, hmatch⟩⟩

/-- A session is recorded with the request that has shown its user. -/
theorem kept_sessionCreated (hc : Coherent B s) {user : PublicUser}
    (hk : KnownRequest B n r s (.creatingSession user)) {id : Uuid} {refreshToken : JsString}
    {now dbNow : Int} (hfresh : id ∉ s.auth.created.map Prod.fst) {session : PostgresSession}
    {db : AuthDatabase} (hcreate : createSession id
      ⟨user._id, B.hashToken refreshToken, now + REFRESH_TOKEN_TTL_MS, now⟩ dbNow s.auth.db =
        .ok (session, db))
    (ht : s.authenticate B (.createSession n id refreshToken now dbNow) = some t) :
    Kept B n r drawn s (.at res (.issuingToken user refreshToken), { t with
      grants := ⟨n, .http r drawn, id, user._id, B.hashToken refreshToken, now⟩ :: t.grants }) := by
  obtain ⟨hreq, hshown⟩ := hk
  obtain ⟨auth, hauth, rfl⟩ := exists_authStep ht
  refine ⟨hc.stepAuth (a := .createSession n id refreshToken now dbNow) hfresh (own_request rfl)
    rfl hauth (fun g hg => List.mem_cons_of_mem _ hg) ?_ ?_, session,
    requests_createSession hreq hcreate hauth, _, List.mem_cons_self, rfl, ⟨rfl, ?_⟩, rfl⟩
  · intro g hgrant
    rcases List.mem_cons.mp hgrant with rfl | hold
    · exact Or.inr ⟨rfl, r, drawn, rfl, hshown⟩
    · exact Or.inl hold
  · rintro row ⟨hrequest, hhash, hexpires⟩
    rw [hreq] at hrequest
    have huser : user._id = row.userId.toText :=
      AuthRequest.authenticated.inj (Option.some.inj hrequest)
    exact ⟨_, List.mem_cons_self, rfl, huser, hhash, hexpires⟩
  · obtain ⟨row, rfl, -, -, -, -, -, -, -, -, -, hsession, -⟩ := createSession_eq_ok.mp hcreate
    rw [hsession]
    rfl

/-- The row that a refresh has found. -/
theorem row_of_findActiveSessionByTokenHash {tokenHash : JsString} {now : Int}
    {session : PostgresSession} {db db' : AuthDatabase}
    (h : findActiveSessionByTokenHash tokenHash now db = .ok (some session, db')) :
    ∃ row ∈ db.sessions, row.tokenHash = tokenHash ∧ session = mapSession (row.touch now) := by
  obtain ⟨hfound, -⟩ := findActiveSessionByTokenHash_eq_ok.mp h
  obtain ⟨row, hrow, rfl⟩ := Option.map_eq_some_iff.mp hfound.symm
  have hmatch := List.find?_some hrow
  simp only [SessionRow.refreshable, Bool.and_eq_true, beq_iff_eq] at hmatch
  exact ⟨row, List.mem_of_find?_eq_some hrow, hmatch.1, rfl⟩

/-- The row that a refresh has found was granted with the hash of its token. -/
theorem kept_sessionFound (hc : Coherent B s) {token : JsString}
    (hk : KnownRequest B n r s (.refreshing token)) {now : Int} {session : PostgresSession}
    {db : AuthDatabase}
    (hfind : findActiveSessionByTokenHash (B.hashToken token) now s.auth.db =
      .ok (some session, db))
    (ht : s.authenticate B (.refresh n token now) = some t) :
    Kept B n r drawn s (.at res (.issuingRefreshed session), t) := by
  have hadvance : Advance B n (.http r drawn) s t :=
    advance_quiet (a := .refresh n token now) hc rfl (own_request rfl) ht
  obtain ⟨auth, hauth, rfl⟩ := exists_authStep ht
  obtain ⟨row, hrow, hhash, rfl⟩ := row_of_findActiveSessionByTokenHash hfind
  obtain ⟨g, hgrant, hid, huser, hgranted, -⟩ := hc.sessions row hrow
  exact ⟨hadvance, requests_refresh hfind hauth, g, hgrant,
    ⟨huser, congrArg Uuid.toText hid⟩, token, hk, hhash.symm.trans hgranted⟩

/-- A gate looks up the session of its token. -/
theorem advance_present (hc : Coherent B s) {gate : AuthGate} {token : JsString} {now : Int}
    (hissued : Issued B s token now) (h : s.authenticate B (.present n gate token now) = some t) :
    Advance B n arrival s t ∧ InGate t n gate token := by
  have hadvance : Advance B n arrival s t :=
    hc.authenticate (a := .present n gate token now) hissued (own_request rfl) rfl nofun h
  obtain ⟨auth, hauth, rfl⟩ := exists_authStep h
  exact ⟨hadvance, now, s.auth.db, requests_present hauth, hc.sessions⟩

/-- The user of a gate that is passed is attached. -/
theorem kept_attached (hc : Coherent B s) (hk : KnownRequest B n r s .secured) {token : JsString}
    {now : Int} {lookup : AuthDatabase} {user : PublicUser}
    (hreq : s.auth.requests n = some (.gate .secureRoute token now lookup))
    (hsecure : secureRoute B.jwt now (some token) lookup s.auth.db = .ok user)
    (ht : s.authenticate B (.finishGate n) = some t) :
    Kept B n r drawn s (.at res (.attached user), t) := by
  obtain ⟨token', htoken, now', lookup', hreq', hgranted⟩ := hk
  obtain ⟨-, rfl, rfl, rfl⟩ := AuthRequest.gate.inj (Option.some.inj (hreq.symm.trans hreq'))
  have hadvance : Advance B n (.http r drawn) s t :=
    advance_quiet (a := .finishGate n) hc rfl (own_request rfl) ht
  obtain ⟨auth, hauth, rfl⟩ := exists_authStep ht
  have hattached := requests_finishGate hreq hauth
  rw [gateOutcome, hsecure] at hattached
  exact ⟨hadvance, token, now, lookup, htoken, hattached, hgranted⟩

/-- What the validation lets through has a message. -/
theorem exists_message {id : JsString} {message : Option JsString}
    (h : validateRequest (sendMessageSchema id message) = none) : ∃ m, message = some m := by
  cases message with
  | none => simp [validateRequest, sendMessageSchema] at h
  | some m => exact ⟨m, rfl⟩

/-- A call that begins is recorded with the user that is attached. -/
theorem kept_begun (hc : Coherent B s) {user : PublicUser}
    (hk : KnownRequest B n r s (.attached user)) {id : JsString}
    (hlayers : layers B.config B.urlOrigin r = .endpoint (.sendMessage id)) {env : SendEnv}
    (hvalid : validateRequest (sendMessageSchema id r.fields.message) = none) {token : JsString}
    {now : Int} {lookup : AuthDatabase} {found : PublicUser}
    (hrequest : s.auth.requests n = some (.attached token now lookup found)) {call : SendCall}
    (hcall : call = ⟨env, ⟨user._id, id, r.fields.message.getD [],
      normalizeRequestId drawn r.requestId⟩, .checkReceiver⟩) :
    Kept B n r drawn s (.at res (.sending user s.chat.calls.length call), { s with
      chat := { s.chat with calls := s.chat.calls ++ [call] }
      authorships := s.authorships ++
        [⟨n, .http r drawn, token, now, lookup, user, env, call.input⟩] }) := by
  obtain ⟨token', now', lookup', htoken, hreq, hauthorized⟩ := AttachedTo.authorized hk hc
  obtain ⟨rfl, rfl, rfl, rfl⟩ :=
    AuthRequest.attached.inj (Option.some.inj (hrequest.symm.trans hreq))
  obtain ⟨message, hmessage⟩ := exists_message hvalid
  rw [hmessage] at hvalid hcall
  subst hcall
  have hauthored : Authored B s ⟨n, .http r drawn, token, now, lookup, found, env,
      ⟨found._id, id, message, normalizeRequestId drawn r.requestId⟩⟩ :=
    ⟨⟨r, drawn, id, message, rfl, hlayers, htoken, hmessage, hvalid, rfl⟩, hauthorized⟩
  have hadvance := hc.begin hauthored
  refine ⟨hadvance, AttachedTo.stable ⟨hadvance.grows, rfl, ?_⟩ hk, ?_, ?_⟩
  · intro k y hk hy
    have hlt : k < s.chat.calls.length := by
      rw [hc.length_calls]
      exact (List.getElem?_eq_some_iff.mp hk).1
    exact List.getElem?_append_left hlt
  · exact {
      there := List.getElem?_concat_length
      record := ⟨_, by rw [hc.length_calls]; exact List.getElem?_concat_length, rfl, rfl⟩
      pending := nofun }
  · intro id' hlayers'
    rw [hlayers] at hlayers'
    obtain rfl := Endpoint.sendMessage.inj (Admission.endpoint.inj hlayers')
    rfl

/-- An operation of a call, with what it emits. -/
theorem advance_operation (hc : Coherent B s) {user : PublicUser} {k : ℕ} {call : SendCall}
    (hk : KnownRequest B n r s (.sending user k call)) {phase' : SendPhase} {db : Database}
    (hproceed : call.proceed s.chat.db = some (phase', db)) {emitted : List RoomEvent}
    (hold : ∀ e ∈ s.emitted, e ∈ emitted)
    (hnew : ∀ e ∈ emitted, e ∈ s.emitted ∨
      e.call = k ∧ e.room = getUserRoomName call.input.receiverId ∧
        outcome call s.chat.db = some (.ok e.message)) :
    Advance B n (.http r drawn) s { s with
      chat := ⟨db, s.chat.calls.set k { call with phase := phase' }⟩, emitted } := by
  obtain ⟨-, hcalling, -⟩ := hk
  obtain ⟨y, hy, hyn, hinput⟩ := hcalling.record
  refine hc.proceed hcalling.there hy hyn hproceed hold ?_
  rw [hinput]
  exact hnew

/-- A call that goes on is the call of the request. -/
theorem known_proceeded {user : PublicUser} {k : ℕ} {call : SendCall}
    (hk : KnownRequest B n r s (.sending user k call)) {phase' : SendPhase} {db : Database}
    (hproceed : call.proceed s.chat.db = some (phase', db))
    (houtcome : outcome call s.chat.db = none) :
    KnownRequest B n r { s with chat := ⟨db, s.chat.calls.set k { call with phase := phase' }⟩ }
      (.sending user k { call with phase := phase' }) := by
  obtain ⟨hattached, hcalling, hreceiver⟩ := hk
  obtain ⟨y, hy, hyn, hinput⟩ := hcalling.record
  exact ⟨hattached, {
    there := List.getElem?_set_self (List.getElem?_eq_some_iff.mp hcalling.there).1
    record := ⟨y, hy, hyn, hinput⟩
    pending := proceed_pending hcalling.pending hproceed houtcome }, hreceiver⟩

/-- **What a page has was sent by one of the two to the other.** -/
theorem servedTo_of_page (hc : Coherent B s) {w : Uuid} {id : JsString}
    {conversation : PostgresConversation}
    (hresolved : Resolved s.chat.db.conversations ⟨w.toText, id, [], []⟩ conversation)
    {limit : Int} {cursor : Option MessageCursor} {page : MessagePage} {result : MessagePageResult}
    (hpage : (exec (query none (findMessagesByConversation conversation.id limit cursor))
      s.chat.db).1 = .ok page)
    (hresult : serializePage w.toText id limit page = some result) {m : SerializedMessage}
    (hm : m ∈ result.messages) : ServedTo s w.toText id m := by
  have hattributed := hc.attributed
  obtain ⟨c, hcmem, rfl, u, v, hu, hv, hbetween⟩ := hresolved
  obtain rfl : w = u := Option.some.inj ((Uuid.parse_toText w).symm.trans hu)
  have hne : w ≠ v := by
    rintro rfl
    have hlt := hattributed.wellFormed.canonical c hcmem
    rcases ConversationRow.isBetween_iff.mp hbetween with ⟨ha, hb⟩ | ⟨ha, hb⟩
    · rw [ha, hb] at hlt
      exact absurd hlt (lt_irrefl w)
    · rw [ha, hb] at hlt
      exact absurd hlt (lt_irrefl w)
  obtain ⟨db, hfind⟩ : ∃ db, findMessagesByConversation c.id.toText limit cursor s.chat.db =
      .ok (page, db) := ⟨_, exec_query_eq_ok.mp (Prod.ext hpage rfl)⟩
  obtain ⟨row, hrow, hid, hserialized⟩ := exists_row_of_serialized hfind hresult hm
  obtain ⟨hsender, hreceiver⟩ := serializeMessage_eq_some hserialized
  obtain ⟨x, y, ⟨send, hsend, hby⟩, c', hc', hid', hbetween'⟩ := hattributed.sent row hrow
  obtain rfl := eq_of_key hattributed.wellFormed.conversationIds hcmem hc'
    (hid.symm.trans hid'.symm)
  rw [hc.sends] at hsend
  obtain ⟨record, hrecord, rfl⟩ := List.mem_map.mp hsend
  refine ⟨w, v, rfl, hv, hne, row, hrow, by rw [hreceiver]; exact hserialized, record, ?_⟩
  -- the two members of the conversation are the reader and the other
  have hxy : x = w ∧ y = v ∨ x = v ∧ y = w := by
    rcases ConversationRow.isBetween_iff.mp hbetween with ⟨ha, hb⟩ | ⟨ha, hb⟩ <;>
      rcases ConversationRow.isBetween_iff.mp hbetween' with ⟨hx, hy⟩ | ⟨hx, hy⟩
    · exact Or.inl ⟨hx.symm.trans ha, hy.symm.trans hb⟩
    · exact Or.inr ⟨hy.symm.trans hb, hx.symm.trans ha⟩
    · exact Or.inr ⟨hx.symm.trans ha, hy.symm.trans hb⟩
    · exact Or.inl ⟨hy.symm.trans hb, hx.symm.trans ha⟩
  have hsenderId : m.senderId = x.toText := by
    rw [hsender, ← hby.senderId]
    rfl
  rw [hby.senderId] at hreceiver
  rcases hxy with ⟨rfl, rfl⟩ | ⟨rfl, rfl⟩
  · rw [if_pos rfl] at hreceiver
    exact ⟨hrecord, Or.inl ⟨hby, hsenderId, hreceiver⟩⟩
  · rw [if_neg fun heq => hne (Uuid.toText_injective heq).symm] at hreceiver
    exact ⟨hrecord, Or.inr ⟨hby, hsenderId, hreceiver⟩⟩

/-- The id of an authorized user is one of the database. -/
theorem Authorized.exists_id {token userId : JsString} {now : Int} {lookup : AuthDatabase}
    (h : Authorized s token now lookup userId) : ∃ w : Uuid, userId = w.toText := by
  obtain ⟨row, -, -, huser, -⟩ := h.justified
  exact ⟨row.userId, huser⟩

/-- The page that is read is of the conversation of the user that is attached. -/
theorem known_pageRead (hc : Coherent B s) {user : PublicUser}
    {conversation : PostgresConversation} {cursor : Option MessageCursor}
    (hk : KnownRequest B n r s (.findingPage user conversation cursor)) {id : JsString}
    (hlayers : layers B.config B.urlOrigin r = .endpoint (.getMessage id)) {limit : Int}
    {page : MessagePage} (hpage : (exec (query none
      (findMessagesByConversation conversation.id limit cursor)) s.chat.db).1 = .ok page)
    {result : MessagePageResult} (hresult : serializePage user._id id limit page = some result) :
    KnownRequest B n r s (answer res 200 (.page result)).phase := by
  intro served hserved
  obtain rfl := ResponseBody.page.inj hserved
  obtain ⟨hattached, hresolved⟩ := hk
  obtain ⟨token, now, lookup, -, -, hauthorized⟩ := hattached.authorized hc
  obtain ⟨w, hw⟩ := hauthorized.exists_id
  refine ⟨user, id, hattached, hlayers, ?_⟩
  intro m hm
  have hresolved' := hresolved id hlayers
  rw [hw] at hresolved' hresult ⊢
  exact servedTo_of_page hc hresolved' hpage hresult hm

/-- **Every way that a step goes** keeps what is known. -/
theorem HandlerStep.kept {endpoint : Endpoint} {x : Flight × ApiState}
    (h : HandlerStep B n r (normalizeRequestId drawn r.requestId) drawn endpoint res s phase action
      x) (hc : Coherent B s) (hk : KnownRequest B n r s phase)
    (hlayers : layers B.config B.urlOrigin r = .endpoint endpoint)
    (hg : GenuineRequests B n (.http r drawn) ⟨res, phase⟩ action s) : Kept B n r drawn s x := by
  cases h with
  | refused error => exact kept_refuse hc error
  | answered _ _ _ hplain =>
    exact ⟨.refl hc n _, known_answer (ResponseBody.isPlain_spec hplain).2.2⟩
  | limited headers error => exact kept_refuse hc error
  | admitted headers hroute =>
    rcases hroute with ⟨rfl, rfl⟩ | ⟨rfl, rfl⟩
    · exact ⟨.refl hc n _, hlayers⟩
    · exact ⟨.refl hc n _, hlayers⟩
  | emailFree _ hfree => exact ⟨.refl hc n _, known_emailFree hk hfree⟩
  | registered _ hcreate hauth => exact kept_registered hc hk hcreate hauth
  | loggedIn _ hlogin ht => exact kept_loggedIn hc hk hlogin ht
  | sessionCreated _ hreq hcreate ht =>
    obtain rfl := AuthRequest.authenticated.inj (Option.some.inj (hreq.symm.trans hk.1))
    exact kept_sessionCreated hc hk hg hcreate ht
  | @tokenIssued _ _ now _ _ _ _ _ _ _ ht _ =>
    exact kept_quiet (a := .issueToken n now) hc rfl (own_request rfl) ht (known_answer nofun)
  | sessionFound _ hfind ht => exact kept_sessionFound hc hk hfind ht
  | @tokenReissued _ now _ _ ht =>
    refine kept_quiet (a := .issueToken n now) hc rfl (own_request rfl) ht ?_
    obtain ⟨auth, hauth, rfl⟩ := exists_authStep ht
    exact requests_issueToken hk.1 hauth
  | userGone _ hgone ht =>
    refine kept_quiet (a := .findUser n) hc rfl (own_request rfl) ht ?_
    obtain ⟨auth, hauth, rfl⟩ := exists_authStep ht
    exact ⟨_, requests_findUser hk hgone hauth⟩
  | refusedAfter error _ _ _ hquiet hown ht =>
    exact kept_quiet hc hquiet hown ht (known_refuse error)
  | answeredAfter _ _ _ hquiet hown ht _ _ hplain =>
    exact kept_quiet hc hquiet hown ht (known_answer (ResponseBody.isPlain_spec hplain).2.2)
  | presented _ _ _ ht =>
    obtain ⟨hadvance, hgate⟩ := advance_present hc hg ht
    exact ⟨hadvance, _, hk, hgate⟩
  | attached _ hreq hpassed ht => exact kept_attached hc hk hreq hpassed ht
  | listing => exact ⟨.refl hc n _, hk⟩
  | leaving _ ht =>
    refine kept_quiet (a := .logoutAll n) hc rfl (own_request rfl) ht ?_
    obtain ⟨auth, hauth, rfl⟩ := exists_authStep ht
    obtain ⟨token, now, lookup, -, hreq, -⟩ := hk
    exact ⟨_, requests_logoutAll hreq hauth⟩
  | begun hroute hvalid hreq =>
    subst hroute
    exact kept_begun hc hk hlayers hvalid hreq rfl
  | proceeded _ hproceed houtcome =>
    exact ⟨advance_operation hc hk hproceed (fun e he => he) fun e he => Or.inl he,
      known_proceeded hk hproceed houtcome⟩
  | threw _ hproceed =>
    exact ⟨advance_operation hc hk hproceed (fun e he => he) fun e he => Or.inl he,
      known_refuse _⟩
  | returned hroute hproceed houtcome =>
    subst hroute
    refine ⟨advance_operation hc hk hproceed (fun e he => List.mem_append_left _ he) ?_,
      known_answer nofun⟩
    -- the message of the call is emitted to the room of its receiver
    intro e he
    rcases List.mem_append.mp he with hold | hnew
    · exact Or.inl hold
    · obtain rfl := List.mem_singleton.mp hnew
      exact Or.inr ⟨rfl, by rw [hk.2.2 _ hlayers], houtcome⟩
  | otherUser => exact ⟨.refl hc n _, hk⟩
  | chatUserFound => exact ⟨.refl hc n _, hk⟩
  | @conversationFound id user _ _ hroute hfound _ =>
    refine ⟨.refl hc n _, hk, ?_⟩
    intro id' hlayers'
    rw [hlayers, hroute] at hlayers'
    obtain rfl := Endpoint.getMessage.inj (Admission.endpoint.inj hlayers')
    exact (exec_findDirectConversation none ⟨user._id, id, [], []⟩ s.chat.db).2 _ hfound
  | pageRead hroute hpage hresult =>
    subst hroute
    exact ⟨.refl hc n _, known_pageRead hc hk hlayers hpage hresult⟩

end Handlers

/-- The step of a request. -/
theorem kept_httpStep (hc : Coherent B s) (hk : KnownRequest B n r s f.phase)
    (hg : GenuineRequests B n (.http r drawn) f action s) {x : Flight × ApiState}
    (h : httpStep B n r (normalizeRequestId drawn r.requestId) drawn f action s = some x) :
    Kept B n r drawn s x := by
  obtain ⟨res, phase⟩ := f
  obtain ⟨endpoint, hlayers, hstep⟩ := httpStep_cases h
  exact hstep.kept hc hk hlayers hg

/-! ## Sockets -/

/-- The step of a socket. -/
theorem kept_socketStep (hc : Coherent B s) {accessToken : Option JsString}
    (hk : KnownSocket n accessToken s f.phase)
    (hg : GenuineRequests B n (.socket accessToken) f action s) {x : Flight × ApiState}
    (h : socketStep B n accessToken f action s = some x) :
    Advance B n (.socket accessToken) s x.2 ∧ KnownSocket n accessToken x.2 x.1.phase := by
  obtain ⟨res, phase⟩ := f
  cases socketStep_cases h with
  | refused => exact ⟨.refl hc n _, trivial⟩
  | @presented token _ _ hcookie ht =>
    subst hcookie
    obtain ⟨hadvance, hgate⟩ := advance_present hc hg ht
    exact ⟨hadvance, token, rfl, hgate⟩
  | @connected token now lookup _ t hrequest hpassed ht =>
    obtain ⟨token', rfl, now', lookup', hreq, hgranted⟩ := hk
    obtain ⟨-, rfl, rfl, rfl⟩ := AuthRequest.gate.inj (Option.some.inj (hrequest.symm.trans hreq))
    have hadvance : Advance B n (.socket (some token)) s t :=
      advance_quiet (a := .finishGate n) hc rfl (own_request rfl) ht
    obtain ⟨auth, hauth, rfl⟩ := exists_authStep ht
    have hconnected := requests_finishGate hreq hauth
    rw [gateOutcome, hpassed] at hconnected
    exact ⟨hadvance, token, now, lookup, rfl, hconnected, hgranted⟩
  | @received userId _ token now lookup _ event hrequest hevent hroom =>
    obtain ⟨token', now', lookup', rfl, hreq, hgranted⟩ := hk
    obtain ⟨rfl, rfl, rfl, -⟩ :=
      AuthRequest.connected.inj (Option.some.inj (hrequest.symm.trans hreq))
    have hjustified : Justified s.auth token now lookup userId := hc.bound.requests n _ hreq
    have hdelivered : Delivered s
        ⟨n, .socket (some token), token, now, lookup, userId, event⟩ :=
      ⟨rfl, List.mem_of_getElem? hevent, hroom, hjustified, hgranted⟩
    exact ⟨hc.receive hdelivered, token, now, lookup, rfl, hreq, hgranted⟩
  | disconnected => exact ⟨.refl hc n _, trivial⟩

/-! ## Every run -/

theorem coherent_of_init (h : (apiProgram B).init s) : Coherent B s := by
  obtain ⟨hauth, husers, hchat, hemitted, hgrants, hauthorships, hdeliveries⟩ := h
  exact {
    auth := .init hauth
    chat := .init hchat
    users := by
      rw [husers, hchat]
      rfl
    sends := by
      rw [hchat, hauthorships]
      rfl
    sessions := by
      intro row hrow
      rw [hauth.1] at hrow
      cases hrow
    grants := by simp [hgrants]
    authorships := by simp [hauthorships]
    emitted := by simp [hemitted]
    deliveries := by simp [hdeliveries] }

/-- **What is known of requests and sockets**, whatever the others do. -/
def apiProof (B : Backend) : PoolProof (apiProgram B) (GenuineRequests B) where
  Invariant := Coherent B
  Known := Known B
  Rely := Rely
  init := coherent_of_init
  start := by
    rintro n (⟨r, drawn⟩ | accessToken) f s t hc h
    · obtain ⟨rfl, rfl⟩ := Prod.mk.inj (Option.some.inj h)
      exact ⟨hc, known_dispatch _, fun m hm => (Advance.refl hc n (.http r drawn)).rely hm⟩
    · obtain ⟨rfl, rfl⟩ := Prod.mk.inj (Option.some.inj h)
      exact ⟨hc, trivial, fun m hm => (Advance.refl hc n (.socket accessToken)).rely hm⟩
  step := by
    rintro n (⟨r, drawn⟩ | accessToken) f action f' s t hc hk hg h
    · obtain ⟨hadvance, hknown⟩ := kept_httpStep hc hk hg h
      exact ⟨hadvance.coherent, hknown, fun m hm => hadvance.rely hm⟩
    · obtain ⟨hadvance, hknown⟩ := kept_socketStep hc hk hg h
      exact ⟨hadvance.coherent, hknown, fun m hm => hadvance.rely hm⟩
  stable := fun h hk => hk.stable h

/-- The server, with the requests and the sockets that have reached it. -/
abbrev apiSystem (B : Backend) := (apiProgram B).system

section Runs

variable {σ : Pool ApiState Arrival Flight}

theorem coherent_of_reachable (h : (apiSystem B).Reachable (GenuineRequests B).lift σ) :
    Coherent B σ.shared := ((apiProof B).reachable h).1

theorem known_of_reachable (h : (apiSystem B).Reachable (GenuineRequests B).lift σ) {a : Arrival}
    (hn : σ.processes[n]? = some (a, f)) : Known B n a f σ.shared :=
  ((apiProof B).reachable h).2 n a f hn

end Runs

/-! ## A sample run -/

section Sample

/-- `GenuineRequests`, decided. -/
def genuineStep (B : Backend) (a : Arrival) (f : Flight) (action : ApiAction) (s : ApiState) :
    Bool :=
  match a, f.phase, action with
  | .http _ _, .creatingSession _, .createSession id refreshToken now dbNow =>
    genuine B.jwt s.auth (.createSession 0 id refreshToken now dbNow)
  | .http _ _, .securing token, .at now => genuine B.jwt s.auth (.present 0 .secureRoute token now)
  | .socket (some token), .handshake, .at now =>
    genuine B.jwt s.auth (.present 0 .socketHandshake token now)
  | _, _, _ => true

theorem genuineStep_sound {a : Arrival} (h : genuineStep B a f action s = true) :
    GenuineRequests B n a f action s := by
  unfold GenuineRequests
  split
  · rename_i hphase
    simp only [genuineStep, hphase] at h
    exact genuine_sound B.jwt h
  · rename_i hphase
    simp only [genuineStep, hphase] at h
    exact genuine_sound B.jwt h
  · rename_i hphase
    simp only [genuineStep, hphase] at h
    exact genuine_sound B.jwt h
  · exact trivial

def genuineAction (B : Backend) (σ : Pool ApiState Arrival Flight) :
    PoolAction Arrival ApiAction → Bool
  | .start _ => true
  | .step n action => σ.processes[n]?.all fun p => genuineStep B p.1 p.2 action σ.shared

theorem genuineAction_sound {σ : Pool ApiState Arrival Flight} {b : PoolAction Arrival ApiAction}
    (h : genuineAction B σ b = true) : (GenuineRequests B).lift σ b := by
  cases b with
  | start a => exact trivial
  | step n action =>
    intro p hp
    have hgenuine : (some p).all (fun p => genuineStep B p.1 p.2 action σ.shared) = true := hp ▸ h
    exact genuineStep_sound hgenuine

/-- The server, before any request. -/
def emptyServer : Pool ApiState Arrival Flight :=
  ⟨⟨⟨⟨[], []⟩, fun _ => none, [], [], []⟩, ⟨Database.empty, []⟩, [], [], [], []⟩, []⟩

/-- A state that is reached by executing a run, with a property decided in it. -/
theorem exists_reachable (B : Backend) (as : List (PoolAction Arrival ApiAction))
    (P : Pool ApiState Arrival Flight → Prop) [DecidablePred P]
    (h : ((apiSystem B).runIf (genuineAction B) emptyServer as).any
      (fun σ => decide (P σ)) = true) :
    ∃ σ, (apiSystem B).Reachable (GenuineRequests B).lift σ ∧ P σ := by
  obtain ⟨σ, hrun, hP⟩ := TransitionSystem.exists_of_any P h
  refine ⟨σ, .of_runIf (fun _ _ _ => genuineAction_sound) (.init ?_) hrun, hP⟩
  exact ⟨⟨⟨rfl, fun _ => rfl, rfl, rfl, rfl⟩, rfl, rfl, rfl, rfl, rfl, rfl⟩, rfl⟩

def sampleBackend : Backend where
  config := ⟨[js "https://chat.example"], some (js "production"), true⟩
  urlOrigin _ := none
  jwt := plainJwt
  hashToken := id
  bcrypt := sampleBcrypt
  toLowerCase := sampleLower

/-- A request from the page of the chat. -/
def sampleRequest (method : String) (path : List JsString) (token : CookieValue)
    (body : BodyFields) : HttpRequest where
  method := js method
  originalUrl := []
  path := path
  requestId := none
  origin := some (js "https://chat.example")
  referer := none
  accessToken := token
  refreshToken := .absent
  limit := .absent
  cursor := .absent
  body := .fields body

def sampleSignupRequest (email : String) : HttpRequest :=
  sampleRequest "POST" [js "api", js "user", js "signup"] .absent
    { fullname := some (js "Ada")
      email := some (js email)
      password := some (js "password123")
      confirmPassword := some (js "password123") }

/-- The token of a user, as it is issued here. -/
def sampleToken (user session : ℕ) : JsString :=
  (sampleId user).toText ++ (sampleId session).toText

/-- The process `n` is a signup. -/
def sampleSignupRun (n : ℕ) (user session : ℕ) (email : String) :
    List (PoolAction Arrival ApiAction) :=
  .start (.http (sampleSignupRequest email) (sampleId 0x20)) ::
    [.limit 0 (some 1), .query, .register ⟨sampleId user, js "salt", 1767225600000000⟩,
      .createSession (sampleId session) (js email) 1767225600000 1767225600000000,
      .at 1767225600000].map (.step n)

/-- Two users sign up, the one sends a message to the other. -/
def sampleSendRun : List (PoolAction Arrival ApiAction) :=
  sampleSignupRun 0 1 2 "ada@example.com" ++ sampleSignupRun 1 0xAB 3 "bob@example.com" ++
    .start (.http (sampleRequest "POST"
        [js "api", js "message", js "send", (sampleId 0xAB).toText] (.text (sampleToken 1 2))
        { message := some (js " hi ") }) (sampleId 0x21)) ::
      [.at 1767225601000, .query, .send (sampleEnv fun _ => none), .query, .query, .query,
        .query].map (.step 2)

/-- The other one reads it, and has a socket. -/
def sampleReadRun : List (PoolAction Arrival ApiAction) :=
  .start (.http (sampleRequest "GET" [js "api", js "message", js "get", (sampleId 1).toText]
    (.text (sampleToken 0xAB 3)) {}) (sampleId 0x22)) ::
    [.at 1767225602000, .query, .query, .query, .query, .query].map (.step 3) ++
  .start (.socket (some (sampleToken 0xAB 3))) ::
    [.at 1767225602000, .query, .receive 0].map (.step 4)

end Sample

end MernChat.Api
