import MernChat.Auth.Sessions
import MernChat.Library.Table
import MernChat.Library.Transition

/-!
# Requests that share the sessions

Signups, logins, refreshes, logouts and deletions run side by side, one database statement at a
time, and so do the gates that look up the session and then the user of a token. A refresh that
has found its session may issue a token after the session was removed; the token is then good
for nothing, because a removed session does not come back.

## Main definitions

* `AuthRequest`, `AuthState`, `AuthAction`, `authStep`: the requests in flight and their steps
* `Genuine`: only issued tokens verify, and session ids are fresh
* `Justified`: a token was issued for a session of the user that was active at its lookup

## Main results

* `session_bound`: who passes a gate is justified, the gates agree, and a removed session is
  never found again
-/

namespace MernChat

open Library TransitionSystem

inductive AuthGate
  | secureRoute
  | socketHandshake

/-- A request in flight, by what it does next. -/
inductive AuthRequest where
  /-- `setAuthCookies` of a signup or a login stores the session. -/
  | authenticated (userId : JsString)
  /-- `setAuthCookies` issues the access token. -/
  | sessionCreated (userId : JsString) (session : PostgresSession)
  /-- `refreshSession` issues an access token. -/
  | refreshed (session : PostgresSession)
  /-- `refresh` looks up the user. -/
  | refreshIssued (session : PostgresSession)
  /-- `revokeAllSessions` deletes the sessions. -/
  | revoking (userId : JsString)
  /-- A gate has looked up the session, in the state `lookup` of the database, and looks up the
  user. -/
  | gate (gate : AuthGate) (token : JsString) (now : Int) (lookup : AuthDatabase)
  /-- `secureRoute` has attached the user. -/
  | attached (token : JsString) (now : Int) (lookup : AuthDatabase) (user : PublicUser)
  /-- The handshake has set `socket.data.userId`. -/
  | connected (token : JsString) (now : Int) (lookup : AuthDatabase) (userId : JsString)

/-- The database and the requests in flight. The tokens issued, the sessions created for each
user, and the sessions removed by a logout belong to the history; no step reads them. -/
structure AuthState where
  db : AuthDatabase
  requests : Nat → Option AuthRequest
  minted : List (JsString × AccessTokenPayload)
  created : List (Uuid × JsString)
  removed : List Uuid

inductive AuthAction where
  /-- `INSERT INTO users`. -/
  | signup (n : Nat) (id : Uuid) (input : CreateUserInput) (now : Int)
  /-- `SELECT … FROM users WHERE email = $1`, and the password matches. -/
  | login (n : Nat) (email : JsString)
  /-- `INSERT INTO sessions`. -/
  | createSession (n : Nat) (id : Uuid) (refreshToken : JsString) (now dbNow : Int)
  | issueToken (n : Nat) (now : Int)
  /-- `UPDATE sessions … WHERE token_hash = $1`. -/
  | refresh (n : Nat) (refreshToken : JsString) (now : Int)
  /-- `getPublicUser` of a refresh. -/
  | findUser (n : Nat)
  /-- `DELETE FROM sessions WHERE token_hash = $1`. -/
  | logout (refreshToken : JsString)
  /-- The handler of `/logout-all`, behind `secureRoute`. -/
  | logoutAll (n : Nat)
  /-- `DELETE FROM sessions WHERE user_id = $1`. -/
  | revokeAll (n : Nat)
  /-- `DELETE FROM users WHERE id = $1`. -/
  | deleteUser (id : Uuid)
  /-- The session lookup of a gate, at the time `now`. -/
  | present (n : Nat) (gate : AuthGate) (token : JsString) (now : Int)
  /-- The user lookup of a gate, and its outcome. -/
  | finishGate (n : Nat)
  /-- A request fails, or ends. -/
  | abort (n : Nat)

namespace AuthState

/-- The state in which the request `n` goes on as `r`. -/
def setRequest (s : AuthState) (n : Nat) (r : Option AuthRequest) : AuthState :=
  { s with requests := fun m => if m = n then r else s.requests m }

/-- The state with the sessions that `p` selects removed. -/
def remove (s : AuthState) (p : SessionRow → Bool) (db : AuthDatabase) : AuthState :=
  { s with db, removed := (s.db.sessions.filter p).map SessionRow.id ++ s.removed }

/-- The state with a token issued for a user and a session. -/
def mint (s : AuthState) (token userId sessionId : JsString) : AuthState :=
  { s with minted := (token, { userId, sessionId }) :: s.minted }

end AuthState

variable (J : Jwt) (hashToken : JsString → JsString)

/-- The request goes on as `f` says where its statement succeeds, and ends where it fails. -/
def runStatement {α : Type} (s : AuthState) (n : Nat) (x : AuthTx α)
    (f : α → AuthState → AuthState) : AuthState :=
  match x s.db with
  | .ok (a, db) => f a { s with db }
  | .error _ => s.setRequest n none

/-- How a gate ends. -/
def gateOutcome (gate : AuthGate) (token : JsString) (now : Int) (lookup db : AuthDatabase) :
    Option AuthRequest :=
  match gate with
  | .secureRoute =>
    match secureRoute J now (some token) lookup db with
    | .ok user => some (.attached token now lookup user)
    | .error _ => none
  | .socketHandshake =>
    match socketHandshake J now (some token) lookup db with
    | .ok userId => some (.connected token now lookup userId)
    | .error _ => none

def authStep (s : AuthState) : AuthAction → Option AuthState
  | .signup n id input now =>
    some (runStatement s n (createUser id input now) fun user t =>
      t.setRequest n (some (.authenticated user.id)))
  | .login n email =>
    some (runStatement s n (findUserByNormalizedEmail email) fun user t =>
      t.setRequest n (user.map fun user => .authenticated user.id))
  | .createSession n id refreshToken now dbNow =>
    match s.requests n with
    | some (.authenticated userId) =>
      some (runStatement s n (createSession id
          { userId
            tokenHash := hashToken refreshToken
            expiresAt := now + REFRESH_TOKEN_TTL_MS
            lastUsedAt := now } dbNow) fun session t =>
        { t.setRequest n (some (.sessionCreated userId session)) with
          created := (id, userId) :: t.created })
    | _ => none
  | .issueToken n now =>
    match s.requests n with
    | some (.sessionCreated userId session) =>
      some ((s.mint (issueAccessToken J now userId session.id) userId
        session.id).setRequest n none)
    | some (.refreshed session) =>
      some ((s.mint (issueAccessToken J now session.userId session.id) session.userId
        session.id).setRequest n (some (.refreshIssued session)))
    | _ => none
  | .refresh n refreshToken now =>
    some (runStatement s n (findActiveSessionByTokenHash (hashToken refreshToken) now)
      fun session t => t.setRequest n (session.map .refreshed))
  | .findUser n =>
    match s.requests n with
    | some (.refreshIssued session) =>
      some (runStatement s n (findPublicById session.userId) fun user t =>
        t.setRequest n (if user.isSome then none else some (.revoking session.userId)))
    | _ => none
  | .logout refreshToken =>
    some (s.remove (fun row => row.tokenHash == hashToken refreshToken)
      (revokeSessionByTokenHash (hashToken refreshToken) s.db))
  | .logoutAll n =>
    match s.requests n with
    | some (.attached _ _ _ user) => some (s.setRequest n (some (.revoking user._id)))
    | _ => none
  | .revokeAll n =>
    match s.requests n with
    | some (.revoking userId) =>
      match Uuid.parse userId with
      | some u =>
        some ((s.remove (fun row => row.userId == u)
          (revokeAllSessionsForUser u s.db)).setRequest n none)
      | none => some (s.setRequest n none)
    | _ => none
  | .deleteUser id => some { s with db := deleteUser id s.db }
  | .present n gate token now => some (s.setRequest n (some (.gate gate token now s.db)))
  | .finishGate n =>
    match s.requests n with
    | some (.gate gate token now lookup) =>
      some (s.setRequest n (gateOutcome J gate token now lookup s.db))
    | _ => none
  | .abort n => some (s.setRequest n none)

/-- Every database without sessions is one to start from. -/
def authSystem : TransitionSystem AuthState AuthAction where
  init s := s.db.sessions = [] ∧ (∀ n, s.requests n = none) ∧ s.minted = [] ∧ s.created = [] ∧
    s.removed = []
  step s a := authStep J hashToken s a

/-- Only issued tokens verify, as what they were issued for; session ids are fresh. -/
def Genuine : Guard AuthState AuthAction
  | s, .createSession _ id _ _ _ => id ∉ s.created.map Prod.fst
  | s, .present _ _ token now => ∀ userId sessionId,
      J.verify token now = .ok (.fields (some userId) (some sessionId)) →
        (token, ⟨userId, sessionId⟩) ∈ s.minted
  | _, _ => True

/-- The token was issued for a session that was created for the user, and whose row was there,
unexpired, at the session lookup. -/
def Justified (s : AuthState) (token : JsString) (now : Int) (lookup : AuthDatabase)
    (userId : JsString) : Prop :=
  ∃ row ∈ lookup.sessions, pgTimestamp now < row.expiresAt ∧ userId = row.userId.toText ∧
    (token, ⟨userId, row.id.toText⟩) ∈ s.minted ∧ (row.id, userId) ∈ s.created

/-! ## The invariant -/

/-- The strings name a session that was created for a user. -/
def NamesCreated (s : AuthState) (sessionId userId : JsString) : Prop :=
  ∃ id, (id, userId) ∈ s.created ∧ sessionId = id.toText

/-- What is known of a request in flight. -/
def RequestBound (s : AuthState) : AuthRequest → Prop
  | .authenticated userId => ∃ u : Uuid, userId = u.toText
  | .sessionCreated userId session => NamesCreated s session.id userId
  | .refreshed session => NamesCreated s session.id session.userId
  | .refreshIssued session => NamesCreated s session.id session.userId
  | .revoking _ => True
  | .gate _ token now _ => ∀ userId sessionId,
      J.verify token now = .ok (.fields (some userId) (some sessionId)) →
        (token, ⟨userId, sessionId⟩) ∈ s.minted
  | .attached token now lookup user => Justified s token now lookup user._id
  | .connected token now lookup userId => Justified s token now lookup userId

/-- Every token, every row and every request is bound to a session that was created, and no
removed session is there. -/
structure Bound (s : AuthState) : Prop where
  ids : (s.db.sessions.map SessionRow.id).Nodup
  printed : ∀ x ∈ s.created, ∃ u : Uuid, x.2 = u.toText
  minted : ∀ x ∈ s.minted, NamesCreated s x.2.sessionId x.2.userId
  sessions : ∀ row ∈ s.db.sessions, (row.id, row.userId.toText) ∈ s.created
  removed : ∀ id ∈ s.removed, id ∈ s.created.map Prod.fst ∧ ∀ row ∈ s.db.sessions, row.id ≠ id
  requests : ∀ n r, s.requests n = some r → RequestBound J s r

section Bound

variable {J} {hashToken} {s t : AuthState}

/-- The history has grown. -/
structure Extends (s t : AuthState) : Prop where
  minted : ∀ x ∈ s.minted, x ∈ t.minted
  created : ∀ x ∈ s.created, x ∈ t.created

theorem Extends.refl (s : AuthState) : Extends s s := ⟨fun _ h => h, fun _ h => h⟩

theorem NamesCreated.mono (h : Extends s t) {x y : JsString} (hn : NamesCreated s x y) :
    NamesCreated t x y := by
  obtain ⟨id, hid, hx⟩ := hn
  exact ⟨id, h.created _ hid, hx⟩

theorem Justified.mono (h : Extends s t) {token userId : JsString} {now : Int}
    {lookup : AuthDatabase} (hj : Justified s token now lookup userId) :
    Justified t token now lookup userId := by
  obtain ⟨row, hrow, hactive, huser, hmint, hcreated⟩ := hj
  exact ⟨row, hrow, hactive, huser, h.minted _ hmint, h.created _ hcreated⟩

/-- What is known of a request stays known. -/
theorem RequestBound.mono (h : Extends s t) {r : AuthRequest} (hr : RequestBound J s r) :
    RequestBound J t r := by
  cases r with
  | authenticated userId => exact hr
  | sessionCreated userId session => exact NamesCreated.mono h hr
  | refreshed session => exact NamesCreated.mono h hr
  | refreshIssued session => exact NamesCreated.mono h hr
  | revoking userId => exact trivial
  | gate gate token now lookup => exact fun u x hv => h.minted _ (hr u x hv)
  | attached token now lookup user => exact Justified.mono h hr
  | connected token now lookup userId => exact Justified.mono h hr

theorem Bound.setRequest (hB : Bound J s) {n : Nat} {r : Option AuthRequest}
    (hr : ∀ r', r = some r' → RequestBound J s r') : Bound J (s.setRequest n r) := by
  refine ⟨hB.ids, hB.printed, hB.minted, hB.sessions, hB.removed, ?_⟩
  intro m r' hm
  by_cases hmn : m = n
  · exact hr r' (by simpa [AuthState.setRequest, hmn] using hm)
  · exact hB.requests m r' (by simpa [AuthState.setRequest, hmn] using hm)

/-- A statement that leaves every session row the id and the user it had, or drops it. -/
theorem Bound.setDb (hB : Bound J s) {db : AuthDatabase}
    (hids : (db.sessions.map SessionRow.id).Nodup)
    (hdb : ∀ row ∈ db.sessions, ∃ old ∈ s.db.sessions, old.id = row.id ∧ old.userId = row.userId) :
    Bound J { s with db } := by
  refine ⟨hids, hB.printed, hB.minted, ?_, ?_, hB.requests⟩
  · intro row hrow
    obtain ⟨old, hold, hid, huser⟩ := hdb row hrow
    rw [← hid, ← huser]
    exact hB.sessions old hold
  · intro id hid
    refine ⟨(hB.removed id hid).1, fun row hrow => ?_⟩
    obtain ⟨old, hold, holdid, -⟩ := hdb row hrow
    rw [← holdid]
    exact (hB.removed id hid).2 old hold

/-- The rows a deletion removes are recorded. -/
theorem Bound.remove (hB : Bound J s) {p : SessionRow → Bool} {db : AuthDatabase}
    (hdb : db.sessions = s.db.sessions.filter fun row => !p row) : Bound J (s.remove p db) := by
  have hsub : ∀ row ∈ db.sessions, row ∈ s.db.sessions ∧ p row = false := by
    intro row hrow
    rw [hdb, List.mem_filter] at hrow
    exact ⟨hrow.1, by simpa using hrow.2⟩
  have hids : (db.sessions.map SessionRow.id).Nodup := by
    rw [hdb]
    exact hB.ids.sublist (List.filter_sublist.map _)
  refine ⟨hids, hB.printed, hB.minted, fun row hrow => hB.sessions row (hsub row hrow).1, ?_,
    hB.requests⟩
  intro id hid
  rcases List.mem_append.mp hid with hid | hid
  · obtain ⟨gone, hgone, rfl⟩ := List.mem_map.mp hid
    rw [List.mem_filter] at hgone
    refine ⟨List.mem_map_of_mem (hB.sessions gone hgone.1), fun row hrow hsame => ?_⟩
    -- ids are distinct, so the row that stayed would be the row that went
    obtain rfl := eq_of_key hB.ids (hsub row hrow).1 hgone.1 hsame
    simp [(hsub row hrow).2] at hgone
  · exact ⟨(hB.removed id hid).1, fun row hrow => (hB.removed id hid).2 row (hsub row hrow).1⟩

theorem Bound.mint (hB : Bound J s) {token userId sessionId : JsString}
    (hn : NamesCreated s sessionId userId) : Bound J (s.mint token userId sessionId) := by
  have hext : Extends s (s.mint token userId sessionId) :=
    ⟨fun _ hx => List.mem_cons_of_mem _ hx, fun _ hx => hx⟩
  refine ⟨hB.ids, hB.printed, ?_, hB.sessions, hB.removed,
    fun n r hr => (hB.requests n r hr).mono hext⟩
  intro x hx
  rcases List.mem_cons.mp hx with rfl | hx
  · exact hn.mono hext
  · exact (hB.minted x hx).mono hext

/-- A new session is recorded with its user. -/
theorem Bound.create (hB : Bound J s) {row : SessionRow} {db : AuthDatabase} {userId : JsString}
    (hfresh : row.id ∉ s.created.map Prod.fst) (huser : userId = row.userId.toText)
    (hnew : ∀ old ∈ s.db.sessions, old.id ≠ row.id)
    (hdb : db.sessions = s.db.sessions ++ [row]) :
    Bound J { s with db, created := (row.id, userId) :: s.created } := by
  have hext : Extends s { s with db, created := (row.id, userId) :: s.created } :=
    ⟨fun _ hx => hx, fun _ hx => List.mem_cons_of_mem _ hx⟩
  refine ⟨?_, ?_, fun x hx => (hB.minted x hx).mono hext, ?_, ?_,
    fun n r hr => (hB.requests n r hr).mono hext⟩
  · show (db.sessions.map SessionRow.id).Nodup
    rw [hdb, List.map_append]
    refine List.nodup_append.mpr ⟨hB.ids, List.nodup_singleton _, ?_⟩
    intro a ha b hb
    obtain ⟨old, hold, rfl⟩ := List.mem_map.mp ha
    exact List.mem_singleton.mp hb ▸ hnew old hold
  · intro x hx
    rcases List.mem_cons.mp hx with rfl | hx
    · exact ⟨row.userId, huser⟩
    · exact hB.printed x hx
  · intro other hother
    rw [hdb, List.mem_append] at hother
    rcases hother with hother | hother
    · exact List.mem_cons_of_mem _ (hB.sessions other hother)
    · rw [List.mem_singleton.mp hother, huser]
      exact List.mem_cons_self
  · intro id hid
    obtain ⟨hcreated, hgone⟩ := hB.removed id hid
    refine ⟨List.mem_cons_of_mem _ hcreated, fun other hother => ?_⟩
    rw [hdb, List.mem_append] at hother
    rcases hother with hother | hother
    · exact hgone other hother
    · rw [List.mem_singleton.mp hother]
      intro hsame
      exact hfresh (hsame ▸ hcreated)

/-- A statement after which the request goes on. -/
theorem Bound.runStatement (hB : Bound J s) {α : Type} {n : Nat} {x : AuthTx α}
    {f : α → AuthState → AuthState}
    (hf : ∀ a db, x s.db = .ok (a, db) → Bound J (f a { s with db })) :
    Bound J (runStatement s n x f) := by
  unfold MernChat.runStatement
  cases hx : x s.db with
  | error e => exact hB.setRequest (by simp)
  | ok r =>
    obtain ⟨a, db⟩ := r
    exact hf a db hx

/-- **A token that passes a gate is justified**: it was issued, and its session was found. -/
theorem Bound.justified (hB : Bound J s) {token : JsString} {now : Int}
    {lookup db : AuthDatabase} {user : PublicUser}
    (hgenuine : ∀ userId sessionId,
      J.verify token now = .ok (.fields (some userId) (some sessionId)) →
        (token, ⟨userId, sessionId⟩) ∈ s.minted)
    (hpass : Passes J now token lookup db user) : Justified s token now lookup user._id := by
  obtain ⟨decoded, hverify, hsession, huser⟩ := hpass
  have hmint := hgenuine _ _ (verifyAccessToken_eq_ok.mp hverify).1
  obtain ⟨row, hrow, hid, huserId, hactive⟩ := readIn_findActiveSessionById.mp hsession
  obtain ⟨id, hcreated, hsid⟩ := hB.minted _ hmint
  obtain ⟨u, hu⟩ := hB.printed _ hcreated
  simp only at hsid hu hcreated
  obtain rfl : id = row.id := by
    rw [hsid, Uuid.parse_toText] at hid
    exact Option.some.inj hid
  obtain rfl : u = row.userId := by
    rw [hu, Uuid.parse_toText] at huserId
    exact Option.some.inj huserId
  -- the user the gate finds is the one the token names
  have hname : user._id = decoded.userId := by
    obtain ⟨_, hfound⟩ := readIn_eq_ok.mp huser
    obtain ⟨v, hv, hmap, -⟩ := findPublicById_eq_ok.mp hfound
    obtain ⟨found, hfind, rfl⟩ := Option.map_eq_some_iff.mp hmap.symm
    have hfoundId : found.id = v := by
      have hmatch := List.find?_some hfind
      simpa using hmatch
    rw [hu, Uuid.parse_toText] at hv
    show found.id.toText = decoded.userId
    rw [hfoundId, hu, Option.some.inj hv]
  rw [hname]
  refine ⟨row, hrow, hactive, hu, ?_, hcreated⟩
  rw [← hsid]
  exact hmint

/-- A deletion of users keeps or drops every session. -/
theorem mem_sessions_deleteUser {id : Uuid} {db : AuthDatabase} {row : SessionRow}
    (h : row ∈ (deleteUser id db).sessions) : row ∈ db.sessions :=
  (List.mem_filter.mp h).1

/-- A refresh leaves the ids as they are. -/
theorem sessionIds_touch {p : SessionRow → Bool} {now : Int} (rows : List SessionRow) :
    (rows.map fun row => if p row then row.touch now else row).map SessionRow.id =
      rows.map SessionRow.id := by
  rw [List.map_map]
  refine List.map_congr_left fun row _ => ?_
  show (if p row then row.touch now else row).id = row.id
  split <;> rfl

/-- A gate that lets a token through has justified it. -/
theorem Bound.gateOutcome (hB : Bound J s) {gate : AuthGate} {token : JsString} {now : Int}
    {lookup db : AuthDatabase} {r : AuthRequest}
    (hgenuine : ∀ userId sessionId,
      J.verify token now = .ok (.fields (some userId) (some sessionId)) →
        (token, ⟨userId, sessionId⟩) ∈ s.minted)
    (h : gateOutcome J gate token now lookup db = some r) : RequestBound J s r := by
  cases gate with
  | secureRoute =>
    simp only [MernChat.gateOutcome] at h
    split at h
    · rename_i user hpass
      obtain rfl := Option.some.inj h
      exact hB.justified hgenuine (secureRoute_eq_ok.mp hpass)
    · cases h
  | socketHandshake =>
    simp only [MernChat.gateOutcome] at h
    split at h
    · rename_i userId hpass
      obtain rfl := Option.some.inj h
      obtain ⟨user, hpasses, rfl⟩ := socketHandshake_eq_ok.mp hpass
      exact hB.justified hgenuine hpasses
    · cases h

/-- Every step keeps the invariant. -/
theorem Bound.step {a : AuthAction} (hB : Bound J s) (hg : Genuine J s a)
    (h : authStep J hashToken s a = some t) : Bound J t := by
  cases a with
  | signup n id input now =>
    obtain rfl := Option.some.inj h
    refine hB.runStatement fun user db hx => ?_
    obtain ⟨row, -, -, -, -, -, -, -, -, -, -, rfl, rfl⟩ := createUser_eq_ok.mp hx
    -- the `INSERT` leaves the sessions alone, and the id it returns is a printed one
    have hdb : Bound J { s with db := { s.db with users := s.db.users ++ [row] } } :=
      hB.setDb hB.ids fun r hr => ⟨r, hr, rfl, rfl⟩
    refine hdb.setRequest fun r' hr' => ?_
    obtain rfl := Option.some.inj hr'
    exact ⟨row.id, rfl⟩
  | login n email =>
    obtain rfl := Option.some.inj h
    refine hB.runStatement fun user db hx => ?_
    obtain ⟨e, -, rfl, rfl⟩ := findUserByNormalizedEmail_eq_ok.mp hx
    refine hB.setRequest fun r' hr' => ?_
    rw [Option.map_map] at hr'
    obtain ⟨row, -, rfl⟩ := Option.map_eq_some_iff.mp hr'
    exact ⟨row.id, rfl⟩
  | createSession n id refreshToken now dbNow =>
    simp only [authStep] at h
    split at h
    · rename_i userId hreq
      obtain rfl := Option.some.inj h
      obtain ⟨u, hu⟩ : ∃ u : Uuid, userId = u.toText := hB.requests n _ hreq
      refine hB.runStatement fun session db hx => ?_
      obtain ⟨row, hid, huser, -, -, -, -, -, hnew, -, -, rfl, rfl⟩ := createSession_eq_ok.mp hx
      -- the column reads back the id the request was given
      have hrowUser : row.userId = u := by
        rw [hu, Uuid.parse_toText] at huser
        exact (Option.some.inj huser).symm
      obtain rfl := hid
      have hcreate : Bound J { s with
          db := { s.db with sessions := s.db.sessions ++ [row] }
          created := (row.id, userId) :: s.created } :=
        hB.create hg (hrowUser ▸ hu) hnew rfl
      refine hcreate.setRequest fun r' hr' => ?_
      obtain rfl := Option.some.inj hr'
      exact ⟨row.id, List.mem_cons_self, rfl⟩
    · cases h
  | issueToken n now =>
    simp only [authStep] at h
    split at h
    -- the token names the session the request has created, or has found
    · rename_i userId session hreq
      obtain rfl := Option.some.inj h
      exact (hB.mint (hB.requests n _ hreq)).setRequest (by simp)
    · rename_i session hreq
      obtain rfl := Option.some.inj h
      refine (hB.mint (hB.requests n _ hreq)).setRequest fun r' hr' => ?_
      obtain rfl := Option.some.inj hr'
      exact hB.requests n _ hreq
    · cases h
  | refresh n refreshToken now =>
    obtain rfl := Option.some.inj h
    refine hB.runStatement fun session db hx => ?_
    obtain ⟨rfl, rfl⟩ := findActiveSessionByTokenHash_eq_ok.mp hx
    -- the `UPDATE` writes `last_used_at`, and returns a row that was there
    refine (hB.setDb ?_ ?_).setRequest fun r' hr' => ?_
    · rw [sessionIds_touch]
      exact hB.ids
    · intro row hrow
      obtain ⟨old, hold, rfl⟩ := List.mem_map.mp hrow
      refine ⟨old, hold, ?_⟩
      split <;> exact ⟨rfl, rfl⟩
    · rw [Option.map_map] at hr'
      obtain ⟨row, hfind, rfl⟩ := Option.map_eq_some_iff.mp hr'
      exact ⟨row.id, hB.sessions row (List.mem_of_find?_eq_some hfind), rfl⟩
  | findUser n =>
    simp only [authStep] at h
    split at h
    · obtain rfl := Option.some.inj h
      refine hB.runStatement fun user db hx => ?_
      obtain ⟨u, -, -, rfl⟩ := findPublicById_eq_ok.mp hx
      refine hB.setRequest fun r' hr' => ?_
      split at hr'
      · cases hr'
      · obtain rfl := Option.some.inj hr'
        exact trivial
    · cases h
  | logout refreshToken =>
    obtain rfl := Option.some.inj h
    exact hB.remove rfl
  | logoutAll n =>
    simp only [authStep] at h
    split at h
    · obtain rfl := Option.some.inj h
      refine hB.setRequest fun r' hr' => ?_
      obtain rfl := Option.some.inj hr'
      exact trivial
    · cases h
  | revokeAll n =>
    simp only [authStep] at h
    split at h
    · split at h
      · obtain rfl := Option.some.inj h
        exact (hB.remove rfl).setRequest (by simp)
      · obtain rfl := Option.some.inj h
        exact hB.setRequest (by simp)
    · cases h
  | deleteUser id =>
    -- `ON DELETE CASCADE` drops sessions, and changes none
    obtain rfl := Option.some.inj h
    refine hB.setDb ?_ fun row hrow => ⟨row, mem_sessions_deleteUser hrow, rfl, rfl⟩
    exact hB.ids.sublist (List.filter_sublist.map _)
  | present n gate token now =>
    obtain rfl := Option.some.inj h
    refine hB.setRequest fun r' hr' => ?_
    obtain rfl := Option.some.inj hr'
    exact hg
  | finishGate n =>
    simp only [authStep] at h
    split at h
    · rename_i gate token now lookup hreq
      obtain rfl := Option.some.inj h
      exact hB.setRequest fun r' hr' => hB.gateOutcome (hB.requests n _ hreq) hr'
    · cases h
  | abort n =>
    obtain rfl := Option.some.inj h
    exact hB.setRequest (by simp)

theorem bound_of_init (h : (authSystem J hashToken).init s) : Bound J s := by
  obtain ⟨hsessions, hrequests, hminted, hcreated, hremoved⟩ := h
  refine ⟨?_, ?_, ?_, ?_, ?_, ?_⟩
  · rw [hsessions]
    exact List.nodup_nil
  · simp [hcreated]
  · simp [hminted]
  · simp [hsessions]
  · simp [hremoved]
  · simp [hrequests]

/-- The invariant holds in every run. -/
theorem bound_of_reachable (h : (authSystem J hashToken).Reachable (Genuine J) s) : Bound J s :=
  h.invariant (fun _ => bound_of_init) fun _ _ _ hB hg hs => hB.step hg hs

/-! ## Revocation -/

theorem runStatement_removed {α : Type} {n : Nat} {x : AuthTx α} {f : α → AuthState → AuthState}
    (hf : ∀ a db, (f a { s with db }).removed = s.removed) :
    (runStatement s n x f).removed = s.removed := by
  unfold runStatement
  cases x s.db with
  | error e => rfl
  | ok r => exact hf r.1 r.2

/-- A removed session stays removed. -/
theorem removed_mono {a : AuthAction} (h : authStep J hashToken s a = some t) {id : Uuid}
    (hid : id ∈ s.removed) : id ∈ t.removed := by
  cases a with
  -- a statement records nothing removed
  | signup | login | refresh =>
    obtain rfl := Option.some.inj h
    rw [runStatement_removed fun _ _ => rfl]
    exact hid
  | createSession | findUser =>
    simp only [authStep] at h
    split at h
    · obtain rfl := Option.some.inj h
      rw [runStatement_removed fun _ _ => rfl]
      exact hid
    · cases h
  -- the deletions add the rows they remove
  | logout refreshToken =>
    obtain rfl := Option.some.inj h
    exact List.mem_append_right _ hid
  | revokeAll n =>
    simp only [authStep] at h
    split at h
    · split at h
      · obtain rfl := Option.some.inj h
        exact List.mem_append_right _ hid
      · obtain rfl := Option.some.inj h
        exact hid
    · cases h
  -- the rest leaves the record alone
  | issueToken n now =>
    simp only [authStep] at h
    split at h
    · obtain rfl := Option.some.inj h
      exact hid
    · obtain rfl := Option.some.inj h
      exact hid
    · cases h
  | logoutAll | finishGate =>
    simp only [authStep] at h
    split at h
    · obtain rfl := Option.some.inj h
      exact hid
    · cases h
  | deleteUser | present | abort =>
    obtain rfl := Option.some.inj h
    exact hid

/-- The `DELETE` of a logout removes the sessions of the refresh token. -/
theorem mem_removed_of_logout {refreshToken : JsString}
    (h : authStep J hashToken s (.logout refreshToken) = some t) {row : SessionRow}
    (hrow : row ∈ s.db.sessions) (hhash : row.tokenHash = hashToken refreshToken) :
    row.id ∈ t.removed := by
  obtain rfl := Option.some.inj h
  refine List.mem_append_left _ (List.mem_map_of_mem ?_)
  exact List.mem_filter.mpr ⟨hrow, by simpa using hhash⟩

/-- The `DELETE` of a logout from everywhere removes the sessions of the user. -/
theorem mem_removed_of_revokeAll {n : Nat} {userId : JsString}
    (hreq : s.requests n = some (.revoking userId))
    (h : authStep J hashToken s (.revokeAll n) = some t) {row : SessionRow}
    (hrow : row ∈ s.db.sessions) (huser : Uuid.parse userId = some row.userId) :
    row.id ∈ t.removed := by
  simp only [authStep, hreq, huser] at h
  obtain rfl := Option.some.inj h
  refine List.mem_append_left _ (List.mem_map_of_mem ?_)
  exact List.mem_filter.mpr ⟨hrow, by simp⟩

/-- No lookup finds a removed session. -/
theorem Bound.not_found (hB : Bound J s) {id : Uuid} (hid : id ∈ s.removed)
    {sessionId userId : JsString} (hparse : Uuid.parse sessionId = some id) (now : Int)
    (session : PostgresSession) :
    readIn s.db (findActiveSessionById sessionId userId now) ≠ .ok (some session) := by
  intro hfound
  obtain ⟨row, hrow, hrowId, -, -⟩ := readIn_findActiveSessionById.mp ⟨session, hfound⟩
  rw [hparse] at hrowId
  exact (hB.removed id hid).2 row hrow (Option.some.inj hrowId).symm

end Bound

/-- **Authentication is bound to sessions**, for every library of tokens and every hash. In every
run in which only issued tokens verify: a user attached by `secureRoute`, or set by the handshake,
presented a token issued for a session that was created for that user and was found, unexpired, by
the lookup of the gate; and no lookup finds a session that a logout has removed. What a logout
removes is recorded and stays so, and the gates let through the same tokens. -/
theorem session_bound :
    (∀ s, (authSystem J hashToken).Reachable (Genuine J) s →
      (∀ n token now lookup user, s.requests n = some (.attached token now lookup user) →
        Justified s token now lookup user._id) ∧
      (∀ n token now lookup userId, s.requests n = some (.connected token now lookup userId) →
        Justified s token now lookup userId) ∧
      ∀ id ∈ s.removed, ∀ sessionId userId, Uuid.parse sessionId = some id → ∀ now session,
        readIn s.db (findActiveSessionById sessionId userId now) ≠ .ok (some session)) ∧
    (∀ s a t, authStep J hashToken s a = some t → ∀ id ∈ s.removed, id ∈ t.removed) ∧
    (∀ s t refreshToken, authStep J hashToken s (.logout refreshToken) = some t →
      ∀ row ∈ s.db.sessions, row.tokenHash = hashToken refreshToken → row.id ∈ t.removed) ∧
    (∀ s t n userId, s.requests n = some (.revoking userId) →
      authStep J hashToken s (.revokeAll n) = some t →
        ∀ row ∈ s.db.sessions, Uuid.parse userId = some row.userId → row.id ∈ t.removed) ∧
    ∀ now token db₁ db₂ userId, socketHandshake J now token db₁ db₂ = .ok userId ↔
      ∃ user, secureRoute J now token db₁ db₂ = .ok user ∧ user._id = userId := by
  refine ⟨fun s hs => ?_, ?_, ?_, ?_, gates_agree J⟩
  · have hB : Bound J s := bound_of_reachable hs
    refine ⟨?_, ?_, ?_⟩
    · intro n token now lookup user hreq
      exact hB.requests n _ hreq
    · intro n token now lookup userId hreq
      exact hB.requests n _ hreq
    · intro id hid sessionId userId hparse now session
      exact hB.not_found hid hparse now session
  · intro s a t hstep id hid
    exact removed_mono hstep hid
  · intro s t refreshToken hstep row hrow hhash
    exact mem_removed_of_logout hstep hrow hhash
  · intro s t n userId hreq hstep row hrow huser
    exact mem_removed_of_revokeAll hreq hstep hrow huser

/-- Tokens that are what they name. -/
def plainJwt : Jwt where
  sign userId sessionId _ := userId ++ sessionId
  verify token _ :=
    if token = [] then .error ⟨js "JsonWebTokenError", js "jwt must be provided"⟩
    else .ok (.fields (some (token.take 36)) (some (token.drop 36)))
  verify_nil := by simp

/-- `Genuine`, decided. -/
def genuine (s : AuthState) : AuthAction → Bool
  | .createSession _ id _ _ _ => decide (id ∉ s.created.map Prod.fst)
  | .present _ _ token now =>
    match J.verify token now with
    | .ok (.fields (some userId) (some sessionId)) =>
      decide ((token, ⟨userId, sessionId⟩) ∈ s.minted)
    | _ => true
  | _ => true

theorem genuine_sound {s : AuthState} {a : AuthAction} (h : genuine J s a = true) :
    Genuine J s a := by
  cases a with
  | createSession n id refreshToken now dbNow =>
    have hfresh : id ∉ s.created.map Prod.fst := of_decide_eq_true h
    exact hfresh
  | present n gate token now =>
    intro userId sessionId hverify
    simp only [genuine, hverify] at h
    exact of_decide_eq_true h
  | _ => exact trivial

/-- A signup, its session and token, and a request that presents the token. -/
def signupRun : List AuthAction :=
  [.signup 0 (Uuid.ofNat 1) ⟨js "Ada", js "ada@example.com", js "hash"⟩ 0,
    .createSession 0 (Uuid.ofNat 2) (js "refresh") 0 0, .issueToken 0 0,
    .present 1 .secureRoute ((Uuid.ofNat 1).toText ++ (Uuid.ofNat 2).toText) 5, .finishGate 1]

/-- The user that is attached to a request. -/
def AuthRequest.attachedUser : AuthRequest → Option JsString
  | .attached _ _ _ user => some user._id
  | _ => none

/-- The user whose sessions a request deletes. -/
def AuthRequest.revokedUser : AuthRequest → Option JsString
  | .revoking userId => some userId
  | _ => none

/-- A login of the same user, who then asks to be logged out everywhere. -/
def loginRun : List AuthAction :=
  [.login 2 (js "ada@example.com"), .createSession 2 (Uuid.ofNat 3) (js "other") 0 0, .logoutAll 1]

/-- The run up to a logout everywhere: the first session is there at the logout, and the other one
at the end. -/
theorem exists_signupRun : ∃ s t u v, (authSystem plainJwt id).runIf (genuine plainJwt)
      ⟨⟨[], []⟩, fun _ => none, [], [], []⟩ signupRun = some s ∧
    (s.requests 1).bind AuthRequest.attachedUser = some (Uuid.ofNat 1).toText ∧
    (∃ row ∈ s.db.sessions, row.tokenHash = js "refresh" ∧ row.id = Uuid.ofNat 2) ∧
    authStep plainJwt id s (.logout (js "refresh")) = some t ∧
    (authSystem plainJwt id).runIf (genuine plainJwt) t loginRun = some u ∧
    (u.requests 1).bind AuthRequest.revokedUser = some (Uuid.ofNat 1).toText ∧
    (∃ row ∈ u.db.sessions, row.userId = Uuid.ofNat 1 ∧ row.id = Uuid.ofNat 3) ∧
    authStep plainJwt id u (.revokeAll 1) = some v := by
  have hrun : ((authSystem plainJwt id).runIf (genuine plainJwt)
      ⟨⟨[], []⟩, fun _ => none, [], [], []⟩ signupRun).any (fun s => decide
        ((s.requests 1).bind AuthRequest.attachedUser = some (Uuid.ofNat 1).toText ∧
          ∃ row ∈ s.db.sessions, row.tokenHash = js "refresh" ∧ row.id = Uuid.ofNat 2) &&
        (authStep plainJwt id s (.logout (js "refresh"))).any fun t =>
          ((authSystem plainJwt id).runIf (genuine plainJwt) t loginRun).any fun u => decide
            ((u.requests 1).bind AuthRequest.revokedUser = some (Uuid.ofNat 1).toText ∧
              ∃ row ∈ u.db.sessions, row.userId = Uuid.ofNat 1 ∧ row.id = Uuid.ofNat 3) &&
            (authStep plainJwt id u (.revokeAll 1)).isSome) = true := by
    decide +kernel
  obtain ⟨s, hs, hcheck⟩ := (Option.any_eq_true _ _).mp hrun
  obtain ⟨hfirst, hcheck⟩ := Bool.and_eq_true_iff.mp hcheck
  obtain ⟨hattached, hrow⟩ := of_decide_eq_true hfirst
  obtain ⟨t, ht, hcheck⟩ := (Option.any_eq_true _ _).mp hcheck
  obtain ⟨u, hu, hcheck⟩ := (Option.any_eq_true _ _).mp hcheck
  obtain ⟨hsecond, hlast⟩ := Bool.and_eq_true_iff.mp hcheck
  obtain ⟨hrevoking, hother⟩ := of_decide_eq_true hsecond
  obtain ⟨v, hv⟩ := Option.isSome_iff_exists.mp hlast
  exact ⟨s, t, u, v, hs, hattached, hrow, ht, hu, hrevoking, hother, hv⟩

/-- The token is that of a session; the logout removes it, and the one from everywhere removes that
of the login as well. -/
theorem session_bound_sample :
    ∃ s t u v, (∃ token now lookup user, s.requests 1 = some (.attached token now lookup user) ∧
        Justified s token now lookup user._id) ∧
      authStep plainJwt id s (.logout (js "refresh")) = some t ∧ Uuid.ofNat 2 ∈ t.removed ∧
      (authSystem plainJwt id).runIf (genuine plainJwt) t loginRun = some u ∧
      authStep plainJwt id u (.revokeAll 1) = some v ∧ Uuid.ofNat 3 ∈ v.removed ∧
      ∀ id ∈ v.removed, ∀ userId now session,
        readIn v.db (findActiveSessionById id.toText userId now) ≠ .ok (some session) := by
  obtain ⟨hstates, -, hlogout, hrevoke, -⟩ := session_bound plainJwt id
  obtain ⟨s, t, u, v, hs, hattached, ⟨row, hrow, hhash, hid⟩, ht, hu, hrevoking,
    ⟨other, hother, huser, hotherId⟩, hv⟩ := exists_signupRun
  have hsreach : (authSystem plainJwt id).Reachable (Genuine plainJwt) s :=
    .of_runIf (fun _ _ _ => genuine_sound plainJwt) (.init ⟨rfl, fun _ => rfl, rfl, rfl, rfl⟩) hs
  have htreach : (authSystem plainJwt id).Reachable (Genuine plainJwt) t :=
    hsreach.step (a := AuthAction.logout (js "refresh")) trivial ht
  have hvreach : (authSystem plainJwt id).Reachable (Genuine plainJwt) v :=
    (htreach.of_runIf (fun _ _ _ => genuine_sound plainJwt) hu).step
      (a := AuthAction.revokeAll 1) trivial hv
  obtain ⟨r, hreq, hr⟩ := Option.bind_eq_some_iff.mp hattached
  obtain ⟨r', hreq', hr'⟩ := Option.bind_eq_some_iff.mp hrevoking
  refine ⟨s, t, u, v, ?_, ht, hid ▸ hlogout s t _ ht row hrow hhash, hu, hv, ?_, ?_⟩
  · cases r with
    | attached token now lookup user =>
      exact ⟨token, now, lookup, user, hreq, (hstates s hsreach).1 1 token now lookup user hreq⟩
    | _ => cases hr
  · cases r' with
    | revoking userId =>
      obtain rfl := Option.some.inj hr'
      refine hotherId ▸ hrevoke u v 1 _ hreq' hv other hother ?_
      rw [huser, Uuid.parse_toText]
    | _ => cases hr'
  · intro id hid userId now session
    exact (hstates v hvreach).2.2 id hid id.toText userId (Uuid.parse_toText id) now session

end MernChat
