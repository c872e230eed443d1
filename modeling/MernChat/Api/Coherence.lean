import MernChat.Api.Calls
import MernChat.Auth.SessionFrames

/-!
# What the server's tables say of its requests

The tables do not say who has written them. What is known of them is known from the requests: a
session was created by a request that had shown a password of its user, a message was stored by a
request whose token was that of such a session, and what was emitted is a message that is stored.

## Main definitions

* `ShowsUser`, `Authorized`, `Authored`: who a request is, and what it may do
* `Emitted`, `Delivered`: what was emitted, and what has reached a socket
* `Coherent`: the invariant of the shared state
* `Grows`: the history and the rows that stay

## Main results

* `Coherent.stepAuth`, `Coherent.register`, `Coherent.begin`, `Coherent.proceed`,
  `Coherent.receive`: what a step may do to the shared state
-/

namespace MernChat.Api

open Library

/-! ## Who a request is -/

section Definitions

variable (B : Backend)

/-- **The request shows its user**: it has the e-mail of a user, with a password that matches the
hash, or whose hash the user was registered with. -/
structure ShowsUser (s : ApiState) (r : HttpRequest) (userId : JsString) : Prop where
  row : ∃ row ∈ s.auth.db.users, row.id.toText = userId ∧
    ∃ email password, r.fields.email = some email ∧ r.fields.password = some password ∧
      pgText (normalizeEmail B.toLowerCase email) = some row.email ∧
        (layers B.config B.urlOrigin r = .endpoint .login ∧
            B.bcrypt.compare password row.passwordHash = true ∨
          layers B.config B.urlOrigin r = .endpoint .signup ∧
            ∃ salt, pgText (B.bcrypt.hash salt password 12) = some row.passwordHash)

/-- The session was created for its user and its token, and ends when it was created to end. -/
def GrantedRow (grants : List Grant) (row : SessionRow) : Prop :=
  ∃ g ∈ grants, g.sessionId = row.id ∧ g.userId = row.userId.toText ∧
    row.tokenHash = g.tokenHash ∧ row.expiresAt = pgTimestamp (g.createdAt + REFRESH_TOKEN_TTL_MS)

/-- Every session was. -/
def AllGranted (grants : List Grant) (db : AuthDatabase) : Prop :=
  ∀ row ∈ db.sessions, GrantedRow grants row

/-- A session was created by a request that shows its user. -/
def GrantShown (s : ApiState) (g : Grant) : Prop :=
  ∃ r drawn, g.arrival = .http r drawn ∧ ShowsUser B s r g.userId

/-- The token was issued for a session of the user that was there, and every session there was
created by a request. -/
structure Authorized (s : ApiState) (token : JsString) (now : Int) (lookup : AuthDatabase)
    (userId : JsString) : Prop where
  justified : Justified s.auth token now lookup userId
  granted : AllGranted s.grants lookup

/-- **A call was begun by a request** to send a message, which was authorized as its sender. -/
structure Authored (s : ApiState) (x : Authorship) : Prop where
  request : ∃ r drawn id message, x.arrival = .http r drawn ∧
    layers B.config B.urlOrigin r = .endpoint (.sendMessage id) ∧ r.accessToken = .text x.token ∧
      r.fields.message = some message ∧
        validateRequest (sendMessageSchema id (some message)) = none ∧ x.input =
          ⟨x.user._id, id, message, normalizeRequestId drawn r.requestId⟩
  authorized : Authorized s x.token x.now x.lookup x.user._id

/-- **What was emitted is a message that is stored**, emitted to the room of its receiver. -/
def Emitted (s : ApiState) (e : RoomEvent) : Prop :=
  ∃ x, s.authorships[e.call]? = some x ∧ e.room = getUserRoomName x.input.receiverId ∧
    ∃ u v, ∃ row ∈ s.chat.db.messages, SentBy x.env x.input u v row ∧
      InConversation s.chat.db u v row ∧
        serializeMessage (mapMessage row) x.input.receiverId = some e.message

/-- **What reaches a socket was emitted** to the room of the user its handshake was authorized
as. -/
structure Delivered (s : ApiState) (d : Delivery) : Prop where
  arrival : d.arrival = .socket (some d.token)
  emitted : d.event ∈ s.emitted
  room : d.event.room = getUserRoomName d.userId
  authorized : Authorized s d.token d.now d.lookup d.userId

/-- **The invariant of the shared state.** The tables of authentication and those of the chat are
tables of their own systems, over the same users. -/
structure Coherent (s : ApiState) : Prop where
  auth : (authSystem B.jwt B.hashToken).Reachable (Genuine B.jwt) s.auth
  chat : messagingSystem.Reachable Guard.all s.chat
  users : s.chat.db.users = s.auth.db.users
  sends : s.chat.sends = s.authorships.map fun x => (x.env, x.input)
  sessions : AllGranted s.grants s.auth.db
  grants : ∀ g ∈ s.grants, GrantShown B s g
  authorships : ∀ x ∈ s.authorships, Authored B s x
  emitted : ∀ e ∈ s.emitted, Emitted s e
  deliveries : ∀ d ∈ s.deliveries, Delivered s d

end Definitions

/-! ## What stays -/

/-- The history and the rows that stay. -/
structure Grows (s t : ApiState) : Prop where
  auth : Extends s.auth t.auth
  removed : ∀ id ∈ s.auth.removed, id ∈ t.auth.removed
  users : ∀ u ∈ s.auth.db.users, u ∈ t.auth.db.users
  conversations : ∀ c ∈ s.chat.db.conversations, c ∈ t.chat.db.conversations
  messages : ∀ m ∈ s.chat.db.messages, m ∈ t.chat.db.messages
  grants : ∀ g ∈ s.grants, g ∈ t.grants
  authorships : s.authorships <+: t.authorships
  emitted : ∀ e ∈ s.emitted, e ∈ t.emitted

section Grows

variable {B : Backend} {s t : ApiState}

theorem Grows.refl (s : ApiState) : Grows s s :=
  ⟨.refl _, fun _ h => h, fun _ h => h, fun _ h => h, fun _ h => h, fun _ h => h,
    List.prefix_refl _, fun _ h => h⟩

theorem Grows.getElem?_authorships (h : Grows s t) {k : ℕ} {x : Authorship}
    (hk : s.authorships[k]? = some x) : t.authorships[k]? = some x := by
  obtain ⟨l, hl⟩ := h.authorships
  rw [← hl, List.getElem?_append_left (List.getElem?_eq_some_iff.mp hk).1, hk]

theorem ShowsUser.mono (h : Grows s t) {r : HttpRequest} {userId : JsString}
    (hs : ShowsUser B s r userId) : ShowsUser B t r userId := by
  obtain ⟨row, hrow, hshown⟩ := hs.row
  exact ⟨row, h.users row hrow, hshown⟩

theorem GrantedRow.mono {grants grants' : List Grant} (h : ∀ g ∈ grants, g ∈ grants')
    {row : SessionRow} (hr : GrantedRow grants row) : GrantedRow grants' row := by
  obtain ⟨g, hg, hrow⟩ := hr
  exact ⟨g, h g hg, hrow⟩

theorem AllGranted.mono {grants grants' : List Grant} (h : ∀ g ∈ grants, g ∈ grants')
    {db : AuthDatabase} (hd : AllGranted grants db) : AllGranted grants' db :=
  fun row hrow => (hd row hrow).mono h

theorem GrantShown.mono (h : Grows s t) {g : Grant} (hg : GrantShown B s g) : GrantShown B t g := by
  obtain ⟨r, drawn, harrival, hshown⟩ := hg
  exact ⟨r, drawn, harrival, hshown.mono h⟩

theorem Authorized.mono (h : Grows s t) {token : JsString} {now : Int} {lookup : AuthDatabase}
    {userId : JsString} (ha : Authorized s token now lookup userId) :
    Authorized t token now lookup userId :=
  ⟨ha.justified.mono h.auth, ha.granted.mono h.grants⟩

theorem Authored.mono (h : Grows s t) {x : Authorship} (hx : Authored B s x) : Authored B t x :=
  ⟨hx.request, hx.authorized.mono h⟩

theorem Emitted.mono (h : Grows s t) {e : RoomEvent} (he : Emitted s e) : Emitted t e := by
  obtain ⟨x, hx, hroom, u, v, row, hrow, hsent, ⟨c, hc, hbetween⟩, hmessage⟩ := he
  exact ⟨x, h.getElem?_authorships hx, hroom, u, v, row, h.messages row hrow, hsent,
    ⟨c, h.conversations c hc, hbetween⟩, hmessage⟩

theorem Delivered.mono (h : Grows s t) {d : Delivery} (hd : Delivered s d) : Delivered t d :=
  ⟨hd.arrival, h.emitted _ hd.emitted, hd.room, hd.authorized.mono h⟩

end Grows

/-! ## What a step may do -/

section Steps

variable {B : Backend} {s : ApiState}

theorem Coherent.bound (h : Coherent B s) : Bound B.jwt s.auth := bound_of_reachable h.auth

theorem Coherent.attributed (h : Coherent B s) : s.chat.Attributed :=
  MessagingState.attributed_of_reachable h.chat

/-- A call and its request. -/
theorem Coherent.getElem?_calls (h : Coherent B s) {k : ℕ} {call : SendCall}
    (hk : s.chat.calls[k]? = some call) :
    ∃ x, s.authorships[k]? = some x ∧ x.env = call.env ∧ x.input = call.input := by
  have hsend : s.chat.sends[k]? = some (call.env, call.input) := by
    rw [MessagingState.sends, List.getElem?_map, hk, Option.map_some]
  rw [h.sends, List.getElem?_map] at hsend
  obtain ⟨x, hx, heq⟩ := Option.map_eq_some_iff.mp hsend
  obtain ⟨henv, hinput⟩ := Prod.mk.inj heq
  exact ⟨x, hx, henv, hinput⟩

theorem Coherent.length_calls (h : Coherent B s) :
    s.chat.calls.length = s.authorships.length := by
  have hlength := congrArg List.length h.sends
  rwa [MessagingState.sends, List.length_map, List.length_map] at hlength

/-- The processes of the history, with what they have arrived with. -/
def entries (s : ApiState) : Set (ℕ × Arrival) :=
  {x | (∃ g ∈ s.grants, (g.process, g.arrival) = x) ∨
    (∃ y ∈ s.authorships, (y.process, y.arrival) = x) ∨
      ∃ d ∈ s.deliveries, (d.process, d.arrival) = x}

/-- What a step of the process `n` leaves as it should be. -/
structure Advance (B : Backend) (n : ℕ) (a : Arrival) (s t : ApiState) : Prop where
  coherent : Coherent B t
  grows : Grows s t
  requests : ∀ m, m ≠ n → t.auth.requests m = s.auth.requests m
  calls : ∀ (k : ℕ) x, s.authorships[k]? = some x → x.process ≠ n →
    t.chat.calls[k]? = s.chat.calls[k]?
  entries : entries t ⊆ insert (n, a) (entries s)

variable {n : ℕ} {arrival : Arrival}

theorem Advance.refl (h : Coherent B s) (n : ℕ) (arrival : Arrival) : Advance B n arrival s s :=
  ⟨h, .refl s, fun _ _ => rfl, fun _ _ _ _ => rfl, Set.subset_insert _ _⟩

/-- A step of authentication that does not write the users; the session it stores is recorded. -/
theorem Coherent.stepAuth (h : Coherent B s) {a : AuthAction} {auth : AuthState}
    {grants : List Grant} (hg : Genuine B.jwt s.auth a) (hn : ∀ m, a.request = some m → m = n)
    (hwrites : a.writesUsers = false) (hstep : authStep B.jwt B.hashToken s.auth a = some auth)
    (hsub : ∀ g ∈ s.grants, g ∈ grants)
    (hshown : ∀ g ∈ grants, g ∈ s.grants ∨
      (g.process, g.arrival) = (n, arrival) ∧ GrantShown B s g)
    (hstored : ∀ row, a.Stores B.hashToken s.auth row → GrantedRow grants row) :
    Advance B n arrival s { s with auth, grants } := by
  have hframe := authStep_frame h.bound hstep
  have husers : auth.db.users = s.auth.db.users := hframe.users hwrites
  have hgrows : Grows s { s with auth, grants } :=
    ⟨hframe.grows, fun _ hid => removed_mono hstep hid, fun u hu => husers ▸ hu, fun _ h => h,
      fun _ h => h, hsub, List.prefix_refl _, fun _ h => h⟩
  refine ⟨?_, hgrows, fun m hm => hframe.requests m fun heq => hm (hn m heq), fun _ _ _ _ => rfl,
    ?_⟩
  swap
  · rintro x (⟨g, hg, hx⟩ | hold)
    · rcases hshown g hg with hgrant | ⟨hnew, -⟩
      · exact Or.inr (Or.inl ⟨g, hgrant, hx⟩)
      · exact Or.inl (hx.symm.trans hnew)
    · exact Or.inr (Or.inr hold)
  exact {
    auth := h.auth.step hg hstep
    chat := h.chat
    users := h.users.trans husers.symm
    sends := h.sends
    sessions := by
      intro row hrow
      rcases hframe.sessions row hrow with ⟨old, hold, hsame⟩ | hstores
      · obtain ⟨g, hgrant, hid, huser, hhash, hexpires⟩ := h.sessions old hold
        exact ⟨g, hsub g hgrant, hid.trans hsame.id.symm,
          huser.trans (congrArg Uuid.toText hsame.userId.symm), hsame.tokenHash.trans hhash,
          hsame.expiresAt.trans hexpires⟩
      · exact hstored row hstores
    grants := by
      intro g hgrant
      rcases hshown g hgrant with hold | ⟨-, hnew⟩
      · exact (h.grants g hold).mono hgrows
      · exact hnew.mono hgrows
    authorships := fun x hx => (h.authorships x hx).mono hgrows
    emitted := fun e he => (h.emitted e he).mono hgrows
    deliveries := fun d hd => (h.deliveries d hd).mono hgrows }

/-- A step of authentication that stores nothing. -/
theorem Coherent.authenticate (h : Coherent B s) {a : AuthAction} {t : ApiState}
    (hg : Genuine B.jwt s.auth a) (hn : ∀ m, a.request = some m → m = n)
    (hwrites : a.writesUsers = false) (hstores : ∀ row, ¬ a.Stores B.hashToken s.auth row)
    (hstep : s.authenticate B a = some t) : Advance B n arrival s t := by
  obtain ⟨auth, hauth, rfl⟩ := Option.map_eq_some_iff.mp hstep
  exact h.stepAuth hg hn hwrites hauth (fun _ hg => hg) (fun _ hg => Or.inl hg)
    fun row hrow => absurd hrow (hstores row)

/-- A registration. -/
theorem Coherent.register (h : Coherent B s) {id : Uuid} {input : CreateUserInput}
    {now : Int} {user : PostgresUser} {db : AuthDatabase} {auth : AuthState}
    (hcreate : createUser id input now s.auth.db = .ok (user, db))
    (hstep : authStep B.jwt B.hashToken s.auth (.signup n id input now) = some auth) :
    Advance B n arrival s (s.withUsers auth) ∧ auth.db = db ∧
      auth.requests n = some (.authenticated user.id) := by
  have hframe := authStep_frame h.bound hstep
  have hauth : auth =
      AuthState.setRequest { s.auth with db } n (some (.authenticated user.id)) := by
    simp only [authStep, runStatement, hcreate] at hstep
    exact (Option.some.inj hstep).symm
  obtain ⟨row, hid, -, -, -, -, -, -, -, hids, hemails, -, rfl⟩ := createUser_eq_ok.mp hcreate
  have husers : auth.db.users = s.auth.db.users ++ [row] := by rw [hauth]; rfl
  -- the chat sees the row as its own insert would have left it
  have hinsert : messagingSystem.step s.chat (.register row) = some (s.withUsers auth).chat := by
    have hok : insertUser row s.chat.db = .ok ((), { s.chat.db with
        users := s.chat.db.users ++ [row] }) := by
      have hid' : s.chat.db.hasUser row.id = false := by
        rw [Database.hasUser, h.users, List.any_eq_false]
        intro u hu
        simpa [hid] using hids u hu
      have hemail : s.chat.db.users.any (fun u => u.email == row.email) = false := by
        rw [h.users, List.any_eq_false]
        intro u hu
        simpa using hemails u hu
      simp only [insertUser, Tx.bind_eq_ok, Tx.get_eq_ok, constraint_eq_ok, Tx.set_eq_ok]
      exact ⟨_, _, ⟨rfl, rfl⟩, (), _, ⟨hid', rfl⟩, (), _, ⟨hemail, rfl⟩, rfl⟩
    show some _ = some _
    rw [exec_query_ok rfl hok]
    simp only [ApiState.withUsers, husers, h.users]
  have hgrows : Grows s (s.withUsers auth) :=
    ⟨hframe.grows, fun _ hid => removed_mono hstep hid, fun u hu => by
        show u ∈ auth.db.users
        rw [husers]
        exact List.mem_append_left _ hu,
      fun _ h => h, fun _ h => h, fun _ h => h, List.prefix_refl _, fun _ h => h⟩
  refine ⟨⟨?_, hgrows, fun m hm => hframe.requests m fun heq => hm (Option.some.inj heq).symm,
    fun _ _ _ _ => rfl, Set.subset_insert _ _⟩, by rw [hauth]; rfl,
    by rw [hauth]; exact requests_setRequest_self _ _ _⟩
  exact {
    auth := h.auth.step (a := AuthAction.signup n id input now) trivial hstep
    chat := h.chat.step trivial hinsert
    users := rfl
    sends := h.sends
    sessions := by
      intro other hother
      rw [hauth] at hother
      exact h.sessions other hother
    grants := fun g hg => (h.grants g hg).mono hgrows
    authorships := fun x hx => (h.authorships x hx).mono hgrows
    emitted := fun e he => (h.emitted e he).mono hgrows
    deliveries := fun d hd => (h.deliveries d hd).mono hgrows }

/-- A call begins. -/
theorem Coherent.begin (h : Coherent B s) {x : Authorship} (hx : Authored B s x) :
    Advance B x.process x.arrival s { s with
      chat := { s.chat with calls := s.chat.calls ++ [⟨x.env, x.input, .checkReceiver⟩] }
      authorships := s.authorships ++ [x] } := by
  have hgrows : Grows s { s with
      chat := { s.chat with calls := s.chat.calls ++ [⟨x.env, x.input, .checkReceiver⟩] }
      authorships := s.authorships ++ [x] } :=
    ⟨.refl _, fun _ h => h, fun _ h => h, fun _ h => h, fun _ h => h, fun _ h => h,
      List.prefix_append _ _, fun _ h => h⟩
  refine ⟨?_, hgrows, fun _ _ => rfl, ?_, ?_⟩
  · exact {
      auth := h.auth
      chat := h.chat.step (a := MessagingAction.send x.env x.input) trivial rfl
      users := h.users
      sends := by
        show List.map _ (s.chat.calls ++ [_]) = List.map _ (s.authorships ++ [x])
        rw [List.map_append, List.map_append, ← h.sends]
        rfl
      sessions := h.sessions
      grants := fun g hg => (h.grants g hg).mono hgrows
      authorships := by
        intro y hy
        rcases List.mem_append.mp hy with hy | hy
        · exact (h.authorships y hy).mono hgrows
        · obtain rfl := List.mem_singleton.mp hy
          exact hx.mono hgrows
      emitted := fun e he => (h.emitted e he).mono hgrows
      deliveries := fun d hd => (h.deliveries d hd).mono hgrows }
  · -- the calls that had begun are where they were
    intro k y hk _
    have hlt : k < s.chat.calls.length := by
      rw [h.length_calls]
      exact (List.getElem?_eq_some_iff.mp hk).1
    exact List.getElem?_append_left hlt
  · rintro z (hold | ⟨y, hy, hz⟩ | hold)
    · exact Or.inr (Or.inl hold)
    · rcases List.mem_append.mp hy with hy | hy
      · exact Or.inr (Or.inr (Or.inl ⟨y, hy, hz⟩))
      · obtain rfl := List.mem_singleton.mp hy
        exact Or.inl hz.symm
    · exact Or.inr (Or.inr (Or.inr hold))

/-- A call proceeds; what it has emitted is a message that is stored. -/
theorem Coherent.proceed (h : Coherent B s) {k : ℕ} {call : SendCall} {x : Authorship}
    (hk : s.chat.calls[k]? = some call) (hx : s.authorships[k]? = some x) (hn : x.process = n)
    {phase : SendPhase} {db : Database} (hstep : call.proceed s.chat.db = some (phase, db))
    {emitted : List RoomEvent} (hsub : ∀ e ∈ s.emitted, e ∈ emitted)
    (hnew : ∀ e ∈ emitted, e ∈ s.emitted ∨ e.call = k ∧
      e.room = getUserRoomName x.input.receiverId ∧ outcome call s.chat.db = some (.ok e.message)) :
    Advance B n arrival s
      { s with chat := ⟨db, s.chat.calls.set k { call with phase }⟩, emitted } := by
  have hattributed := h.attributed
  have hresolved := hattributed.resolved call (List.mem_of_getElem? hk)
  have heffect := call.proceed_effect hattributed.wellFormed hresolved hstep
  have husers := proceed_users hattributed.wellFormed hresolved hstep
  obtain ⟨y, hy, henv, hinput⟩ := h.getElem?_calls hk
  obtain rfl := Option.some.inj (hx.symm.trans hy)
  have hmessages : ∀ m ∈ s.chat.db.messages, m ∈ db.messages := by
    intro m hm
    rcases heffect.messages with heq | ⟨_, _, row, -, -, -, heq⟩
    · rw [heq]
      exact hm
    · rw [heq]
      exact List.mem_append_left _ hm
  have hgrows : Grows s { s with chat := ⟨db, s.chat.calls.set k { call with phase }⟩, emitted } :=
    ⟨.refl _, fun _ h => h, fun _ h => h, heffect.conversations, hmessages, fun _ h => h,
      List.prefix_refl _, hsub⟩
  have hproceed : messagingSystem.step s.chat (.proceed k) =
      some ⟨db, s.chat.calls.set k { call with phase }⟩ := by
    show (s.chat.calls[k]?.bind _) = _
    rw [hk, Option.bind_some, hstep]
    rfl
  refine ⟨?_, hgrows, fun _ _ => rfl, ?_, Set.subset_insert _ _⟩
  · exact {
      auth := h.auth
      chat := h.chat.step trivial hproceed
      users := husers.trans h.users
      sends := (MessagingState.sends_set hk phase db).trans h.sends
      sessions := h.sessions
      grants := fun g hg => (h.grants g hg).mono hgrows
      authorships := fun y hy => (h.authorships y hy).mono hgrows
      emitted := by
        intro e he
        rcases hnew e he with hold | ⟨rfl, hroom, hreturned⟩
        · exact (h.emitted e hold).mono hgrows
        · obtain ⟨u, v, row, hsent, hin, hrow, -, hmessage⟩ :=
            proceed_returned hresolved hstep hreturned
          refine ⟨x, hx, hroom, u, v, row, hrow, ?_, hin, ?_⟩
          · rw [henv, hinput]
            exact hsent
          · rw [hinput]
            exact hmessage
      deliveries := fun d hd => (h.deliveries d hd).mono hgrows }
  · intro j z hj hz
    have hne : k ≠ j := by
      rintro rfl
      rw [hx] at hj
      obtain rfl := Option.some.inj hj
      exact hz hn
    exact List.getElem?_set_ne hne

/-- An event reaches a socket. -/
theorem Coherent.receive (h : Coherent B s) {d : Delivery} (hd : Delivered s d) :
    Advance B d.process d.arrival s { s with deliveries := d :: s.deliveries } := by
  have hgrows : Grows s { s with deliveries := d :: s.deliveries } :=
    ⟨.refl _, fun _ h => h, fun _ h => h, fun _ h => h, fun _ h => h, fun _ h => h,
      List.prefix_refl _, fun _ h => h⟩
  refine ⟨?_, hgrows, fun _ _ => rfl, fun _ _ _ _ => rfl, ?_⟩
  · exact {
      auth := h.auth
      chat := h.chat
      users := h.users
      sends := h.sends
      sessions := h.sessions
      grants := fun g hg => (h.grants g hg).mono hgrows
      authorships := fun x hx => (h.authorships x hx).mono hgrows
      emitted := fun e he => (h.emitted e he).mono hgrows
      deliveries := by
        intro e he
        rcases List.mem_cons.mp he with rfl | he
        · exact hd.mono hgrows
        · exact (h.deliveries e he).mono hgrows }
  · rintro x (hold | hold | ⟨e, he, hx⟩)
    · exact Or.inr (Or.inl hold)
    · exact Or.inr (Or.inr (Or.inl hold))
    · rcases List.mem_cons.mp he with rfl | he
      · exact Or.inl hx.symm
      · exact Or.inr (Or.inr (Or.inr ⟨e, he, hx⟩))

end Steps

end MernChat.Api
