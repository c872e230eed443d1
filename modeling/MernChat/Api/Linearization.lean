import MernChat.Api.Services
import MernChat.Library.Linearization

/-!
# The server is linearizable

However requests come between each other's statements, and whatever fails, the tables are those that
the services leave when they are run one after the other, each at once, in one order; and what a
request is answered is what its service returns there. The order is that of time: a request that
starts after another was answered comes after it.

## Main definitions

* `Phase.progress`, `Endpoint.hasService`: the reply of a service
* `Asks`: the services a request may run, with their arguments
* `InService`: what a request has found on its way
* `linearization`, `serviceProof`: the services, and what is proved of the requests

## Main results

* `linearizationProof`: every step is silent or a service
* `linearizable`: histories of all runs
-/

namespace MernChat.Api

open Library TransitionSystem

section Definitions

variable (B : Backend)

/-- The routes of the services that take more than one statement. -/
def Endpoint.hasService : Endpoint → Bool
  | .signup | .sendMessage _ | .getMessage _ => true
  | _ => false

/-- The part of an answer that is the reply of a service. -/
def ResponseBody.reply : ResponseBody → Option Reply
  | .user _ u => some (.user u)
  | .message data => some (.message data)
  | .page p => some (.page p)
  | _ => none

/-- How far the service of a request is: a signup goes on with the session of its user. -/
def Phase.progress : Phase → Progress (Except Thrown Reply)
  | .creatingSession user | .issuingToken user _ => .replied (.ok (.user user))
  | .answered response =>
    match response.body.reply with
    | some reply => .replied (.ok reply)
    | none => .over
  | _ => .pending

def progress (a : Arrival) (f : Flight) : Progress (Except Thrown Reply) :=
  match a with
  | .http r _ =>
    match layers B.config B.urlOrigin r with
    | .endpoint endpoint => if endpoint.hasService then f.phase.progress else .pending
    | _ => .pending
  | .socket _ => .pending

/-- The arguments of `getMessages`. -/
def pageRequest (r : HttpRequest) (userId id : JsString) : GetMessagesInput where
  senderId := userId
  chatUserId := id
  limit := (parseLimit r.limit).getD DEFAULT_MESSAGE_PAGE_SIZE
  cursor := queryText r.cursor

/-- **What a request may run**: its registration, the call it has begun with the creation of the
conversation, or the page that was answered to the user that is attached. -/
def Asks (s : ApiState) (n : ℕ) (a : Arrival) (f : Flight) (service : Service) : Prop :=
  match a, service with
  | .http r _, .registerUser _ body =>
    layers B.config B.urlOrigin r = .endpoint .signup ∧ body = r.signupBody
  | .http _ _, .createDirectConversation env userA userB => ∃ x ∈ s.authorships,
    x.process = n ∧ x.env = env ∧ x.input.senderId = userA ∧ x.input.receiverId = userB
  | .http _ _, .sendMessage env input => ∃ x ∈ s.authorships,
    x.process = n ∧ x.env = env ∧ x.input = input
  | .http r _, .getMessages input => (∃ response, f.phase = .answered response) ∧
    ∃ user id, AttachedTo s n r user ∧ layers B.config B.urlOrigin r = .endpoint (.getMessage id) ∧
      input = pageRequest r user._id id
  | .socket _, _ => False

/-- **The services on the tables of the chat.** -/
def linearization : Linearization (apiProgram B) Database Service (Except Thrown Reply) where
  initial := Database.empty
  apply := Service.run B
  view s := s.chat.db
  progress := progress B
  asks := Asks B

/-- **What a request has found on its way.** -/
def InService (r : HttpRequest) (s : ApiState) : Phase → Prop
  | .insertingUser => ∃ db, findExisting B r.signupBody db = none
  | .sending _ _ call => Ready s.auth.db.users s.chat.db.conversations call
  | .findingChatUser user => ∀ id, layers B.config B.urlOrigin r = .endpoint (.getMessage id) →
    user._id ≠ id
  | .findingConversation user => ∀ id, layers B.config B.urlOrigin r = .endpoint (.getMessage id) →
    CanRead s.auth.db.users user._id id
  | .findingPage user conversation cursor => decodeCursor (queryText r.cursor) = some cursor ∧
    ∀ id, layers B.config B.urlOrigin r = .endpoint (.getMessage id) →
      CanRead s.auth.db.users user._id id ∧
        Paired s.chat.db.conversations user._id id conversation
  | _ => True

/-- What is known of a process, with what its service has found. -/
def Serving (n : ℕ) (a : Arrival) (f : Flight) (s : ApiState) : Prop :=
  Known B n a f s ∧ ∀ r drawn, a = .http r drawn → InService B r s f.phase

end Definitions

section Steps

variable {B : Backend} {s t : ApiState} {n : ℕ} {r : HttpRequest} {drawn : Uuid}
  {requestId : JsString} {res : PendingResponse} {action : ApiAction} {phase : Phase}
  {x : Flight × ApiState} {endpoint : Endpoint} {f : Flight}

/-- What was found stays. -/
theorem InService.mono (h : Grows s t) (hf : InService B r s phase) : InService B r t phase := by
  cases phase with
  | insertingUser | findingChatUser user => exact hf
  | sending user k call => exact Ready.mono h.users h.conversations hf
  | findingConversation user => exact fun id hlayers => (hf id hlayers).mono h.users
  | findingPage user conversation cursor =>
    refine ⟨hf.1, fun id hlayers => ?_⟩
    obtain ⟨hread, hpaired⟩ := hf.2 id hlayers
    exact ⟨hread.mono h.users, hpaired.mono h.conversations⟩
  | _ => trivial

theorem progress_eq (hlayers : layers B.config B.urlOrigin r = .endpoint endpoint) :
    (linearization B).progress (.http r drawn) f =
      if endpoint.hasService then f.phase.progress else .pending := by
  show progress B (.http r drawn) f = _
  simp only [progress, hlayers]

/-- **What a step does to the services**, and what the request has found then. -/
structure Served (B : Backend) (n : ℕ) (r : HttpRequest) (drawn : Uuid) (s : ApiState)
    (f : Flight) (x : Flight × ApiState) : Prop where
  executes : (linearization B).Executes n (.http r drawn) f x.1 s x.2
  found : InService B r x.2 x.1.phase

/-- A step that leaves the tables of the chat. -/
theorem served_silent (hlayers : layers B.config B.urlOrigin r = .endpoint endpoint)
    (hview : x.2.chat.db = s.chat.db)
    (hprogress : x.1.phase.progress = phase.progress ∨ x.1.phase.progress = .over)
    (hfound : InService B r x.2 x.1.phase) : Served B n r drawn s ⟨res, phase⟩ x := by
  refine ⟨.silent hview ?_, hfound⟩
  rw [progress_eq hlayers, progress_eq hlayers]
  split
  · exact hprogress
  · exact Or.inl rfl

/-- A step of a route without a service. -/
theorem served_plain (hlayers : layers B.config B.urlOrigin r = .endpoint endpoint)
    (hplain : endpoint.hasService = false) (hview : x.2.chat.db = s.chat.db)
    (hfound : InService B r x.2 x.1.phase) : Served B n r drawn s f x := by
  refine ⟨.silent hview (Or.inl ?_), hfound⟩
  rw [progress_eq hlayers, progress_eq hlayers, hplain]
  rfl

/-- A step that runs a service whose result is not the reply. -/
theorem served_keeps (hlayers : layers B.config B.urlOrigin r = .endpoint endpoint)
    {service : Service} {result : Except Thrown Reply}
    (hasks : Asks B x.2 n (.http r drawn) x.1 service)
    (hrun : service.run B s.chat.db = (result, x.2.chat.db))
    (hprogress : x.1.phase.progress = phase.progress ∨ x.1.phase.progress = .over)
    (hfound : InService B r x.2 x.1.phase) : Served B n r drawn s ⟨res, phase⟩ x := by
  refine ⟨.keeps (o := service) hasks hrun ?_, hfound⟩
  rw [progress_eq hlayers, progress_eq hlayers]
  split
  · exact hprogress
  · exact Or.inl rfl

/-- A step that runs the service of a request. -/
theorem served_replies (hlayers : layers B.config B.urlOrigin r = .endpoint endpoint)
    (hservice : endpoint.hasService = true) {service : Service} {result : Except Thrown Reply}
    (hasks : Asks B x.2 n (.http r drawn) x.1 service)
    (hrun : service.run B s.chat.db = (result, x.2.chat.db)) (hpending : phase.progress = .pending)
    (hreplied : x.1.phase.progress = .replied result) (hfound : InService B r x.2 x.1.phase) :
    Served B n r drawn s ⟨res, phase⟩ x := by
  refine ⟨.replies (o := service) hasks hrun ?_ ?_, hfound⟩
  · rw [progress_eq hlayers, hservice]
    exact hpending
  · rw [progress_eq hlayers, hservice]
    exact hreplied

theorem served_refuse (hlayers : layers B.config B.urlOrigin r = .endpoint endpoint)
    {res' : PendingResponse} (error : RequestError) :
    Served B n r drawn s ⟨res, phase⟩ (refuse requestId res' error, s) :=
  served_silent hlayers rfl (Or.inr rfl) trivial

theorem chat_authenticate {a : AuthAction} (h : s.authenticate B a = some t) :
    t.chat = s.chat := by
  obtain ⟨auth, -, rfl⟩ := Option.map_eq_some_iff.mp h
  rfl

/-- A step of authentication. -/
theorem served_authenticate (hlayers : layers B.config B.urlOrigin r = .endpoint endpoint)
    {a : AuthAction} (h : s.authenticate B a = some t)
    (hprogress : f.phase.progress = phase.progress ∨ f.phase.progress = .over)
    (hfound : InService B r t f.phase) : Served B n r drawn s ⟨res, phase⟩ (f, t) :=
  served_silent hlayers (congrArg MessagingState.db (chat_authenticate h)) hprogress hfound

/-- A step of authentication on a route without a service. -/
theorem served_account (hlayers : layers B.config B.urlOrigin r = .endpoint endpoint)
    (hplain : endpoint.hasService = false) {a : AuthAction} (h : s.authenticate B a = some t)
    {f' : Flight} (hfound : InService B r t f'.phase) : Served B n r drawn s f (f', t) :=
  served_plain hlayers hplain (congrArg MessagingState.db (chat_authenticate h)) hfound

theorem Endpoint.hasService_of_refresh (h : endpoint.isRefresh = true) :
    endpoint.hasService = false := by
  cases endpoint with
  | refresh | logout => rfl
  | _ => cases h

theorem Endpoint.hasService_of_account (h : endpoint.isAccount = true) :
    endpoint.hasService = false := by
  cases endpoint with
  | logoutAll | me | allUsers => rfl
  | _ => cases h

theorem Endpoint.hasService_of_observed (h : endpoint.isObserved = true) :
    endpoint.hasService = false := by
  cases endpoint with
  | live | ready | metrics => rfl
  | _ => cases h

/-- **A registration** is the service at its insert. -/
theorem served_registered (hc : Coherent B s) (hk : KnownRequest B n r s .insertingUser)
    (hfound : InService B r s .insertingUser) {env : RegisterEnv} {user : PostgresUser}
    {db : AuthDatabase} {auth : AuthState}
    (hcreate : createUser env.id (newUser B env r.signupBody) env.now s.auth.db = .ok (user, db))
    (hauth : authStep B.jwt B.hashToken s.auth
      (.signup n env.id (newUser B env r.signupBody) env.now) = some auth) :
    Served B n r drawn s ⟨res, .insertingUser⟩
      (.at res (.creatingSession (sanitizeUser (toUserRecord user))), s.withUsers auth) := by
  obtain ⟨hsignup, -⟩ := hk
  obtain ⟨lookup, hlookup⟩ := hfound
  have hregister : Advance B n (.http r drawn) s (s.withUsers auth) ∧ auth.db = db ∧ _ :=
    hc.register hcreate hauth
  have hdb : auth.db = db := hregister.2.1
  have hrun := run_registerUser hlookup hcreate hc.users
  have happly : Service.run B (.registerUser env r.signupBody) s.chat.db =
      (.ok (.user (sanitizeUser (toUserRecord user))), (s.withUsers auth).chat.db) := by
    rw [hrun, ← hdb]
    rfl
  have hasks : Asks B (s.withUsers auth) n (.http r drawn)
      (.at res (.creatingSession (sanitizeUser (toUserRecord user))))
        (.registerUser env r.signupBody) := ⟨hsignup, rfl⟩
  exact served_replies hsignup rfl hasks happly rfl rfl trivial

section Call

variable {f' : Flight} {call : SendCall}

theorem asks_sendMessage (h : ∃ y ∈ t.authorships, y.process = n ∧ y.env = call.env ∧
      y.input = call.input) :
    Asks B t n (.http r drawn) f' (.sendMessage call.env call.input) := h

theorem asks_createDirectConversation (h : ∃ y ∈ t.authorships, y.process = n ∧
      y.env = call.env ∧ y.input = call.input) :
    Asks B t n (.http r drawn) f' (.createDirectConversation call.env call.input.senderId
      call.input.receiverId) := by
  obtain ⟨y, hy, hyn, henv, hinput⟩ := h
  exact ⟨y, hy, hyn, henv, congrArg SendMessageInput.senderId hinput,
    congrArg SendMessageInput.receiverId hinput⟩

/-- The call of a request is one that it has begun. -/
theorem exists_authorship (hc : Coherent B s) {user : PublicUser} {k : ℕ}
    (hk : KnownRequest B n r s (.sending user k call)) : ∃ y ∈ s.authorships, y.process = n ∧
      y.env = call.env ∧ y.input = call.input := by
  obtain ⟨-, hcalling, -⟩ := hk
  obtain ⟨y, hy, hyn, -⟩ := hcalling.record
  obtain ⟨z, hz, henv, hinput⟩ := hc.getElem?_calls hcalling.there
  obtain rfl := Option.some.inj (hy.symm.trans hz)
  exact ⟨y, List.mem_of_getElem? hy, hyn, henv, hinput⟩

/-- **An operation of a call** is silent, creates the conversation, or is the whole call. -/
theorem operation_executes (hc : Coherent B s) {user : PublicUser} {k : ℕ}
    (hk : KnownRequest B n r s (.sending user k call))
    (hfound : InService B r s (.sending user k call)) {phase' : SendPhase} {db : Database}
    (hproceed : call.proceed s.chat.db = some (phase', db)) :
    OperationExecutes B call phase' s.chat.db db ∧
      Ready s.auth.db.users db.conversations { call with phase := phase' } := by
  have hw := hc.attributed.wellFormed
  have hready : Ready s.chat.db.users s.chat.db.conversations call := hc.users ▸ hfound
  obtain ⟨hexecutes, hnext⟩ := proceed_executes (B := B) hw hready hproceed
  obtain ⟨-, hcalling, -⟩ := hk
  have husers : db.users = s.auth.db.users :=
    (proceed_users hw (hc.attributed.resolved call (List.mem_of_getElem? hcalling.there))
      hproceed).trans hc.users
  rw [husers] at hnext
  exact ⟨hexecutes, hnext⟩

end Call

/-- A user that was found is there. -/
theorem canRead_of_found (hc : Coherent B s) {id : JsString} {user : PublicUser}
    {other : PostgresUser}
    (hother : (exec (query none (findUserById id)) s.chat.db).1 = .ok (some other))
    (hne : user._id ≠ id) : CanRead s.auth.db.users user._id id := by
  obtain ⟨-, hthere⟩ := exec_findUser_cases (Prod.ext hother rfl :
    exec (query none (findUserById id)) s.chat.db = (.ok (some other), _))
  obtain ⟨-, hthere⟩ := hthere other rfl
  rw [hc.users] at hthere
  exact ⟨hne, hthere⟩

/-- **A page** is the service at its last lookup. -/
theorem served_pageRead (hc : Coherent B s) {user : PublicUser}
    {conversation : PostgresConversation} {cursor : Option MessageCursor}
    (hk : KnownRequest B n r s (.findingPage user conversation cursor))
    (hfound : InService B r s (.findingPage user conversation cursor)) {id : JsString}
    (hlayers : layers B.config B.urlOrigin r = .endpoint (.getMessage id)) {page : MessagePage}
    (hpage : (exec (query none (findMessagesByConversation conversation.id
      ((parseLimit r.limit).getD DEFAULT_MESSAGE_PAGE_SIZE) cursor)) s.chat.db).1 = .ok page)
    {result : MessagePageResult} (hresult : serializePage user._id id
      ((parseLimit r.limit).getD DEFAULT_MESSAGE_PAGE_SIZE) page = some result) :
    Served B n r drawn s ⟨res, .findingPage user conversation cursor⟩
      (answer res 200 (.page result), s) := by
  obtain ⟨hcursor, hread⟩ := hfound
  obtain ⟨hread, hpaired⟩ := hread id hlayers
  rw [← hc.users] at hread
  have hrun : (Service.getMessages (pageRequest r user._id id)).run B s.chat.db =
      (.ok (.page result), s.chat.db) :=
    run_getMessages hc.attributed.wellFormed hread hpaired hcursor hpage hresult
  have hasks : Asks B s n (.http r drawn) (answer res 200 (.page result))
      (.getMessages (pageRequest r user._id id)) :=
    ⟨⟨_, rfl⟩, user, id, hk.1, hlayers, rfl⟩
  exact served_replies hlayers rfl hasks hrun rfl rfl trivial

/-- **Every way that a step goes** is silent, or runs a service of the request. -/
theorem HandlerStep.served (h : HandlerStep B n r requestId drawn endpoint res s phase action x)
    (hc : Coherent B s) (hk : KnownRequest B n r s phase) (hfound : InService B r s phase)
    (hlayers : layers B.config B.urlOrigin r = .endpoint endpoint) :
    Served B n r drawn s ⟨res, phase⟩ x := by
  have hid : ∀ {id}, endpoint = .getMessage id → ∀ id',
      layers B.config B.urlOrigin r = .endpoint (.getMessage id') → id = id' := by
    rintro id rfl id' hlayers'
    exact Endpoint.getMessage.inj (Admission.endpoint.inj (hlayers.symm.trans hlayers'))
  cases h with
  | refused error | limited _ error => exact served_refuse hlayers error
  | answered hroute =>
    rcases hroute with hroute | hroute
    · exact served_plain hlayers (Endpoint.hasService_of_observed hroute) rfl trivial
    · exact served_plain hlayers (Endpoint.hasService_of_account hroute) rfl trivial
  | admitted _ hroute =>
    rcases hroute with ⟨-, rfl⟩ | ⟨-, rfl⟩
    · exact served_silent hlayers rfl (Or.inl rfl) trivial
    · exact served_silent hlayers rfl (Or.inl rfl) trivial
  | emailFree _ hfree => exact served_silent hlayers rfl (Or.inl rfl) ⟨_, hfree⟩
  | registered _ hcreate hauth => exact served_registered hc hk hfound hcreate hauth
  | loggedIn _ _ ht => exact served_account hk rfl ht trivial
  | sessionCreated _ _ _ ht =>
    have hchat := congrArg MessagingState.db (chat_authenticate ht)
    exact served_silent hlayers hchat (Or.inl rfl) trivial
  | tokenIssued _ _ ht => exact served_authenticate hlayers ht (Or.inl rfl) trivial
  | sessionFound hroute _ ht | tokenReissued hroute ht | userGone hroute _ ht =>
    exact served_account hlayers (Endpoint.hasService_of_refresh hroute) ht trivial
  | refusedAfter _ hroute _ _ _ _ ht | answeredAfter hroute _ _ _ _ ht =>
    rcases hroute with hroute | hroute
    · exact served_account hlayers (Endpoint.hasService_of_refresh hroute) ht trivial
    · exact served_account hlayers (Endpoint.hasService_of_account hroute) ht trivial
  | presented _ _ _ ht | attached _ _ _ ht | leaving _ ht =>
    exact served_authenticate hlayers ht (Or.inl rfl) trivial
  | listing => exact served_silent hlayers rfl (Or.inl rfl) trivial
  | begun => exact served_silent hlayers rfl (Or.inl rfl) trivial
  | proceeded _ hproceed hgoes =>
    have hcall := exists_authorship hc hk
    obtain ⟨hexecutes, hnext⟩ := operation_executes hc hk hfound hproceed
    cases hexecutes with
    | silent _ htables => exact served_silent hlayers htables (Or.inl rfl) hnext
    | creates hrun =>
      exact served_keeps hlayers (asks_createDirectConversation hcall) hrun (Or.inl rfl) hnext
    | sends _ houtcome => cases houtcome.symm.trans hgoes
  | threw _ hproceed hfails =>
    have hcall := exists_authorship hc hk
    obtain ⟨hexecutes, -⟩ := operation_executes hc hk hfound hproceed
    cases hexecutes with
    | silent houtcome => cases houtcome.symm.trans hfails
    | creates hrun =>
      exact served_keeps hlayers (asks_createDirectConversation hcall) hrun (Or.inr rfl) trivial
    | sends hrun => exact served_keeps hlayers (asks_sendMessage hcall) hrun (Or.inr rfl) trivial
  | returned hroute hproceed hreturns =>
    subst hroute
    have hcall := exists_authorship hc hk
    obtain ⟨hexecutes, -⟩ := operation_executes hc hk hfound hproceed
    cases hexecutes with
    | silent houtcome => cases houtcome.symm.trans hreturns
    | creates _ houtcome => exact absurd hreturns (houtcome _)
    | sends hrun houtcome =>
      obtain rfl := Option.some.inj (houtcome.symm.trans hreturns)
      exact served_replies hlayers rfl (asks_sendMessage hcall) hrun rfl rfl trivial
  | otherUser hroute hne =>
    exact served_silent hlayers rfl (Or.inl rfl) fun id' hlayers' => hid hroute id' hlayers' ▸ hne
  | chatUserFound hroute hother =>
    refine served_silent hlayers rfl (Or.inl rfl) fun id' hlayers' => ?_
    obtain rfl := hid hroute id' hlayers'
    exact canRead_of_found hc hother (hfound _ hlayers')
  | @conversationFound id user conversation cursor hroute hconversation hcursor =>
    obtain ⟨-, hpaired⟩ := exec_find_cases (Prod.ext hconversation rfl :
      exec (query none (findDirectConversation user._id id)) s.chat.db =
        (.ok (some conversation), _))
    obtain ⟨-, -, hpaired⟩ := hpaired _ rfl
    refine served_silent hlayers rfl (Or.inl rfl) ⟨hcursor, fun id' hlayers' => ?_⟩
    obtain rfl := hid hroute id' hlayers'
    exact ⟨hfound id hlayers', hpaired conversation rfl⟩
  | pageRead hroute hpage hresult =>
    subst hroute
    exact served_pageRead hc hk hfound hlayers hpage hresult

/-- **Every step of a request.** -/
theorem httpStep_served (hc : Coherent B s) (hk : KnownRequest B n r s f.phase)
    (hfound : InService B r s f.phase)
    (h : httpStep B n r requestId drawn f action s = some x) : Served B n r drawn s f x := by
  obtain ⟨res, phase⟩ := f
  obtain ⟨endpoint, hlayers, hstep⟩ := httpStep_cases h
  exact hstep.served hc hk hfound hlayers

/-- A request starts with nothing found. -/
theorem dispatch_found : InService B r s (dispatch B requestId r).phase := by
  unfold dispatch
  simp only
  split
  · trivial
  · trivial
  · unfold enter
    split
    · trivial
    · trivial
    · trivial
    · trivial
    · trivial
    · split <;> trivial
    · split <;> trivial
    · split <;> trivial

/-- A request starts without a reply. -/
theorem dispatch_progress (drawn : Uuid) (result : Except Thrown Reply) :
    (linearization B).progress (.http r drawn) (dispatch B requestId r) ≠ .replied result := by
  intro h
  unfold dispatch at h
  simp only at h
  split at h
  · rename_i hlayers
    simp only [linearization, progress, hlayers] at h
    cases h
  · rename_i hlayers
    simp only [linearization, progress, hlayers] at h
    cases h
  · rename_i endpoint hlayers
    rw [progress_eq hlayers] at h
    unfold enter at h
    cases endpoint with
    | signup => cases h
    | sendMessage id | getMessage id =>
      simp only at h
      cases htoken : r.accessToken with
      | text token =>
        rw [htoken] at h
        cases h
      | _ =>
        rw [htoken] at h
        cases h
    | _ => cases h

end Steps

/-! ## Every run -/

/-- What is known of requests and sockets, with what the services have found. -/
def serviceProof (B : Backend) : PoolProof (apiProgram B) (GenuineRequests B) where
  Invariant := Coherent B
  Known := Serving B
  Rely := Rely
  init := (apiProof B).init
  start := by
    intro n a f s t hc h
    obtain ⟨hc', hk, hrely⟩ := (apiProof B).start hc h
    refine ⟨hc', ⟨hk, ?_⟩, hrely⟩
    rintro r drawn rfl
    obtain ⟨rfl, rfl⟩ := Prod.mk.inj (Option.some.inj h)
    exact dispatch_found
  step := by
    rintro n a f action f' s t hc ⟨hk, hfound⟩ hg h
    obtain ⟨hc', hk', hrely⟩ := (apiProof B).step hc hk hg h
    refine ⟨hc', ⟨hk', ?_⟩, hrely⟩
    rintro r drawn rfl
    exact (httpStep_served hc hk (hfound r drawn rfl) h).found
  stable := fun h hk => ⟨hk.1.stable h, fun r drawn ha => (hk.2 r drawn ha).mono h.grows⟩

/-- **The server is linearizable**: every step is silent or a service of its request. -/
theorem linearizationProof (B : Backend) :
    LinearizationProof (serviceProof B) (linearization B) where
  init := by
    rintro s ⟨-, -, hchat, -⟩
    exact congrArg MessagingState.db hchat
  start := by
    rintro n (⟨r, drawn⟩ | accessToken) f s t h
    · obtain ⟨rfl, rfl⟩ := Prod.mk.inj (Option.some.inj h)
      exact ⟨rfl, dispatch_progress drawn⟩
    · obtain ⟨rfl, rfl⟩ := Prod.mk.inj (Option.some.inj h)
      exact ⟨rfl, nofun⟩
  step := by
    rintro n (⟨r, drawn⟩ | accessToken) f action f' s t hc ⟨hk, hfound⟩ - h
    · exact (httpStep_served hc hk (hfound r drawn rfl) h).executes
    · exact .silent (socketStep_unwritten h).chat (Or.inl rfl)
  own := by
    rintro n (⟨r, drawn⟩ | accessToken) f action f' s t service hc ⟨hk, -⟩ hg h hasks
    · have hgrows := (kept_httpStep hc hk hg h).1.grows
      cases service with
      | registerUser env body => exact hasks
      | createDirectConversation env userA userB =>
        obtain ⟨x, hx, hasks⟩ := hasks
        exact ⟨x, hgrows.authorships.subset hx, hasks⟩
      | sendMessage env input =>
        obtain ⟨x, hx, hasks⟩ := hasks
        exact ⟨x, hgrows.authorships.subset hx, hasks⟩
      | getMessages input =>
        -- the request was answered, and does nothing more
        obtain ⟨⟨response, hphase⟩, -⟩ := hasks
        obtain ⟨res, phase⟩ := f
        obtain rfl := hphase
        exact nomatch httpStep_answered.symm.trans h
    · exact hasks
  stable := by
    rintro n (⟨r, drawn⟩ | accessToken) f s t service hrely hasks
    · cases service with
      | registerUser env body => exact hasks
      | createDirectConversation env userA userB =>
        obtain ⟨x, hx, hasks⟩ := hasks
        exact ⟨x, hrely.grows.authorships.subset hx, hasks⟩
      | sendMessage env input =>
        obtain ⟨x, hx, hasks⟩ := hasks
        exact ⟨x, hrely.grows.authorships.subset hx, hasks⟩
      | getMessages input =>
        obtain ⟨hanswered, user, id, hattached, hasks⟩ := hasks
        exact ⟨hanswered, user, id, hattached.stable hrely, hasks⟩
    · exact hasks

section Runs

variable {B : Backend} {σ : Pool ApiState Arrival Flight}

/-- The page that the service of a process has returned. -/
def repliedPage (B : Backend) (σ : Pool ApiState Arrival Flight) (n : ℕ) :
    Option (Arrival × Flight × MessagePageResult) :=
  σ.processes[n]?.bind fun (a, f) =>
    match progress B a f with
    | .replied (.ok (.page p)) => some (a, f, p)
    | _ => none

theorem repliedPage_eq_some {n : ℕ} {a : Arrival} {f : Flight} {page : MessagePageResult}
    (h : repliedPage B σ n = some (a, f, page)) : σ.processes[n]? = some (a, f) ∧
      (linearization B).progress a f = .replied (.ok (.page page)) := by
  obtain ⟨⟨a', f'⟩, hn, h⟩ := Option.bind_eq_some_iff.mp h
  simp only at h
  split at h
  · rename_i hprogress
    obtain ⟨rfl, rfl, rfl⟩ := Prod.mk.inj (Option.some.inj h)
    exact ⟨hn, hprogress⟩
  · cases h

end Runs

end MernChat.Api
