import MernChat.Api.Sends

/-!
# The services, each at once

The services that take more than one statement, run without any other statement in between. A call
that others have come between still ends as it would have at its last statement, alone: the users
and the conversations that it has found stay, and nothing else it has seen matters. What it has left
behind on the way is a conversation.

## Main definitions

* `Service`, `Reply`, `Service.run`: the services, and what they return
* `Paired`: the conversation of a pair of users
* `Ready`: what a call of `sendMessage` has found on its way
* `CanRead`: what a call of `getMessages` has found on its way

## Main results

* `proceed_executes`: every operation of a call of `sendMessage`
* `run_getMessages`, `run_registerUser`: the last statements of the others
-/

namespace MernChat.Api

open Library

/-- The services of more than one statement. The conversation is created within `sendMessage`. -/
inductive Service
  | registerUser (env : RegisterEnv) (body : SignupBody)
  | createDirectConversation (env : SendEnv) (userA userB : JsString)
  | sendMessage (env : SendEnv) (input : SendMessageInput)
  | getMessages (input : GetMessagesInput)

/-- What they return. -/
inductive Reply
  | user (user : PublicUser)
  | conversation (conversation : PostgresConversation)
  | message (message : SerializedMessage)
  | page (page : MessagePageResult)

/-- **The service, alone** on the tables. A registration reads and writes the users. -/
def Service.run (B : Backend) : Service → Database → Except Thrown Reply × Database
  | .registerUser env body, db =>
    (exec (MernChat.registerUser B.bcrypt B.toLowerCase env body) ⟨db.users, []⟩).map
      (Except.map fun user => .user (sanitizeUser user)) fun auth => { db with users := auth.users }
  | .createDirectConversation env userA userB, db =>
    (exec (MernChat.createDirectConversation env userA userB) db).map (Except.map .conversation) id
  | .sendMessage env input, db =>
    (exec (MernChat.sendMessage env input) db).map
      (Except.map fun result => .message result.message) id
  | .getMessages input, db =>
    (exec (MernChat.getMessages input) db).map (Except.map .page) id

/-! ## Conversations that were found -/

/-- The conversation is that of the two users, as their ids are written. -/
def Paired (conversations : List ConversationRow) (userA userB : JsString)
    (conversation : PostgresConversation) : Prop :=
  ∃ c ∈ conversations, conversation = mapConversation c ∧
    ParsedPair userA userB c.memberAId c.memberBId

section Found

variable {db : Database} {x y : JsString} {conversation : PostgresConversation}

theorem Paired.mono {cs cs' : List ConversationRow} (hsub : ∀ c ∈ cs, c ∈ cs')
    (h : Paired cs x y conversation) : Paired cs' x y conversation := by
  obtain ⟨c, hc, h⟩ := h
  exact ⟨c, hsub c hc, h⟩

/-- The pair has no other conversation. -/
theorem Paired.conversationOf (hw : db.WellFormed) (h : Paired db.conversations x y conversation) :
    ∃ c, conversation = mapConversation c ∧ ParsedPair x y c.memberAId c.memberBId ∧
      db.conversationOf c.memberAId c.memberBId = some c := by
  obtain ⟨c, hc, rfl, hpair⟩ := h
  refine ⟨c, rfl, hpair, ?_⟩
  cases hfound : db.conversationOf c.memberAId c.memberBId with
  | none => exact absurd rfl (Database.conversationOf_eq_none.mp hfound c hc)
  | some d =>
    obtain ⟨hd, hA, hB⟩ := Database.conversationOf_eq_some hfound
    rw [eq_of_key hw.pairs hd hc (Prod.ext hA hB)]

/-- A lookup of the conversation of a pair. -/
theorem exec_find_cases {fault : Option (Fault Thrown)} {r : Except Thrown (Option
      PostgresConversation)} {db' : Database}
    (h : exec (query fault (findDirectConversation x y)) db = (r, db')) :
    db' = db ∧ ∀ found, r = .ok found → fault = none ∧ (∃ a b, ParsedPair x y a b) ∧
      ∀ conversation, found = some conversation → Paired db.conversations x y conversation := by
  rcases exec_query h with ⟨found, t, hfault, hx, hq⟩ | ⟨-, e, hq⟩
  · obtain ⟨a, b, ha, hb, rfl, rfl⟩ := selectDirectConversation_eq_ok.mp hx
    obtain ⟨rfl, rfl⟩ := Prod.mk.inj hq
    refine ⟨rfl, ?_⟩
    intro found hr
    obtain rfl := Except.ok.inj hr
    refine ⟨hfault, ⟨a, b, ha, hb⟩, ?_⟩
    intro conversation hfound
    obtain ⟨c, hc, rfl⟩ := Option.map_eq_some_iff.mp hfound
    obtain ⟨hmem, rfl, rfl⟩ := Database.conversationOf_eq_some hc
    exact ⟨c, hmem, rfl, ha, hb⟩
  · obtain ⟨rfl, rfl⟩ := Prod.mk.inj hq
    exact ⟨rfl, fun _ hr => nomatch hr⟩

/-- A lookup of a user by id. -/
theorem exec_findUser_cases {fault : Option (Fault Thrown)} {r : Except Thrown (Option
      PostgresUser)} {db' : Database}
    (h : exec (query fault (findUserById x)) db = (r, db')) :
    db' = db ∧ ∀ user, r = .ok (some user) →
      fault = none ∧ ∃ u ∈ db.users, Uuid.parse x = some u.id := by
  rcases exec_query h with ⟨found, t, hfault, hx, hq⟩ | ⟨-, e, hq⟩
  · obtain ⟨v, hv, rfl, rfl⟩ := findUserById_eq_ok.mp hx
    obtain ⟨rfl, rfl⟩ := Prod.mk.inj hq
    refine ⟨rfl, ?_⟩
    intro user hr
    obtain ⟨u, hu, -⟩ := Option.map_eq_some_iff.mp (Except.ok.inj hr)
    obtain rfl : u.id = v := by simpa using List.find?_some hu
    exact ⟨hfault, u, List.mem_of_find?_eq_some hu, hv⟩
  · obtain ⟨rfl, rfl⟩ := Prod.mk.inj hq
    exact ⟨rfl, fun _ hr => nomatch hr⟩

end Found

/-! ## Calls of `sendMessage` -/

/-- The call has found its receiver, who is not its sender. -/
structure ReceiverFound (users : List UserRow) (env : SendEnv) (input : SendMessageInput) :
    Prop where
  distinct : input.senderId ≠ input.receiverId
  findUserById : env.fault .findUserById = none
  receiver : ∃ u ∈ users, Uuid.parse input.receiverId = some u.id

/-- The call has looked for the conversation. -/
structure LookedUp (users : List UserRow) (env : SendEnv) (input : SendMessageInput) : Prop
    extends ReceiverFound users env input where
  findDirectConversation : env.fault .findDirectConversation = none
  pair : ∃ a b, ParsedPair input.senderId input.receiverId a b

/-- **What a call has found on its way.** -/
def Ready (users : List UserRow) (conversations : List ConversationRow) (call : SendCall) : Prop :=
  match call.phase with
  | .checkReceiver => True
  | .findConversation => ReceiverFound users call.env call.input
  | .createConversation => LookedUp users call.env call.input
  | .storeMessage conversation => LookedUp users call.env call.input ∧
    Paired conversations call.input.senderId call.input.receiverId conversation
  | .ended => True

section Calls

variable {B : Backend} {env : SendEnv} {input : SendMessageInput} {call : SendCall}
  {phase : SendPhase} {db db' : Database} {users users' : List UserRow}
  {conversations conversations' : List ConversationRow}

theorem ReceiverFound.mono (hsub : ∀ u ∈ users, u ∈ users') (h : ReceiverFound users env input) :
    ReceiverFound users' env input := by
  obtain ⟨u, hu, hparse⟩ := h.receiver
  exact ⟨h.distinct, h.findUserById, u, hsub u hu, hparse⟩

theorem LookedUp.mono (hsub : ∀ u ∈ users, u ∈ users') (h : LookedUp users env input) :
    LookedUp users' env input :=
  ⟨h.toReceiverFound.mono hsub, h.findDirectConversation, h.pair⟩

/-- What was found stays. -/
theorem Ready.mono (husers : ∀ u ∈ users, u ∈ users')
    (hconversations : ∀ c ∈ conversations, c ∈ conversations')
    (h : Ready users conversations call) : Ready users' conversations' call := by
  unfold Ready at h ⊢
  split at h
  · trivial
  · exact h.mono husers
  · exact h.mono husers
  · exact ⟨h.1.mono husers, h.2.mono hconversations⟩
  · trivial

theorem LookedUp.checksPass (h : LookedUp db.users env input) : ChecksPass env input db := by
  obtain ⟨v, hv, hparse⟩ := h.receiver
  obtain ⟨a, b, hpair⟩ := h.pair
  refine ⟨h.distinct, h.findUserById, ⟨v.id, hparse, ?_⟩, h.findDirectConversation, ?_⟩
  · exact List.any_eq_true.mpr ⟨v, hv, beq_self_eq_true _⟩
  · rw [parsedPair_iff] at hpair
    split_ifs at hpair
    · exact ⟨a, hpair.1⟩
    · exact ⟨b, hpair.2⟩

/-- The whole call, when its receiver is there, is what is left of it. -/
theorem exec_sendMessage_of_receiver (h : ReceiverFound db.users env input) :
    exec (sendMessage env input) db =
      exec (findOrCreateConversation env input.senderId input.receiverId >>=
        storeAndSerialize env input) db := by
  obtain ⟨u, hu, hparse⟩ := h.receiver
  have hfind : exec (query (env.fault .findUserById) (findUserById input.receiverId)) db =
      (.ok ((db.users.find? fun row => row.id == u.id).map mapUser), db) :=
    exec_query_ok h.findUserById (findUserById_eq_ok.mpr ⟨u.id, hparse, rfl, rfl⟩)
  have hthere : db.hasUser u.id = true := List.any_eq_true.mpr ⟨u, hu, beq_self_eq_true _⟩
  unfold sendMessage
  rw [exec_bind_ok (exec_require_pos h.distinct _ _), exec_bind_ok hfind,
    exec_bind_ok (exec_require_pos (hasUser_iff_find.mpr hthere) _ _)]

/-- The whole call, when its conversation is there, is its last transaction. -/
theorem exec_sendMessage_of_paired (hw : db.WellFormed) (h : LookedUp db.users env input)
    {conversation : PostgresConversation}
    (hpaired : Paired db.conversations input.senderId input.receiverId conversation) :
    exec (sendMessage env input) db = exec (storeAndSerialize env input conversation) db := by
  obtain ⟨c, rfl, hpair, hfound⟩ := hpaired.conversationOf hw
  rw [exec_sendMessage_of_checks h.checksPass, hpair.conversationFor, hfound]

/-- **What an operation of a call is**: it changes nothing, it creates the conversation, or it is
the whole call. -/
inductive OperationExecutes (B : Backend) (call : SendCall) (phase : SendPhase)
    (db db' : Database) : Prop
  | silent (outcome : outcome call db = none) (tables : db' = db)
  | creates {r : Except Thrown Reply}
      (run : (Service.createDirectConversation call.env call.input.senderId
        call.input.receiverId).run B db = (r, db'))
      (outcome : ∀ message, outcome call db ≠ some (.ok message))
  | sends {result : Except Thrown SerializedMessage}
      (run : (Service.sendMessage call.env call.input).run B db = (result.map .message, db'))
      (outcome : outcome call db = some result)

theorem Ends.executes {p : Prog Database Thrown SendMessageResult} (h : Ends call p db db')
    (hp : exec (sendMessage call.env call.input) db = exec p db) :
    OperationExecutes B call phase db db' := by
  refine OperationExecutes.sends ?_ h.outcome
  simp only [Service.run, hp, Prod.map, id, h.tables]
  cases (exec p db).1 <;> rfl

/-- **Every operation of a call.** -/
theorem proceed_executes (hw : db.WellFormed) (hready : Ready db.users db.conversations call)
    (h : call.proceed db = some (phase, db')) :
    OperationExecutes B call phase db db' ∧
      Ready db'.users db'.conversations { call with phase } := by
  obtain ⟨env, input, current⟩ := call
  have hpending : current ≠ .ended := by
    rintro rfl
    cases h
  obtain ⟨p, hp⟩ : ∃ p, restOf ⟨env, input, current⟩ = some p := exists_restOf hpending
  obtain ⟨phase', t, hproceed, hcase⟩ := proceed_rest hp db
  obtain ⟨rfl, rfl⟩ := Prod.mk.inj (Option.some.inj (h.symm.trans hproceed))
  cases current with
  | checkReceiver =>
    obtain rfl := Option.some.inj hp
    rcases hcase with ⟨hends, rfl⟩ | hgoes
    · exact ⟨hends.executes rfl, trivial⟩
    · have houtcome := hgoes.outcome
      simp only [outcome] at houtcome
      split_ifs at houtcome with hsame
      cases hexec : exec (query (env.fault .findUserById) (findUserById input.receiverId)) db with
      | mk found t =>
        simp only [hexec] at houtcome
        split at houtcome
        · rename_i user
          simp only [SendCall.proceed, if_neg hsame, hexec] at h
          obtain ⟨rfl, rfl⟩ := Prod.mk.inj (Option.some.inj h)
          obtain ⟨rfl, hfound⟩ := exec_findUser_cases hexec
          obtain ⟨hfault, hreceiver⟩ := hfound user rfl
          exact ⟨.silent hgoes.outcome rfl, hsame, hfault, hreceiver⟩
        · cases houtcome
        · cases houtcome
  | findConversation =>
    replace hready : ReceiverFound db.users env input := hready
    obtain rfl := Option.some.inj hp
    rcases hcase with ⟨hends, rfl⟩ | hgoes
    · exact ⟨hends.executes (exec_sendMessage_of_receiver hready), trivial⟩
    · have houtcome := hgoes.outcome
      simp only [SendCall.proceed] at h
      split at h
      · rename_i conversation t hexec
        obtain ⟨rfl, rfl⟩ := Prod.mk.inj (Option.some.inj h)
        obtain ⟨rfl, hfound⟩ := exec_find_cases hexec
        obtain ⟨hfault, hpair, hpaired⟩ := hfound _ rfl
        exact ⟨.silent houtcome rfl, ⟨hready, hfault, hpair⟩, hpaired _ rfl⟩
      · rename_i t hexec
        obtain ⟨rfl, rfl⟩ := Prod.mk.inj (Option.some.inj h)
        obtain ⟨rfl, hfound⟩ := exec_find_cases hexec
        obtain ⟨hfault, hpair, -⟩ := hfound _ rfl
        exact ⟨.silent houtcome rfl, hready, hfault, hpair⟩
      · rename_i e t hexec
        simp only [outcome, hexec] at houtcome
        cases houtcome
  | createConversation =>
    replace hready : LookedUp db.users env input := hready
    have husers : db'.users = db.users := proceed_users hw (by simp) h
    simp only [SendCall.proceed] at h
    split at h
    · rename_i conversation t hexec
      obtain ⟨rfl, rfl⟩ := Prod.mk.inj (Option.some.inj h)
      obtain ⟨-, -, hreturned⟩ := exec_createDirectConversation_cases hw hexec
      refine ⟨.creates (r := .ok (.conversation conversation)) ?_ ?_, ?_, hreturned _ rfl⟩
      · simp only [Service.run, hexec]
        rfl
      · simp [outcome, hexec]
      · rw [husers]
        exact hready
    · rename_i e t hexec
      obtain ⟨rfl, rfl⟩ := Prod.mk.inj (Option.some.inj h)
      refine ⟨.creates (r := .error e) ?_ ?_, trivial⟩
      · simp only [Service.run, hexec]
        rfl
      · simp [outcome, hexec]
  | storeMessage conversation =>
    obtain rfl := Option.some.inj hp
    rcases hcase with ⟨hends, rfl⟩ | hgoes
    · exact ⟨hends.executes (exec_sendMessage_of_paired hw hready.1 hready.2), trivial⟩
    · have houtcome := hgoes.outcome
      simp only [outcome] at houtcome
      split at houtcome
      · cases houtcome
      · cases houtcome
  | ended => exact absurd rfl hpending

end Calls

/-! ## Calls of `getMessages` -/

/-- The user may read what it has exchanged with the other one, who is there. -/
structure CanRead (users : List UserRow) (userId id : JsString) : Prop where
  distinct : userId ≠ id
  there : ∃ u ∈ users, Uuid.parse id = some u.id

theorem CanRead.mono {users users' : List UserRow} (hsub : ∀ u ∈ users, u ∈ users')
    {userId id : JsString} (h : CanRead users userId id) : CanRead users' userId id := by
  obtain ⟨u, hu, hparse⟩ := h.there
  exact ⟨h.distinct, u, hsub u hu, hparse⟩

/-- **The last statement of a page** is the whole call. -/
theorem run_getMessages {B : Backend} {db : Database} (hw : db.WellFormed)
    {input : GetMessagesInput} (hread : CanRead db.users input.senderId input.chatUserId)
    {conversation : PostgresConversation}
    (hpaired : Paired db.conversations input.senderId input.chatUserId conversation)
    {cursor : Option MessageCursor} (hcursor : decodeCursor input.cursor = some cursor)
    {page : MessagePage} {result : MessagePageResult}
    (hpage : (exec (query none
      (findMessagesByConversation conversation.id input.limit cursor)) db).1 = .ok page)
    (hresult : serializePage input.senderId input.chatUserId input.limit page = some result) :
    (Service.getMessages input).run B db = (.ok (.page result), db) := by
  obtain ⟨u, hu, hparse⟩ := hread.there
  obtain ⟨c, rfl, hpair, hfound⟩ := hpaired.conversationOf hw
  have hthere : db.hasUser u.id = true := List.any_eq_true.mpr ⟨u, hu, beq_self_eq_true _⟩
  have hexec := exec_getMessages_of_user hread.distinct hparse hthere hpair
  rw [hfound] at hexec
  simp only [hcursor] at hexec
  have hquery : exec (query none (findMessagesByConversation c.id.toText input.limit cursor)) db =
      (.ok page, db) := by
    have hpage' : (exec (query none (findMessagesByConversation c.id.toText input.limit cursor))
        db).1 = .ok page := hpage
    rcases findMessagesByConversation_cases c.id input.limit cursor with ⟨bound, hread⟩ | ⟨e, hread⟩
    · rw [exec_query_ok rfl (hread db)] at hpage' ⊢
      exact Prod.ext hpage' rfl
    · rw [exec_query_error rfl (hread db)] at hpage'
      cases hpage'
  rw [exec_bind_ok hquery, hresult] at hexec
  simp only [Service.run, hexec]
  rfl

/-! ## Registrations -/

section Register

variable {B : Backend} {body : SignupBody} {db db' : AuthDatabase}

/-- The checks of a registration do not read the tables. -/
theorem findExisting_of_fresh (h : findExisting B body db = none)
    {email stored : JsString} (hemail : body.email = some email)
    (hstored : pgText (normalizeEmail B.toLowerCase email) = some stored)
    (hfresh : ∀ u ∈ db'.users, u.email ≠ stored) : findExisting B body db' = none := by
  obtain ⟨fullname, email', password, rfl⟩ := findExisting_eq_none h
  obtain rfl := Option.some.inj hemail
  simp only [findExisting] at h ⊢
  split_ifs at h ⊢
  have hfind : findByEmail (normalizeEmail B.toLowerCase email') false db' = .ok (none, db') := by
    refine findByEmail_eq_ok.mpr ⟨stored, hstored, ?_, rfl⟩
    rw [List.find?_eq_none.mpr]
    · rfl
    · intro u hu
      simpa using hfresh u hu
  simp only [readIn, hfind, Except.map]

/-- **The last statement of a registration** is the whole call. -/
theorem run_registerUser {lookup : AuthDatabase} (h : findExisting B body lookup = none)
    {env : RegisterEnv} {user : PostgresUser}
    (hcreate : createUser env.id (newUser B env body) env.now db = .ok (user, db'))
    {chat : Database} (husers : chat.users = db.users) :
    (Service.registerUser env body).run B chat =
      (.ok (.user (sanitizeUser (toUserRecord user))), { chat with users := db'.users }) := by
  obtain ⟨row, hid, hname, hnamelen, hemail, hemaillen, hhash, hcreated, hupdated, hids, hemails,
    rfl, rfl⟩ := createUser_eq_ok.mp hcreate
  have hcreate' : createUser env.id (newUser B env body) env.now ⟨chat.users, []⟩ =
      .ok (mapUser row, ⟨chat.users ++ [row], []⟩) :=
    createUser_eq_ok.mpr ⟨row, hid, hname, hnamelen, hemail, hemaillen, hhash, hcreated, hupdated,
      husers ▸ hids, husers ▸ hemails, rfl, rfl⟩
  obtain ⟨fullname, email, password, rfl⟩ := findExisting_eq_none h
  have hnone : findExisting B ⟨some fullname, some email, some password, some password⟩
      ⟨chat.users, []⟩ = none := findExisting_of_fresh h rfl hemail (husers ▸ hemails)
  have hexec : exec (registerUser B.bcrypt B.toLowerCase env
      ⟨some fullname, some email, some password, some password⟩) ⟨chat.users, []⟩ = _ :=
    exec_registerUser_eq env _
  rw [hnone, hcreate'] at hexec
  simp only [Service.run, hexec, ← husers]
  rfl

end Register

end MernChat.Api
