import MernChat.Chat.Pagination
import MernChat.Chat.Spelling

/-!
# Conversations are confidential

Users are registered, direct conversations are created and messages are sent side by side, one
database operation of a call at a time. Nothing in the tables says that the sender of a message is
a member of its conversation, nor who received it: every call stores its message in the
conversation of its sender and its receiver, and a page is served with the receiver as the
requester sees it.

## Main definitions

* `SendPhase`, `SendCall`, `MessagingState`, `messagingSystem`: calls side by side
* `SentBy`, `MessagingState.Serves`: the message of a call, and a message of a page
* `MessagingState.Attributed`: the invariant
* `SamePair`: tables that differ outside the conversation of two users

## Main results

* `reachable_sendMessage`: a call that runs alone is `sendMessage`
* `conversation_confidential`: a page has only what the two users sent each other, and depends on
  nothing else
-/

namespace MernChat

open Library Library.TransitionSystem

/-! ## Calls side by side -/

/-- What a call of `sendMessage` does next. -/
inductive SendPhase
  | checkReceiver
  | findConversation
  | createConversation
  | storeMessage (conversation : PostgresConversation)
  | ended

structure SendCall where
  env : SendEnv
  input : SendMessageInput
  phase : SendPhase

/-- The tables, and the calls in the order they began. -/
structure MessagingState where
  db : Database
  calls : List SendCall

inductive MessagingAction
  | register (row : UserRow)
  | createDirectConversation (env : SendEnv) (userA userB : JsString)
  /-- A call of `sendMessage` begins. -/
  | send (env : SendEnv) (input : SendMessageInput)
  /-- The `n`-th call runs its next operation; a call may also stop for good. -/
  | proceed (n : ℕ)

/-- The next operation of a call, and the tables it leaves. -/
def SendCall.proceed (call : SendCall) (db : Database) : Option (SendPhase × Database) :=
  match call.phase with
  | .checkReceiver =>
    if call.input.senderId = call.input.receiverId then some (.ended, db)
    else
      match exec (query (call.env.fault .findUserById)
          (findUserById call.input.receiverId)) db with
      | (.ok (some _), db) => some (.findConversation, db)
      | (_, db) => some (.ended, db)
  | .findConversation =>
    match exec (query (call.env.fault .findDirectConversation)
        (findDirectConversation call.input.senderId call.input.receiverId)) db with
    | (.ok (some conversation), db) => some (.storeMessage conversation, db)
    | (.ok none, db) => some (.createConversation, db)
    | (.error _, db) => some (.ended, db)
  | .createConversation =>
    match exec (createDirectConversation call.env call.input.senderId
        call.input.receiverId) db with
    | (.ok conversation, db) => some (.storeMessage conversation, db)
    | (.error _, db) => some (.ended, db)
  | .storeMessage conversation =>
    some (.ended, (exec (storeAndSerialize call.env call.input conversation) db).2)
  | .ended => none

def messagingStep (s : MessagingState) : MessagingAction → Option MessagingState
  | .register row => some { s with db := (exec (query none (insertUser row)) s.db).2 }
  | .createDirectConversation env userA userB =>
    some { s with db := (exec (createDirectConversation env userA userB) s.db).2 }
  | .send env input => some { s with calls := s.calls ++ [⟨env, input, .checkReceiver⟩] }
  | .proceed n =>
    s.calls[n]?.bind fun call => (call.proceed s.db).map fun (phase, db) =>
      { db, calls := s.calls.set n { call with phase } }

/-- The runs from the empty tables on. -/
def messagingSystem : TransitionSystem MessagingState MessagingAction where
  init s := s = ⟨Database.empty, []⟩
  step := messagingStep

/-! ## What calls do -/

/-- The row is that of a message from `x` to `y`, sent by a call with this input. -/
structure SentBy (env : SendEnv) (input : SendMessageInput) (x y : Uuid) (row : MessageRow) :
    Prop where
  sender : Uuid.parse input.senderId = some x
  receiver : Uuid.parse input.receiverId = some y
  content : pgText (trim input.message) = some row.content
  id : row.id = env.messageId
  senderId : row.senderId = x

/-- A message from `x` to `y` is in the conversation of the two. -/
def InConversation (db : Database) (x y : Uuid) (row : MessageRow) : Prop :=
  ∃ c ∈ db.conversations, c.id = row.conversationId ∧ c.isBetween x y = true

/-- What an operation of a call does to the tables, and what the call knows after it. -/
structure OperationEffect (call : SendCall) (db : Database) (phase : SendPhase) (db' : Database) :
    Prop where
  wellFormed : db'.WellFormed
  conversations : ∀ c ∈ db.conversations, c ∈ db'.conversations
  resolved : ∀ conversation, phase = .storeMessage conversation →
    Resolved db'.conversations call.input conversation
  messages : db'.messages = db.messages ∨ ∃ x y row, SentBy call.env call.input x y row ∧
    InConversation db x y row ∧ db.hasMessage row.id = false ∧ db'.messages = db.messages ++ [row]

section Calls

variable {call : SendCall} {phase : SendPhase} {db db' : Database}

/-- A query leaves the tables as they are. -/
theorem OperationEffect.of_read (hw : db.WellFormed)
    (h : ∀ conversation, phase = .storeMessage conversation →
      Resolved db.conversations call.input conversation) : OperationEffect call db phase db :=
  ⟨hw, fun _ hc => hc, h, Or.inl rfl⟩

theorem exec_findUserById (fault : Option (Fault Thrown)) (x : JsString) (db : Database) :
    (exec (query fault (findUserById x)) db).2 = db := by
  have hquery : exec (query fault (findUserById x)) db = _ := rfl
  rcases exec_query hquery with ⟨r, t, -, hx, hq⟩ | ⟨-, e, hq⟩
  · obtain ⟨u, -, -, ht⟩ := findUserById_eq_ok.mp hx
    rw [hq, ht]
  · rw [hq]

/-- The conversation that is found is that of the two users. -/
theorem exec_findDirectConversation (fault : Option (Fault Thrown)) (input : SendMessageInput)
    (db : Database) :
    (exec (query fault (findDirectConversation input.senderId input.receiverId)) db).2 = db ∧
      ∀ conversation, (exec (query fault (findDirectConversation input.senderId
        input.receiverId)) db).1 = .ok (some conversation) →
          Resolved db.conversations input conversation := by
  have hquery :
      exec (query fault (findDirectConversation input.senderId input.receiverId)) db = _ := rfl
  rcases exec_query hquery with ⟨r, t, -, hx, hq⟩ | ⟨-, e, hq⟩
  · obtain ⟨a, b, ha, hb, rfl, ht⟩ := selectDirectConversation_eq_ok.mp hx
    rw [hq]
    refine ⟨ht, ?_⟩
    intro conversation h
    obtain ⟨c, hc, rfl⟩ := Option.map_eq_some_iff.mp (Except.ok.inj h)
    obtain ⟨hmem, rfl, rfl⟩ := Database.conversationOf_eq_some hc
    exact .of_parsedPair hmem ⟨ha, hb⟩
  · rw [hq]
    exact ⟨rfl, fun _ h => nomatch h⟩

/-- **One operation of a call.** -/
theorem SendCall.proceed_effect (hw : db.WellFormed)
    (hresolved : ∀ conversation, call.phase = .storeMessage conversation →
      Resolved db.conversations call.input conversation)
    (h : call.proceed db = some (phase, db')) : OperationEffect call db phase db' := by
  unfold SendCall.proceed at h
  cases hphase : call.phase with
  | checkReceiver =>
    simp only [hphase] at h
    -- whatever the lookup finds, it leaves the tables alone
    have hdb := exec_findUserById (call.env.fault .findUserById) call.input.receiverId db
    split_ifs at h
    · obtain ⟨rfl, rfl⟩ := Prod.mk.inj (Option.some.inj h)
      exact .of_read hw (by simp)
    · split at h
      all_goals
        rename_i hexec
        rw [hexec] at hdb
        obtain ⟨rfl, rfl⟩ := Prod.mk.inj (Option.some.inj h)
        obtain rfl := hdb
        exact .of_read hw (by simp)
  | findConversation =>
    simp only [hphase] at h
    obtain ⟨hdb, hfound⟩ :=
      exec_findDirectConversation (call.env.fault .findDirectConversation) call.input db
    split at h
    all_goals
      rename_i hexec
      rw [hexec] at hdb hfound
      obtain ⟨rfl, rfl⟩ := Prod.mk.inj (Option.some.inj h)
      obtain rfl := hdb
      apply OperationEffect.of_read hw
    · rintro conversation hc
      obtain rfl := SendPhase.storeMessage.inj hc
      exact hfound _ rfl
    · simp
    · simp
  | createConversation =>
    simp only [hphase] at h
    -- the conversation may be there even if the call has failed
    split at h
    all_goals
      rename_i hexec
      obtain ⟨rfl, rfl⟩ := Prod.mk.inj (Option.some.inj h)
      obtain ⟨hw', hsub, hreturned⟩ := exec_createDirectConversation_cases hw hexec
      refine ⟨hw', hsub, ?_, Or.inl (exec_createDirectConversation_messages hw hexec)⟩
    · rintro conversation hc
      obtain rfl := SendPhase.storeMessage.inj hc
      obtain ⟨c, hmem, rfl, hp⟩ := hreturned _ rfl
      exact .of_parsedPair hmem hp
    · simp
  | storeMessage conversation =>
    simp only [hphase] at h
    obtain ⟨rfl, rfl⟩ := Prod.mk.inj (Option.some.inj h)
    obtain ⟨c, hmem, rfl, x, y, hx, hy, hbetween⟩ := hresolved conversation hphase
    have hthere := Database.hasConversation_iff.mpr ⟨c, hmem, rfl⟩
    have hw' : (exec (storeAndSerialize call.env call.input (mapConversation c)) db).2.WellFormed :=
      hw.store hthere
    have hstore :
        (exec (storeAndSerialize call.env call.input (mapConversation c)) db).2 = db ∨ _ :=
      exec_store_cases hthere
    rcases hstore with he | ⟨m, row, hrows, he⟩
    · rw [he]
      exact .of_read hw (by simp)
    · -- the message of the call, in the conversation it was resolved to
      obtain ⟨u, content, hu, -, ht, rfl⟩ := hrows.message
      obtain rfl := Option.some.inj (hx.symm.trans hu)
      rw [he] at hw' ⊢
      refine ⟨hw', fun _ hc => hc, by simp, Or.inr ?_⟩
      exact ⟨x, y, _, ⟨hx, hy, ht, rfl, rfl⟩, ⟨c, hmem, rfl, hbetween⟩, hrows.messageId, rfl⟩
  | ended =>
    simp only [hphase] at h
    cases h

end Calls

/-! ## The invariant -/

namespace MessagingState

/-- The calls that have begun. -/
def sends (s : MessagingState) : List (SendEnv × SendMessageInput) :=
  s.calls.map fun call => (call.env, call.input)

/-- The row is that of a message that `x` sent to `y`. -/
def Sent (s : MessagingState) (x y : Uuid) (row : MessageRow) : Prop :=
  ∃ send ∈ s.sends, SentBy send.1 send.2 x y row

/-- **The invariant**: a call has the conversation of its two users, and every message was sent by
one member of its conversation to the other. -/
structure Attributed (s : MessagingState) : Prop where
  wellFormed : s.db.WellFormed
  messageIds : (s.db.messages.map MessageRow.id).Nodup
  resolved : ∀ call ∈ s.calls, ∀ conversation, call.phase = .storeMessage conversation →
    Resolved s.db.conversations call.input conversation
  sent : ∀ row ∈ s.db.messages, ∃ x y, s.Sent x y row ∧ InConversation s.db x y row

variable {s t : MessagingState}

theorem Attributed.empty : Attributed ⟨Database.empty, []⟩ :=
  ⟨.empty, List.nodup_nil, by simp, by simp [Database.empty]⟩

/-- The tables of conversations and users grow. -/
theorem Attributed.withTables (h : s.Attributed) {db : Database} (hw : db.WellFormed)
    (hsub : ∀ c ∈ s.db.conversations, c ∈ db.conversations)
    (hmessages : db.messages = s.db.messages) : Attributed { s with db } where
  wellFormed := hw
  messageIds := by
    show (db.messages.map MessageRow.id).Nodup
    rw [hmessages]
    exact h.messageIds
  resolved call hcall conversation hphase := (h.resolved call hcall conversation hphase).mono hsub
  sent row hrow := by
    have hrow' : row ∈ s.db.messages := hmessages ▸ hrow
    obtain ⟨x, y, hsent, c, hc, hbetween⟩ := h.sent row hrow'
    exact ⟨x, y, hsent, c, hsub c hc, hbetween⟩

/-- A call begins. -/
theorem Attributed.send (h : s.Attributed) (env : SendEnv) (input : SendMessageInput) :
    Attributed { s with calls := s.calls ++ [⟨env, input, .checkReceiver⟩] } where
  wellFormed := h.wellFormed
  messageIds := h.messageIds
  resolved call hcall conversation hphase := by
    rcases List.mem_append.mp hcall with hcall | hcall
    · exact h.resolved call hcall conversation hphase
    · rw [List.mem_singleton.mp hcall] at hphase
      cases hphase
  sent row hrow := by
    obtain ⟨x, y, ⟨send, hsend, hby⟩, hin⟩ := h.sent row hrow
    refine ⟨x, y, ⟨send, ?_, hby⟩, hin⟩
    rw [sends, List.map_append]
    exact List.mem_append_left _ hsend

/-- The calls stay those that have begun. -/
theorem sends_set {n : ℕ} {call : SendCall} (hn : s.calls[n]? = some call) (phase : SendPhase)
    (db : Database) : sends ⟨db, s.calls.set n { call with phase }⟩ = s.sends := by
  obtain ⟨hlt, hcall⟩ := List.getElem?_eq_some_iff.mp hn
  have hsame := s.calls.set_getElem_self hlt
  rw [hcall] at hsame
  unfold sends
  rw [← hsame, List.map_set, List.map_set, List.set_set]

/-- **A call proceeds.** -/
theorem Attributed.proceed (h : s.Attributed) {n : ℕ} {call : SendCall}
    (hn : s.calls[n]? = some call) {phase : SendPhase} {db : Database}
    (hstep : call.proceed s.db = some (phase, db)) :
    Attributed ⟨db, s.calls.set n { call with phase }⟩ := by
  have hmem := List.mem_of_getElem? hn
  have heffect := call.proceed_effect h.wellFormed (h.resolved call hmem) hstep
  have hsends := sends_set hn phase db
  -- what was sent was sent by a call that has begun, and calls do not go away
  have hkept : ∀ row ∈ s.db.messages, ∃ x y,
      Sent ⟨db, s.calls.set n { call with phase }⟩ x y row ∧ InConversation db x y row := by
    intro row hrow
    obtain ⟨x, y, hsent, c, hc, hbetween⟩ := h.sent row hrow
    refine ⟨x, y, ?_, c, heffect.conversations c hc, hbetween⟩
    unfold Sent at hsent ⊢
    rw [hsends]
    exact hsent
  refine ⟨heffect.wellFormed, ?_, ?_, ?_⟩
  · show (db.messages.map MessageRow.id).Nodup
    rcases heffect.messages with hmessages | ⟨x, y, row, -, -, hid, hmessages⟩
    · rw [hmessages]
      exact h.messageIds
    · rw [hmessages, List.map_append, List.nodup_append]
      refine ⟨h.messageIds, List.nodup_singleton _, ?_⟩
      simpa [Database.hasMessage] using hid
  · intro other hother conversation hphase
    rcases List.mem_or_eq_of_mem_set hother with hother | rfl
    · exact (h.resolved other hother conversation hphase).mono heffect.conversations
    · exact heffect.resolved conversation hphase
  · intro row hrow
    rcases heffect.messages with hmessages | ⟨x, y, new, hby, ⟨c, hc, hbetween⟩, -, hmessages⟩
    · exact hkept row (hmessages ▸ hrow)
    · have hrow' : row ∈ s.db.messages ++ [new] := hmessages ▸ hrow
      rcases List.mem_append.mp hrow' with hold | hnew
      · exact hkept row hold
      · obtain rfl := List.mem_singleton.mp hnew
        refine ⟨x, y, ⟨(call.env, call.input), ?_, hby⟩, c, heffect.conversations c hc, hbetween⟩
        rw [hsends]
        exact List.mem_map_of_mem hmem

/-- Every reachable state is attributed. -/
theorem attributed_of_reachable {G : Guard MessagingState MessagingAction}
    (h : messagingSystem.Reachable G s) : s.Attributed := by
  refine h.invariant ?_ ?_
  · rintro s rfl
    exact .empty
  · intro s a t hs _ hst
    cases a with
    | register row =>
      obtain rfl := Option.some.inj hst
      have hw := hs.wellFormed.createUser row
      have hquery : exec (query none (insertUser row)) s.db = _ := rfl
      rcases exec_query hquery with ⟨r, db, -, hx, hq⟩ | ⟨-, e, hq⟩
      · obtain ⟨-, hdb⟩ := Database.insertUser_eq_ok hx
        rw [hq] at hw ⊢
        subst hdb
        exact hs.withTables hw (fun _ hc => hc) rfl
      · rw [hq]
        exact hs
    | createDirectConversation env userA userB =>
      obtain rfl := Option.some.inj hst
      have hexec : exec (createDirectConversation env userA userB) s.db = (_, _) := rfl
      obtain ⟨hw, hsub, -⟩ := exec_createDirectConversation_cases hs.wellFormed hexec
      exact hs.withTables hw hsub (exec_createDirectConversation_messages hs.wellFormed hexec)
    | send env input =>
      obtain rfl := Option.some.inj hst
      exact hs.send env input
    | proceed n =>
      obtain ⟨call, hn, hst⟩ := Option.bind_eq_some_iff.mp hst
      obtain ⟨⟨phase, db⟩, hstep, rfl⟩ := Option.map_eq_some_iff.mp hst
      exact hs.proceed hn hstep

end MessagingState

/-! ## A call that runs alone -/

namespace SendCall

/-- The tables after the rest of a call. -/
def finish (call : SendCall) (db : Database) : Database :=
  match call.phase with
  | .checkReceiver => (exec (sendMessage call.env call.input) db).2
  | .findConversation =>
    (exec (findOrCreateConversation call.env call.input.senderId call.input.receiverId >>=
      storeAndSerialize call.env call.input) db).2
  | .createConversation =>
    (exec (createDirectConversation call.env call.input.senderId call.input.receiverId >>=
      storeAndSerialize call.env call.input) db).2
  | .storeMessage conversation =>
    (exec (storeAndSerialize call.env call.input conversation) db).2
  | .ended => db

/-- The operations a call has left, at most. -/
def operationsLeft (call : SendCall) : ℕ :=
  match call.phase with
  | .checkReceiver => 4
  | .findConversation => 3
  | .createConversation => 2
  | .storeMessage _ => 1
  | .ended => 0

/-- **An operation is the next one of the rest of its call.** -/
theorem exists_proceed (call : SendCall) (hleft : 0 < call.operationsLeft) (db : Database) :
    ∃ phase db', call.proceed db = some (phase, db') ∧
      ({ call with phase } : SendCall).operationsLeft < call.operationsLeft ∧
        ({ call with phase } : SendCall).finish db' = call.finish db := by
  obtain ⟨env, input, phase⟩ := call
  cases phase with
  | checkReceiver =>
    by_cases hne : input.senderId = input.receiverId
    · -- a message to oneself is refused before any operation
      refine ⟨.ended, db, if_pos hne, by simp [operationsLeft], ?_⟩
      show db = (exec (sendMessage env input) db).2
      unfold sendMessage
      rw [exec_bind_error (exec_require_neg (not_not.mpr hne) _ _)]
    · cases hexec : exec (query (env.fault .findUserById) (findUserById input.receiverId)) db with
      | mk receiver db' =>
        have hsend : exec (sendMessage env input) db = _ := exec_bind_ok (exec_require_pos hne _ _)
        cases receiver with
        | error e =>
          refine ⟨.ended, db', by simp [proceed, hne, hexec], by simp [operationsLeft], ?_⟩
          show db' = (exec (sendMessage env input) db).2
          rw [hsend, exec_bind_error hexec]
        | ok receiver =>
          rw [exec_bind_ok hexec] at hsend
          cases receiver with
          | none =>
            refine ⟨.ended, db', by simp [proceed, hne, hexec], by simp [operationsLeft], ?_⟩
            show db' = (exec (sendMessage env input) db).2
            rw [hsend, exec_bind_error (exec_require_neg (by simp) _ _)]
          | some receiver =>
            refine ⟨.findConversation, db', by simp [proceed, hne, hexec],
              by simp [operationsLeft], ?_⟩
            rw [exec_bind_ok (exec_require_pos Option.isSome_some _ _)] at hsend
            exact congrArg Prod.snd hsend.symm
  | findConversation =>
    cases hexec : exec (query (env.fault .findDirectConversation)
        (findDirectConversation input.senderId input.receiverId)) db with
    | mk found db' =>
      -- the rest of the call is the lookup, and what follows it
      have hfinish : SendCall.finish ⟨env, input, .findConversation⟩ db =
          (exec (findOrCreateConversation env input.senderId input.receiverId >>=
            storeAndSerialize env input) db).2 := rfl
      unfold findOrCreateConversation at hfinish
      rw [bind_assoc] at hfinish
      rw [hfinish]
      cases found with
      | error e =>
        refine ⟨.ended, db', by simp [proceed, hexec], by simp [operationsLeft], ?_⟩
        rw [exec_bind_error hexec]
        rfl
      | ok found =>
        rw [exec_bind_ok hexec]
        cases found with
        | none =>
          exact ⟨.createConversation, db', by simp [proceed, hexec], by simp [operationsLeft], rfl⟩
        | some conversation =>
          exact ⟨.storeMessage conversation, db', by simp [proceed, hexec],
            by simp [operationsLeft], rfl⟩
  | createConversation =>
    cases hexec : exec (createDirectConversation env input.senderId input.receiverId) db with
    | mk created db' =>
      cases created with
      | error e =>
        refine ⟨.ended, db', by simp [proceed, hexec], by simp [operationsLeft], ?_⟩
        show db' = (exec (createDirectConversation _ _ _ >>= _) db).2
        rw [exec_bind_error hexec]
      | ok conversation =>
        refine ⟨.storeMessage conversation, db', by simp [proceed, hexec],
          by simp [operationsLeft], ?_⟩
        show (exec (storeAndSerialize _ _ _) db').2 =
          (exec (createDirectConversation _ _ _ >>= _) db).2
        rw [exec_bind_ok hexec]
  | storeMessage conversation => exact ⟨.ended, _, rfl, Nat.zero_lt_one, rfl⟩
  | ended => exact absurd hleft (Nat.lt_irrefl 0)

end SendCall

/-- A call that runs alone runs to its end. -/
theorem reachable_finish (k : ℕ) : ∀ {s : MessagingState} {n : ℕ} {call : SendCall},
    call.operationsLeft ≤ k → messagingSystem.Reachable Guard.all s → s.calls[n]? = some call →
      ∃ t, messagingSystem.Reachable Guard.all t ∧ t.sends = s.sends ∧ t.db = call.finish s.db := by
  induction k with
  | zero =>
    intro s n call hk hs hn
    refine ⟨s, hs, rfl, ?_⟩
    obtain ⟨env, input, phase⟩ := call
    cases phase with
    | ended => rfl
    | _ => cases hk
  | succ k ih =>
    intro s n call hk hs hn
    by_cases hleft : 0 < call.operationsLeft
    · obtain ⟨phase, db, hstep, hless, hfinish⟩ := call.exists_proceed hleft s.db
      have hreach : messagingSystem.Reachable Guard.all
          ⟨db, s.calls.set n { call with phase }⟩ := by
        apply hs.step (a := MessagingAction.proceed n) trivial
        show (s.calls[n]?.bind _) = _
        rw [hn, Option.bind_some, hstep]
        rfl
      have hcall : (s.calls.set n { call with phase })[n]? = some { call with phase } := by
        obtain ⟨hlt, -⟩ := List.getElem?_eq_some_iff.mp hn
        exact List.getElem?_set_self hlt
      obtain ⟨t, ht, hsends, hdb⟩ := ih (by omega) hreach hcall
      exact ⟨t, ht, hsends.trans (MessagingState.sends_set hn phase db), hdb.trans hfinish⟩
    · exact ih (by omega) hs hn

/-- **The calls include `sendMessage` as a whole.** -/
theorem reachable_sendMessage {s : MessagingState} (hs : messagingSystem.Reachable Guard.all s)
    (env : SendEnv) (input : SendMessageInput) :
    ∃ t, messagingSystem.Reachable Guard.all t ∧ t.sends = s.sends ++ [(env, input)] ∧
      t.db = (exec (sendMessage env input) s.db).2 := by
  have hbegun : messagingSystem.Reachable Guard.all
      { s with calls := s.calls ++ [⟨env, input, .checkReceiver⟩] } :=
    hs.step (a := MessagingAction.send env input) trivial rfl
  obtain ⟨t, ht, hsends, hdb⟩ := reachable_finish 4 (le_refl 4) hbegun List.getElem?_concat_length
  refine ⟨t, ht, ?_, hdb⟩
  rw [hsends, MessagingState.sends, List.map_append]
  rfl

/-! ## What a page depends on -/

/-- The messages of the conversation of two users. -/
def Database.messagesBetween (db : Database) (u v : Uuid) : List MessageRow :=
  db.messages.filter fun row =>
    db.conversations.any fun c => c.isBetween u v && c.id == row.conversationId

/-- The tables have the same conversation of `u` and `v`, with the same messages, and agree on
whether `v` is a user. Everything else may differ. -/
structure SamePair (u v : Uuid) (db db' : Database) : Prop where
  user : db'.hasUser v = db.hasUser v
  conversations : (db'.conversations.filter (·.isBetween u v)).Perm
    (db.conversations.filter (·.isBetween u v))
  messages : (db'.messagesBetween u v).Perm (db.messagesBetween u v)

section Pages

variable {db db' : Database} {u v a b : Uuid} {c : ConversationRow}

/-- The conversation of a pair is looked for among those of the two users. -/
theorem conversationOf_eq_find (hab : a = u ∧ b = v ∨ a = v ∧ b = u) :
    db.conversationOf a b = (db.conversations.filter (·.isBetween u v)).find? fun c =>
      c.memberAId == a && c.memberBId == b := by
  rw [List.find?_filter]
  unfold Database.conversationOf
  congr 1
  funext c
  rw [Bool.eq_iff_iff]
  simp only [ConversationRow.isBetween_iff, Bool.and_eq_true, beq_iff_eq, decide_eq_true_eq]
  constructor
  · rintro ⟨rfl, rfl⟩
    rcases hab with ⟨rfl, rfl⟩ | ⟨rfl, rfl⟩
    · exact ⟨Or.inl ⟨rfl, rfl⟩, rfl, rfl⟩
    · exact ⟨Or.inr ⟨rfl, rfl⟩, rfl, rfl⟩
  · rintro ⟨-, h⟩
    exact h

/-- Two users have one conversation or none. -/
theorem Database.Valid.filter_isBetween_cases (h : db.Valid) (u v : Uuid) :
    db.conversations.filter (·.isBetween u v) = [] ∨
      ∃ c, db.conversations.filter (·.isBetween u v) = [c] := by
  cases hf : db.conversations.filter (·.isBetween u v) with
  | nil => exact Or.inl rfl
  | cons c l =>
    have hc : c ∈ db.conversations.filter (·.isBetween u v) := by
      rw [hf]
      exact List.mem_cons_self
    obtain ⟨hmem, hbetween⟩ := List.mem_filter.mp hc
    exact Or.inr ⟨c, hf.symm.trans (h.filter_isBetween hmem hbetween)⟩

theorem SamePair.filter_eq (h : SamePair u v db db') (hdb : db.Valid) :
    db'.conversations.filter (·.isBetween u v) = db.conversations.filter (·.isBetween u v) := by
  have hperm := h.conversations
  rcases hdb.filter_isBetween_cases u v with hf | ⟨c, hf⟩
  · rw [hf] at hperm ⊢
    exact hperm.eq_nil
  · rw [hf] at hperm ⊢
    exact List.perm_singleton.mp hperm

/-- The messages of the only conversation of two users. -/
theorem messagesBetween_eq (hf : db.conversations.filter (·.isBetween u v) = [c]) :
    db.messagesBetween u v = db.messages.filter fun row => row.conversationId == c.id := by
  apply List.filter_congr
  intro row _
  rw [← List.any_filter, hf, List.any_cons, List.any_nil, Bool.or_false, Bool.eq_iff_iff,
    beq_iff_eq, beq_iff_eq, eq_comm]

/-- The rows of a page are those of its conversation. -/
theorem rowsBefore_eq_of_perm {rows rows' : List MessageRow} {c : Uuid}
    (h : (rows.map MessageRow.id).Nodup)
    (hperm : (rows'.filter fun row => row.conversationId == c).Perm
      (rows.filter fun row => row.conversationId == c)) (bound : Option (Int ×ₗ Uuid)) :
    rowsBefore rows' c bound = rowsBefore rows c bound := by
  have hsplit : ∀ l : List MessageRow, (l.filter fun row => row.conversationId == c &&
      bound.all fun b => decide (messageKey row < b)) =
        (l.filter fun row => row.conversationId == c).filter fun row =>
          bound.all fun b => decide (messageKey row < b) := by
    intro l
    rw [List.filter_filter]
    apply List.filter_congr
    intro row _
    exact Bool.and_comm _ _
  unfold rowsBefore
  rw [hsplit, hsplit]
  congr 1
  -- keys are distinct, so that the order of a page is that of the keys
  apply sortBy_eq_of_perm
  · apply nodup_map_messageKey
    exact h.sublist (((List.filter_sublist).trans List.filter_sublist).map _)
  · exact hperm.filter _

theorem storeless_readBound (cursor : Option MessageCursor) : (readBound cursor).Storeless := by
  cases cursor with
  | none => exact .pure none
  | some cursor =>
    refine .bind ?_ fun key => .pure (some key)
    refine .bind (.ofOption _ _) fun date => .bind (.require _ _) fun _ => ?_
    exact .bind (.ofExcept _ _) fun id => .pure _

/-- A page is made of first rows of its conversation, or its cursor is an error. -/
theorem findMessagesByConversation_cases (c : Uuid) (limit : Int) (cursor : Option MessageCursor) :
    (∃ bound, ∀ db : Database, findMessagesByConversation c.toText limit cursor db = .ok
      ({ messages := (((rowsBefore db.messages c bound).take (boundedLimit limit)).map
            mapMessage).reverse
         hasMore := decide (boundedLimit limit < (rowsBefore db.messages c bound).length) }, db)) ∨
      ∃ e, ∀ db : Database, findMessagesByConversation c.toText limit cursor db = .error e := by
  rcases storeless_readBound cursor with ⟨bound, hbound⟩ | ⟨e, hbound⟩
  · exact Or.inl ⟨bound, fun db =>
      findMessagesByConversation_eq (Uuid.parse_toText c) (hbound db) limit⟩
  · refine Or.inr ⟨e, ?_⟩
    intro db
    unfold findMessagesByConversation
    rw [Tx.bind_of_ok (readUuid_eq_ok.mpr ⟨Uuid.parse_toText c, rfl⟩), Tx.bind_of_error (hbound db)]

theorem serializePage_messages {senderId chatUserId : JsString} {limit : Int} {page : MessagePage}
    {result : MessagePageResult} (h : serializePage senderId chatUserId limit page = some result) :
    page.messages.mapM (fun message => serializeMessage message
      (if message.senderId = senderId then chatUserId else senderId)) = some result.messages := by
  simp only [serializePage, Option.bind_eq_bind, Option.bind_eq_some_iff] at h
  obtain ⟨messages, hmessages, h⟩ := h
  rw [hmessages]
  -- the cursor does not touch the messages
  split at h
  · split_ifs at h
    · obtain ⟨_, -, h⟩ := Option.bind_eq_some_iff.mp h
      obtain rfl := Option.some.inj h
      rfl
    · obtain rfl := Option.some.inj h
      rfl
  · obtain rfl := Option.some.inj h
    rfl

/-- The messages of a page are rows of its conversation, serialized to the requester. -/
theorem exists_row_of_serialized {c : Uuid} {senderId chatUserId : JsString} {limit : Int}
    {cursor : Option MessageCursor} {page : MessagePage} {result : MessagePageResult}
    (hpage : findMessagesByConversation c.toText limit cursor db = .ok (page, db'))
    (hresult : serializePage senderId chatUserId limit page = some result)
    {m : SerializedMessage} (hm : m ∈ result.messages) :
    ∃ row ∈ db.messages, row.conversationId = c ∧
      serializeMessage (mapMessage row)
        (if row.senderId.toText = senderId then chatUserId else senderId) = some m := by
  rcases findMessagesByConversation_cases c limit cursor with ⟨bound, hrows⟩ | ⟨e, herror⟩
  · obtain ⟨rfl, -⟩ := Prod.mk.inj (Except.ok.inj ((hrows db).symm.trans hpage))
    obtain ⟨message, hmessage, hserialized⟩ := mem_of_mapM (serializePage_messages hresult) hm
    obtain ⟨row, hrow, rfl⟩ := List.mem_map.mp (List.mem_reverse.mp hmessage)
    have hsorted := List.mem_reverse.mp (List.mem_of_mem_take hrow)
    obtain ⟨hmem, hp⟩ := List.mem_filter.mp (mem_sortBy.mp hsorted)
    rw [Bool.and_eq_true, beq_iff_eq] at hp
    exact ⟨row, hmem, hp.1, hserialized⟩
  · rw [herror db] at hpage
    cases hpage

theorem serializeMessage_eq_some {message : PostgresMessage} {receiverId : JsString}
    {m : SerializedMessage} (h : serializeMessage message receiverId = some m) :
    m.senderId = message.senderId ∧ m.receiverId = receiverId := by
  simp only [serializeMessage, Option.bind_eq_bind, Option.bind_eq_some_iff] at h
  obtain ⟨_, -, _, -, h⟩ := h
  obtain rfl := Option.some.inj h
  exact ⟨rfl, rfl⟩

/-- A page that is served is that of the conversation of the two users. -/
theorem exec_getMessages_eq_ok (huv : u ≠ v) (hp : ParsedPair u.toText v.toText a b) {limit : Int}
    {cursor : Option JsString} {result : MessagePageResult}
    (h : (exec (getMessages ⟨u.toText, v.toText, limit, cursor⟩) db).1 = .ok result) :
    ∃ c, db.conversationOf a b = some c ∧ ∃ decoded page,
      findMessagesByConversation c.id.toText limit decoded db = .ok (page, db) ∧
        serializePage u.toText v.toText limit page = some result := by
  have hne : u.toText ≠ v.toText := fun heq => huv (Uuid.toText_injective heq)
  by_cases huser : db.hasUser v = true
  · have hexec : exec (getMessages ⟨u.toText, v.toText, limit, cursor⟩) db = _ :=
      exec_getMessages_of_user hne (Uuid.parse_toText v) huser hp
    rw [hexec] at h
    cases hc : db.conversationOf a b with
    | none =>
      rw [hc] at h
      cases h
    | some c =>
      rw [hc] at h
      simp only at h
      cases hdecode : decodeCursor cursor with
      | none =>
        rw [hdecode] at h
        cases h
      | some decoded =>
        rw [hdecode] at h
        simp only at h
        -- a page that was read is serialized, or the request throws
        rcases findMessagesByConversation_cases c.id limit decoded with ⟨bound, hpage⟩ | ⟨e, herror⟩
        · rw [exec_bind_ok (exec_query_ok rfl (hpage db))] at h
          refine ⟨c, rfl, decoded, _, hpage db, ?_⟩
          split at h
          · rename_i served hserved
            rw [hserved, Except.ok.inj h]
          · cases h
        · rw [exec_bind_error (exec_query_error rfl (herror db))] at h
          cases h
  · rw [exec_getMessages_of_not_hasUser hne (Uuid.parse_toText v)
      (Bool.eq_false_iff.mpr huser)] at h
    cases h

/-- **What is served does not depend on other conversations.** -/
theorem exec_getMessages_congr (h : SamePair u v db db') (hdb : db.Valid)
    (hids : (db.messages.map MessageRow.id).Nodup) (huv : u ≠ v) (limit : Int)
    (cursor : Option JsString) :
    (exec (getMessages ⟨u.toText, v.toText, limit, cursor⟩) db').1 =
      (exec (getMessages ⟨u.toText, v.toText, limit, cursor⟩) db).1 := by
  have hne : u.toText ≠ v.toText := fun heq => huv (Uuid.toText_injective heq)
  obtain ⟨a, b, hp⟩ := exists_parsedPair (Uuid.parse_toText u) (Uuid.parse_toText v)
  have hab := hp.users (Uuid.parse_toText u) (Uuid.parse_toText v)
  have hfilter := h.filter_eq hdb
  have hfound : db'.conversationOf a b = db.conversationOf a b := by
    rw [conversationOf_eq_find hab, conversationOf_eq_find hab, hfilter]
  by_cases huser : db.hasUser v = true
  · have hexec : ∀ d : Database, d.hasUser v = true →
        exec (getMessages ⟨u.toText, v.toText, limit, cursor⟩) d = _ := fun d hd =>
      exec_getMessages_of_user hne (Uuid.parse_toText v) hd hp
    rw [hexec db' (h.user.trans huser), hexec db huser, hfound]
    cases hc : db.conversationOf a b with
    | none => rfl
    | some c =>
      cases hdecode : decodeCursor cursor with
      | none => rfl
      | some decoded =>
        -- the rows of the conversation are the same
        have hone : db.conversations.filter (·.isBetween u v) = [c] := by
          obtain ⟨hmem, rfl, rfl⟩ := Database.conversationOf_eq_some hc
          exact hdb.filter_isBetween hmem (ConversationRow.isBetween_iff.mpr hab)
        have hperm := h.messages
        rw [messagesBetween_eq hone, messagesBetween_eq (hfilter.trans hone)] at hperm
        rcases findMessagesByConversation_cases c.id limit decoded with ⟨bound, hpage⟩ | ⟨e, herror⟩
        · simp only
          rw [exec_bind_ok (exec_query_ok rfl (hpage db')),
            exec_bind_ok (exec_query_ok rfl (hpage db)), rowsBefore_eq_of_perm hids hperm]
          split <;> rfl
        · simp only
          rw [exec_bind_error (exec_query_error rfl (herror db')),
            exec_bind_error (exec_query_error rfl (herror db))]
  · rw [exec_getMessages_of_not_hasUser hne (Uuid.parse_toText v) (Bool.eq_false_iff.mpr huser),
      exec_getMessages_of_not_hasUser hne (Uuid.parse_toText v)
        (h.user.trans (Bool.eq_false_iff.mpr huser))]

end Pages

/-! ## Confidentiality -/

/-- The message is one that `u` and `v` sent each other, with its sender and its receiver. -/
def MessagingState.Serves (s : MessagingState) (u v : Uuid) (m : SerializedMessage) : Prop :=
  ∃ row ∈ s.db.messages, serializeMessage (mapMessage row) m.receiverId = some m ∧
    (s.Sent u v row ∧ m.senderId = u.toText ∧ m.receiverId = v.toText ∨
      s.Sent v u row ∧ m.senderId = v.toText ∧ m.receiverId = u.toText)

/-- The pages of a state serve what the two users sent each other. -/
theorem serves_of_exec_eq_ok {s : MessagingState} (hs : s.Attributed) {u v : Uuid} (huv : u ≠ v)
    {limit : Int} {cursor : Option JsString} {result : MessagePageResult}
    (h : (exec (getMessages ⟨u.toText, v.toText, limit, cursor⟩) s.db).1 = .ok result)
    {m : SerializedMessage} (hm : m ∈ result.messages) : s.Serves u v m := by
  obtain ⟨a, b, hp⟩ := exists_parsedPair (Uuid.parse_toText u) (Uuid.parse_toText v)
  have hab := hp.users (Uuid.parse_toText u) (Uuid.parse_toText v)
  obtain ⟨c, hc, decoded, page, hpage, hresult⟩ := exec_getMessages_eq_ok huv hp h
  obtain ⟨hcmem, rfl, rfl⟩ := Database.conversationOf_eq_some hc
  obtain ⟨row, hrow, hid, hserialized⟩ := exists_row_of_serialized hpage hresult hm
  obtain ⟨hsender, hreceiver⟩ := serializeMessage_eq_some hserialized
  obtain ⟨x, y, hsent, c', hc', hid', hbetween⟩ := hs.sent row hrow
  -- conversations have their ids
  obtain rfl := eq_of_key hs.wellFormed.conversationIds hcmem hc' (hid.symm.trans hid'.symm)
  have hxy : x = u ∧ y = v ∨ x = v ∧ y = u := by
    rcases hab with ⟨hu, hv⟩ | ⟨hv, hu⟩ <;>
      rcases ConversationRow.isBetween_iff.mp hbetween with ⟨hx, hy⟩ | ⟨hy, hx⟩
    · exact Or.inl ⟨hx.symm.trans hu, hy.symm.trans hv⟩
    · exact Or.inr ⟨hx.symm.trans hv, hy.symm.trans hu⟩
    · exact Or.inr ⟨hx.symm.trans hv, hy.symm.trans hu⟩
    · exact Or.inl ⟨hx.symm.trans hu, hy.symm.trans hv⟩
  have hrowSender : row.senderId = x := by
    obtain ⟨send, -, hby⟩ := hsent
    exact hby.senderId
  refine ⟨row, hrow, by rw [hreceiver]; exact hserialized, ?_⟩
  rcases hxy with ⟨rfl, rfl⟩ | ⟨rfl, rfl⟩
  · refine Or.inl ⟨hsent, ?_, ?_⟩
    · rw [hsender, ← hrowSender]
      rfl
    · rw [hreceiver, hrowSender, if_pos rfl]
  · refine Or.inr ⟨hsent, ?_, ?_⟩
    · rw [hsender, ← hrowSender]
      rfl
    · rw [hreceiver, hrowSender, if_neg fun heq => huv (Uuid.toText_injective heq).symm]

/-- **Conversations are confidential.** In every reachable state the pages that `u` is served about
`v` have only messages that the two sent each other, with their senders and receivers; and every
request of `u` about `v` has the same outcome in all tables with the same conversation of the two
and the same messages in it. -/
theorem conversation_confidential {s : MessagingState}
    (h : messagingSystem.Reachable Guard.all s) {u v : Uuid} (huv : u ≠ v) (limit : Int)
    (cursor : Option JsString) :
    (∀ result, (exec (getMessages ⟨u.toText, v.toText, limit, cursor⟩) s.db).1 = .ok result →
      ∀ m ∈ result.messages, s.Serves u v m) ∧
    ∀ db', SamePair u v s.db db' →
      (exec (getMessages ⟨u.toText, v.toText, limit, cursor⟩) db').1 =
        (exec (getMessages ⟨u.toText, v.toText, limit, cursor⟩) s.db).1 := by
  have hs := MessagingState.attributed_of_reachable h
  constructor
  · intro result hresult m hm
    exact serves_of_exec_eq_ok hs huv hresult hm
  · intro db' hsame
    exact exec_getMessages_congr hsame hs.wellFormed.toValid hs.messageIds huv limit cursor

/-- Two users have written to each other, and a third one to one of them at the same time. -/
def threeUsersRun : List MessagingAction :=
  let env (n : Nat) : SendEnv :=
    { sampleEnv fun _ => none with
      conversationId := sampleId (0x10 + n)
      messageId := sampleId (0x20 + n)
      eventId := sampleId (0x30 + n)
      sequenceNumber := n }
  let input (sender receiver : Nat) (message : JsString) : SendMessageInput :=
    ⟨(sampleId sender).toText, (sampleId receiver).toText, message, js "r"⟩
  [.register (sampleUser 1), .register (sampleUser 2), .register (sampleUser 0xAB),
    .send (env 1) (input 1 0xAB (js "hi")), .proceed 0, .proceed 0, .proceed 0,
    .send (env 2) (input 2 0xAB (js "secret")), .proceed 1, .proceed 1, .proceed 1,
    .proceed 0, .send (env 3) (input 0xAB 1 (js "hello")), .proceed 2, .proceed 2, .proceed 2]

/-- The page that the second user is served about the first one. -/
def servedToSecond (s : MessagingState) : Except Thrown MessagePageResult :=
  (exec (getMessages ⟨(sampleId 0xAB).toText, (sampleId 1).toText, 50, none⟩) s.db).1

/-- The two messages of one conversation, as one of its users is served them; the same page is
served once the message of the third user is stored as well. -/
theorem conversation_confidential_sample : ∃ (s t : MessagingState) (result : MessagePageResult),
    s.db.messages.length = 2 ∧ t.db.messages.length = 3 ∧
      servedToSecond s = .ok result ∧ result.messages.length = 2 ∧
        (∀ m ∈ result.messages, s.Serves (sampleId 0xAB) (sampleId 1) m) ∧
        servedToSecond t = .ok result := by
  have hrun : (messagingSystem.runFrom ⟨Database.empty, []⟩ threeUsersRun).any (fun s =>
      (messagingSystem.runFrom s [.proceed 1]).any fun t => decide
        (s.db.messages.length = 2 ∧ t.db.messages.length = 3 ∧
          (∃ result, (servedToSecond s).toOption = some result ∧ result.messages.length = 2) ∧
          t.db.hasUser (sampleId 1) = s.db.hasUser (sampleId 1) ∧
          t.db.conversations.filter (·.isBetween (sampleId 0xAB) (sampleId 1)) =
            s.db.conversations.filter (·.isBetween (sampleId 0xAB) (sampleId 1)) ∧
          t.db.messagesBetween (sampleId 0xAB) (sampleId 1) =
            s.db.messagesBetween (sampleId 0xAB) (sampleId 1))) = true := by
    decide +kernel
  obtain ⟨s, hs, ht⟩ := (Option.any_eq_true _ _).mp hrun
  obtain ⟨t, -, hcheck⟩ := (Option.any_eq_true _ _).mp ht
  obtain ⟨htwo, hthree, ⟨result, hresult, hlength⟩, huser, hconversations, hmessages⟩ :=
    of_decide_eq_true hcheck
  have hok : servedToSecond s = .ok result := by
    revert hresult
    cases servedToSecond s with
    | error e =>
      intro hresult
      cases hresult
    | ok served =>
      intro hresult
      rw [Option.some.inj hresult]
  have hreach := Reachable.of_runFrom (S := messagingSystem) (.init rfl) hs
  have hne : sampleId 0xAB ≠ sampleId 1 := by decide +kernel
  obtain ⟨hserves, hsame⟩ := conversation_confidential hreach hne 50 none
  exact ⟨s, t, result, htwo, hthree, hok, hlength, hserves result hok,
    (hsame t.db ⟨huser, .of_eq hconversations, .of_eq hmessages⟩).trans hok⟩

end MernChat
