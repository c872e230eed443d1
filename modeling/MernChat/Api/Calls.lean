import MernChat.Api.Server

/-!
# The calls of the handlers

The handlers take the calls of the services apart, operation by operation. The operations of a
registration are `registerUser`, and the operations of a call of `sendMessage` are what is left of
the call: the last one returns or throws what the call does.

## Main definitions

* `SendCall.rest`: what is left of a call

## Main results

* `exec_registerUser_eq`: the statements of a registration
* `proceed_rest`: an operation, and what is left after it
* `proceed_users`: a call does not change the users
* `proceed_returned`: a call that returns has stored its message
-/

namespace MernChat.Api

open Library

/-! ## Registrations -/

section Register

variable {B : Backend} {db : AuthDatabase}

/-- **The statements of a registration**, one after the other, are `registerUser`. -/
theorem exec_registerUser_eq (env : RegisterEnv) (body : SignupBody) :
    exec (registerUser B.bcrypt B.toLowerCase env body) db =
      match findExisting B body db with
      | some error => (.error error, db)
      | none =>
        match createUser env.id (newUser B env body) env.now db with
        | .error error => (.error error, db)
        | .ok (user, db') => (.ok (toUserRecord user), db') := by
  unfold registerUser
  split
  · rename_i fullname email password confirmPassword
    simp only [findExisting, newUser, Option.getD_some]
    split_ifs with hchecks hsame
    · rw [exec_bind_error (exec_require_neg (not_not.mpr hchecks) _ _)]
    · rw [exec_bind_ok (exec_require_pos hchecks _ _), exec_bind_ok (exec_require_pos hsame _ _)]
      unfold readIn
      cases hfind : findByEmail (normalizeEmail B.toLowerCase email) false db with
      | error e => rw [exec_bind_error (exec_query_error rfl hfind)]; rfl
      | ok r =>
        obtain ⟨existing, db'⟩ := r
        obtain ⟨rfl, -⟩ := findByEmail_isNone hfind
        rw [exec_bind_ok (exec_query_ok rfl hfind)]
        cases existing with
        | some user => rw [exec_bind_error (exec_require_neg (by simp) _ _)]; rfl
        | none =>
          rw [exec_bind_ok
            (exec_require_pos (p := (none : Option UserRecord).isNone = true) rfl _ _)]
          simp only [Except.map]
          cases hcreate : createUser env.id ⟨trim fullname, normalizeEmail B.toLowerCase email,
              B.bcrypt.hash env.salt password 12⟩ env.now db' with
          | error e => rw [exec_bind_error (exec_query_error rfl hcreate)]
          | ok r => rw [exec_bind_ok (exec_query_ok rfl hcreate)]; rfl
    · rw [exec_bind_ok (exec_require_pos hchecks _ _),
        exec_bind_error (exec_require_neg hsame _ _)]
  · rename_i hbody
    have hinvalid : findExisting B body db = some invalidSignup := by
      unfold findExisting
      split
      · exact (hbody _ _ _ _ rfl).elim
      · rfl
    rw [hinvalid]
    rfl

end Register

/-! ## What is left of a call -/

/-- What is left of a call that has not ended. -/
def restOf (call : SendCall) : Option (Prog Database Thrown SendMessageResult) :=
  match call.phase with
  | .checkReceiver => some (sendMessage call.env call.input)
  | .findConversation =>
    some (findOrCreateConversation call.env call.input.senderId call.input.receiverId >>=
      storeAndSerialize call.env call.input)
  | .createConversation =>
    some (createDirectConversation call.env call.input.senderId call.input.receiverId >>=
      storeAndSerialize call.env call.input)
  | .storeMessage conversation => some (storeAndSerialize call.env call.input conversation)
  | .ended => none

section Calls

variable {call : SendCall} {phase : SendPhase} {db db' : Database}

/-- The last operation of a call returns or throws what is left of it. -/
structure Ends (call : SendCall) (p : Prog Database Thrown SendMessageResult) (db db' : Database) :
    Prop where
  outcome : outcome call db = some ((exec p db).1.map SendMessageResult.message)
  tables : (exec p db).2 = db'

/-- An operation leaves what is left of the call. -/
structure GoesOn (call : SendCall) (p : Prog Database Thrown SendMessageResult) (phase : SendPhase)
    (db db' : Database) : Prop where
  outcome : outcome call db = none
  rest : ∃ p', restOf { call with phase } = some p' ∧ exec p' db' = exec p db

/-- **An operation, and what is left of its call.** -/
theorem proceed_rest {p : Prog Database Thrown SendMessageResult} (hp : restOf call = some p)
    (db : Database) : ∃ phase db', call.proceed db = some (phase, db') ∧
      (Ends call p db db' ∧ phase = .ended ∨ GoesOn call p phase db db') := by
  obtain ⟨env, input, phase⟩ := call
  cases phase with
  | checkReceiver =>
    obtain rfl := Option.some.inj hp
    by_cases hne : input.senderId = input.receiverId
    · have hexec : exec (sendMessage env input) db = (.error selfMessage, db) :=
        exec_bind_error (exec_require_neg (not_not.mpr hne) _ _)
      refine ⟨.ended, db, if_pos hne, Or.inl ⟨⟨?_, ?_⟩, rfl⟩⟩
      · rw [hexec]
        exact if_pos hne
      · rw [hexec]
    · have hsend : exec (sendMessage env input) db = _ := exec_bind_ok (exec_require_pos hne _ _)
      cases hexec : exec (query (env.fault .findUserById) (findUserById input.receiverId)) db with
      | mk receiver db' =>
        cases receiver with
        | error e =>
          rw [exec_bind_error hexec] at hsend
          refine ⟨.ended, db', by simp [SendCall.proceed, hne, hexec], Or.inl ⟨⟨?_, ?_⟩, rfl⟩⟩
          · simp [outcome, hne, hexec, hsend, Except.map]
          · rw [hsend]
        | ok receiver =>
          rw [exec_bind_ok hexec] at hsend
          cases receiver with
          | none =>
            rw [exec_bind_error (exec_require_neg (by simp) _ _)] at hsend
            refine ⟨.ended, db', by simp [SendCall.proceed, hne, hexec], Or.inl ⟨⟨?_, ?_⟩, rfl⟩⟩
            · simp [outcome, hne, hexec, hsend, Except.map]
            · rw [hsend]
          | some receiver =>
            rw [exec_bind_ok (exec_require_pos Option.isSome_some _ _)] at hsend
            refine ⟨.findConversation, db', by simp [SendCall.proceed, hne, hexec], Or.inr ⟨?_, ?_⟩⟩
            · simp [outcome, hne, hexec]
            · exact ⟨_, rfl, hsend.symm⟩
  | findConversation =>
    obtain rfl := Option.some.inj hp
    cases hexec : exec (query (env.fault .findDirectConversation)
        (findDirectConversation input.senderId input.receiverId)) db with
    | mk found db' =>
      have hrest : exec (findOrCreateConversation env input.senderId input.receiverId >>=
          storeAndSerialize env input) db = _ :=
        congrArg (fun x => exec x db) (bind_assoc _ _ _)
      cases found with
      | error e =>
        rw [exec_bind_error hexec] at hrest
        refine ⟨.ended, db', by simp [SendCall.proceed, hexec], Or.inl ⟨⟨?_, ?_⟩, rfl⟩⟩
        · simp [outcome, hexec, hrest, Except.map]
        · rw [hrest]
      | ok found =>
        rw [exec_bind_ok hexec] at hrest
        cases found with
        | none =>
          refine ⟨.createConversation, db', by simp [SendCall.proceed, hexec], Or.inr ⟨?_, ?_⟩⟩
          · simp [outcome, hexec]
          · exact ⟨_, rfl, hrest.symm⟩
        | some conversation =>
          refine ⟨.storeMessage conversation, db', by simp [SendCall.proceed, hexec],
            Or.inr ⟨?_, ?_⟩⟩
          · simp [outcome, hexec]
          · exact ⟨_, rfl, hrest.symm⟩
  | createConversation =>
    obtain rfl := Option.some.inj hp
    cases hexec : exec (createDirectConversation env input.senderId input.receiverId) db with
    | mk created db' =>
      cases created with
      | error e =>
        have hrest : exec (createDirectConversation env input.senderId input.receiverId >>=
          storeAndSerialize env input) db = _ := exec_bind_error hexec
        refine ⟨.ended, db', by simp [SendCall.proceed, hexec], Or.inl ⟨⟨?_, ?_⟩, rfl⟩⟩
        · simp [outcome, hexec, hrest, Except.map]
        · rw [hrest]
      | ok conversation =>
        refine ⟨.storeMessage conversation, db', by simp [SendCall.proceed, hexec],
          Or.inr ⟨?_, ?_⟩⟩
        · simp [outcome, hexec]
        · exact ⟨_, rfl, (exec_bind_ok hexec).symm⟩
  | storeMessage conversation =>
    obtain rfl := Option.some.inj hp
    refine ⟨.ended, _, rfl, Or.inl ⟨⟨?_, rfl⟩, rfl⟩⟩
    simp only [outcome]
    split
    · rename_i result hresult
      rw [hresult]
      rfl
    · rename_i e he
      rw [he]
      rfl
  | ended => cases hp

theorem exists_restOf (h : call.phase ≠ .ended) : ∃ p, restOf call = some p := by
  unfold restOf
  cases hphase : call.phase with
  | ended => exact absurd hphase h
  | _ => exact ⟨_, rfl⟩

/-- A call that has not returned or thrown has an operation left. -/
theorem proceed_pending (hpending : call.phase ≠ .ended)
    (h : call.proceed db = some (phase, db')) (ho : outcome call db = none) : phase ≠ .ended := by
  obtain ⟨p, hp⟩ := exists_restOf hpending
  obtain ⟨phase', t, hproceed, ⟨hends, -⟩ | hgoes⟩ := proceed_rest hp db
  · rw [hends.outcome] at ho
    cases ho
  · obtain ⟨rfl, rfl⟩ := Prod.mk.inj (Option.some.inj (h.symm.trans hproceed))
    obtain ⟨p', hp', -⟩ := hgoes.rest
    rintro rfl
    cases hp'

/-! ## What a call leaves alone, and what it leaves -/

/-- A call does not change the users. -/
theorem proceed_users (hw : db.WellFormed)
    (hresolved : ∀ conversation, call.phase = .storeMessage conversation →
      Resolved db.conversations call.input conversation)
    (h : call.proceed db = some (phase, db')) : db'.users = db.users := by
  unfold SendCall.proceed at h
  cases hphase : call.phase with
  | checkReceiver =>
    simp only [hphase] at h
    have hdb := exec_findUserById (call.env.fault .findUserById) call.input.receiverId db
    split_ifs at h
    · obtain ⟨-, rfl⟩ := Prod.mk.inj (Option.some.inj h)
      rfl
    · split at h
      all_goals
        rename_i hexec
        rw [hexec] at hdb
        obtain ⟨-, rfl⟩ := Prod.mk.inj (Option.some.inj h)
        exact congrArg Database.users hdb
  | findConversation =>
    simp only [hphase] at h
    obtain ⟨hdb, -⟩ :=
      exec_findDirectConversation (call.env.fault .findDirectConversation) call.input db
    split at h
    all_goals
      rename_i hexec
      rw [hexec] at hdb
      obtain ⟨-, rfl⟩ := Prod.mk.inj (Option.some.inj h)
      exact congrArg Database.users hdb
  | createConversation =>
    simp only [hphase] at h
    split at h
    all_goals
      rename_i hexec
      obtain ⟨-, rfl⟩ := Prod.mk.inj (Option.some.inj h)
      rcases exec_transaction_cases hexec with ⟨rfl, -⟩ | ⟨r, hbody, -⟩
      · rfl
      · obtain ⟨a, b, -, -, -, -, -, ⟨c, -, -, -, rfl⟩ | ⟨-, -, -, -, -, rfl⟩⟩ :=
          (createConversation_eq_ok hw.toValid fun a b c _ hc => hw.hasMember hc).mp hbody
        · rfl
        · rfl
  | storeMessage conversation =>
    simp only [hphase] at h
    obtain ⟨-, rfl⟩ := Prod.mk.inj (Option.some.inj h)
    obtain ⟨c, hmem, rfl, -⟩ := hresolved conversation hphase
    have hthere := Database.hasConversation_iff.mpr ⟨c, hmem, rfl⟩
    have hstore :
        (exec (storeAndSerialize call.env call.input (mapConversation c)) db).2 = db ∨ _ :=
      exec_store_cases hthere
    rcases hstore with he | ⟨m, row, -, he⟩
    · rw [he]
    · rw [he]
      rfl
  | ended =>
    simp only [hphase] at h
    cases h

/-- **A call that returns** has stored the message it returns, under a new id. -/
theorem proceed_returned (hresolved : ∀ conversation, call.phase = .storeMessage conversation →
      Resolved db.conversations call.input conversation)
    (h : call.proceed db = some (phase, db')) {message : SerializedMessage}
    (ho : outcome call db = some (.ok message)) :
    ∃ x y row, SentBy call.env call.input x y row ∧ InConversation db' x y row ∧
      row ∈ db'.messages ∧ db.hasMessage row.id = false ∧
        serializeMessage (mapMessage row) call.input.receiverId = some message := by
  unfold outcome at ho
  cases hphase : call.phase with
  | checkReceiver =>
    simp only [hphase] at ho
    split_ifs at ho
    · cases ho
    · split at ho <;> cases ho
  | findConversation =>
    simp only [hphase] at ho
    split at ho <;> cases ho
  | createConversation =>
    simp only [hphase] at ho
    split at ho <;> cases ho
  | storeMessage conversation =>
    simp only [hphase] at ho
    obtain ⟨c, hmem, rfl, x, y, hx, hy, hbetween⟩ := hresolved conversation hphase
    have hthere := Database.hasConversation_iff.mpr ⟨c, hmem, rfl⟩
    simp only [SendCall.proceed, hphase] at h
    obtain ⟨rfl, rfl⟩ := Prod.mk.inj (Option.some.inj h)
    cases hexec : exec (storeAndSerialize call.env call.input (mapConversation c)) db with
    | mk o db' =>
      rw [hexec] at ho
      cases o with
      | error e => cases ho
      | ok result =>
        obtain rfl := Except.ok.inj (Option.some.inj ho)
        obtain ⟨newMessage, t, htransaction, hserialize⟩ := exec_bind_eq_ok.mp hexec
        -- the transaction has returned the row it has stored
        rcases exec_transaction_cases htransaction with ⟨-, e, he⟩ | ⟨r, hbody, hr⟩
        · cases he
        · obtain rfl : newMessage = r := by
            rcases hr with hr | ⟨e, he⟩
            · exact Except.ok.inj hr
            · cases he
          obtain ⟨-, -, m, row, hrows, rfl, rfl⟩ := (storeMessage_eq_ok hthere).mp hbody
          obtain ⟨u, content, hu, -, ht, hm⟩ := hrows.message
          obtain rfl := Option.some.inj (hx.symm.trans hu)
          split at hserialize
          · rename_i message hmessage
            obtain ⟨hresult, rfl⟩ := Prod.mk.inj hserialize
            obtain rfl := Except.ok.inj hresult
            exact ⟨x, y, m, ⟨hx, hy, by rw [ht, hm]; rfl, by rw [hm]; rfl, by rw [hm]; rfl⟩,
              ⟨c, hmem, by rw [hm]; rfl, hbetween⟩, List.mem_append_right _ List.mem_cons_self,
              by rw [hm]; exact hrows.messageId, hmessage⟩
          · cases hserialize
  | ended =>
    simp only [hphase] at ho
    cases ho

end Calls

end MernChat.Api
