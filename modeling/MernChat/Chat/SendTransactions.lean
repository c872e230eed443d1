import MernChat.Chat.SendMessage
import MernChat.Library.Table

/-!
# The transactions of `sendMessage`

What each of the two transactions needs in order to run to its end, and the rows it adds. The
creation adds a conversation with its two memberships, or finds the conversation with both
there; the store adds a message and its outbox event.

## Main definitions

* `Database.Valid`, `Database.WellFormed`: the constraints of the tables, and their invariant
* `Database.withConversation`, `Database.withMessage`: the rows of a creation and of a store

## Main results

* `createConversation_eq_ok`, `exec_createDirectConversation_cases`, `storeMessage_eq_ok`
* `Database.WellFormed.withConversation`, `Database.WellFormed.withMessage`
-/

namespace MernChat

open Library

variable {env : SendEnv} {input : SendMessageInput} {db db' : Database}

/-! ## Conversations and their memberships -/

namespace ConversationRow

def pair (c : ConversationRow) : Uuid × Uuid := (c.memberAId, c.memberBId)

/-- The conversation is that of the users `u` and `v`. -/
def isBetween (u v : Uuid) (c : ConversationRow) : Bool := c.pair == (u, v) || c.pair == (v, u)

theorem isBetween_iff {c : ConversationRow} {u v : Uuid} : c.isBetween u v = true ↔
    c.memberAId = u ∧ c.memberBId = v ∨ c.memberAId = v ∧ c.memberBId = u := by
  simp only [isBetween, pair, Bool.or_eq_true, beq_iff_eq, Prod.mk.injEq]

end ConversationRow

namespace Database

/-- The users with a membership row of the conversation `c`. -/
def membersOf (db : Database) (c : Uuid) : List Uuid :=
  (db.conversation_members.filter fun m => m.conversationId == c).map MemberRow.userId

/-- The constraints of the tables: keys are unique, a conversation is kept once, under its two
members in their order, and memberships are of conversations. -/
structure Valid (db : Database) : Prop where
  userIds : (db.users.map UserRow.id).Nodup
  conversationIds : (db.conversations.map ConversationRow.id).Nodup
  pairs : (db.conversations.map ConversationRow.pair).Nodup
  canonical : ∀ c ∈ db.conversations, c.memberAId < c.memberBId
  belongs : ∀ m ∈ db.conversation_members, ∃ c ∈ db.conversations, c.id = m.conversationId

/-- The invariant of the tables: every conversation has exactly the membership rows of its two
members. -/
structure WellFormed (db : Database) : Prop extends db.Valid where
  members : ∀ c ∈ db.conversations, db.membersOf c.id = [c.memberAId, c.memberBId]

theorem hasConversation_iff {id : Uuid} :
    db.hasConversation id = true ↔ ∃ c ∈ db.conversations, c.id = id := by
  simp [hasConversation]

theorem hasMember_iff {c u : Uuid} : db.hasMember c u = true ↔ u ∈ db.membersOf c := by
  simp only [hasMember, membersOf, List.any_eq_true, List.mem_map, List.mem_filter,
    Bool.and_eq_true, beq_iff_eq]
  constructor
  · rintro ⟨m, hm, hc, hu⟩
    exact ⟨m, ⟨hm, hc⟩, hu⟩
  · rintro ⟨m, ⟨hm, hc⟩, hu⟩
    exact ⟨m, hm, hc, hu⟩

theorem conversationOf_eq_some {a b : Uuid} {c : ConversationRow}
    (h : db.conversationOf a b = some c) :
    c ∈ db.conversations ∧ c.memberAId = a ∧ c.memberBId = b := by
  have hp := List.find?_some h
  simp only [Bool.and_eq_true, beq_iff_eq] at hp
  exact ⟨List.mem_of_find?_eq_some h, hp⟩

theorem conversationOf_eq_none {a b : Uuid} :
    db.conversationOf a b = none ↔ ∀ c ∈ db.conversations, c.pair ≠ (a, b) := by
  simp only [conversationOf, List.find?_eq_none, Bool.and_eq_true, beq_iff_eq,
    ConversationRow.pair, ne_eq, Prod.mk.injEq]

/-- The tables after a conversation is created with its memberships. -/
def withConversation (db : Database) (row : ConversationRow) (now : Int) : Database :=
  ((db.addConversation row).addMember ⟨row.id, row.memberAId, now⟩).addMember
    ⟨row.id, row.memberBId, now⟩

/-- The tables after a message is stored with its event. -/
def withMessage (db : Database) (message : MessageRow) (row : OutboxRow) : Database :=
  (db.addMessage message).addOutboxEvent row

/-- The conversation of two users, in the order of their ids, is the only one between them. -/
theorem Valid.filter_isBetween (h : db.Valid) {c : ConversationRow} (hc : c ∈ db.conversations)
    {u v : Uuid} (hb : c.isBetween u v = true) :
    db.conversations.filter (·.isBetween u v) = [c] := by
  have hpair : ∀ d ∈ db.conversations, d.isBetween u v = true ↔ d.pair = c.pair := by
    intro d hd
    have hdlt := h.canonical d hd
    have hclt := h.canonical c hc
    rw [ConversationRow.isBetween_iff] at hb ⊢
    rw [ConversationRow.pair, ConversationRow.pair, Prod.mk.injEq]
    constructor
    · -- two pairs of the same users, each in order, are one pair
      rintro (⟨hda, hdb⟩ | ⟨hda, hdb⟩) <;> rcases hb with ⟨hca, hcb⟩ | ⟨hca, hcb⟩
      · exact ⟨hda.trans hca.symm, hdb.trans hcb.symm⟩
      · rw [hda, hdb] at hdlt
        rw [hca, hcb] at hclt
        exact absurd hdlt hclt.asymm
      · rw [hda, hdb] at hdlt
        rw [hca, hcb] at hclt
        exact absurd hdlt hclt.asymm
      · exact ⟨hda.trans hca.symm, hdb.trans hcb.symm⟩
    · rintro ⟨hda, hdb⟩
      rw [hda, hdb]
      exact hb
  have heq : db.conversations.filter (·.isBetween u v) =
      db.conversations.filter fun d => d.pair == c.pair := by
    apply List.filter_congr
    intro d hd
    rw [Bool.eq_iff_iff, hpair d hd, beq_iff_eq]
  rw [heq]
  exact filter_key_eq h.pairs hc

theorem insertUser_eq_ok {row : UserRow} {r : Unit} (h : insertUser row db = .ok (r, db')) :
    db.hasUser row.id = false ∧ db' = { db with users := db.users ++ [row] } := by
  simp only [insertUser, Tx.bind_eq_ok, Tx.get_eq_ok, constraint_eq_ok, Tx.set_eq_ok] at h
  obtain ⟨_, _, ⟨rfl, rfl⟩, _, _, ⟨hid, rfl⟩, _, _, ⟨-, rfl⟩, rfl⟩ := h
  exact ⟨hid, rfl⟩

namespace WellFormed

theorem empty : Database.empty.WellFormed := by
  refine ⟨⟨?_, ?_, ?_, ?_, ?_⟩, ?_⟩ <;> simp [Database.empty]

/-- A new user keeps the invariant. -/
theorem insertUser (h : db.WellFormed) {row : UserRow} {r : Unit}
    (hok : MernChat.insertUser row db = .ok (r, db')) : db'.WellFormed := by
  obtain ⟨hid, rfl⟩ := insertUser_eq_ok hok
  have hfresh : ∀ u ∈ db.users, u.id ≠ row.id := by simpa [Database.hasUser] using hid
  refine ⟨⟨?_, h.conversationIds, h.pairs, h.canonical, h.belongs⟩, h.members⟩
  show ((db.users ++ [row]).map UserRow.id).Nodup
  rw [List.map_append, List.nodup_append]
  exact ⟨h.userIds, by simp, by simpa using hfresh⟩

/-- A conversation has the memberships of its two members. -/
theorem hasMember (h : db.WellFormed) {a b : Uuid} {c : ConversationRow}
    (hc : db.conversationOf a b = some c) :
    db.hasMember c.id a = true ∧ db.hasMember c.id b = true := by
  obtain ⟨hmem, rfl, rfl⟩ := conversationOf_eq_some hc
  have hmembers := h.members c hmem
  constructor <;> rw [hasMember_iff, hmembers] <;> simp

/-- **A created conversation** keeps the invariant. -/
theorem withConversation (h : db.WellFormed) {id a b : Uuid} (now now' : Int) (hlt : a < b)
    (hpair : db.conversationOf a b = none) (hid : db.hasConversation id = false) :
    (db.withConversation (newConversation id a b now) now').WellFormed := by
  have hfresh : ∀ c ∈ db.conversations, c.id ≠ id := by
    simpa [hasConversation] using hid
  -- no membership is that of a conversation to come
  have hnone : db.membersOf id = [] := by
    rw [membersOf, List.map_eq_nil_iff, List.filter_eq_nil_iff]
    intro m hm hmid
    obtain ⟨c, hc, hcm⟩ := h.belongs m hm
    exact hfresh c hc (hcm.trans (beq_iff_eq.mp hmid))
  -- the two new memberships are those of the new conversation
  have hmembers : ∀ c, (db.withConversation (newConversation id a b now) now').membersOf c =
      db.membersOf c ++ if c = id then [a, b] else [] := by
    intro c
    simp only [membersOf, Database.withConversation, addMember, addConversation, newConversation,
      List.filter_append, List.map_append, List.append_assoc]
    by_cases hc : c = id
    · simp [hc]
    · simp [hc, Ne.symm hc]
  refine ⟨⟨?_, ?_, ?_, ?_, ?_⟩, ?_⟩
  · exact h.userIds
  · show ((db.conversations ++ [newConversation id a b now]).map ConversationRow.id).Nodup
    rw [List.map_append, List.nodup_append]
    refine ⟨h.conversationIds, by simp, ?_⟩
    simpa [newConversation] using hfresh
  · show ((db.conversations ++ [newConversation id a b now]).map ConversationRow.pair).Nodup
    rw [List.map_append, List.nodup_append]
    refine ⟨h.pairs, by simp, ?_⟩
    have hne := conversationOf_eq_none.mp hpair
    simpa [newConversation, ConversationRow.pair] using hne
  · intro c hc
    rcases List.mem_append.mp hc with hc | hc
    · exact h.canonical c hc
    · obtain rfl := List.mem_singleton.mp hc
      exact hlt
  · intro m hm
    simp only [Database.withConversation, addMember, addConversation, List.mem_append,
      List.mem_singleton] at hm ⊢
    rcases hm with (hm | rfl) | rfl
    · obtain ⟨c, hc, hcm⟩ := h.belongs m hm
      exact ⟨c, Or.inl hc, hcm⟩
    · exact ⟨_, Or.inr rfl, rfl⟩
    · exact ⟨_, Or.inr rfl, rfl⟩
  · intro c hc
    rw [hmembers]
    rcases List.mem_append.mp hc with hc | hc
    · rw [if_neg (hfresh c hc), List.append_nil]
      exact h.members c hc
    · obtain rfl := List.mem_singleton.mp hc
      show db.membersOf id ++ (if id = id then [a, b] else []) = [a, b]
      rw [hnone, if_pos rfl]
      rfl

/-- A stored message keeps the invariant. -/
theorem withMessage (h : db.WellFormed) (message : MessageRow) (row : OutboxRow) :
    (db.withMessage message row).WellFormed :=
  ⟨⟨h.userIds, h.conversationIds, h.pairs, h.canonical, h.belongs⟩, h.members⟩

end WellFormed

end Database

/-! ## The creation -/

/-- The ids of a pair of members, in the order of their strings. -/
structure ParsedPair (x y : JsString) (a b : Uuid) : Prop where
  fst : Uuid.parse (canonicalizeMemberPair x y).1 = some a
  snd : Uuid.parse (canonicalizeMemberPair x y).2 = some b

theorem resolveConversation_eq_ok {x y : JsString} {o : Option ConversationRow}
    {r : PostgresConversation} :
    resolveConversation env x y o db = .ok (r, db') ↔
      (∃ row, o = some row ∧ r = mapConversation row ∧ db' = db) ∨
        o = none ∧ env.fault .selectConversation = none ∧ ∃ a b c, Uuid.parse x = some a ∧
          Uuid.parse y = some b ∧ db.conversationOf a b = some c ∧ r = mapConversation c ∧
          db' = db := by
  cases o with
  | some row =>
    simp only [resolveConversation, Tx.pure_eq_ok, Option.some.injEq, reduceCtorEq, false_and,
      or_false, exists_eq_left']
    constructor
    · rintro ⟨rfl, rfl⟩
      exact ⟨rfl, rfl⟩
    · rintro ⟨rfl, rfl⟩
      exact ⟨rfl, rfl⟩
  | none =>
    simp only [resolveConversation, Tx.bind_eq_ok, statement_eq_ok, selectDirectConversation_eq_ok,
      Tx.ofOption_eq_ok]
    constructor
    · rintro ⟨_, _, ⟨hf, a, b, ha, hb, rfl, rfl⟩, hmap, rfl⟩
      obtain ⟨c, hc, rfl⟩ := Option.map_eq_some_iff.mp hmap
      exact Or.inr ⟨trivial, hf, a, b, c, ha, hb, hc, rfl, rfl⟩
    · rintro (⟨row, h, -⟩ | ⟨-, hf, a, b, c, ha, hb, hc, rfl, rfl⟩)
      · cases h
      · refine ⟨_, _, ⟨hf, a, b, ha, hb, rfl, rfl⟩, ?_⟩
        simp [hc]

theorem ensureMembership_of_member {c u : Uuid} {x : JsString} {now : Int}
    (hx : Uuid.parse x = some u) (hm : db.hasMember c u = true) {r : Unit} :
    ensureMembership c.toText x now db = .ok (r, db') ↔ db' = db := by
  simp [ensureMembership_eq_ok, hx, hm]

theorem ensureMembership_of_not_member {c u : Uuid} {x : JsString} {now : Int}
    (hx : Uuid.parse x = some u) (hm : db.hasMember c u = false) {r : Unit} :
    ensureMembership c.toText x now db = .ok (r, db') ↔
      db.hasConversation c = true ∧ db.hasUser u = true ∧ db' = db.addMember ⟨c, u, now⟩ := by
  simp [ensureMembership_eq_ok, hx, hm]

/-- The memberships of a conversation just inserted are added. -/
theorem ensureMembership_new {id a b : Uuid} {x y : JsString} (now : Int) (hw : db.Valid)
    (hx : Uuid.parse x = some a) (hy : Uuid.parse y = some b) (hlt : a < b)
    (hid : db.hasConversation id = false) (ha : db.hasUser a = true) (hb : db.hasUser b = true) :
    ensureMembership id.toText x now (db.addConversation (newConversation id a b now)) =
        .ok ((), (db.addConversation (newConversation id a b now)).addMember ⟨id, a, now⟩) ∧
      ensureMembership id.toText y now
          ((db.addConversation (newConversation id a b now)).addMember ⟨id, a, now⟩) =
        .ok ((), db.withConversation (newConversation id a b now) now) := by
  have hnone : ∀ m ∈ db.conversation_members, m.conversationId ≠ id := by
    intro m hm hmid
    obtain ⟨c, hc, hcm⟩ := hw.belongs m hm
    have hthere := Database.hasConversation_iff.mpr ⟨c, hc, hcm.trans hmid⟩
    rw [hid] at hthere
    cases hthere
  -- the foreign keys point at the row just inserted
  have hconv : (db.addConversation (newConversation id a b now)).hasConversation id = true := by
    simp [Database.hasConversation, Database.addConversation, newConversation]
  constructor
  · rw [ensureMembership_of_not_member hx]
    · exact ⟨hconv, ha, rfl⟩
    · simp only [Database.hasMember, Database.addConversation, List.any_eq_false]
      simpa using fun m hm hmid => absurd hmid (hnone m hm)
  · rw [ensureMembership_of_not_member hy]
    · exact ⟨hconv, hb, rfl⟩
    · simp only [Database.hasMember, Database.addConversation, Database.addMember,
        List.any_append, Bool.or_eq_false_iff, List.any_eq_false]
      refine ⟨by simpa using fun m hm hmid => absurd hmid (hnone m hm), ?_⟩
      simp [hlt.ne]

/-- **The statements of the creation**: the pair must be ordered as the values are. A
conversation that is there has its memberships already. -/
theorem createConversation_eq_ok (hw : db.Valid) {x y : JsString}
    (hm : ∀ a b c, ParsedPair x y a b → db.conversationOf a b = some c →
      db.hasMember c.id a = true ∧ db.hasMember c.id b = true) {r : PostgresConversation} :
    createConversation env x y db = .ok (r, db') ↔ ∃ a b, ParsedPair x y a b ∧ a < b ∧
      env.fault .insertConversation = none ∧ env.fault .insertMemberA = none ∧
      env.fault .insertMemberB = none ∧
        ((∃ c, db.conversationOf a b = some c ∧ env.fault .selectConversation = none ∧
            r = mapConversation c ∧ db' = db) ∨
          db.conversationOf a b = none ∧ db.hasConversation env.conversationId = false ∧
            db.hasUser a = true ∧ db.hasUser b = true ∧
            r = mapConversation (newConversation env.conversationId a b env.createAt) ∧
            db' = db.withConversation (newConversation env.conversationId a b env.createAt)
              env.createAt) := by
  simp only [createConversation, Tx.bind_eq_ok, statement_eq_ok, insertConversation_eq_ok,
    resolveConversation_eq_ok, Tx.pure_eq_ok]
  constructor
  · rintro ⟨o, t, ⟨hi, a, b, ha, hb, hlt, hins⟩, c, t', hres, _, t₁, ⟨hfa, hA⟩, _, t₂, ⟨hfb, hB⟩,
      rfl, rfl⟩
    refine ⟨a, b, ⟨ha, hb⟩, hlt, hi, hfa, hfb, ?_⟩
    rcases hins with ⟨hsome, rfl, rfl⟩ | ⟨hnone, hid, hua, hub, rfl, rfl⟩
    · -- the conversation is there, with both memberships
      rcases hres with ⟨row, h, -⟩ | ⟨-, hsel, a', b', d, ha', hb', hd, rfl, rfl⟩
      · cases h
      obtain rfl := Option.some.inj (ha.symm.trans ha')
      obtain rfl := Option.some.inj (hb.symm.trans hb')
      obtain ⟨hmA, hmB⟩ := hm _ _ _ ⟨ha, hb⟩ hd
      obtain rfl := (ensureMembership_of_member ha hmA).mp hA
      obtain rfl := (ensureMembership_of_member hb hmB).mp hB
      exact Or.inl ⟨d, hd, hsel, rfl, rfl⟩
    · -- the conversation is new, and so are its memberships
      rcases hres with ⟨row, h, rfl, rfl⟩ | ⟨h, -⟩
      · obtain rfl := Option.some.inj h
        obtain ⟨hnewA, hnewB⟩ := ensureMembership_new env.createAt hw ha hb hlt hid hua hub
        have hA' := hA.symm.trans hnewA
        simp only [Except.ok.injEq, Prod.mk.injEq] at hA'
        obtain ⟨-, rfl⟩ := hA'
        have hB' := hB.symm.trans hnewB
        simp only [Except.ok.injEq, Prod.mk.injEq] at hB'
        obtain ⟨-, rfl⟩ := hB'
        exact Or.inr ⟨hnone, hid, hua, hub, rfl, rfl⟩
      · cases h
  · rintro ⟨a, b, ⟨ha, hb⟩, hlt, hi, hfa, hfb, h⟩
    rcases h with ⟨d, hd, hsel, rfl, rfl⟩ | ⟨hnone, hid, hua, hub, rfl, rfl⟩
    · obtain ⟨hmA, hmB⟩ := hm _ _ _ ⟨ha, hb⟩ hd
      exact ⟨none, db', ⟨hi, a, b, ha, hb, hlt, Or.inl ⟨by simp [hd], rfl, rfl⟩⟩, mapConversation d,
        db', Or.inr ⟨rfl, hsel, a, b, d, ha, hb, hd, rfl, rfl⟩, (), db',
        ⟨hfa, (ensureMembership_of_member ha hmA).mpr rfl⟩, (), db',
        ⟨hfb, (ensureMembership_of_member hb hmB).mpr rfl⟩, rfl, rfl⟩
    · obtain ⟨hnewA, hnewB⟩ := ensureMembership_new env.createAt hw ha hb hlt hid hua hub
      exact ⟨_, _, ⟨hi, a, b, ha, hb, hlt, Or.inr ⟨hnone, hid, hua, hub, rfl, rfl⟩⟩, _, _,
        Or.inl ⟨_, rfl, rfl, rfl⟩, (), _, ⟨hfa, hnewA⟩, (), _, ⟨hfb, hnewB⟩, rfl, rfl⟩

/-- **A creation**, however it ends, keeps the invariant and the conversations, and returns the one
of the pair. -/
theorem exec_createDirectConversation_cases (hw : db.WellFormed) {x y : JsString}
    {o : Except Thrown PostgresConversation}
    (h : exec (createDirectConversation env x y) db = (o, db')) :
    db'.WellFormed ∧ (∀ c ∈ db.conversations, c ∈ db'.conversations) ∧
      ∀ r, o = .ok r → ∃ c ∈ db'.conversations, r = mapConversation c ∧
        ParsedPair x y c.memberAId c.memberBId := by
  rcases exec_transaction_cases h with ⟨rfl, e, rfl⟩ | ⟨r, hbody, ho⟩
  · refine ⟨hw, fun c hc => hc, ?_⟩
    intro r hr
    cases hr
  · -- what the body made is there, also when the commit is not acknowledged
    have hr : ∀ r', o = .ok r' → r' = r := by
      rintro r' rfl
      rcases ho with ho | ⟨e, ho⟩
      · exact Except.ok.inj ho
      · cases ho
    obtain ⟨a, b, hp, hlt, -, -, -, hcase⟩ :=
      (createConversation_eq_ok hw.toValid fun a b c _ hc => hw.hasMember hc).mp hbody
    rcases hcase with ⟨c, hc, -, rfl, rfl⟩ | ⟨hpair, hid, -, -, rfl, rfl⟩
    · obtain ⟨hmem, rfl, rfl⟩ := Database.conversationOf_eq_some hc
      exact ⟨hw, fun c hc => hc, fun r' hr' => ⟨c, hmem, hr r' hr', hp⟩⟩
    · refine ⟨hw.withConversation _ _ hlt hpair hid, fun c hc => List.mem_append_left _ hc, ?_⟩
      intro r' hr'
      exact ⟨_, List.mem_append_right _ (List.mem_singleton.mpr rfl), hr r' hr', hp⟩

/-- A creation stores no message. -/
theorem exec_createDirectConversation_messages (hw : db.WellFormed) {x y : JsString}
    {o : Except Thrown PostgresConversation}
    (h : exec (createDirectConversation env x y) db = (o, db')) : db'.messages = db.messages := by
  rcases exec_transaction_cases h with ⟨rfl, -⟩ | ⟨r, hbody, -⟩
  · rfl
  · obtain ⟨a, b, -, -, -, -, -, ⟨c, -, -, -, rfl⟩ | ⟨-, -, -, -, -, rfl⟩⟩ :=
      (createConversation_eq_ok hw.toValid fun a b c _ hc => hw.hasMember hc).mp hbody
    · rfl
    · rfl

/-! ## The store -/

/-- The message row of a call that resolved the conversation `c`, from the sender `u`. -/
def storedMessage (env : SendEnv) (c u : Uuid) (content : JsString) : MessageRow :=
  newMessage env.messageId c u content env.storeAt

/-- The event of that message. -/
def storedEvent (env : SendEnv) (input : SendMessageInput) (c : Uuid)
    (createdAt occurredAt : JsString) : OutboxInsertInput :=
  messageInsert env.eventId.toText occurredAt
    { messageId := env.messageId.toText
      conversationId := c.toText
      senderId := input.senderId
      recipientId := input.receiverId
      createdAt
      correlationId := input.correlationId }

/-- The rows of a message: the message, and the outbox row of its event. -/
structure StoredRows (env : SendEnv) (input : SendMessageInput) (db : Database) (c : Uuid)
    (m : MessageRow) (row : OutboxRow) : Prop where
  message : ∃ u content, Uuid.parse input.senderId = some u ∧ db.hasUser u = true ∧
    pgText (trim input.message) = some content ∧ m = storedMessage env c u content
  messageId : db.hasMessage env.messageId = false
  event : ∃ createdAt occurredAt, toISOString (readTimestamp env.storeAt) = some createdAt ∧
    toISOString (timeClip env.dateNow) = some occurredAt ∧
    insertOutboxEvent (storedEvent env input c createdAt occurredAt) env.sequenceNumber
      env.storeAt = some row
  fresh : db.hasOutboxEvent row = false

/-- **The statements of the store.** -/
theorem storeMessage_eq_ok {c : ConversationRow} (hc : db.hasConversation c.id = true)
    {r : PostgresMessage} :
    storeMessage env input (mapConversation c) db = .ok (r, db') ↔
      env.fault .insertMessage = none ∧ env.fault .insertOutboxEvent = none ∧
        ∃ m row, StoredRows env input db c.id m row ∧ r = mapMessage m ∧
          db' = db.withMessage m row := by
  simp only [storeMessage, Tx.bind_eq_ok, statement_eq_ok, createMessageWithClient_eq_ok,
    insertOutboxRow_eq_ok, Tx.ofOption_eq_ok, Tx.pure_eq_ok]
  constructor
  · rintro ⟨_, _, ⟨hfm, id, d, u, content, hid, hd, hu, ht, hmes, -, huser, rfl, rfl⟩, createdAt, _,
      ⟨hcr, rfl⟩, occurredAt, _, ⟨hoc, rfl⟩, _, _, ⟨hfo, row, hrow, hfresh, rfl⟩, rfl, rfl⟩
    -- the statements parse the ids that were printed for them
    obtain rfl := Option.some.inj ((Uuid.parse_toText _).symm.trans hid)
    obtain rfl := Option.some.inj ((Uuid.parse_toText _).symm.trans hd)
    exact ⟨hfm, hfo, _, row, ⟨⟨u, content, hu, huser, ht, rfl⟩, hmes,
      ⟨createdAt, occurredAt, hcr, hoc, hrow⟩, hfresh⟩, rfl, rfl⟩
  · rintro ⟨hfm, hfo, m, row, hs, rfl, rfl⟩
    obtain ⟨u, content, hu, huser, ht, rfl⟩ := hs.message
    obtain ⟨createdAt, occurredAt, hcr, hoc, hrow⟩ := hs.event
    exact ⟨_, _, ⟨hfm, env.messageId, c.id, u, content, Uuid.parse_toText _, Uuid.parse_toText _,
      hu, ht, hs.messageId, hc, huser, rfl, rfl⟩, createdAt, _, ⟨hcr, rfl⟩, occurredAt, _,
      ⟨hoc, rfl⟩, (), _, ⟨hfo, row, hrow, hs.fresh, rfl⟩, rfl, rfl⟩

/-- What the store needs of its inputs: a sender who exists, texts the columns can hold, ids and
a number that are not taken, and clocks in the range of dates. -/
structure Storable (env : SendEnv) (input : SendMessageInput) (db : Database) : Prop where
  sender : ∃ u, Uuid.parse input.senderId = some u ∧ db.hasUser u = true
  content : ∃ t, pgText (trim input.message) = some t
  strings : jsonbString input.senderId = true ∧ jsonbString input.receiverId = true ∧
    jsonbString input.correlationId = true
  messageId : db.hasMessage env.messageId = false
  fresh : ∀ r ∈ db.outbox_events, r.id ≠ env.eventId ∧ r.sequenceNumber ≠ env.sequenceNumber
  storeAt : ∃ ms, readTimestamp env.storeAt = some ms
  dateNow : ∃ ms, timeClip env.dateNow = some ms

theorem toISOString_eq_some {d : JsDate} {s : JsString} :
    toISOString d = some s ↔ ∃ ms, d = some ms ∧ isoText ms = s := Option.map_eq_some_iff

/-- What the insert fixes of the row of a message's event. -/
theorem storedEvent_row {c : Uuid} {createdAt occurredAt : JsString} {n : Nat} {now : Int}
    {row : OutboxRow}
    (h : insertOutboxEvent (storedEvent env input c createdAt occurredAt) n now = some row) :
    row.id = env.eventId ∧ row.sequenceNumber = n ∧ row.aggregateId = c ∧
      row.payload = (storedEvent env input c createdAt occurredAt).event := by
  have hf := insertOutboxEvent_fresh h
  exact ⟨(Option.some.inj ((Uuid.parse_toText _).symm.trans hf.id)).symm, hf.sequenceNumber,
    (Option.some.inj ((Uuid.parse_toText _).symm.trans hf.aggregateId)).symm, hf.payload⟩

theorem hasOutboxEvent_eq_false {c : Uuid} {createdAt occurredAt : JsString} {n : Nat} {now : Int}
    {row : OutboxRow}
    (h : insertOutboxEvent (storedEvent env input c createdAt occurredAt) n now = some row) :
    db.hasOutboxEvent row = false ↔
      ∀ r ∈ db.outbox_events, r.id ≠ env.eventId ∧ r.sequenceNumber ≠ n := by
  obtain ⟨hid, hn, -, -⟩ := storedEvent_row h
  simp [Database.hasOutboxEvent, List.any_eq_false, hid, hn]

/-- **A message can be stored** exactly when the inputs allow it. -/
theorem exists_storedRows_iff {c : Uuid} :
    (∃ m row, StoredRows env input db c m row) ↔ Storable env input db := by
  constructor
  · rintro ⟨m, row, hs⟩
    obtain ⟨u, content, hu, huser, ht, -⟩ := hs.message
    obtain ⟨createdAt, occurredAt, hcr, hoc, hrow⟩ := hs.event
    obtain ⟨ms, hms, rfl⟩ := toISOString_eq_some.mp hcr
    obtain ⟨ms', hms', rfl⟩ := toISOString_eq_some.mp hoc
    exact {
      sender := ⟨u, hu, huser⟩
      content := ⟨content, ht⟩
      strings := (insertOutboxEvent_messageInsert (Uuid.ascii_toText _) rfl (plain_isoText ms).ascii
        (plain_isoText ms').ascii).mp ⟨row, hrow⟩
      messageId := hs.messageId
      fresh := (hasOutboxEvent_eq_false hrow).mp hs.fresh
      storeAt := ⟨ms, hms⟩
      dateNow := ⟨ms', hms'⟩ }
  · intro hs
    obtain ⟨u, hu, huser⟩ := hs.sender
    obtain ⟨content, ht⟩ := hs.content
    obtain ⟨ms, hms⟩ := hs.storeAt
    obtain ⟨ms', hms'⟩ := hs.dateNow
    have hrow : ∃ row, insertOutboxEvent (storedEvent env input c (isoText ms) (isoText ms'))
        env.sequenceNumber env.storeAt = some row :=
      (insertOutboxEvent_messageInsert (Uuid.ascii_toText _) rfl (plain_isoText ms).ascii
        (plain_isoText ms').ascii).mpr hs.strings
    obtain ⟨row, hrow⟩ := hrow
    exact ⟨_, row, ⟨u, content, hu, huser, ht, rfl⟩, hs.messageId,
      ⟨isoText ms, isoText ms', toISOString_eq_some.mpr ⟨ms, hms, rfl⟩,
        toISOString_eq_some.mpr ⟨ms', hms', rfl⟩, hrow⟩,
      (hasOutboxEvent_eq_false hrow).mpr hs.fresh⟩

/-- A stored message has a date to print. -/
theorem serializeMessage_isSome {c : Uuid} {m : MessageRow} {row : OutboxRow}
    (h : StoredRows env input db c m row) (receiverId : JsString) :
    ∃ d, toISOString (readTimestamp env.storeAt) = some d ∧
      serializeMessage (mapMessage m) receiverId = some
        { _id := m.id.toText
          senderId := m.senderId.toText
          receiverId
          message := m.content
          createdAt := d
          updatedAt := d } := by
  obtain ⟨u, content, -, -, -, rfl⟩ := h.message
  obtain ⟨d, _, hd, -⟩ := h.event
  refine ⟨d, hd, ?_⟩
  simp only [serializeMessage, mapMessage, storedMessage, newMessage, hd, Option.bind_eq_bind,
    Option.bind_some, Option.pure_def]

end MernChat
