import MernChat.Chat.Tables

/-!
# The repositories of the chat

Users, conversations and messages as the repositories return them: ids are the printed values,
dates what the rows' timestamps are read as. A direct conversation is kept under its two
members in the order of their ids as strings; the database compares the values, and prints
every value in lower case.

## Main definitions

* `findUserById`
* `canonicalizeMemberPair`, `findDirectConversation`, `createDirectConversation`
* `createMessageWithClient`

## Main results

* `findUserById_eq_ok`, `selectDirectConversation_eq_ok`, `insertConversation_eq_ok`,
  `ensureMembership_eq_ok`, `insertMessage_eq_ok`, `insertOutboxRow_eq_ok`: what a statement
  that succeeds does
-/

namespace MernChat

open Library

/-! ## Users -/

structure PostgresUser where
  id : JsString
  fullname : JsString
  email : JsString
  passwordHash : JsString
  createdAt : JsDate
  updatedAt : JsDate

def mapUser (row : UserRow) : PostgresUser where
  id := row.id.toText
  fullname := row.fullname
  email := row.email
  passwordHash := row.passwordHash
  createdAt := readTimestamp row.createdAt
  updatedAt := readTimestamp row.updatedAt

structure PublicUser where
  _id : JsString
  fullname : JsString
  email : JsString
deriving DecidableEq

def toPublicUser (user : PostgresUser) : PublicUser where
  _id := user.id
  fullname := user.fullname
  email := user.email

def findUserById (id : JsString) : DbTx (Option PostgresUser) := do
  -- a text that is no `uuid` fails the query
  let id ← readUuid id
  let db ← get
  return (db.users.find? fun u => u.id == id).map mapUser

/-! ## Conversations -/

structure PostgresConversation where
  id : JsString
  memberAId : JsString
  memberBId : JsString
  createdAt : JsDate
  updatedAt : JsDate
deriving DecidableEq

def mapConversation (row : ConversationRow) : PostgresConversation where
  id := row.id.toText
  memberAId := row.memberAId.toText
  memberBId := row.memberBId.toText
  createdAt := readTimestamp row.createdAt
  updatedAt := readTimestamp row.updatedAt

/-- The pair in the order of the strings. -/
def canonicalizeMemberPair (userA userB : JsString) : JsString × JsString :=
  if userA < userB then (userA, userB) else (userB, userA)

/-- `SELECT … FROM conversations WHERE member_a_id = $1 AND member_b_id = $2`. -/
def selectDirectConversation (memberAId memberBId : JsString) :
    DbTx (Option PostgresConversation) := do
  let a ← readUuid memberAId
  let b ← readUuid memberBId
  let db ← get
  return (db.conversationOf a b).map mapConversation

def findDirectConversation (userA userB : JsString) : DbTx (Option PostgresConversation) :=
  let pair := canonicalizeMemberPair userA userB
  selectDirectConversation pair.1 pair.2

/-- `ensureMembership`. -/
def ensureMembership (conversationId userId : JsString) (now : Int) : DbTx Unit :=
  insertMember conversationId userId now

/-! ## Messages -/

structure PostgresMessage where
  id : JsString
  conversationId : JsString
  senderId : JsString
  content : JsString
  createdAt : JsDate
  updatedAt : JsDate
deriving DecidableEq

def mapMessage (row : MessageRow) : PostgresMessage where
  id := row.id.toText
  conversationId := row.conversationId.toText
  senderId := row.senderId.toText
  content := row.content
  createdAt := readTimestamp row.createdAt
  updatedAt := readTimestamp row.updatedAt

structure MessageInput where
  id : JsString
  conversationId : JsString
  senderId : JsString
  content : JsString

def createMessageWithClient (input : MessageInput) (now : Int) : DbTx PostgresMessage := do
  let row ← insertMessage input.id input.conversationId input.senderId input.content now
  return mapMessage row

/-! ## What the statements do -/

variable {db db' : Database} {now : Int}

@[simp] theorem readUuid_eq_ok {s : JsString} {u : Uuid} :
    readUuid s db = .ok (u, db') ↔ Uuid.parse s = some u ∧ db' = db := by
  rw [readUuid, Tx.ofExcept_eq_ok, uuidParam_eq_ok]

@[simp] theorem readText_eq_ok {s t : JsString} :
    readText s db = .ok (t, db') ↔ pgText s = some t ∧ db' = db := by
  rw [readText, Tx.ofOption_eq_ok]

@[simp] theorem constraint_eq_ok {p : Prop} [Decidable p] {code : SqlState} {u : Unit} :
    constraint p code db = .ok (u, db') ↔ p ∧ db = db' := Tx.require_eq_ok

theorem findUserById_eq_ok {x : JsString} {r : Option PostgresUser} :
    findUserById x db = .ok (r, db') ↔ ∃ u, Uuid.parse x = some u ∧
      r = (db.users.find? fun row => row.id == u).map mapUser ∧ db' = db := by
  simp only [findUserById, Tx.bind_eq_ok, readUuid_eq_ok, Tx.get_eq_ok, Tx.pure_eq_ok]
  constructor
  · rintro ⟨u, _, ⟨hu, rfl⟩, _, _, ⟨rfl, rfl⟩, rfl, rfl⟩
    exact ⟨u, hu, rfl, rfl⟩
  · rintro ⟨u, hu, rfl, rfl⟩
    exact ⟨u, _, ⟨hu, rfl⟩, _, _, ⟨rfl, rfl⟩, rfl, rfl⟩

theorem selectDirectConversation_eq_ok {x y : JsString} {r : Option PostgresConversation} :
    selectDirectConversation x y db = .ok (r, db') ↔ ∃ a b, Uuid.parse x = some a ∧
      Uuid.parse y = some b ∧ r = (db.conversationOf a b).map mapConversation ∧ db' = db := by
  simp only [selectDirectConversation, Tx.bind_eq_ok, readUuid_eq_ok, Tx.get_eq_ok,
    Tx.pure_eq_ok]
  constructor
  · rintro ⟨a, _, ⟨ha, rfl⟩, b, _, ⟨hb, rfl⟩, _, _, ⟨rfl, rfl⟩, rfl, rfl⟩
    exact ⟨a, b, ha, hb, rfl, rfl⟩
  · rintro ⟨a, b, ha, hb, rfl, rfl⟩
    exact ⟨a, _, ⟨ha, rfl⟩, b, _, ⟨hb, rfl⟩, _, _, ⟨rfl, rfl⟩, rfl, rfl⟩

/-- The row an insert adds. -/
def newConversation (id a b : Uuid) (now : Int) : ConversationRow :=
  { id, memberAId := a, memberBId := b, createdAt := now, updatedAt := now }

theorem insertConversation_eq_ok {id : Uuid} {x y : JsString} {r : Option ConversationRow} :
    insertConversation id x y now db = .ok (r, db') ↔ ∃ a b, Uuid.parse x = some a ∧
      Uuid.parse y = some b ∧ a < b ∧
        ((db.conversationOf a b).isSome = true ∧ r = none ∧ db' = db ∨
          db.conversationOf a b = none ∧ db.hasConversation id = false ∧ db.hasUser a = true ∧
            db.hasUser b = true ∧ r = some (newConversation id a b now) ∧
            db' = db.addConversation (newConversation id a b now)) := by
  simp only [insertConversation, Tx.bind_eq_ok, readUuid_eq_ok, constraint_eq_ok, Tx.get_eq_ok]
  constructor
  · rintro ⟨a, _, ⟨ha, rfl⟩, b, _, ⟨hb, rfl⟩, _, _, ⟨hlt, rfl⟩, _, _, ⟨rfl, rfl⟩, h⟩
    refine ⟨a, b, ha, hb, hlt.1, ?_⟩
    split_ifs at h with hc
    · rw [Tx.pure_eq_ok] at h
      exact Or.inl ⟨hc, h.1.symm, h.2.symm⟩
    · simp only [Tx.bind_eq_ok, constraint_eq_ok, Tx.set_eq_ok, Tx.pure_eq_ok] at h
      obtain ⟨_, _, ⟨hid, rfl⟩, _, _, ⟨hu, rfl⟩, _, _, rfl, hr, rfl⟩ := h
      exact Or.inr ⟨by simpa using hc, hid, hu.1, hu.2, hr.symm, rfl⟩
  · rintro ⟨a, b, ha, hb, hlt, h⟩
    refine ⟨a, _, ⟨ha, rfl⟩, b, _, ⟨hb, rfl⟩, (), _, ⟨⟨hlt, hlt.ne⟩, rfl⟩, _, _, ⟨rfl, rfl⟩, ?_⟩
    rcases h with ⟨hc, rfl, rfl⟩ | ⟨hc, hid, hua, hub, rfl, rfl⟩
    · rw [if_pos hc, Tx.pure_eq_ok]
      exact ⟨rfl, rfl⟩
    · rw [if_neg (by simp [hc])]
      simp only [Tx.bind_eq_ok, constraint_eq_ok, Tx.set_eq_ok, Tx.pure_eq_ok]
      exact ⟨(), _, ⟨hid, rfl⟩, (), _, ⟨⟨hua, hub⟩, rfl⟩, (), _, rfl, rfl, rfl⟩

theorem ensureMembership_eq_ok {x y : JsString} {r : Unit} :
    ensureMembership x y now db = .ok (r, db') ↔ ∃ c u, Uuid.parse x = some c ∧
      Uuid.parse y = some u ∧
        (db.hasMember c u = true ∧ db' = db ∨
          db.hasMember c u = false ∧ db.hasConversation c = true ∧ db.hasUser u = true ∧
            db' = db.addMember ⟨c, u, now⟩) := by
  simp only [ensureMembership, insertMember, Tx.bind_eq_ok, readUuid_eq_ok, Tx.get_eq_ok]
  constructor
  · rintro ⟨c, _, ⟨hc, rfl⟩, u, _, ⟨hu, rfl⟩, _, _, ⟨rfl, rfl⟩, h⟩
    refine ⟨c, u, hc, hu, ?_⟩
    split_ifs at h with hm
    · rw [Tx.pure_eq_ok] at h
      exact Or.inl ⟨hm, h.2.symm⟩
    · simp only [Tx.bind_eq_ok, constraint_eq_ok, Tx.set_eq_ok] at h
      obtain ⟨_, _, ⟨hf, rfl⟩, rfl⟩ := h
      exact Or.inr ⟨Bool.eq_false_iff.mpr hm, hf.1, hf.2, rfl⟩
  · rintro ⟨c, u, hc, hu, h⟩
    refine ⟨c, _, ⟨hc, rfl⟩, u, _, ⟨hu, rfl⟩, _, _, ⟨rfl, rfl⟩, ?_⟩
    rcases h with ⟨hm, rfl⟩ | ⟨hm, hcc, huu, rfl⟩
    · rw [if_pos hm, Tx.pure_eq_ok]
      exact ⟨rfl, rfl⟩
    · rw [if_neg (Bool.eq_false_iff.mp hm)]
      simp only [Tx.bind_eq_ok, constraint_eq_ok, Tx.set_eq_ok]
      exact ⟨(), _, ⟨⟨hcc, huu⟩, rfl⟩, trivial⟩

/-- The row an insert adds. -/
def newMessage (id c u : Uuid) (content : JsString) (now : Int) : MessageRow :=
  { id, conversationId := c, senderId := u, content, createdAt := now, updatedAt := now }

theorem insertMessage_eq_ok {x y z t : JsString} {r : MessageRow} :
    insertMessage x y z t now db = .ok (r, db') ↔
      ∃ id c u content, Uuid.parse x = some id ∧ Uuid.parse y = some c ∧ Uuid.parse z = some u ∧
        pgText t = some content ∧ db.hasMessage id = false ∧ db.hasConversation c = true ∧
        db.hasUser u = true ∧ r = newMessage id c u content now ∧
        db' = db.addMessage (newMessage id c u content now) := by
  simp only [insertMessage, Tx.bind_eq_ok, readUuid_eq_ok, readText_eq_ok, constraint_eq_ok,
    Tx.get_eq_ok, Tx.set_eq_ok, Tx.pure_eq_ok]
  constructor
  · rintro ⟨id, _, ⟨hid, rfl⟩, c, _, ⟨hc, rfl⟩, u, _, ⟨hu, rfl⟩, content, _, ⟨ht, rfl⟩, _, _,
      ⟨rfl, rfl⟩, _, _, ⟨hm, rfl⟩, _, _, ⟨hf, rfl⟩, _, _, rfl, rfl, rfl⟩
    exact ⟨id, c, u, content, hid, hc, hu, ht, hm, hf.1, hf.2, rfl, rfl⟩
  · rintro ⟨id, c, u, content, hid, hc, hu, ht, hm, hcc, huu, rfl, rfl⟩
    exact ⟨id, _, ⟨hid, rfl⟩, c, _, ⟨hc, rfl⟩, u, _, ⟨hu, rfl⟩, content, _, ⟨ht, rfl⟩, _, _,
      ⟨rfl, rfl⟩, (), _, ⟨hm, rfl⟩, (), _, ⟨⟨hcc, huu⟩, rfl⟩, (), _, rfl, rfl, rfl⟩

theorem createMessageWithClient_eq_ok {input : MessageInput} {r : PostgresMessage} :
    createMessageWithClient input now db = .ok (r, db') ↔
      ∃ id c u content, Uuid.parse input.id = some id ∧
        Uuid.parse input.conversationId = some c ∧ Uuid.parse input.senderId = some u ∧
        pgText input.content = some content ∧ db.hasMessage id = false ∧
        db.hasConversation c = true ∧ db.hasUser u = true ∧
        r = mapMessage (newMessage id c u content now) ∧
        db' = db.addMessage (newMessage id c u content now) := by
  simp only [createMessageWithClient, Tx.bind_eq_ok, insertMessage_eq_ok, Tx.pure_eq_ok]
  constructor
  · rintro ⟨_, _, ⟨id, c, u, content, hid, hc, hu, ht, hm, hcc, huu, rfl, rfl⟩, rfl, rfl⟩
    exact ⟨id, c, u, content, hid, hc, hu, ht, hm, hcc, huu, rfl, rfl⟩
  · rintro ⟨id, c, u, content, hid, hc, hu, ht, hm, hcc, huu, rfl, rfl⟩
    exact ⟨_, _, ⟨id, c, u, content, hid, hc, hu, ht, hm, hcc, huu, rfl, rfl⟩, rfl, rfl⟩

theorem insertOutboxRow_eq_ok {input : OutboxInsertInput} {n : Nat} {r : Unit} :
    insertOutboxRow input n now db = .ok (r, db') ↔
      ∃ row, insertOutboxEvent input n now = some row ∧ db.hasOutboxEvent row = false ∧
        db' = db.addOutboxEvent row := by
  simp only [insertOutboxRow, Tx.bind_eq_ok, Tx.ofOption_eq_ok, constraint_eq_ok, Tx.get_eq_ok,
    Tx.set_eq_ok]
  constructor
  · rintro ⟨row, _, ⟨hrow, rfl⟩, _, _, ⟨rfl, rfl⟩, _, _, ⟨hf, rfl⟩, rfl⟩
    exact ⟨row, hrow, hf, rfl⟩
  · rintro ⟨row, hrow, hf, rfl⟩
    exact ⟨row, _, ⟨hrow, rfl⟩, _, _, ⟨rfl, rfl⟩, (), _, ⟨hf, rfl⟩, rfl⟩

end MernChat
