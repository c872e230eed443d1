import MernChat.Chat.Errors
import MernChat.Library.Transaction
import MernChat.Outbox.Row
import MernChat.Runtime.IsoDate

/-!
# The tables of the chat

The rows of `users`, `conversations`, `conversation_members` and `messages`, and the statements
that insert them. An insert reads its parameters, then checks the constraints of its table in
the order the database does: `CHECK`, a conflict it names, `UNIQUE`, and `REFERENCES`. Default
timestamps are `NOW()`, the start of the transaction.

## Main definitions

* `UserRow`, `ConversationRow`, `MemberRow`, `MessageRow`, `Database`
* `insertUser`, `insertConversation`, `insertMember`, `insertMessage`, `insertOutboxRow`
-/

namespace MernChat

open Library

structure UserRow where
  id : Uuid
  fullname : JsString
  email : JsString
  passwordHash : JsString
  createdAt : Int
  updatedAt : Int
deriving DecidableEq

structure ConversationRow where
  id : Uuid
  memberAId : Uuid
  memberBId : Uuid
  createdAt : Int
  updatedAt : Int
deriving DecidableEq

structure MemberRow where
  conversationId : Uuid
  userId : Uuid
  joinedAt : Int
deriving DecidableEq

structure MessageRow where
  id : Uuid
  conversationId : Uuid
  senderId : Uuid
  content : JsString
  createdAt : Int
  updatedAt : Int
deriving DecidableEq

/-- The tables a chat request reads and writes. -/
structure Database where
  users : List UserRow
  conversations : List ConversationRow
  conversation_members : List MemberRow
  messages : List MessageRow
  outbox_events : List OutboxRow
deriving DecidableEq

/-- The database after the migrations. -/
def Database.empty : Database where
  users := []
  conversations := []
  conversation_members := []
  messages := []
  outbox_events := []

/-- Statements and transactions of the chat. -/
abbrev DbTx := Tx Database Thrown

namespace Database

def hasUser (db : Database) (id : Uuid) : Bool := db.users.any fun u => u.id == id

def hasConversation (db : Database) (id : Uuid) : Bool := db.conversations.any fun c => c.id == id

/-- The conversation of a pair of members. -/
def conversationOf (db : Database) (a b : Uuid) : Option ConversationRow :=
  db.conversations.find? fun c => c.memberAId == a && c.memberBId == b

def hasMember (db : Database) (c u : Uuid) : Bool :=
  db.conversation_members.any fun m => m.conversationId == c && m.userId == u

def hasMessage (db : Database) (id : Uuid) : Bool := db.messages.any fun m => m.id == id

/-- The id or the number of the row is taken. -/
def hasOutboxEvent (db : Database) (row : OutboxRow) : Bool :=
  db.outbox_events.any fun r => r.id == row.id || r.sequenceNumber == row.sequenceNumber

def addConversation (db : Database) (row : ConversationRow) : Database :=
  { db with conversations := db.conversations ++ [row] }

def addMember (db : Database) (row : MemberRow) : Database :=
  { db with conversation_members := db.conversation_members ++ [row] }

def addMessage (db : Database) (row : MessageRow) : Database :=
  { db with messages := db.messages ++ [row] }

def addOutboxEvent (db : Database) (row : OutboxRow) : Database :=
  { db with outbox_events := db.outbox_events ++ [row] }

end Database

/-- A parameter of a `UUID` column. -/
def readUuid (s : JsString) : DbTx Uuid := Tx.ofExcept .database (uuidParam s)

/-- A parameter of a `TEXT` column. -/
def readText (s : JsString) : DbTx JsString :=
  Tx.ofOption (.database .character_not_in_repertoire) (pgText s)

/-- A constraint of a table. -/
def constraint (p : Prop) [Decidable p] (code : SqlState) : DbTx Unit :=
  Tx.require p (.database code)

/-- `INSERT INTO users`; the strings fit their columns. -/
def insertUser (row : UserRow) : DbTx Unit := do
  let db ← get
  constraint (db.hasUser row.id = false) .unique_violation
  constraint (db.users.any (fun u => u.email == row.email) = false) .unique_violation
  set { db with users := db.users ++ [row] }

/-- `INSERT INTO conversations … ON CONFLICT (member_a_id, member_b_id) DO NOTHING RETURNING`. -/
def insertConversation (id : Uuid) (memberAId memberBId : JsString) (now : Int) :
    DbTx (Option ConversationRow) := do
  let a ← readUuid memberAId
  let b ← readUuid memberBId
  constraint (a < b ∧ a ≠ b) .check_violation
  let db ← get
  if (db.conversationOf a b).isSome then return none
  constraint (db.hasConversation id = false) .unique_violation
  constraint (db.hasUser a = true ∧ db.hasUser b = true) .foreign_key_violation
  let row : ConversationRow :=
    { id, memberAId := a, memberBId := b, createdAt := now, updatedAt := now }
  set (db.addConversation row)
  return some row

/-- `INSERT INTO conversation_members … ON CONFLICT (conversation_id, user_id) DO NOTHING`. -/
def insertMember (conversationId userId : JsString) (now : Int) : DbTx Unit := do
  let c ← readUuid conversationId
  let u ← readUuid userId
  let db ← get
  if db.hasMember c u then return
  constraint (db.hasConversation c = true ∧ db.hasUser u = true) .foreign_key_violation
  let row : MemberRow := { conversationId := c, userId := u, joinedAt := now }
  set (db.addMember row)

/-- `INSERT INTO messages … RETURNING`. -/
def insertMessage (id conversationId senderId content : JsString) (now : Int) :
    DbTx MessageRow := do
  let id ← readUuid id
  let c ← readUuid conversationId
  let u ← readUuid senderId
  let content ← readText content
  let db ← get
  constraint (db.hasMessage id = false) .unique_violation
  constraint (db.hasConversation c = true ∧ db.hasUser u = true) .foreign_key_violation
  let row : MessageRow :=
    { id, conversationId := c, senderId := u, content, createdAt := now, updatedAt := now }
  set (db.addMessage row)
  return row

/-- The error of an event whose strings may not all stand in a `JSONB` value; the other
parameters of the insert are values of their columns. -/
def outboxInsertError (input : OutboxInsertInput) : SqlState :=
  match (eventStrings input.event).find? fun s => !jsonbString s with
  | some s => jsonbError s
  | none => .invalid_text_representation

/-- `INSERT INTO outbox_events`, under the number the identity column draws. -/
def insertOutboxRow (input : OutboxInsertInput) (sequenceNumber : Nat) (now : Int) :
    DbTx Unit := do
  let row ← Tx.ofOption (.database (outboxInsertError input))
    (insertOutboxEvent input sequenceNumber now)
  let db ← get
  constraint (db.hasOutboxEvent row = false) .unique_violation
  set (db.addOutboxEvent row)

end MernChat
