import MernChat.Chat.Repositories

/-!
# Sending a message

`sendMessage` checks the receiver, finds or creates the direct conversation of the two users,
and stores the message and its outbox event. The creation and the store are two transactions on
connections of their own. Every operation of the database may fail.

## Main definitions

* `SendOp`, `SendEnv`: the operations, and what a call draws from its environment
* `createConversation`, `storeMessage`: the bodies of the two transactions
* `serializeMessage`, `sendMessage`
-/

namespace MernChat

open Library

/-- The database operations of `sendMessage`, in the order they are issued. -/
inductive SendOp
  | findUserById
  | findDirectConversation
  | createConnect
  | createBegin
  | insertConversation
  | selectConversation
  | insertMemberA
  | insertMemberB
  | createCommit
  | createRollback
  | storeConnect
  | storeBegin
  | insertMessage
  | insertOutboxEvent
  | storeCommit
  | storeRollback
deriving DecidableEq

/-- What a call draws from its environment: the operations that fail, the values of
`randomUUID()`, `NOW()` in each transaction, `Date.now()`, and the number drawn for the outbox
row. -/
structure SendEnv where
  fault : SendOp → Option (Fault Thrown)
  conversationId : Uuid
  messageId : Uuid
  eventId : Uuid
  createAt : Int
  storeAt : Int
  dateNow : Int
  sequenceNumber : Nat

structure SendMessageInput where
  senderId : JsString
  receiverId : JsString
  message : JsString
  correlationId : JsString

structure SerializedMessage where
  _id : JsString
  senderId : JsString
  receiverId : JsString
  message : JsString
  createdAt : JsString
  updatedAt : JsString
deriving DecidableEq

structure SendMessageResult where
  message : SerializedMessage
  conversationId : JsString
deriving DecidableEq

/-- `toISOString` throws for an invalid date. -/
def invalidTime : Thrown := .error (js "Invalid time value")

def serializeMessage (message : PostgresMessage) (receiverId : JsString) :
    Option SerializedMessage := do
  let createdAt ← toISOString message.createdAt
  let updatedAt ← toISOString message.updatedAt
  return {
    _id := message.id
    senderId := message.senderId
    receiverId
    message := message.content
    createdAt
    updatedAt }

section Call

variable (env : SendEnv)

def createFaults : TxFaults Thrown where
  connect := env.fault .createConnect
  begin := env.fault .createBegin
  commit := env.fault .createCommit
  rollback := env.fault .createRollback

def storeFaults : TxFaults Thrown where
  connect := env.fault .storeConnect
  begin := env.fault .storeBegin
  commit := env.fault .storeCommit
  rollback := env.fault .storeRollback

/-- The conversation after `ON CONFLICT DO NOTHING`: the one inserted, or the one there. -/
def resolveConversation (memberAId memberBId : JsString) :
    Option ConversationRow → DbTx PostgresConversation
  | some row => pure (mapConversation row)
  | none => do
    let existing ← statement (env.fault .selectConversation)
      (selectDirectConversation memberAId memberBId)
    Tx.ofOption (.error (js "Direct conversation could not be resolved after conflict")) existing

/-- The statements of `createDirectConversation`. -/
def createConversation (userA userB : JsString) : DbTx PostgresConversation := do
  let pair := canonicalizeMemberPair userA userB
  let inserted ← statement (env.fault .insertConversation)
    (insertConversation env.conversationId pair.1 pair.2 env.createAt)
  let conversation ← resolveConversation env pair.1 pair.2 inserted
  -- the memberships may be there already, where the conversation is
  statement (env.fault .insertMemberA) (ensureMembership conversation.id pair.1 env.createAt)
  statement (env.fault .insertMemberB) (ensureMembership conversation.id pair.2 env.createAt)
  return conversation

def createDirectConversation (userA userB : JsString) :
    Prog Database Thrown PostgresConversation :=
  transaction (createFaults env) (createConversation env userA userB)

/-- The statements of the transaction that stores a message of `conversation`. -/
def storeMessage (input : SendMessageInput) (conversation : PostgresConversation) :
    DbTx PostgresMessage := do
  let newMessage ← statement (env.fault .insertMessage) (createMessageWithClient
    { id := env.messageId.toText
      conversationId := conversation.id
      senderId := input.senderId
      content := trim input.message } env.storeAt)
  -- the event has the date of the message's row, and the clock of the process
  let createdAt ← Tx.ofOption invalidTime (toISOString newMessage.createdAt)
  let occurredAt ← Tx.ofOption invalidTime (toISOString (timeClip env.dateNow))
  statement (env.fault .insertOutboxEvent) (insertOutboxRow
    (messageInsert env.eventId.toText occurredAt
      { messageId := newMessage.id
        conversationId := conversation.id
        senderId := input.senderId
        recipientId := input.receiverId
        createdAt
        correlationId := input.correlationId }) env.sequenceNumber env.storeAt)
  return newMessage

def selfMessage : Thrown :=
  .app ⟨js "You cannot send a message to yourself", 400, .VALIDATION_ERROR, none⟩

def receiverNotFound : Thrown := .app ⟨js "Receiver not found", 404, .NOT_FOUND, none⟩

/-- The conversation a message goes to: the one found, or else a new one. -/
def findOrCreateConversation (userA userB : JsString) :
    Prog Database Thrown PostgresConversation := do
  let found ← query (env.fault .findDirectConversation) (findDirectConversation userA userB)
  match found with
  | some conversation => pure conversation
  | none => createDirectConversation env userA userB

/-- The transaction that stores the message, and the result. The message is serialized in the same
`try` as the `COMMIT`, which a throw here would not undo. -/
def storeAndSerialize (input : SendMessageInput) (conversation : PostgresConversation) :
    Prog Database Thrown SendMessageResult := do
  let newMessage ← transaction (storeFaults env) (storeMessage env input conversation)
  match serializeMessage newMessage input.receiverId with
  | some message => return { message, conversationId := conversation.id }
  | none => throw ((storeFaults env).rollbackError invalidTime)

def sendMessage (input : SendMessageInput) : Prog Database Thrown SendMessageResult := do
  -- the ids are compared as strings, before any query
  require (input.senderId ≠ input.receiverId) selfMessage
  let receiver ← query (env.fault .findUserById) (findUserById input.receiverId)
  require (receiver.isSome = true) receiverNotFound
  let conversation ← findOrCreateConversation env input.senderId input.receiverId
  storeAndSerialize env input conversation

end Call

end MernChat
