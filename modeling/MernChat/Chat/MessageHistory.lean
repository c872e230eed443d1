import MernChat.Chat.MessageCursor
import MernChat.Chat.SendMessage
import MernChat.Library.Table
import Mathlib.Data.Prod.Lex

/-!
# Reading messages

A page of a conversation holds its newest messages, or those before a cursor, oldest first. The
query reads one row more than the page holds; where there is one, the page carries a cursor made
of its oldest message. The operations of the database succeed here: reading changes nothing, and
a failure is the only outcome it has.

## Main definitions

* `messageKey`: the order of messages
* `findMessagesByConversation`, `getMessages`
-/

namespace MernChat

open Library

/-- The sort key `(created_at, id)`. -/
def messageKey (row : MessageRow) : Int ×ₗ Uuid := toLex (row.createdAt, row.id)

structure MessagePage where
  messages : List PostgresMessage
  hasMore : Bool

/-- The parameters of a cursor: `new Date(cursor.createdAt)` and `cursor.id`. -/
def readCursor (cursor : MessageCursor) : DbTx (Int ×ₗ Uuid) := do
  let date ← Tx.ofOption (.database .invalid_datetime_format) (parseISOString cursor.createdAt)
  constraint (MIN_TIMESTAMP ≤ date) .datetime_field_overflow
  let id ← readUuid cursor.id
  return toLex (pgTimestamp date, id)

/-- The bound of a page. -/
def readBound : Option MessageCursor → DbTx (Option (Int ×ₗ Uuid))
  | some cursor => do
    let key ← readCursor cursor
    return some key
  | none => return none

/-- `Math.min(Math.max(limit, 1), 100)`. -/
def boundedLimit (limit : Int) : Nat := (min (max limit 1) 100).toNat

/-- The rows of a conversation before `bound`, newest first. -/
def rowsBefore (rows : List MessageRow) (c : Uuid) (bound : Option (Int ×ₗ Uuid)) :
    List MessageRow :=
  (sortBy messageKey (rows.filter fun row =>
    row.conversationId == c && bound.all fun b => decide (messageKey row < b))).reverse

def findMessagesByConversation (conversationId : JsString) (limit : Int)
    (cursor : Option MessageCursor) : DbTx MessagePage := do
  let c ← readUuid conversationId
  let bound ← readBound cursor
  let db ← get
  let rows := ((rowsBefore db.messages c bound).take (boundedLimit limit + 1)).map mapMessage
  let hasMore := decide (boundedLimit limit < rows.length)
  return { messages := (if hasMore then rows.take (boundedLimit limit) else rows).reverse, hasMore }

structure GetMessagesInput where
  senderId : JsString
  chatUserId : JsString
  limit : Int
  cursor : Option JsString

structure MessagePageResult where
  messages : List SerializedMessage
  nextCursor : Option JsString
  hasMore : Bool
  limit : Int
deriving DecidableEq

def selfConversation : Thrown :=
  .app ⟨js "You cannot access a conversation with yourself", 400, .VALIDATION_ERROR, none⟩

def userNotFound : Thrown := .app ⟨js "User not found", 404, .NOT_FOUND, none⟩

def conversationNotFound : Thrown := .app ⟨js "Conversation not found", 404, .NOT_FOUND, none⟩

def invalidCursor : Thrown :=
  .app ⟨js "Cursor is invalid or malformed", 400, .VALIDATION_ERROR, none⟩

/-- `cursor ? decodeMessageCursor(cursor) : undefined`, and its check; an empty string is no
cursor. -/
def decodeCursor : Option JsString → Option (Option MessageCursor)
  | none => some none
  | some cursor => if cursor = [] then some none else (decodeMessageCursor cursor).map some

/-- The page as it is returned, to the user `senderId` about the user `chatUserId`. -/
def serializePage (senderId chatUserId : JsString) (limit : Int) (page : MessagePage) :
    Option MessagePageResult := do
  let messages ← page.messages.mapM fun message =>
    serializeMessage message (if message.senderId = senderId then chatUserId else senderId)
  let nextCursor ← match page.messages.head? with
    | some oldest =>
      if page.hasMore then
        (toISOString oldest.createdAt).map fun createdAt =>
          some (encodeMessageCursor { createdAt, id := oldest.id })
      else some none
    | none => some none
  return { messages, nextCursor, hasMore := page.hasMore, limit }

def getMessages (input : GetMessagesInput) : Prog Database Thrown MessagePageResult := do
  require (input.senderId ≠ input.chatUserId) selfConversation
  let user ← query none (findUserById input.chatUserId)
  require (user.isSome = true) userNotFound
  let conversation ← query none (findDirectConversation input.senderId input.chatUserId)
  match conversation with
  | none => throw conversationNotFound
  | some conversation =>
    match decodeCursor input.cursor with
    | none => throw invalidCursor
    | some cursor =>
      let page ← query none (findMessagesByConversation conversation.id input.limit cursor)
      match serializePage input.senderId input.chatUserId input.limit page with
      | some result => pure result
      | none => throw invalidTime

end MernChat
