import MernChat.Chat.MessageHistory

/-!
# The message routes

A request of an authenticated user is validated, handled, and answered; what a handler throws is
answered by the error handler. `POST /send/:id` also emits the message to the sockets of the
receiver, which joined the room of the receiver's id as the database prints it.

## Main definitions

* `sendMessageSchema`, `getMessageSchema`: the validations
* `getUserRoomName`
* `sendMessageRoute`, `getMessageRoute`: the requests
-/

namespace MernChat

open Library

/-! ## Validation -/

/-- A value of a query string: absent, a string, or anything else `express` makes of it. -/
inductive QueryValue
  | absent
  | text (s : JsString)
  | other

def DEFAULT_MESSAGE_PAGE_SIZE : Nat := 50

def MAX_MESSAGE_PAGE_SIZE : Nat := 100

/-- `parseLimit`: a page size in digits. -/
def parseLimit : QueryValue → Option Nat
  | .absent => some DEFAULT_MESSAGE_PAGE_SIZE
  | .text s =>
    if s ≠ [] ∧ s.all isDigit = true ∧ 1 ≤ digitsValue s ∧
        digitsValue s ≤ MAX_MESSAGE_PAGE_SIZE then
      some (digitsValue s)
    else none
  | .other => none

/-- The errors of `POST /send/:id`; `message` is the body's, where it is a string. -/
def sendMessageSchema (id : JsString) (message : Option JsString) : FieldErrors :=
  (if isUuid id then [] else [(js "id", js "A valid receiver id is required")]) ++
    match message with
    | none => [(js "message", js "Message must not be empty")]
    | some message =>
      if (trim message).length = 0 then [(js "message", js "Message must not be empty")]
      else if 5000 < (trim message).length then
        [(js "message", js "Message must not exceed 5000 characters")]
      else []

/-- A cursor that is given must be readable. -/
def cursorError : QueryValue → Bool
  | .absent => false
  | .text s => (decodeMessageCursor s).isNone
  | .other => true

/-- The errors of `GET /get/:id`. -/
def getMessageSchema (id : JsString) (limit cursor : QueryValue) : FieldErrors :=
  (if isUuid id then [] else [(js "id", js "A valid chat user id is required")]) ++
    (if (parseLimit limit).isSome then []
      else [(js "limit", js "Limit must be an integer between 1 and 100")]) ++
    (if cursorError cursor then [(js "cursor", js "Cursor is invalid or malformed")] else [])

/-- `validateRequest`. -/
def validateRequest (errors : FieldErrors) : Option Thrown :=
  if errors = [] then none
  else some (.app ⟨js "Request validation failed", 400, .VALIDATION_ERROR, some errors⟩)

/-! ## Routes -/

def getUserRoomName (userId : JsString) : JsString := js "user:" ++ userId

/-- The answer to a request: a status with data, or an error. -/
inductive ApiResponse (α : Type)
  | data (statusCode : Nat) (value : α)
  | error (response : ApiErrorResponse)
deriving DecidableEq

/-- What `POST /send/:id` does: its answer, the event it emits with the room it goes to, and the
tables it leaves. -/
structure SendEffects where
  response : ApiResponse SerializedMessage
  emitted : Option (JsString × SerializedMessage)
  tables : Database
deriving DecidableEq

/-- `req.query.cursor`, where it is a string. -/
def queryText : QueryValue → Option JsString
  | .text s => some s
  | _ => none

namespace Controller

/-- The handler of `POST /send/:id`, of the user `userId`. -/
def sendMessage (env : SendEnv) (userId correlationId id message : JsString) (db : Database) :
    SendEffects :=
  match exec (MernChat.sendMessage env
    { senderId := userId, receiverId := id, message, correlationId }) db with
  | (.ok result, db') =>
    ⟨.data 201 result.message, some (getUserRoomName id, result.message), db'⟩
  | (.error error, db') => ⟨.error (errorHandler error), none, db'⟩

/-- The handler of `GET /get/:id`, of the user `userId`. -/
def getMessage (userId id : JsString) (limit : Nat) (cursor : Option JsString) (db : Database) :
    ApiResponse MessagePageResult :=
  match (exec (getMessages { senderId := userId, chatUserId := id, limit, cursor }) db).1 with
  | .ok page => .data 200 page
  | .error error => .error (errorHandler error)

end Controller

/-- `POST /send/:id` of the user `userId`. -/
def sendMessageRoute (env : SendEnv) (userId correlationId id : JsString)
    (message : Option JsString) (db : Database) : SendEffects :=
  match validateRequest (sendMessageSchema id message) with
  | some error => ⟨.error (errorHandler error), none, db⟩
  | none => Controller.sendMessage env userId correlationId id (message.getD []) db

/-- `GET /get/:id` of the user `userId`. -/
def getMessageRoute (userId id : JsString) (limit cursor : QueryValue) (db : Database) :
    ApiResponse MessagePageResult :=
  match validateRequest (getMessageSchema id limit cursor) with
  | some error => .error (errorHandler error)
  | none =>
    Controller.getMessage userId id ((parseLimit limit).getD DEFAULT_MESSAGE_PAGE_SIZE)
      (queryText cursor) db

end MernChat
