import MernChat.Runtime.Uuid

/-!
# Event contracts

The envelope of a domain event and the `message.created` event, as the message service builds
it and the outbox stores it. Ids and timestamps are the strings of the envelope; `recipientId`
is the receiver id as the client spelled it.

## Main definitions

* `DomainEvent`, `MessageCreatedData`, `MessageCreatedEvent`
* `createMessageCreatedEvent`, `parseMessageCreatedEvent`
-/

namespace MernChat

def MESSAGE_CREATED_EVENT : JsString := js "message.created"

def MESSAGE_CREATED_VERSION : Int := 1

def MESSAGE_CREATED_TOPIC : JsString := js "chat.message.v1"

structure DomainEvent (TData : Type) where
  eventId : JsString
  eventType : JsString
  aggregateId : JsString
  occurredAt : JsString
  version : Int
  correlationId : JsString
  causationId : Option JsString
  producer : JsString
  data : TData
deriving DecidableEq

structure MessageCreatedData where
  messageId : JsString
  conversationId : JsString
  senderId : JsString
  recipientId : JsString
  createdAt : JsString
deriving DecidableEq

abbrev MessageCreatedEvent := DomainEvent MessageCreatedData

/-- The arguments of `createMessageCreatedEvent`. -/
structure MessageCreatedInput where
  messageId : JsString
  conversationId : JsString
  senderId : JsString
  recipientId : JsString
  createdAt : JsString
  correlationId : JsString

/-- The event of a message; `eventId` is the `randomUUID()` drawn for it and `occurredAt` the
clock's reading. -/
def createMessageCreatedEvent (eventId occurredAt : JsString) (input : MessageCreatedInput) :
    MessageCreatedEvent where
  eventId := eventId
  eventType := MESSAGE_CREATED_EVENT
  aggregateId := input.messageId
  occurredAt := occurredAt
  version := MESSAGE_CREATED_VERSION
  correlationId := input.correlationId
  causationId := none
  producer := js "chat-api"
  data :=
    { messageId := input.messageId
      conversationId := input.conversationId
      senderId := input.senderId
      recipientId := input.recipientId
      createdAt := input.createdAt }

/-- `!Number.isNaN(Date.parse(value))`; which strings `Date.parse` reads is left to the runtime. -/
def isIsoTimestamp (dateParse : JsString → Option Int) (value : JsString) : Bool :=
  (dateParse value).isSome

/-- The checks of an event received, which are those of the values of its fields: that they are
there and of their types is so for every event stored. -/
def parseMessageCreatedEvent (dateParse : JsString → Option Int) (value : MessageCreatedEvent) :
    Except JsString MessageCreatedEvent :=
  if value.eventType ≠ MESSAGE_CREATED_EVENT ∨
      value.version ≠ MESSAGE_CREATED_VERSION ∨
      isUuid value.eventId = false ∨
      isUuid value.aggregateId = false ∨
      isIsoTimestamp dateParse value.occurredAt = false ∨
      value.correlationId.length = 0 ∨
      200 < value.correlationId.length ∨
      value.producer ≠ js "chat-api" ∨
      isUuid value.data.messageId = false ∨
      isUuid value.data.conversationId = false ∨
      isUuid value.data.senderId = false ∨
      isUuid value.data.recipientId = false ∨
      isIsoTimestamp dateParse value.data.createdAt = false then
    .error (js "Invalid message.created event")
  else .ok value

/-- An event that passes is returned as it is. -/
theorem parseMessageCreatedEvent_eq_ok {dateParse : JsString → Option Int}
    {value event : MessageCreatedEvent} (h : parseMessageCreatedEvent dateParse value = .ok event) :
    event = value := by
  unfold parseMessageCreatedEvent at h
  split_ifs at h
  exact (Except.ok.inj h).symm

end MernChat
