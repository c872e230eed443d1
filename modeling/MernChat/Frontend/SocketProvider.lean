import MernChat.Auth.Sessions
import MernChat.Frontend.AuthProvider

/-!
# The socket of the page

`SocketProvider` keeps a socket for the user it was rendered with: its effect is cleaned up and run
again when that user changes. A socket that the server refuses is given up, which signs the user
out, or, for a token that has expired, makes the page ask for the session and connect again.
Answers, events of sockets, renders and effects come in any order.

## Main definitions

* `SocketEffect`, `SocketProvider`: the runs of the effect, and the state
* `runSocketEffect`, `cleanUpSocketEffect`, `handleConnectError`: the functions of the component
* `emitEvent`, `sessionChecked`: an event of a socket, an answer to a run
* `Providers`, `providersSystem`: both components
-/

namespace MernChat

open Library

/-! ## The component -/

inductive SocketConnectionStatus
  | disconnected
  | connecting
  | connected
  | reconnecting
deriving DecidableEq

/-- A socket of the client library. One that has lost its connection, or has not got one, tries
again until it is closed. -/
inductive AppSocket
  | closed
  | connecting
  | connected
deriving DecidableEq

/-- A run of the effect with a user. -/
structure SocketEffect where
  authUser : AuthObject
  active : Bool
  suppressDisconnectState : Bool
  nextSocket : AppSocket
  /-- The handlers are registered. -/
  listening : Bool
  /-- How many requests of `/api/user/me` are in flight. -/
  checks : ℕ

/-- The state, with the updates that wait for a render. -/
structure SocketProvider where
  /-- The user of the last render. -/
  rendered : Option AuthObject
  /-- The user the effect was last run with. -/
  dependency : Option AuthObject
  /-- The run that is to be cleaned up. -/
  cleanup : Option ℕ
  effects : List SocketEffect
  socket : Option ℕ
  onlineUsers : List JsString
  connectionStatus : SocketConnectionStatus

namespace SocketProvider

/-- The first run of the effect is without a user, and sets what is there already. -/
def initial : SocketProvider := ⟨none, none, none, [], none, [], .disconnected⟩

def update (p : SocketProvider) (k : ℕ) (f : SocketEffect → SocketEffect) : SocketProvider :=
  { p with effects := p.effects.modify k f }

end SocketProvider

def handleConnect (p : SocketProvider) (effect : SocketEffect) : SocketProvider :=
  if effect.active then { p with connectionStatus := .connected } else p

def handleDisconnect (p : SocketProvider) (effect : SocketEffect) : SocketProvider :=
  if !effect.active || effect.suppressDisconnectState then p
  else { p with connectionStatus := .reconnecting, onlineUsers := [] }

def handleOnlineUsers (p : SocketProvider) (effect : SocketEffect) (userIds : List JsString) :
    SocketProvider :=
  if effect.active then { p with onlineUsers := userIds } else p

/-- `nextSocket.disconnect()`, which is also `close()`. A socket that was connected emits the event
at once. -/
def disconnectSocket (p : SocketProvider) (k : ℕ) : SocketProvider :=
  let closed := p.update k fun effect => { effect with nextSocket := .closed }
  match p.effects[k]? with
  | none => p
  | some effect =>
    if effect.nextSocket = .connected ∧ effect.listening then handleDisconnect closed effect
    else closed

/-- What is done first when the server has refused the socket. -/
def giveUp (p : SocketProvider) (k : ℕ) : SocketProvider :=
  let shown : SocketProvider := { p with connectionStatus := .disconnected, onlineUsers := [] }
  disconnectSocket (shown.update k fun effect => { effect with suppressDisconnectState := true }) k

/-- The error has a code when the server has refused the socket. The second component tells whether
`auth:expired` is dispatched. -/
def handleConnectError (p : SocketProvider) (k : ℕ) (effect : SocketEffect)
    (authCode : Option SocketAuthCode) : SocketProvider × Bool :=
  if !effect.active then (p, false)
  else
    match authCode with
    | none => ({ p with connectionStatus := .reconnecting, onlineUsers := [] }, false)
    | some authCode =>
      if authCode ≠ .AUTH_EXPIRED then (giveUp p k, true)
      else
        ({ giveUp p k with connectionStatus := .connecting }.update k
          fun effect => { effect with checks := effect.checks + 1 }, false)

/-- What follows the request of `/api/user/me` after `AUTH_EXPIRED`, with whether `auth:expired` is
dispatched. -/
def handleSessionCheck (p : SocketProvider) (k : ℕ) (effect : SocketEffect) (ok : Bool) :
    SocketProvider × Bool :=
  if !effect.active then (p, false)
  else if ok then
    -- `nextSocket.connect()` does nothing where there is a connection
    (p.update k fun effect =>
      { effect with
        suppressDisconnectState := false
        nextSocket := if effect.nextSocket = .connected then .connected else .connecting }, false)
  else (p, true)

/-- The effect, run with the user that was rendered. -/
def runSocketEffect (p : SocketProvider) : SocketProvider :=
  match p.rendered with
  | none =>
    let closed := match p.socket with
      | none => p
      | some k => disconnectSocket p k
    { closed with
      dependency := none
      socket := none
      onlineUsers := []
      connectionStatus := .disconnected }
  | some authUser =>
    { p with
      dependency := some authUser
      cleanup := some p.effects.length
      effects := p.effects ++ [⟨authUser, true, false, .connecting, true, 0⟩]
      socket := some p.effects.length
      connectionStatus := .connecting }

/-- What the effect has returned, if it was run with a user. -/
def cleanUpSocketEffect (p : SocketProvider) : SocketProvider :=
  match p.cleanup with
  | none => p
  | some k =>
    let off := disconnectSocket (p.update k fun effect =>
      { effect with active := false, listening := false }) k
    { off with
      cleanup := none
      socket := if off.socket = some k then none else off.socket
      connectionStatus := .disconnected }

/-! ## Events -/

inductive SocketEvent
  | connect
  | disconnect
  | connect_error (authCode : Option SocketAuthCode)
  | getOnlineUsers (userIds : List JsString)

/-- What becomes of a socket, where the event can come. One that is refused is closed. -/
def AppSocket.after : AppSocket → SocketEvent → Option AppSocket
  | .connecting, .connect => some .connected
  | .connected, .disconnect => some .connecting
  | .connecting, .connect_error authCode => some (if authCode.isSome then .closed else .connecting)
  | .connected, .getOnlineUsers _ => some .connected
  | _, _ => none

/-- The handler of an event. -/
def handleEvent (p : SocketProvider) (k : ℕ) (effect : SocketEffect) :
    SocketEvent → SocketProvider × Bool
  | .connect => (handleConnect p effect, false)
  | .disconnect => (handleDisconnect p effect, false)
  | .connect_error authCode => handleConnectError p k effect authCode
  | .getOnlineUsers userIds => (handleOnlineUsers p effect userIds, false)

/-- A socket emits an event. -/
def emitEvent (p : SocketProvider) (k : ℕ) (event : SocketEvent) :
    Option (SocketProvider × Bool) :=
  match p.effects[k]? with
  | none => none
  | some effect =>
    match effect.nextSocket.after event with
    | none => none
    | some socket =>
      let changed := p.update k fun effect => { effect with nextSocket := socket }
      some (if effect.listening then handleEvent changed k effect event else (changed, false))

/-- A request of `/api/user/me` is answered. -/
def sessionChecked (p : SocketProvider) (k : ℕ) (ok : Bool) : Option (SocketProvider × Bool) :=
  match p.effects[k]? with
  | none => none
  | some effect =>
    if effect.checks = 0 then none
    else
      some (handleSessionCheck
        (p.update k fun effect => { effect with checks := effect.checks - 1 }) k effect ok)

/-! ## Both components -/

structure Providers where
  auth : AuthProvider
  sockets : SocketProvider

namespace Providers

def initial : Providers := ⟨.initial, .initial⟩

/-- What a handler has done. -/
def handled (s : Providers) (result : SocketProvider × Bool) : Providers where
  auth := if result.2 then s.auth.handleAuthExpired else s.auth
  sockets := result.1

end Providers

inductive ProvidersAction
  | auth (action : AuthProviderAction)
  /-- The page is rendered. What the effects are to do after the last render is done before. -/
  | render
  /-- The effect of `SocketProvider` is cleaned up and run, for another user. -/
  | runSocketEffect
  /-- The same without another user, as in strict mode. -/
  | remount
  | socketEvent (k : ℕ) (event : SocketEvent)
  | sessionChecked (k : ℕ) (ok : Bool)

def providersStep (s : Providers) : ProvidersAction → Option Providers
  | .auth action => (authProviderStep s.auth action).map fun auth => { s with auth := auth }
  | .render =>
    if s.auth.authUser ≠ s.sockets.rendered ∧ s.sockets.rendered = s.sockets.dependency then
      some { s with sockets := { s.sockets with rendered := s.auth.authUser } }
    else none
  | .runSocketEffect =>
    if s.sockets.rendered ≠ s.sockets.dependency then
      some { s with sockets := runSocketEffect (cleanUpSocketEffect s.sockets) }
    else none
  | .remount =>
    if s.sockets.rendered = s.sockets.dependency then
      some { s with sockets := runSocketEffect (cleanUpSocketEffect s.sockets) }
    else none
  | .socketEvent k event => (emitEvent s.sockets k event).map s.handled
  | .sessionChecked k ok => (sessionChecked s.sockets k ok).map s.handled

/-- All pages, from their loading on. -/
def providersSystem : TransitionSystem Providers ProvidersAction where
  init s := s = .initial
  step := providersStep

end MernChat
