import MernChat.Presence.Leases

/-!
# Broadcasts of the online users

Backends on one Redis accept and lose sockets. The handler of either event changes the backend's
own map of sockets, then the presence of the user in Redis; then it reads the list of the online
users and sends it, to every client when the user's first socket of this backend came or the last
one went, and else to the new client alone.

A backend's commands are executed in the order it issued them, one at a time, and the list of a
broadcast reaches the clients of each backend in the order its sender sent it. Nothing else is
ordered: the handlers of a backend go on in any order once their replies are there, and the
backends run side by side.

## Main definitions

* `addSocketForUser`, `removeSocketForUser`: the map of a backend
* `RealtimeState`, `RealtimeAction`, `realtimeSystem`: the backends, Redis, and the clients
* `Quiescent`, `Converged`: no handler is left, and every client has the users online
* `InOrder`: no client is left with a list that was read before one it had
-/

namespace MernChat

open Library

/-! ## The map of a backend -/

/-- The sockets of each user. -/
abbrev SocketsByUser := JsString → List JsString

/-- With whether the user was offline. -/
def addSocketForUser (socketsByUser : SocketsByUser) (userId socketId : JsString) :
    Bool × SocketsByUser :=
  ((socketsByUser userId).isEmpty,
    Function.update socketsByUser userId ((socketsByUser userId).insert socketId))

/-- With whether the user's last socket went. -/
def removeSocketForUser (socketsByUser : SocketsByUser) (userId socketId : JsString) :
    Bool × SocketsByUser :=
  if (socketsByUser userId).isEmpty then (false, socketsByUser)
  else
    let sockets := (socketsByUser userId).erase socketId
    (sockets.isEmpty, Function.update socketsByUser userId sockets)

theorem mem_addSocketForUser {socketsByUser : SocketsByUser} {userId socketId u c : JsString} :
    c ∈ (addSocketForUser socketsByUser userId socketId).2 u ↔
      c ∈ socketsByUser u ∨ u = userId ∧ c = socketId := by
  unfold addSocketForUser
  by_cases hu : u = userId
  · subst hu
    simp [or_comm]
  · simp [hu]

theorem removeSocketForUser_of_mem {socketsByUser : SocketsByUser} {userId socketId : JsString}
    (h : socketId ∈ socketsByUser userId) : removeSocketForUser socketsByUser userId socketId =
      (((socketsByUser userId).erase socketId).isEmpty,
        Function.update socketsByUser userId ((socketsByUser userId).erase socketId)) := by
  unfold removeSocketForUser
  rw [if_neg]
  rw [List.isEmpty_iff]
  exact List.ne_nil_of_mem h

theorem mem_of_mem_removeSocketForUser {socketsByUser : SocketsByUser}
    {userId socketId u c : JsString}
    (h : c ∈ (removeSocketForUser socketsByUser userId socketId).2 u) : c ∈ socketsByUser u := by
  unfold removeSocketForUser at h
  split_ifs at h with hempty
  · exact h
  · by_cases hu : u = userId
    · subst hu
      simp only [Function.update_self] at h
      exact List.mem_of_mem_erase h
    · simpa only [Function.update_of_ne hu] using h

/-- The other sockets stay. -/
theorem mem_removeSocketForUser {socketsByUser : SocketsByUser} {userId socketId u c : JsString}
    (hne : c ≠ socketId) (h : c ∈ socketsByUser u) :
    c ∈ (removeSocketForUser socketsByUser userId socketId).2 u := by
  unfold removeSocketForUser
  split_ifs
  · exact h
  · by_cases hu : u = userId
    · subst hu
      simp only [Function.update_self]
      exact (List.mem_erase_of_ne hne).mpr h
    · simpa only [Function.update_of_ne hu] using h

/-! ## The state -/

inductive HandlerKind
  | connection
  | disconnect
deriving DecidableEq

/-- A handler, with `becameOnline` or `becameOffline`. -/
structure Handler where
  kind : HandlerKind
  userId : JsString
  socketId : JsString
  broadcast : Bool
deriving DecidableEq

/-- A command that a backend has issued. -/
inductive Command where
  /-- `markUserOnline` or `markUserOffline` of a handler. -/
  | presence (h : Handler)
  /-- `getOnlineUserIds` of a handler. -/
  | read (h : Handler)
  /-- `markUserOnline` of the interval. -/
  | heartbeat (userId socketId : JsString)

/-- A list of the online users, and the number of commands executed before it was read. -/
structure OnlineRead where
  users : List JsString
  stamp : ℕ

/-- A reply that a backend has not yet taken up. -/
inductive Reply where
  | marked (h : Handler)
  | online (h : Handler) (read : OnlineRead)

/-- A list on its way to the clients of a backend, or to one of them. -/
structure Broadcast where
  target : Option JsString
  read : OnlineRead

def Broadcast.isFor (b : Broadcast) (socketId : JsString) : Bool :=
  b.target.all (· == socketId)

/-- A socket that has connected, and the last list it received. -/
structure Client (ι : Type) where
  backend : ι
  userId : JsString
  connected : Bool
  last : Option OnlineRead

/-- The backends `ι`, with what each has issued, not taken up, and sent to each other one. -/
structure RealtimeState (ι : Type) where
  presence : PresenceState
  socketsByUser : ι → SocketsByUser
  commands : ι → List Command
  replies : ι → List Reply
  broadcasts : ι → ι → List Broadcast
  clients : JsString → Option (Client ι)
  executed : ℕ

inductive RealtimeAction (ι : Type) where
  /-- A socket connects, under an id of its own. -/
  | connect (i : ι) (userId socketId : JsString)
  | disconnect (socketId : JsString)
  | heartbeat (socketId : JsString)
  /-- Redis executes the next command of a backend. -/
  | execute (i : ι) (now : ℕ)
  /-- A backend takes up one of its replies. -/
  | resume (i : ι) (n : ℕ)
  /-- The next list that `i` has sent reaches the clients of `j`. -/
  | deliver (i j : ι)

/-! ## The steps -/

def Command.op : Command → PresenceOp
  | .presence ⟨.connection, userId, socketId, _⟩ => .markUserOnline userId socketId
  | .presence ⟨.disconnect, userId, socketId, _⟩ => .markUserOffline userId socketId
  | .read _ => .getOnlineUserIds
  | .heartbeat userId socketId => .markUserOnline userId socketId

/-- The replies to a command. No one waits for that of a heartbeat. -/
def Command.replies (now : ℕ) (r : Redis) (stamp : ℕ) : Command → List Reply
  | .presence h => [.marked h]
  | .read h => [.online h ⟨(getOnlineUserIds now r).1, stamp⟩]
  | .heartbeat _ _ => []

/-- The client has received what is for it. -/
def Client.receive {ι : Type} [DecidableEq ι] (client : Client ι) (j : ι) (socketId : JsString)
    (b : Broadcast) : Client ι :=
  if client.connected && decide (client.backend = j) && b.isFor socketId then
    { client with last := some b.read }
  else client

variable {ι : Type} [DecidableEq ι]

namespace RealtimeState

variable (s : RealtimeState ι)

def issue (i : ι) (c : Command) : RealtimeState ι :=
  { s with commands := Function.update s.commands i (s.commands i ++ [c]) }

/-- `io.emit`, or `socket.emit` to a target. -/
def emit (i : ι) (target : Option JsString) (read : OnlineRead) : RealtimeState ι :=
  { s with
    broadcasts := fun k j =>
      -- a list for one socket goes to the clients of its own backend
      if k = i ∧ (target = none ∨ j = i) then s.broadcasts k j ++ [⟨target, read⟩]
      else s.broadcasts k j }

/-- The command `c`, the first of those of `i`, is executed at `now`. -/
def execute (i : ι) (now : ℕ) (c : Command) : RealtimeState ι :=
  { s with
    presence := s.presence.call now c.op
    commands := Function.update s.commands i (s.commands i).tail
    replies := Function.update s.replies i
      (s.replies i ++ c.replies now s.presence.redis s.executed)
    executed := s.executed + 1 }

/-- A handler goes on after a reply. -/
def resume (i : ι) : Reply → RealtimeState ι
  | .marked h =>
    match h.kind, h.broadcast with
    -- a user with another socket is still online, and no list is sent
    | .disconnect, false => s
    | _, _ => s.issue i (.read h)
  | .online h read => s.emit i (if h.broadcast then none else some h.socketId) read

/-- The `n`-th reply of `i` is taken up. -/
def takeReply (i : ι) (n : ℕ) : RealtimeState ι :=
  { s with replies := Function.update s.replies i ((s.replies i).eraseIdx n) }

/-- The first list that `i` has sent to `j` is taken off. -/
def dropBroadcast (i j : ι) : RealtimeState ι :=
  { s with
    broadcasts := fun k l => if k = i ∧ l = j then (s.broadcasts k l).tail else s.broadcasts k l }

/-- The clients of `j` receive a list. -/
def receive (j : ι) (b : Broadcast) : RealtimeState ι :=
  { s with clients := fun socketId => (s.clients socketId).map (·.receive j socketId b) }

end RealtimeState

def realtimeStep (s : RealtimeState ι) : RealtimeAction ι → Option (RealtimeState ι)
  | .connect i userId socketId =>
    match s.clients socketId with
    -- a socket's id is never used again
    | some _ => none
    | none =>
      let (becameOnline, sockets) := addSocketForUser (s.socketsByUser i) userId socketId
      some (RealtimeState.issue { s with
        socketsByUser := Function.update s.socketsByUser i sockets
        clients := Function.update s.clients socketId (some ⟨i, userId, true, none⟩) } i
          (.presence ⟨.connection, userId, socketId, becameOnline⟩))
  | .disconnect socketId =>
    match s.clients socketId with
    | some ⟨i, userId, true, last⟩ =>
      let (becameOffline, sockets) := removeSocketForUser (s.socketsByUser i) userId socketId
      some (RealtimeState.issue { s with
        socketsByUser := Function.update s.socketsByUser i sockets
        clients := Function.update s.clients socketId (some ⟨i, userId, false, last⟩) } i
          (.presence ⟨.disconnect, userId, socketId, becameOffline⟩))
    | _ => none
  | .heartbeat socketId =>
    match s.clients socketId with
    | some ⟨i, userId, true, _⟩ => some (s.issue i (.heartbeat userId socketId))
    | _ => none
  | .execute i now =>
    match s.commands i with
    | [] => none
    -- the clock of Redis does not go back
    | c :: _ => if s.presence.clock ≤ now then some (s.execute i now c) else none
  | .resume i n =>
    match (s.replies i)[n]? with
    | none => none
    | some r => some ((s.takeReply i n).resume i r)
  | .deliver i j =>
    match s.broadcasts i j with
    | [] => none
    | b :: _ => some ((s.dropBroadcast i j).receive j b)

/-- At first no one has connected. -/
def realtimeSystem (ι : Type) [DecidableEq ι] :
    TransitionSystem (RealtimeState ι) (RealtimeAction ι) where
  init s := presenceSystem.init s.presence ∧ (∀ i u, s.socketsByUser i u = []) ∧
    (∀ i, s.commands i = []) ∧ (∀ i, s.replies i = []) ∧ (∀ i j, s.broadcasts i j = []) ∧
    ∀ c, s.clients c = none
  step s a := realtimeStep s a

/-! ## What is asked -/

/-- All handlers have completed, and all lists have arrived. -/
def Quiescent (s : RealtimeState ι) : Prop :=
  ∀ i, s.commands i = [] ∧ s.replies i = [] ∧ ∀ j, s.broadcasts i j = []

/-- The last list that each connected client received is that of the users online. -/
def Converged (s : RealtimeState ι) : Prop :=
  ∀ c client, s.clients c = some client → client.connected = true →
    ∃ r, client.last = some r ∧ ∀ u, u ∈ r.users ↔ Online s.presence.leases s.presence.clock u

/-- The list that the handler sends is for the socket. -/
def Handler.isFor (h : Handler) (socketId : JsString) : Prop :=
  h.broadcast = true ∨ h.kind = .connection ∧ h.socketId = socketId

/-- A list that was not read before the `n`-th command is on its way to the socket `c` of the
backend `j`: it is yet to be read, or to be sent, or to arrive. -/
def UnderWay (s : RealtimeState ι) (c : JsString) (j : ι) (n : ℕ) : Prop :=
  (∃ i h, h.isFor c ∧ (.presence h ∈ s.commands i ∨ .read h ∈ s.commands i ∨
    .marked h ∈ s.replies i)) ∨
  (∃ i h r, h.isFor c ∧ .online h r ∈ s.replies i ∧ n ≤ r.stamp) ∨
  ∃ i, ∃ b ∈ s.broadcasts i j, b.isFor c = true ∧ n ≤ b.read.stamp

/-- No lease runs out. No list arrives at a client that has received one read later, unless one
that was read no earlier than that is still on its way. -/
def InOrder : Guard (RealtimeState ι) (RealtimeAction ι)
  | s, .execute _ now => ∀ u c e, s.presence.leases u c = some e → now < e
  | s, .deliver i j => ∀ b ∈ (s.broadcasts i j).head?, ∀ c client r, s.clients c = some client →
      client.connected = true → client.backend = j → b.isFor c = true → client.last = some r →
        r.stamp ≤ b.read.stamp ∨ UnderWay (s.dropBroadcast i j) c j r.stamp
  | _, _ => True

end MernChat
