import MernChat.Presence.Broadcasts

/-!
# The maps of the backends

A backend's map is changed when a handler starts, the leases when its command is executed. The
commands in flight lead from the one to the other: executed in their order, they turn the sockets
of the backend that hold a lease into those of the map. So a handler that found another socket of
its user in the map finds one with a lease, and changes no one's presence.

## Main definitions

* `Command.apply`, `Command.Fits`, `Follows`: the commands in flight
* `Holds`: a user holds a lease
* `LocalMaps`: the invariant of the maps

## Main results

* `LocalMaps.issue`, `LocalMaps.execute`, `LocalMaps.congr`: what keeps the maps in step
* `LocalMaps.holds_execute`: a command that does not broadcast changes no one's presence
-/

namespace MernChat

open Library

/-! ## Commands in flight -/

/-- The user whose presence a command is about. -/
def Command.user : Command → JsString
  | .presence h => h.userId
  | .read h => h.userId
  | .heartbeat userId _ => userId

/-- What a command makes of the sockets of its user. -/
def Command.apply (sockets : List JsString) : Command → List JsString
  | .presence ⟨.connection, _, socketId, _⟩ => sockets.insert socketId
  | .presence ⟨.disconnect, _, socketId, _⟩ => sockets.erase socketId
  | .read _ => sockets
  | .heartbeat _ _ => sockets

/-- A handler that does not broadcast finds another socket of the user, and a heartbeat its own. -/
def Command.Fits (sockets : List JsString) : Command → Prop
  | .presence ⟨.connection, _, _, broadcast⟩ => broadcast = false → sockets ≠ []
  | .presence ⟨.disconnect, _, socketId, broadcast⟩ =>
    broadcast = false → sockets.erase socketId ≠ []
  | .read _ => True
  | .heartbeat _ socketId => socketId ∈ sockets

/-- The commands about the user `u` fit, and lead from the one list of sockets to the other. -/
def Follows (u : JsString) : List JsString → List Command → List JsString → Prop
  | sockets, [], final => sockets = final
  | sockets, c :: cs, final =>
    (c.user = u → c.Fits sockets) ∧
      Follows u (if c.user = u then c.apply sockets else sockets) cs final

theorem Follows.append {u : JsString} {sockets final : List JsString} {cs : List Command}
    {c : Command} (h : Follows u sockets cs final) (hc : c.user = u → c.Fits final) :
    Follows u sockets (cs ++ [c]) (if c.user = u then c.apply final else final) := by
  induction cs generalizing sockets with
  | nil =>
    obtain rfl : sockets = final := h
    exact ⟨hc, rfl⟩
  | cons d cs ih => exact ⟨h.1, ih h.2⟩

theorem Command.nodup_apply {sockets : List JsString} (h : sockets.Nodup) (c : Command) :
    (c.apply sockets).Nodup := by
  match c with
  | .presence ⟨.connection, _, _, _⟩ => exact h.insert
  | .presence ⟨.disconnect, _, socketId, _⟩ => exact h.erase socketId
  | .read _ => exact h
  | .heartbeat _ _ => exact h

/-! ## Leases -/

/-- The user holds a lease. -/
def Holds (leases : Leases) (u : JsString) : Prop := ∃ c e, leases u c = some e

theorem online_iff_holds {leases : Leases} {now : ℕ}
    (h : ∀ u c e, leases u c = some e → now < e) (u : JsString) :
    Online leases now u ↔ Holds leases u := by
  constructor
  · rintro ⟨c, e, he, -⟩
    exact ⟨c, e, he⟩
  · rintro ⟨c, e, he⟩
    exact ⟨c, e, he, h u c e he⟩

section Leases

variable {c : Command} {leases : Leases} {u : JsString} {sockets : List JsString}

/-- A command leaves the leases of other users alone. -/
theorem lease_of_ne (h : c.user ≠ u) (now : ℕ) : c.op.lease now leases u = leases u := by
  funext x
  match c with
  | .presence ⟨.connection, userId, _, _⟩ =>
    have hu : u ≠ userId := h.symm
    simp [Command.op, PresenceOp.lease, hu]
  | .presence ⟨.disconnect, userId, _, _⟩ =>
    have hu : u ≠ userId := h.symm
    simp [Command.op, PresenceOp.lease, hu]
  | .read _ => rfl
  | .heartbeat userId _ =>
    have hu : u ≠ userId := h.symm
    simp [Command.op, PresenceOp.lease, hu]

/-- Sockets that hold leases do so after a command that fits them. -/
theorem isSome_lease (hnodup : sockets.Nodup)
    (hlease : ∀ x ∈ sockets, (leases c.user x).isSome = true) (now : ℕ) {x : JsString}
    (hx : x ∈ c.apply sockets) : (c.op.lease now leases c.user x).isSome = true := by
  match c with
  | .presence ⟨.connection, userId, socketId, _⟩ =>
    rcases List.mem_insert_iff.mp hx with rfl | hx
    · simp [Command.op, Command.user, PresenceOp.lease]
    · simp only [Command.op, Command.user, PresenceOp.lease]
      split
      · rfl
      · exact hlease x hx
  | .presence ⟨.disconnect, userId, socketId, _⟩ =>
    obtain ⟨hne, hx⟩ := (List.Nodup.mem_erase_iff hnodup).mp hx
    simp only [Command.op, Command.user, PresenceOp.lease, hne, and_false, if_false]
    exact hlease x hx
  | .read _ => exact hlease x hx
  | .heartbeat userId socketId =>
    simp only [Command.op, Command.user, PresenceOp.lease]
    split
    · rfl
    · exact hlease x hx

/-- The lease of a socket stays, unless the command is of a handler of that socket. -/
theorem isSome_lease_of_ne {x : JsString} (hx : (leases u x).isSome = true) (now : ℕ)
    (hc : ∀ h, c = .presence h → h.socketId ≠ x) : (c.op.lease now leases u x).isSome = true := by
  match c with
  | .presence ⟨.connection, _, _, _⟩ =>
    have hne := (hc _ rfl).symm
    simpa [Command.op, PresenceOp.lease, hne] using hx
  | .presence ⟨.disconnect, _, _, _⟩ =>
    have hne := (hc _ rfl).symm
    simpa [Command.op, PresenceOp.lease, hne] using hx
  | .read _ => exact hx
  | .heartbeat _ _ =>
    simp only [Command.op, PresenceOp.lease]
    split
    · rfl
    · exact hx

/-- The sockets after a command are those before it, and that of its handler. -/
theorem mem_apply {x : JsString} (hx : x ∈ c.apply sockets) :
    x ∈ sockets ∨ ∃ h, c = .presence h ∧ h.socketId = x := by
  match c with
  | .presence ⟨.connection, _, _, _⟩ =>
    rcases List.mem_insert_iff.mp hx with rfl | hx
    · exact .inr ⟨_, rfl, rfl⟩
    · exact .inl hx
  | .presence ⟨.disconnect, _, _, _⟩ => exact .inl (List.mem_of_mem_erase hx)
  | .read _ => exact .inl hx
  | .heartbeat _ _ => exact .inl hx

/-- A command that fits sockets with leases, and does not broadcast, changes no one's presence. -/
theorem holds_lease (hc : ∀ h, c = .presence h → h.broadcast = false) (hnodup : sockets.Nodup)
    (hlease : ∀ x ∈ sockets, (leases c.user x).isSome = true) (hfits : c.Fits sockets) (now : ℕ)
    (u : JsString) : Holds (c.op.lease now leases) u ↔ Holds leases u := by
  by_cases hu : c.user = u
  · subst hu
    have hheld : ∀ x ∈ sockets, Holds leases c.user := by
      intro x hx
      obtain ⟨e, he⟩ := Option.isSome_iff_exists.mp (hlease x hx)
      exact ⟨x, e, he⟩
    have hafter : ∀ x ∈ c.apply sockets, Holds (c.op.lease now leases) c.user := by
      intro x hx
      obtain ⟨e, he⟩ := Option.isSome_iff_exists.mp (isSome_lease hnodup hlease now hx)
      exact ⟨x, e, he⟩
    match c with
    | .presence ⟨.connection, userId, socketId, _⟩ =>
      obtain ⟨x, hx⟩ := List.exists_mem_of_ne_nil _ (hfits (hc _ rfl))
      exact iff_of_true (hafter x (List.mem_insert_of_mem hx)) (hheld x hx)
    | .presence ⟨.disconnect, userId, socketId, _⟩ =>
      obtain ⟨x, hx⟩ := List.exists_mem_of_ne_nil _ (hfits (hc _ rfl))
      exact iff_of_true (hafter x hx) (hheld x (List.mem_of_mem_erase hx))
    | .read _ => exact Iff.rfl
    | .heartbeat userId socketId => exact iff_of_true (hafter _ hfits) (hheld _ hfits)
  · rw [Holds, lease_of_ne hu, Holds]

end Leases

/-! ## The maps of the backends -/

variable {ι : Type} [DecidableEq ι] {s t : RealtimeState ι}

/-- The socket connected to the backend as the user's. -/
def Owns (s : RealtimeState ι) (i : ι) (u c : JsString) : Prop :=
  ∃ client, s.clients c = some client ∧ client.backend = i ∧ client.userId = u

/-- The handler is at work for the backend. -/
def Handles (s : RealtimeState ι) (i : ι) (h : Handler) : Prop :=
  .presence h ∈ s.commands i ∨ .read h ∈ s.commands i ∨ .marked h ∈ s.replies i ∨
    ∃ r, .online h r ∈ s.replies i

/-- Every backend's map has its connected sockets, and is what the commands in flight make of the
sockets with leases. -/
structure LocalMaps (s : RealtimeState ι) : Prop where
  handlers : ∀ i h, Handles s i h → Owns s i h.userId h.socketId
  connected : ∀ c client, s.clients c = some client → client.connected = true →
    c ∈ s.socketsByUser client.backend client.userId
  sockets : ∀ i u c, c ∈ s.socketsByUser i u → Owns s i u c
  follows : ∀ i u, ∃ sockets : List JsString, sockets.Nodup ∧
    (∀ c ∈ sockets, Owns s i u c ∧ (s.presence.leases u c).isSome = true) ∧
      Follows u sockets (s.commands i) (s.socketsByUser i u)

theorem mem_commands_issue {i k : ι} {c d : Command} :
    d ∈ (s.issue i c).commands k ↔ d ∈ s.commands k ∨ k = i ∧ d = c := by
  by_cases hk : k = i
  · subst hk
    simp [RealtimeState.issue]
  · simp [RealtimeState.issue, hk]

theorem handles_issue {i k : ι} {c : Command} {h : Handler} (hh : Handles (s.issue i c) k h) :
    Handles s k h ∨ k = i ∧ (c = .presence h ∨ c = .read h) := by
  rcases hh with hh | hh | hh | hh
  · rcases mem_commands_issue.mp hh with hh | ⟨hk, hc⟩
    · exact .inl (.inl hh)
    · exact .inr ⟨hk, .inl hc.symm⟩
  · rcases mem_commands_issue.mp hh with hh | ⟨hk, hc⟩
    · exact .inl (.inr (.inl hh))
    · exact .inr ⟨hk, .inr hc.symm⟩
  · exact .inl (.inr (.inr (.inl hh)))
  · exact .inl (.inr (.inr (.inr hh)))

/-- A command is issued, and the map of its backend follows. -/
theorem LocalMaps.issue (h : LocalMaps s) {i : ι} {c : Command}
    {socketsByUser : ι → SocketsByUser} {clients : JsString → Option (Client ι)}
    (hfits : c.Fits (s.socketsByUser i c.user))
    (hself : ∀ u, socketsByUser i u =
      if c.user = u then c.apply (s.socketsByUser i u) else s.socketsByUser i u)
    (hothers : ∀ k ≠ i, socketsByUser k = s.socketsByUser k)
    (hown : ∀ k u x, Owns s k u x → Owns { s with clients } k u x)
    (hnew : ∀ x, c = .presence x ∨ c = .read x →
      Owns { s with clients } i x.userId x.socketId)
    (hconnected : ∀ x client, clients x = some client → client.connected = true →
      x ∈ socketsByUser client.backend client.userId)
    (hsockets : ∀ k u x, x ∈ socketsByUser k u → Owns { s with clients } k u x) :
    LocalMaps (RealtimeState.issue { s with socketsByUser, clients } i c) := by
  refine ⟨?_, hconnected, hsockets, ?_⟩
  · intro k x hx
    rcases handles_issue hx with hx | ⟨rfl, hc⟩
    · exact hown k _ _ (h.handlers k x hx)
    · exact hnew x hc
  · intro k u
    obtain ⟨sockets, hnodup, howned, hfollows⟩ := h.follows k u
    refine ⟨sockets, hnodup, fun x hx => ⟨hown k u x (howned x hx).1, (howned x hx).2⟩, ?_⟩
    by_cases hk : k = i
    · subst hk
      -- the command fits the map, and goes to the end of the queue
      have happend := hfollows.append (c := c) fun hu => hu ▸ hfits
      simp only [RealtimeState.issue, Function.update_self, hself]
      exact happend
    · simp only [RealtimeState.issue, Function.update_of_ne hk, hothers k hk]
      exact hfollows

omit [DecidableEq ι] in
/-- A step that changes neither the maps, nor the commands, nor the leases. -/
theorem LocalMaps.congr (h : LocalMaps s) (hmap : t.socketsByUser = s.socketsByUser)
    (hcommands : t.commands = s.commands) (hleases : t.presence.leases = s.presence.leases)
    (hhandles : ∀ i x, Handles t i x → Handles s i x)
    (hown : ∀ i u c, Owns s i u c → Owns t i u c)
    (hconnected : ∀ c client, t.clients c = some client → client.connected = true →
      ∃ old, s.clients c = some old ∧ old.connected = true ∧ old.backend = client.backend ∧
        old.userId = client.userId) : LocalMaps t := by
  refine ⟨?_, ?_, ?_, ?_⟩
  · intro i x hx
    exact hown i _ _ (h.handlers i x (hhandles i x hx))
  · intro c client hclient hconn
    obtain ⟨old, hold, holdconn, hbackend, huser⟩ := hconnected c client hclient hconn
    rw [hmap, ← hbackend, ← huser]
    exact h.connected c old hold holdconn
  · intro i u c hc
    rw [hmap] at hc
    exact hown i u c (h.sockets i u c hc)
  · intro i u
    obtain ⟨sockets, hnodup, howned, hfollows⟩ := h.follows i u
    rw [hmap, hcommands, hleases]
    exact ⟨sockets, hnodup, fun c hc => ⟨hown i u c (howned c hc).1, (howned c hc).2⟩, hfollows⟩

section Execute

variable {i k : ι} {now : ℕ} {c : Command} {rest : List Command}

theorem commands_execute (hc : s.commands i = c :: rest) :
    (s.execute i now c).commands k = if k = i then rest else s.commands k := by
  split_ifs with hk
  · subst hk
    simp [RealtimeState.execute, hc]
  · simp [RealtimeState.execute, hk]

theorem replies_execute :
    (s.execute i now c).replies k =
      if k = i then s.replies k ++ c.replies now s.presence.redis s.executed else s.replies k := by
  split_ifs with hk
  · subst hk
    simp [RealtimeState.execute]
  · simp [RealtimeState.execute, hk]

theorem mem_commands_of_execute {d : Command} (hc : s.commands i = c :: rest)
    (hd : d ∈ (s.execute i now c).commands k) : d ∈ s.commands k := by
  rw [commands_execute hc] at hd
  split_ifs at hd with hk
  · subst hk
    rw [hc]
    exact List.mem_cons_of_mem _ hd
  · exact hd

theorem handles_execute {h : Handler} (hc : s.commands i = c :: rest)
    (hh : Handles (s.execute i now c) k h) : Handles s k h := by
  have hhead : c ∈ s.commands i := by
    rw [hc]
    exact List.mem_cons_self
  rcases hh with hh | hh | hh | ⟨r, hh⟩
  · exact .inl (mem_commands_of_execute hc hh)
  · exact .inr (.inl (mem_commands_of_execute hc hh))
  · rw [replies_execute] at hh
    split_ifs at hh with hk
    · rcases List.mem_append.mp hh with hh | hh
      · exact .inr (.inr (.inl hh))
      · -- the reply is to the command just executed
        subst hk
        match c with
        | .presence x =>
          obtain rfl : h = x := by simpa [Command.replies] using hh
          exact .inl hhead
        | .read x => simp [Command.replies] at hh
        | .heartbeat _ _ => simp [Command.replies] at hh
    · exact .inr (.inr (.inl hh))
  · rw [replies_execute] at hh
    split_ifs at hh with hk
    · rcases List.mem_append.mp hh with hh | hh
      · exact .inr (.inr (.inr ⟨r, hh⟩))
      · subst hk
        match c with
        | .presence x => simp [Command.replies] at hh
        | .read x =>
          obtain ⟨rfl, -⟩ : h = x ∧ _ := by simpa [Command.replies] using hh
          exact .inr (.inl hhead)
        | .heartbeat _ _ => simp [Command.replies] at hh
    · exact .inr (.inr (.inr ⟨r, hh⟩))

/-- A command is executed. -/
theorem LocalMaps.execute (h : LocalMaps s) (hc : s.commands i = c :: rest) :
    LocalMaps (s.execute i now c) := by
  have hhead : c ∈ s.commands i := by
    rw [hc]
    exact List.mem_cons_self
  refine ⟨fun k x hx => h.handlers k x (handles_execute hc hx), h.connected, h.sockets, ?_⟩
  intro k u
  obtain ⟨sockets, hnodup, howned, hfollows⟩ := h.follows k u
  have hlease : ∀ x ∈ sockets, (s.presence.leases u x).isSome = true := fun x hx => (howned x hx).2
  rw [commands_execute hc]
  split_ifs with hk
  · subst hk
    rw [hc] at hfollows
    by_cases hu : c.user = u
    · subst hu
      have hrest := hfollows.2
      rw [if_pos rfl] at hrest
      refine ⟨c.apply sockets, Command.nodup_apply hnodup c, fun x hx => ?_, hrest⟩
      refine ⟨?_, isSome_lease hnodup hlease now hx⟩
      rcases mem_apply hx with hx | ⟨y, rfl, rfl⟩
      · exact (howned x hx).1
      · exact h.handlers k y (.inl hhead)
    · have hrest := hfollows.2
      rw [if_neg hu] at hrest
      refine ⟨sockets, hnodup, fun x hx => ⟨(howned x hx).1, ?_⟩, hrest⟩
      show (c.op.lease now s.presence.leases u x).isSome = true
      rw [lease_of_ne hu]
      exact hlease x hx
  · refine ⟨sockets, hnodup, fun x hx => ⟨(howned x hx).1, ?_⟩, hfollows⟩
    apply isSome_lease_of_ne (hlease x hx)
    rintro y rfl rfl
    -- a socket has one backend
    obtain ⟨client, hclient, hbackend, -⟩ := (howned _ hx).1
    obtain ⟨other, hother, hotherBackend, -⟩ := h.handlers i y (.inl hhead)
    rw [hclient] at hother
    obtain rfl := Option.some.inj hother
    exact hk (hbackend.symm.trans hotherBackend)

/-- A command that does not broadcast changes no one's presence. -/
theorem LocalMaps.holds_execute (h : LocalMaps s) (hc : s.commands i = c :: rest)
    (hquiet : ∀ x, c = .presence x → x.broadcast = false) (u : JsString) :
    Holds (s.execute i now c).presence.leases u ↔ Holds s.presence.leases u := by
  obtain ⟨sockets, hnodup, howned, hfollows⟩ := h.follows i c.user
  rw [hc] at hfollows
  exact holds_lease hquiet hnodup (fun x hx => (howned x hx).2) (hfollows.1 rfl) now u

end Execute

end MernChat
