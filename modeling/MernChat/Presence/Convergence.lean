import Mathlib.Data.List.Perm.Basic
import MernChat.Presence.LocalMaps

/-!
# When the broadcasts converge

After every change of who is online a list is read that is for every client. A client ends with
that list, or with one read later, unless one that was read earlier arrives late.

## Main definitions

* `Fresh`: from some command on the lists are those of the users online, and every client has one
  of them or will
* `Coherent`: the invariant

## Main results

* `broadcasts_converge`: every run in which lists arrive in order ends with every client knowing
  the users online
* `broadcasts_diverge`: a late list leaves a client without a user who is online
-/

namespace MernChat

open Library TransitionSystem

variable {ι : Type} [DecidableEq ι] {s t : RealtimeState ι}

/-! ## Lists under way -/

/-- The list is waited for, sent, or received. -/
def Reads (s : RealtimeState ι) (r : OnlineRead) : Prop :=
  (∃ i h, .online h r ∈ s.replies i) ∨ (∃ i j, ∃ b ∈ s.broadcasts i j, b.read = r) ∨
    ∃ c client, s.clients c = some client ∧ client.last = some r

/-- The lists read from the `n`-th command on are those of the users who hold leases, and every
client has one of them, or will. -/
structure Fresh (s : RealtimeState ι) (n : ℕ) : Prop where
  le : n ≤ s.executed
  stamps : ∀ r, Reads s r → r.stamp < s.executed
  current : ∀ r, Reads s r → n ≤ r.stamp → ∀ u, u ∈ r.users ↔ Holds s.presence.leases u
  covered : ∀ c client, s.clients c = some client → client.connected = true →
    (∃ r, client.last = some r ∧ n ≤ r.stamp) ∨ UnderWay s c client.backend n

omit [DecidableEq ι] in
/-- A step that executes no command. -/
theorem Fresh.congr {n : ℕ} (h : Fresh s n) (hexecuted : t.executed = s.executed)
    (hleases : t.presence.leases = s.presence.leases) (hreads : ∀ r, Reads t r → Reads s r)
    (hcovered : ∀ c client, t.clients c = some client → client.connected = true →
      (∃ r, client.last = some r ∧ n ≤ r.stamp) ∨ UnderWay t c client.backend n) : Fresh t n := by
  refine ⟨?_, ?_, ?_, hcovered⟩
  · rw [hexecuted]
    exact h.le
  · intro r hr
    rw [hexecuted]
    exact h.stamps r (hreads r hr)
  · intro r hr
    rw [hleases]
    exact h.current r (hreads r hr)

theorem UnderWay.issue {c : JsString} {j : ι} {n : ℕ} (h : UnderWay s c j n) (i : ι) (d : Command) :
    UnderWay (s.issue i d) c j n := by
  rcases h with ⟨k, x, hx, hpending⟩ | hread | hsent
  · refine .inl ⟨k, x, hx, ?_⟩
    rcases hpending with hpending | hpending | hpending
    · exact .inl (mem_commands_issue.mpr (.inl hpending))
    · exact .inr (.inl (mem_commands_issue.mpr (.inl hpending)))
    · exact .inr (.inr hpending)
  · exact .inr (.inl hread)
  · exact .inr (.inr hsent)

omit [DecidableEq ι] in
theorem UnderWay.mono {c : JsString} {j : ι} {n m : ℕ} (h : UnderWay s c j n) (hle : m ≤ n) :
    UnderWay s c j m := by
  rcases h with hpending | ⟨i, x, r, hx, hr, hn⟩ | ⟨i, b, hb, hfor, hn⟩
  · exact .inl hpending
  · exact .inr (.inl ⟨i, x, r, hx, hr, hle.trans hn⟩)
  · exact .inr (.inr ⟨i, b, hb, hfor, hle.trans hn⟩)

section Execute

variable {i k : ι} {now : ℕ} {c : Command} {rest : List Command} {n : ℕ}

/-- What is to be read is read, and what was read stays. -/
theorem UnderWay.execute {x : JsString} {j : ι} (h : UnderWay s x j n)
    (hc : s.commands i = c :: rest) (hn : n ≤ s.executed) : UnderWay (s.execute i now c) x j n := by
  have hreplies : ∀ k r, r ∈ s.replies k → r ∈ (s.execute i now c).replies k := by
    intro k r hr
    rw [replies_execute]
    split_ifs
    · exact List.mem_append_left _ hr
    · exact hr
  have hcommands : ∀ k d, d ∈ s.commands k →
      d ∈ (s.execute i now c).commands k ∨ k = i ∧ d = c := by
    intro k d hd
    rw [commands_execute hc]
    split_ifs with hk
    · subst hk
      rw [hc] at hd
      rcases List.mem_cons.mp hd with rfl | hd
      · exact .inr ⟨rfl, rfl⟩
      · exact .inl hd
    · exact .inl hd
  -- the replies to the command wait behind those that are there
  have hnew : ∀ r ∈ c.replies now s.presence.redis s.executed,
      r ∈ (s.execute i now c).replies i := by
    intro r hr
    rw [replies_execute, if_pos rfl]
    exact List.mem_append_right _ hr
  rcases h with ⟨k, y, hy, hpending⟩ | ⟨k, y, r, hy, hr, hle⟩ | hsent
  · rcases hpending with hpending | hpending | hpending
    · -- a command that is executed leaves its reply
      rcases hcommands k _ hpending with hpending | ⟨rfl, rfl⟩
      · exact .inl ⟨k, y, hy, .inl hpending⟩
      · exact .inl ⟨k, y, hy, .inr (.inr (hnew _ (List.mem_singleton_self _)))⟩
    · rcases hcommands k _ hpending with hpending | ⟨rfl, rfl⟩
      · exact .inl ⟨k, y, hy, .inr (.inl hpending)⟩
      · exact .inr (.inl ⟨k, y, _, hy, hnew _ (List.mem_singleton_self _), hn⟩)
    · exact .inl ⟨k, y, hy, .inr (.inr (hreplies k _ hpending))⟩
  · exact .inr (.inl ⟨k, y, r, hy, hreplies k _ hr, hle⟩)
  · exact .inr (.inr hsent)

/-- The one list that is new is the one just read. -/
theorem reads_execute {r : OnlineRead} (h : Reads (s.execute i now c) r) :
    Reads s r ∨ (∃ x, c = .read x) ∧
      r = ⟨(getOnlineUserIds now s.presence.redis).1, s.executed⟩ := by
  rcases h with ⟨k, x, hr⟩ | hsent | hlast
  · rw [replies_execute] at hr
    split_ifs at hr with hk
    · rcases List.mem_append.mp hr with hr | hr
      · exact .inl (.inl ⟨k, x, hr⟩)
      · match c with
        | .presence y => simp [Command.replies] at hr
        | .read y =>
          obtain ⟨-, rfl⟩ : x = y ∧ r = _ := by simpa [Command.replies] using hr
          exact .inr ⟨⟨y, rfl⟩, rfl⟩
        | .heartbeat _ _ => simp [Command.replies] at hr
    · exact .inl (.inl ⟨k, x, hr⟩)
  · exact .inl (.inr (.inl hsent))
  · exact .inl (.inr (.inr hlast))

end Execute

/-! ## The invariant -/

/-- The index follows the leases, none of which has run out; the maps follow the commands; and the
lists are fresh from some command on. -/
structure Coherent (s : RealtimeState ι) : Prop where
  index : Indexed s.presence.redis s.presence.leases s.presence.clock
  lasting : ∀ u c e, s.presence.leases u c = some e → s.presence.clock < e
  maps : LocalMaps s
  fresh : ∃ n, Fresh s n

theorem lasting_call {leases : Leases} {now : ℕ} (h : ∀ u c e, leases u c = some e → now < e)
    (op : PresenceOp) (u c : JsString) (e : ℕ) (he : op.lease now leases u c = some e) :
    now < e := by
  have hnew : now < expiryScore now := Nat.lt_add_of_pos_right (by decide)
  cases op with
  | markUserOnline userId socketId =>
    simp only [PresenceOp.lease] at he
    split at he
    · exact Option.some.inj he ▸ hnew
    · exact h u c e he
  | markUserOffline userId socketId =>
    simp only [PresenceOp.lease] at he
    split at he
    · cases he
    · exact h u c e he
  | isUserOnline userId => exact h u c e he
  | getOnlineUserIds => exact h u c e he

theorem Coherent.execute (h : Coherent s) {i : ι} {now : ℕ} {c : Command} {rest : List Command}
    (hc : s.commands i = c :: rest) (hclock : s.presence.clock ≤ now)
    (hlasting : ∀ u c e, s.presence.leases u c = some e → now < e) :
    Coherent (s.execute i now c) := by
  refine ⟨h.index.run hclock c.op, lasting_call hlasting c.op, h.maps.execute hc, ?_⟩
  -- the command changes who is online, or it does not
  obtain ⟨n, hn⟩ := h.fresh
  have hstamps : ∀ r, Reads (s.execute i now c) r → r.stamp < (s.execute i now c).executed := by
    intro r hr
    rcases reads_execute hr with hr | ⟨-, rfl⟩
    · exact (hn.stamps r hr).trans (Nat.lt_succ_self _)
    · exact Nat.lt_succ_self _
  by_cases hquiet : ∀ x, c = .presence x → x.broadcast = false
  · -- no one's presence has changed
    have hholds : ∀ u, Holds (s.execute i now c).presence.leases u ↔ Holds s.presence.leases u :=
      h.maps.holds_execute hc hquiet
    refine ⟨n, hn.le.trans (Nat.le_succ _), hstamps, ?_, ?_⟩
    · intro r hr hle u
      rw [hholds]
      rcases reads_execute hr with hr | ⟨-, rfl⟩
      · exact hn.current r hr hle u
      · rw [← online_iff_holds hlasting]
        exact (h.index.evictedAt hclock).mem_getOnlineUserIds
    · intro x client hx hconnected
      rcases hn.covered x client hx hconnected with hlast | hunder
      · exact .inl hlast
      · exact .inr (hunder.execute hc hn.le)
  · -- the handler has yet to read a list for everyone
    push Not at hquiet
    obtain ⟨x, rfl, hbroadcast⟩ := hquiet
    refine ⟨s.executed + 1, le_rfl, hstamps, ?_, ?_⟩
    · intro r hr hle
      have hlt := hstamps r hr
      exact absurd hle (Nat.not_le.mpr hlt)
    · intro y client hy hconnected
      refine .inr (.inl ⟨i, x, .inl (by simpa using hbroadcast), .inr (.inr ?_)⟩)
      rw [replies_execute, if_pos rfl]
      exact List.mem_append_right _ (List.mem_singleton_self _)

section Deliver

variable {i j : ι} {b : Broadcast} {rest : List Broadcast}

theorem broadcasts_drop {k l : ι} (hb : s.broadcasts i j = b :: rest) :
    (s.dropBroadcast i j).broadcasts k l = if k = i ∧ l = j then rest else s.broadcasts k l := by
  simp only [RealtimeState.dropBroadcast]
  split_ifs with h
  · rw [h.1, h.2, hb]
    rfl
  · rfl

/-- A list under way is the one that arrives, or still is under way. -/
theorem UnderWay.drop {c : JsString} {l : ι} {n : ℕ} (h : UnderWay s c l n)
    (hb : s.broadcasts i j = b :: rest) :
    UnderWay (s.dropBroadcast i j) c l n ∨ l = j ∧ b.isFor c = true ∧ n ≤ b.read.stamp := by
  rcases h with hpending | hread | ⟨k, d, hd, hfor, hn⟩
  · exact .inl (.inl hpending)
  · exact .inl (.inr (.inl hread))
  · -- only the first of the queue from `i` to `j` is gone
    by_cases hk : k = i ∧ l = j
    · obtain ⟨rfl, rfl⟩ := hk
      rw [hb] at hd
      rcases List.mem_cons.mp hd with rfl | hd
      · exact .inr ⟨rfl, hfor, hn⟩
      · refine .inl (.inr (.inr ⟨k, d, ?_, hfor, hn⟩))
        rw [broadcasts_drop hb, if_pos ⟨rfl, rfl⟩]
        exact hd
    · refine .inl (.inr (.inr ⟨k, d, ?_, hfor, hn⟩))
      rw [broadcasts_drop hb, if_neg hk]
      exact hd

/-- A client that receives a list, or does not. -/
theorem clients_receive {c : JsString} {client : Client ι}
    (h : ((s.dropBroadcast i j).receive j b).clients c = some client) :
    ∃ old, s.clients c = some old ∧ old.connected = client.connected ∧
      old.backend = client.backend ∧ old.userId = client.userId ∧
        (client.connected = true ∧ client.backend = j ∧ b.isFor c = true ∧
            client.last = some b.read ∨
          ¬ (client.connected = true ∧ client.backend = j ∧ b.isFor c = true) ∧
            client.last = old.last) := by
  obtain ⟨old, hold, rfl⟩ := Option.map_eq_some_iff.mp h
  refine ⟨old, hold, ?_⟩
  unfold Client.receive
  by_cases hfor : old.connected = true ∧ old.backend = j ∧ b.isFor c = true
  · have hcheck : (old.connected && decide (old.backend = j) && b.isFor c) = true := by
      simpa [and_assoc] using hfor
    rw [if_pos hcheck]
    exact ⟨rfl, rfl, rfl, .inl ⟨hfor.1, hfor.2.1, hfor.2.2, rfl⟩⟩
  · have hcheck : ¬ (old.connected && decide (old.backend = j) && b.isFor c) = true := by
      simpa [and_assoc] using hfor
    rw [if_neg hcheck]
    exact ⟨rfl, rfl, rfl, .inr ⟨hfor, rfl⟩⟩

/-- The maps do not read the lists of the clients. -/
theorem LocalMaps.deliver (h : LocalMaps s) : LocalMaps ((s.dropBroadcast i j).receive j b) := by
  refine h.congr rfl rfl rfl (fun _ _ hx => hx) ?_ ?_
  · rintro k u c ⟨client, hclient, hbackend, huser⟩
    refine ⟨client.receive j c b, ?_, ?_⟩
    · show (s.clients c).map _ = _
      rw [hclient]
      rfl
    · unfold Client.receive
      split
      · exact ⟨hbackend, huser⟩
      · exact ⟨hbackend, huser⟩
  · intro c client hclient hconnected
    obtain ⟨old, hold, hconn, hbackend, huser, -⟩ := clients_receive hclient
    exact ⟨old, hold, hconn.trans hconnected, hbackend, huser⟩

/-- A list that a client has received was under way before. -/
theorem reads_receive (hb : s.broadcasts i j = b :: rest) {r : OnlineRead}
    (h : Reads ((s.dropBroadcast i j).receive j b) r) : Reads s r := by
  rcases h with hread | ⟨k, l, d, hd, rfl⟩ | ⟨c, client, hclient, hlast⟩
  · exact .inl hread
  · refine .inr (.inl ⟨k, l, d, ?_, rfl⟩)
    have hmem : d ∈ (s.dropBroadcast i j).broadcasts k l := hd
    rw [broadcasts_drop hb] at hmem
    split_ifs at hmem with hk
    · rw [hk.1, hk.2, hb]
      exact List.mem_cons_of_mem _ hmem
    · exact hmem
  · -- a list that is new to a client was the one in the queue
    obtain ⟨old, hold, -, -, -, hcase⟩ := clients_receive hclient
    rcases hcase with ⟨-, -, -, hnew⟩ | ⟨-, hsame⟩
    · rw [hnew] at hlast
      refine .inr (.inl ⟨i, j, b, ?_, Option.some.inj hlast⟩)
      rw [hb]
      exact List.mem_cons_self
    · exact .inr (.inr ⟨c, old, hold, hsame ▸ hlast⟩)

theorem Coherent.deliver (h : Coherent s) (hb : s.broadcasts i j = b :: rest)
    (hguard : InOrder s (.deliver i j)) : Coherent ((s.dropBroadcast i j).receive j b) := by
  obtain ⟨n, hn⟩ := h.fresh
  refine ⟨h.index, h.lasting, h.maps.deliver, n,
    hn.congr rfl rfl (fun _ => reads_receive hb) ?_⟩
  intro c client hclient hconnected
  obtain ⟨old, hold, hconn, hbackend, -, hcase⟩ := clients_receive hclient
  have hcovered := hn.covered c old hold (hconn.trans hconnected)
  rw [hbackend] at hcovered
  rcases hcase with ⟨-, hj, hfor, hnew⟩ | ⟨hnot, hsame⟩
  · rcases hcovered with ⟨r, hlast, hle⟩ | hunder
    · -- the client had a fresh list, which this one may not undo
      have hinOrder := hguard b (by simp [hb]) c old r hold (hconn.trans hconnected)
        (hbackend.trans hj) hfor hlast
      rcases hinOrder with hlater | hstill
      · exact .inl ⟨b.read, hnew, hle.trans hlater⟩
      · rw [hj]
        exact .inr (hstill.mono hle)
    · -- a fresh list was under way, which may be this one
      rcases hunder.drop hb with hstill | ⟨-, -, hle⟩
      · exact .inr hstill
      · exact .inl ⟨b.read, hnew, hle⟩
  · -- the client keeps its list, and what was under way to it is not this one
    rw [hsame]
    rcases hcovered with hlast | hunder
    · exact .inl hlast
    · rcases hunder.drop hb with hstill | ⟨hj, hfor, -⟩
      · exact .inr hstill
      · exact absurd ⟨hconnected, hj, hfor⟩ hnot

end Deliver

section Resume

variable {i : ι} {m : ℕ} {r : Reply}

theorem mem_replies_of_takeReply {k : ι} {x : Reply} (hx : x ∈ (s.takeReply i m).replies k) :
    x ∈ s.replies k := by
  by_cases hk : k = i
  · subst hk
    simp only [RealtimeState.takeReply, Function.update_self] at hx
    exact List.mem_of_mem_eraseIdx hx
  · simpa [RealtimeState.takeReply, hk] using hx

theorem mem_replies_takeReply (hr : (s.replies i)[m]? = some r) {k : ι} {x : Reply}
    (hx : x ∈ s.replies k) : x ∈ (s.takeReply i m).replies k ∨ k = i ∧ x = r := by
  by_cases hk : k = i
  · subst hk
    obtain ⟨hm, rfl⟩ := List.getElem?_eq_some_iff.mp hr
    simp only [RealtimeState.takeReply, Function.update_self]
    rcases List.mem_cons.mp ((List.getElem_cons_eraseIdx_perm hm).mem_iff.mpr hx) with rfl | hx
    · exact .inr ⟨trivial, rfl⟩
    · exact .inl hx
  · exact .inl (by simpa [RealtimeState.takeReply, hk] using hx)

/-- A list is under way after a reply is taken up, or it was that of the reply. -/
theorem UnderWay.takeReply {c : JsString} {j : ι} {n : ℕ} (h : UnderWay s c j n)
    (hr : (s.replies i)[m]? = some r) :
    UnderWay (s.takeReply i m) c j n ∨ (∃ x, r = .marked x ∧ x.isFor c) ∨
      ∃ x read, r = .online x read ∧ x.isFor c ∧ n ≤ read.stamp := by
  rcases h with ⟨k, x, hx, hpending⟩ | ⟨k, x, read, hx, hread, hle⟩ | hsent
  · rcases hpending with hpending | hpending | hpending
    · exact .inl (.inl ⟨k, x, hx, .inl hpending⟩)
    · exact .inl (.inl ⟨k, x, hx, .inr (.inl hpending)⟩)
    · rcases mem_replies_takeReply hr hpending with hpending | ⟨-, rfl⟩
      · exact .inl (.inl ⟨k, x, hx, .inr (.inr hpending)⟩)
      · exact .inr (.inl ⟨x, rfl, hx⟩)
  · rcases mem_replies_takeReply hr hread with hread | ⟨-, rfl⟩
    · exact .inl (.inr (.inl ⟨k, x, read, hx, hread, hle⟩))
    · exact .inr (.inr ⟨x, read, rfl, hx, hle⟩)
  · exact .inl (.inr (.inr hsent))

theorem handles_of_takeReply {k : ι} {x : Handler} (hx : Handles (s.takeReply i m) k x) :
    Handles s k x := by
  rcases hx with hx | hx | hx | ⟨read, hx⟩
  · exact .inl hx
  · exact .inr (.inl hx)
  · exact .inr (.inr (.inl (mem_replies_of_takeReply hx)))
  · exact .inr (.inr (.inr ⟨read, mem_replies_of_takeReply hx⟩))

theorem LocalMaps.takeReply (h : LocalMaps s) : LocalMaps (s.takeReply i m) :=
  h.congr rfl rfl rfl (fun _ _ => handles_of_takeReply) (fun _ _ _ hx => hx)
    fun _ client hclient hconnected => ⟨client, hclient, hconnected, rfl, rfl⟩

theorem reads_of_takeReply {read : OnlineRead} (h : Reads (s.takeReply i m) read) :
    Reads s read := by
  rcases h with ⟨k, x, hx⟩ | hsent | hlast
  · exact .inl ⟨k, x, mem_replies_of_takeReply hx⟩
  · exact .inr (.inl hsent)
  · exact .inr (.inr hlast)

/-- The handler of a reply that is for no one has completed. -/
theorem Coherent.takeReply (h : Coherent s) (hr : (s.replies i)[m]? = some r)
    (hmarked : ∀ x, r = .marked x → ∀ c, ¬ x.isFor c) (honline : ∀ x read, r ≠ .online x read) :
    Coherent (s.takeReply i m) := by
  obtain ⟨n, hn⟩ := h.fresh
  refine ⟨h.index, h.lasting, h.maps.takeReply, n,
    hn.congr rfl rfl (fun _ => reads_of_takeReply) ?_⟩
  intro c client hclient hconnected
  rcases hn.covered c client hclient hconnected with hlast | hunder
  · exact .inl hlast
  · rcases hunder.takeReply hr with hunder | ⟨x, hx, hfor⟩ | ⟨x, read, hx, -⟩
    · exact .inr hunder
    · exact absurd hfor (hmarked x hx c)
    · exact absurd hx (honline x read)

/-- A command that changes no map is issued. -/
theorem LocalMaps.issue_same (h : LocalMaps s) {c : Command}
    (hfits : c.Fits (s.socketsByUser i c.user)) (happly : ∀ sockets, c.apply sockets = sockets)
    (hnew : ∀ x, c = .presence x ∨ c = .read x → Owns s i x.userId x.socketId) :
    LocalMaps (s.issue i c) := by
  refine h.issue hfits ?_ (fun _ _ => rfl) (fun _ _ _ hx => hx) hnew h.connected h.sockets
  intro u
  rw [happly, ite_self]

/-- A handler reads the list. -/
theorem Coherent.issue_read (h : Coherent s) {x : Handler}
    (hr : (s.replies i)[m]? = some (.marked x)) :
    Coherent ((s.takeReply i m).issue i (.read x)) := by
  obtain ⟨n, hn⟩ := h.fresh
  refine ⟨h.index, h.lasting, ?_, n, hn.congr rfl rfl (fun _ => reads_of_takeReply) ?_⟩
  · refine h.maps.takeReply.issue_same trivial (fun _ => rfl) ?_
    rintro y (hy | hy)
    · cases hy
    · cases hy
      exact h.maps.handlers i x (.inr (.inr (.inl (List.mem_of_getElem? hr))))
  · intro c client hclient hconnected
    rcases hn.covered c client hclient hconnected with hlast | hunder
    · exact .inl hlast
    · refine .inr ?_
      rcases hunder.takeReply hr with hunder | ⟨y, hy, hfor⟩ | ⟨y, read, hy, -⟩
      · exact hunder.issue i _
      · cases hy
        exact .inl ⟨i, x, hfor, .inr (.inl (mem_commands_issue.mpr (.inr ⟨rfl, rfl⟩)))⟩
      · cases hy

theorem mem_broadcasts_emit {k j : ι} {target : Option JsString} {read : OnlineRead}
    {b : Broadcast} :
    b ∈ (s.emit i target read).broadcasts k j ↔
      b ∈ s.broadcasts k j ∨ k = i ∧ (target = none ∨ j = i) ∧ b = ⟨target, read⟩ := by
  simp only [RealtimeState.emit]
  split_ifs with hk
  · rw [List.mem_append, List.mem_singleton]
    tauto
  · tauto

/-- A handler sends the list. -/
theorem Coherent.emit (h : Coherent s) {x : Handler} {read : OnlineRead}
    (hr : (s.replies i)[m]? = some (.online x read)) :
    Coherent ((s.takeReply i m).emit i (if x.broadcast then none else some x.socketId) read) := by
  have hreply : .online x read ∈ s.replies i := List.mem_of_getElem? hr
  obtain ⟨n, hn⟩ := h.fresh
  refine ⟨h.index, h.lasting, ?_, n, hn.congr rfl rfl ?_ ?_⟩
  · exact h.maps.takeReply.congr rfl rfl rfl (fun _ _ hx => hx) (fun _ _ _ hx => hx)
      fun _ client hclient hconnected => ⟨client, hclient, hconnected, rfl, rfl⟩
  · rintro r (hread | ⟨k, l, d, hd, rfl⟩ | hlast)
    · exact reads_of_takeReply (.inl hread)
    · rcases mem_broadcasts_emit.mp hd with hd | ⟨-, -, rfl⟩
      · exact .inr (.inl ⟨k, l, d, hd, rfl⟩)
      · exact .inl ⟨i, x, hreply⟩
    · exact .inr (.inr hlast)
  · intro c client hclient hconnected
    rcases hn.covered c client hclient hconnected with hlast | hunder
    · exact .inl hlast
    · refine .inr ?_
      rcases hunder.takeReply hr with hunder | ⟨y, hy, -⟩ | ⟨y, read', hy, hfor, hle⟩
      · rcases hunder with hpending | hread | ⟨k, d, hd, hdfor, hle⟩
        · exact .inl hpending
        · exact .inr (.inl hread)
        · exact .inr (.inr ⟨k, d, mem_broadcasts_emit.mpr (.inl hd), hdfor, hle⟩)
      · cases hy
      · cases hy
        -- the client of a handler is the backend's own
        have hself : x.socketId = c → client.backend = i := by
          rintro rfl
          obtain ⟨own, hown, hbackend, -⟩ := h.maps.handlers i x (.inr (.inr (.inr ⟨read, hreply⟩)))
          have hsame : s.clients x.socketId = some client := hclient
          rw [hsame] at hown
          exact Option.some.inj hown ▸ hbackend
        refine .inr (.inr ⟨i, _, mem_broadcasts_emit.mpr (.inr ⟨rfl, ?_, rfl⟩), ?_, hle⟩)
        · rcases hfor with hall | ⟨-, hc⟩
          · exact .inl (if_pos hall)
          · exact .inr (hself hc)
        · rcases hfor with hall | ⟨-, hc⟩
          · simp [Broadcast.isFor, hall]
          · cases hall : x.broadcast <;> simp [Broadcast.isFor, hc]

theorem Coherent.resume (h : Coherent s) (hr : (s.replies i)[m]? = some r) :
    Coherent ((s.takeReply i m).resume i r) := by
  match r with
  -- a departure that left other sockets is told to no one
  | .marked ⟨.disconnect, userId, socketId, false⟩ =>
    refine h.takeReply hr ?_ (by simp)
    rintro x hx c (hall | ⟨hkind, -⟩)
    · cases hx
      cases hall
    · cases hx
      cases hkind
  | .marked ⟨.disconnect, userId, socketId, true⟩ => exact h.issue_read hr
  | .marked ⟨.connection, userId, socketId, broadcast⟩ => exact h.issue_read hr
  | .online x read => exact h.emit hr

end Resume

/-! ## Clients come and go -/

section Clients

variable {i : ι} {userId socketId : JsString}

/-- The state with a new map of `i` and a new client. -/
def RealtimeState.withClient (s : RealtimeState ι) (i : ι) (sockets : SocketsByUser)
    (socketId : JsString) (client : Client ι) : RealtimeState ι :=
  { s with
    socketsByUser := Function.update s.socketsByUser i sockets
    clients := Function.update s.clients socketId (some client) }

/-- The other clients stay covered when a handler starts. -/
theorem Fresh.start {n : ℕ} (h : Fresh s n) {sockets : SocketsByUser} {client : Client ι}
    {x : Handler} (hlast : ∀ r, client.last = some r → Reads s r)
    (hconnected : client.connected = true → x.isFor socketId) :
    Fresh ((s.withClient i sockets socketId client).issue i (.presence x)) n := by
  refine h.congr rfl rfl ?_ ?_
  · rintro r (hread | hsent | ⟨c, other, hother, hr⟩)
    · exact .inl hread
    · exact .inr (.inl hsent)
    · -- the list of a client is the one given, for the client that is written
      by_cases hc : c = socketId
      · subst hc
        have hother : Function.update s.clients c (some client) c = some other := hother
        rw [Function.update_self] at hother
        exact hlast r (Option.some.inj hother ▸ hr)
      · have hother : Function.update s.clients socketId (some client) c = some other := hother
        rw [Function.update_of_ne hc] at hother
        exact .inr (.inr ⟨c, other, hother, hr⟩)
  · intro c other hother hconn
    have hother : Function.update s.clients socketId (some client) c = some other := hother
    by_cases hc : c = socketId
    · -- a client that comes waits for its own handler
      subst hc
      rw [Function.update_self] at hother
      refine .inr (.inl ⟨i, x, hconnected (Option.some.inj hother ▸ hconn), .inl ?_⟩)
      exact mem_commands_issue.mpr (.inr ⟨rfl, rfl⟩)
    · rw [Function.update_of_ne hc] at hother
      rcases h.covered c other hother hconn with hlast | hunder
      · exact .inl hlast
      · exact .inr (UnderWay.issue (s := s.withClient i sockets socketId client) hunder i _)

omit [DecidableEq ι] in
/-- Who owned a socket owns it after its client is written, if the client is still the owner's. -/
theorem Owns.withClient {client : Client ι} {k : ι} {u c : JsString} (h : Owns s k u c)
    (hsame : ∀ old, s.clients socketId = some old →
      old.backend = client.backend ∧ old.userId = client.userId) :
    Owns { s with clients := Function.update s.clients socketId (some client) } k u c := by
  obtain ⟨old, hold, hbackend, huser⟩ := h
  by_cases hc : c = socketId
  · subst hc
    obtain ⟨hbackend', huser'⟩ := hsame old hold
    exact ⟨client, Function.update_self .., hbackend'.symm.trans hbackend, huser'.symm.trans huser⟩
  · refine ⟨old, ?_, hbackend, huser⟩
    show Function.update s.clients socketId (some client) c = some old
    rw [Function.update_of_ne hc]
    exact hold

/-- The maps follow when a handler starts, for a socket of `i` that comes or goes. -/
theorem LocalMaps.start (h : LocalMaps s) {sockets : SocketsByUser} {client : Client ι}
    {x : Handler}
    (hx : client.backend = i ∧ x.userId = client.userId ∧ x.socketId = socketId)
    (hsame : ∀ old, s.clients socketId = some old →
      old.backend = client.backend ∧ old.userId = client.userId)
    (hfits : (Command.presence x).Fits (s.socketsByUser i x.userId))
    (hself : ∀ u, sockets u =
      if x.userId = u then (Command.presence x).apply (s.socketsByUser i u)
      else s.socketsByUser i u)
    (hnew : client.connected = true → socketId ∈ sockets client.userId)
    (hkept : ∀ u y, y ≠ socketId → y ∈ s.socketsByUser i u → y ∈ sockets u)
    (hmem : ∀ u y, y ∈ sockets u →
      y ∈ s.socketsByUser i u ∨ u = client.userId ∧ y = socketId) :
    LocalMaps ((s.withClient i sockets socketId client).issue i (.presence x)) := by
  obtain ⟨hbackend, huser, hsocket⟩ := hx
  have hown : ∀ k u y, Owns s k u y →
      Owns { s with clients := Function.update s.clients socketId (some client) } k u y :=
    fun k u y hy => hy.withClient hsame
  have howner : Owns { s with clients := Function.update s.clients socketId (some client) } i
      client.userId socketId := ⟨client, Function.update_self .., hbackend, rfl⟩
  refine h.issue hfits ?_ (fun k hk => Function.update_of_ne hk _ _) hown ?_ ?_ ?_
  · intro u
    rw [Function.update_self]
    exact hself u
  · rintro y (hy | hy)
    · cases hy
      rw [huser, hsocket]
      exact howner
    · cases hy
  · intro y other hother hconnected
    by_cases hy : y = socketId
    · subst hy
      rw [Function.update_self] at hother
      obtain rfl := Option.some.inj hother
      rw [hbackend, Function.update_self]
      exact hnew hconnected
    · rw [Function.update_of_ne hy] at hother
      have hold := h.connected y other hother hconnected
      -- only the map of `i` is written, and there only the socket's entry
      by_cases hk : other.backend = i
      · rw [hk] at hold ⊢
        rw [Function.update_self]
        exact hkept _ _ hy hold
      · rwa [Function.update_of_ne hk]
  · intro k u y hy
    by_cases hk : k = i
    · subst hk
      rw [Function.update_self] at hy
      rcases hmem u y hy with hy | ⟨rfl, rfl⟩
      · exact hown k u y (h.sockets k u y hy)
      · exact howner
    · rw [Function.update_of_ne hk] at hy
      exact hown k u y (h.sockets k u y hy)

theorem Coherent.connect (h : Coherent s) (hclient : s.clients socketId = none) :
    Coherent ((s.withClient i (addSocketForUser (s.socketsByUser i) userId socketId).2 socketId
      ⟨i, userId, true, none⟩).issue i (.presence ⟨.connection, userId, socketId,
        (addSocketForUser (s.socketsByUser i) userId socketId).1⟩)) := by
  obtain ⟨n, hn⟩ := h.fresh
  refine ⟨h.index, h.lasting, ?_, n, hn.start (by simp) fun _ => .inr ⟨rfl, rfl⟩⟩
  apply h.maps.start
  · exact ⟨rfl, rfl, rfl⟩
  · intro old hold
    rw [hclient] at hold
    cases hold
  · intro hbroadcast
    have hsockets : s.socketsByUser i userId ≠ [] := by simpa [addSocketForUser] using hbroadcast
    exact hsockets
  · intro u
    by_cases hu : userId = u
    · subst hu
      simp [addSocketForUser, Command.apply]
    · simp [addSocketForUser, hu, Ne.symm hu]
  · intro _
    exact mem_addSocketForUser.mpr (.inr ⟨rfl, rfl⟩)
  · intro u y _ hy
    exact mem_addSocketForUser.mpr (.inl hy)
  · intro u y hy
    exact mem_addSocketForUser.mp hy

theorem Coherent.disconnect (h : Coherent s) {last : Option OnlineRead}
    (hclient : s.clients socketId = some ⟨i, userId, true, last⟩) :
    Coherent ((s.withClient i (removeSocketForUser (s.socketsByUser i) userId socketId).2 socketId
      ⟨i, userId, false, last⟩).issue i (.presence ⟨.disconnect, userId, socketId,
        (removeSocketForUser (s.socketsByUser i) userId socketId).1⟩)) := by
  obtain ⟨n, hn⟩ := h.fresh
  -- a client that is connected is in the map of its backend
  have hmem : socketId ∈ s.socketsByUser i userId := h.maps.connected socketId _ hclient rfl
  have hremove := removeSocketForUser_of_mem hmem
  refine ⟨h.index, h.lasting, ?_, n, hn.start ?_ (by simp)⟩
  · apply h.maps.start
    · exact ⟨rfl, rfl, rfl⟩
    · intro old hold
      rw [hclient] at hold
      obtain rfl := Option.some.inj hold
      exact ⟨rfl, rfl⟩
    · rw [hremove]
      intro hbroadcast
      have herase : (s.socketsByUser i userId).erase socketId ≠ [] := by simpa using hbroadcast
      exact herase
    · intro u
      rw [hremove]
      by_cases hu : userId = u
      · subst hu
        simp [Command.apply]
      · simp [hu, Ne.symm hu]
    · intro hconnected
      cases hconnected
    · intro u y hne hy
      exact mem_removeSocketForUser hne hy
    · intro u y hy
      exact .inl (mem_of_mem_removeSocketForUser hy)
  · -- the list the client has had is among those read
    rintro r rfl
    exact .inr (.inr ⟨socketId, _, hclient, rfl⟩)

theorem Coherent.heartbeat (h : Coherent s) {last : Option OnlineRead}
    (hclient : s.clients socketId = some ⟨i, userId, true, last⟩) :
    Coherent (s.issue i (.heartbeat userId socketId)) := by
  obtain ⟨n, hn⟩ := h.fresh
  have hmem : socketId ∈ s.socketsByUser i userId := h.maps.connected socketId _ hclient rfl
  refine ⟨h.index, h.lasting, h.maps.issue_same hmem (fun _ => rfl) (by simp), n, ?_⟩
  refine hn.congr rfl rfl (fun _ hr => hr) ?_
  intro c client hc hconnected
  rcases hn.covered c client hc hconnected with hlast | hunder
  · exact .inl hlast
  · exact .inr (hunder.issue i _)

end Clients

/-! ## Every run -/

theorem coherent_of_init (h : (realtimeSystem ι).init s) : Coherent s := by
  obtain ⟨hpresence, hmap, hcommands, hreplies, hbroadcasts, hclients⟩ := h
  have hleases : s.presence.leases = fun _ _ => none := hpresence.2.2
  refine ⟨indexed_of_init hpresence, ?_, ⟨?_, ?_, ?_, ?_⟩, 0, Nat.zero_le _, ?_, ?_, ?_⟩
  · simp [hleases]
  · intro i x hx
    simp [Handles, hcommands, hreplies] at hx
  · simp [hclients]
  · simp [hmap]
  · intro i u
    refine ⟨[], List.nodup_nil, by simp, ?_⟩
    rw [hcommands, hmap]
    rfl
  · intro r hr
    simp [Reads, hreplies, hbroadcasts, hclients] at hr
  · intro r hr
    simp [Reads, hreplies, hbroadcasts, hclients] at hr
  · simp [hclients]

theorem Coherent.step (h : Coherent s) {a : RealtimeAction ι} (hg : InOrder s a)
    (hs : realtimeStep s a = some t) : Coherent t := by
  cases a with
  | connect i userId socketId =>
    simp only [realtimeStep] at hs
    split at hs
    · cases hs
    · rename_i hclient
      obtain rfl := Option.some.inj hs
      exact h.connect hclient
  | disconnect socketId =>
    simp only [realtimeStep] at hs
    split at hs
    · rename_i i userId last hclient
      obtain rfl := Option.some.inj hs
      exact h.disconnect hclient
    · cases hs
  | heartbeat socketId =>
    simp only [realtimeStep] at hs
    split at hs
    · rename_i i userId last hclient
      obtain rfl := Option.some.inj hs
      exact h.heartbeat hclient
    · cases hs
  | execute i now =>
    simp only [realtimeStep] at hs
    split at hs
    · cases hs
    · rename_i c rest hc
      split_ifs at hs with hclock
      obtain rfl := Option.some.inj hs
      exact h.execute hc hclock hg
  | resume i m =>
    simp only [realtimeStep] at hs
    split at hs
    · cases hs
    · rename_i r hr
      obtain rfl := Option.some.inj hs
      exact h.resume hr
  | deliver i j =>
    simp only [realtimeStep] at hs
    split at hs
    · cases hs
    · rename_i b rest hb
      obtain rfl := Option.some.inj hs
      exact h.deliver hb hg

theorem coherent_of_reachable (h : (realtimeSystem ι).Reachable InOrder s) : Coherent s :=
  h.invariant (fun _ => coherent_of_init) fun _ _ _ hI hg hs => hI.step hg hs

/-- **The broadcasts converge where lists arrive in order**, for any backends: in every run in
which no lease runs out, and no client is left with a list read before one that it had, every
client still connected has the list of the users online once all handlers have completed. -/
theorem broadcasts_converge (h : (realtimeSystem ι).Reachable InOrder s) (hq : Quiescent s) :
    Converged s := by
  have hI := coherent_of_reachable h
  obtain ⟨n, hn⟩ := hI.fresh
  intro c client hclient hconnected
  rcases hn.covered c client hclient hconnected with ⟨r, hlast, hle⟩ | hunder
  · refine ⟨r, hlast, fun u => ?_⟩
    rw [online_iff_holds hI.lasting]
    exact hn.current r (.inr (.inr ⟨c, client, hclient, hlast⟩)) hle u
  · -- nothing is under way
    rcases hunder with ⟨i, x, -, hpending⟩ | ⟨i, x, r, -, hr, -⟩ | ⟨i, b, hb, -⟩
    · simp [(hq i).1, (hq i).2.1] at hpending
    · simp [(hq i).2.1] at hr
    · simp [(hq i).2.2] at hb

/-! ## Two backends -/

/-- No one has connected. -/
def RealtimeState.start (ι : Type) : RealtimeState ι where
  presence := .start
  socketsByUser := fun _ _ => []
  commands := fun _ => []
  replies := fun _ => []
  broadcasts := fun _ _ => []
  clients := fun _ => none
  executed := 0

/-- A socket connects to `i`, and its list is read. -/
def connectRun (i : Bool) (userId socketId : JsString) : List (RealtimeAction Bool) :=
  [.connect i userId socketId, .execute i 0, .resume i 0, .execute i 0]

/-- The list of `i` is sent to all, and arrives. -/
def emitRun (i : Bool) : List (RealtimeAction Bool) :=
  [.resume i 0, .deliver i false, .deliver i true]

/-- The sockets that connect are among those of the list. -/
def ConnectsAmong (ids : List JsString) : RealtimeAction ι → Prop
  | .connect _ _ socketId => socketId ∈ ids
  | _ => True

/-- At the time 0 no lease has run out, and none of the clients that a list is delivered to has one
read later. -/
def orderly (ids : List JsString) (s : RealtimeState ι) : RealtimeAction ι → Bool
  | .connect _ _ socketId => ids.contains socketId
  | .execute _ now => now == 0
  | .deliver i j => (s.broadcasts i j).head?.all fun b => ids.all fun c =>
    (s.clients c).all fun client => client.last.all fun r =>
      decide (client.backend = j → r.stamp ≤ b.read.stamp)
  | _ => true

theorem connectsAmong_of_orderly {ids : List JsString} {a : RealtimeAction ι}
    (h : orderly ids s a = true) : ConnectsAmong ids a := by
  cases a with
  | connect i userId socketId =>
    have hmem : socketId ∈ ids := by simpa [orderly] using h
    exact hmem
  | _ => exact trivial

/-- A handler that goes on sends nothing to its clients itself. -/
theorem clients_resume (i : ι) (r : Reply) : (s.resume i r).clients = s.clients := by
  cases r with
  | marked h =>
    simp only [RealtimeState.resume]
    split
    · rfl
    · rfl
  | online h read => rfl

/-- No other socket has connected. -/
theorem clients_eq_none {ids : List JsString}
    (h : (realtimeSystem ι).Reachable (fun s a => InOrder s a ∧ ConnectsAmong ids a) s) :
    ∀ c, c ∉ ids → s.clients c = none := by
  have hinit : ∀ s, (realtimeSystem ι).init s → ∀ c, c ∉ ids → s.clients c = none :=
    fun s hs c _ => hs.2.2.2.2.2 c
  refine h.invariant hinit ?_
  intro s a t hnone hg hstep c hc
  have hstep : realtimeStep s a = some t := hstep
  cases a with
  | connect i userId socketId =>
    have hne : c ≠ socketId := fun heq => hc (heq ▸ hg.2)
    simp only [realtimeStep] at hstep
    split at hstep
    · cases hstep
    · obtain rfl := Option.some.inj hstep
      exact (Function.update_of_ne hne _ _).trans (hnone c hc)
  | disconnect socketId =>
    simp only [realtimeStep] at hstep
    split at hstep
    · rename_i i userId last hclient
      have hne : c ≠ socketId := by
        rintro rfl
        exact Option.some_ne_none _ (hclient.symm.trans (hnone c hc))
      obtain rfl := Option.some.inj hstep
      exact (Function.update_of_ne hne _ _).trans (hnone c hc)
    · cases hstep
  | deliver i j =>
    simp only [realtimeStep] at hstep
    split at hstep
    · cases hstep
    · obtain rfl := Option.some.inj hstep
      exact Option.map_eq_none_iff.mpr (hnone c hc)
  | heartbeat socketId =>
    simp only [realtimeStep] at hstep
    split at hstep
    · obtain rfl := Option.some.inj hstep
      exact hnone c hc
    · cases hstep
  | execute i now =>
    simp only [realtimeStep] at hstep
    split at hstep
    · cases hstep
    · split_ifs at hstep
      obtain rfl := Option.some.inj hstep
      exact hnone c hc
  | resume i m =>
    simp only [realtimeStep] at hstep
    split at hstep
    · cases hstep
    · obtain rfl := Option.some.inj hstep
      rw [clients_resume]
      exact hnone c hc

theorem inOrder_of_orderly {ids : List JsString} {a : RealtimeAction ι}
    (h : (realtimeSystem ι).Reachable (fun s a => InOrder s a ∧ ConnectsAmong ids a) s)
    (ha : orderly ids s a = true) : InOrder s a := by
  have hI := coherent_of_reachable (h.mono fun _ _ hg => hg.1)
  cases a with
  | execute i now =>
    obtain rfl : now = 0 := by simpa [orderly] using ha
    intro u c e he
    exact Nat.zero_lt_of_lt (hI.lasting u c e he)
  | deliver i j =>
    intro b hb c client r hclient _ hbackend _ hlast
    have hmem : c ∈ ids := by
      by_contra hc
      exact Option.some_ne_none _ (hclient.symm.trans (clients_eq_none h c hc))
    have hb : (s.broadcasts i j).head? = some b := hb
    simp only [orderly, hb, Option.all_some, List.all_eq_true] at ha
    have hle := ha c hmem
    simp only [hclient, hlast, Option.all_some, decide_eq_true_eq] at hle
    exact .inl (hle hbackend)
  | _ => exact trivial

/-- The backends have nothing to do. -/
def quiet (s : RealtimeState Bool) : Bool :=
  [false, true].all fun i => (s.commands i).isEmpty && (s.replies i).isEmpty &&
    [false, true].all fun j => (s.broadcasts i j).isEmpty

theorem quiescent_of_quiet {s : RealtimeState Bool} (h : quiet s = true) : Quiescent s := by
  have hempty : ∀ i, s.commands i = [] ∧ s.replies i = [] ∧ s.broadcasts i false = [] ∧
      s.broadcasts i true = [] := by
    simp only [quiet, List.all_cons, List.all_nil, Bool.and_true, Bool.and_eq_true,
      List.isEmpty_iff, and_assoc] at h
    rintro (_ | _)
    · exact ⟨h.1, h.2.1, h.2.2.1, h.2.2.2.1⟩
    · exact h.2.2.2.2
  intro i
  obtain ⟨hcommands, hreplies, hfalse, htrue⟩ := hempty i
  exact ⟨hcommands, hreplies, fun j => by cases j <;> assumption⟩

theorem init_start : (realtimeSystem Bool).init (.start Bool) :=
  ⟨⟨fun _ => rfl, rfl, rfl⟩, fun _ _ => rfl, fun _ => rfl, fun _ => rfl, fun _ _ => rfl,
    fun _ => rfl⟩

/-- Two users connect to two backends. The one backend reads its list before the second user comes,
and the two lists are on their way at once, each to the clients of both. -/
def racingRun : List (RealtimeAction Bool) :=
  connectRun false (js "ada") (js "a") ++ connectRun true (js "bob") (js "b") ++
    [.resume true 0, .resume false 0, .deliver false false, .deliver true false,
      .deliver false true, .deliver true true]

/-- Both have the list of both in the end. -/
theorem broadcasts_converge_sample :
    ∃ s, (realtimeSystem Bool).runIf (orderly [js "a", js "b"]) (.start Bool) racingRun = some s ∧
      (s.clients (js "a")).isSome = true ∧ (s.clients (js "b")).isSome = true ∧ Converged s := by
  obtain ⟨s, hrun, hquiet, hclients⟩ := exists_of_any
    (o := (realtimeSystem Bool).runIf (orderly [js "a", js "b"]) (.start Bool) racingRun)
    (fun s => quiet s = true ∧ (s.clients (js "a")).isSome = true ∧
      (s.clients (js "b")).isSome = true) (by decide +kernel)
  have hstart : (realtimeSystem Bool).Reachable
      (fun s a => InOrder s a ∧ ConnectsAmong [js "a", js "b"] a) (.start Bool) := .init init_start
  have hr := hstart.of_runIf
    (fun _ _ h ha => ⟨inOrder_of_orderly h ha, connectsAmong_of_orderly ha⟩) hrun
  exact ⟨s, hrun, hclients.1, hclients.2,
    broadcasts_converge (hr.mono fun _ _ hg => hg.1) (quiescent_of_quiet hquiet)⟩

/-- **A late list undoes a later one**: a backend reads the list before a user of another backend
comes, and sends it after the other one's list has arrived. -/
theorem broadcasts_diverge :
    ∃ s, (realtimeSystem Bool).Reachable Guard.all s ∧ Quiescent s ∧ ¬ Converged s := by
  obtain ⟨s, hrun, hquiet, hlast, hlease⟩ := exists_of_any
    (o := (realtimeSystem Bool).runFrom (.start Bool)
      (connectRun false (js "ada") (js "a") ++ connectRun true (js "bob") (js "b") ++
        emitRun true ++ emitRun false))
    (fun s => quiet s = true ∧
      ((s.clients (js "a")).any fun client => client.connected && client.last.any fun r =>
        r.users == [js "ada"]) = true ∧
      s.presence.leases (js "bob") (js "b") = some 60000 ∧ s.presence.clock = 0)
    (by decide +kernel)
  refine ⟨s, .of_runFrom (.init init_start) hrun, quiescent_of_quiet hquiet, fun hconv => ?_⟩
  obtain ⟨client, hclient, hcheck⟩ := (Option.any_eq_true _ _).mp hlast
  rw [Bool.and_eq_true] at hcheck
  obtain ⟨r, hr, honline⟩ := hconv _ client hclient hcheck.1
  have husers : r.users = [js "ada"] := by simpa [hr] using hcheck.2
  have hbob : js "bob" ∈ r.users :=
    (honline (js "bob")).mpr ⟨js "b", 60000, hlease.1, by rw [hlease.2]; decide⟩
  rw [husers] at hbob
  revert hbob
  decide

end MernChat
