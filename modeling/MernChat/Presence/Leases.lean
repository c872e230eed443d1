import MernChat.Library.Transition
import MernChat.Presence.Scripts

/-!
# The presence index and the leases

Any number of backends call the functions of the presence on one Redis, whose clock does not go
back. A lease is what a call of `markUserOnline` gives a socket, until a call of `markUserOffline`
takes it back.

The scripts prune at different times: a read of the index drops scores and not sockets, a
departing socket leaves ended leases of its user behind, and the deadline of a key drops all of
them. What is kept throughout is about the leases that have not ended: these are in the sockets
of their users, and a score still to come is the end of the user's last lease.

## Main definitions

* `PresenceState`, `PresenceOp`, `presenceSystem`: the calls on one Redis, and the leases
* `Online`: a user holds a lease that has not ended
* `Indexed`: the invariant

## Main results

* `presence_exact`: at every time the reads return exactly the users online, and a departing
  socket takes no user offline who holds another lease
-/

namespace MernChat

open Library TransitionSystem

/-- The socket's lease and when it ends, for every user. -/
abbrev Leases := JsString → JsString → Option ℕ

/-- Redis, the time of the last call, and the leases. No call reads the leases. -/
structure PresenceState where
  redis : Redis
  clock : ℕ
  leases : Leases

inductive PresenceOp where
  | markUserOnline (userId socketId : JsString)
  | markUserOffline (userId socketId : JsString)
  | isUserOnline (userId : JsString)
  | getOnlineUserIds

/-- What a call at `now` does to Redis. -/
def PresenceOp.run (now : ℕ) (r : Redis) : PresenceOp → Redis
  | .markUserOnline userId socketId => MernChat.markUserOnline now userId socketId r
  | .markUserOffline userId socketId => MernChat.markUserOffline now userId socketId r
  | .isUserOnline userId => (MernChat.isUserOnline now userId r).2
  | .getOnlineUserIds => (MernChat.getOnlineUserIds now r).2

/-- The leases after a call at `now`. -/
def PresenceOp.lease (now : ℕ) (leases : Leases) : PresenceOp → Leases
  | .markUserOnline userId socketId =>
    fun u s => if u = userId ∧ s = socketId then some (expiryScore now) else leases u s
  | .markUserOffline userId socketId =>
    fun u s => if u = userId ∧ s = socketId then none else leases u s
  | .isUserOnline _ => leases
  | .getOnlineUserIds => leases

/-- A call at `now`. -/
def PresenceState.call (s : PresenceState) (now : ℕ) (op : PresenceOp) : PresenceState where
  redis := op.run now s.redis
  clock := now
  leases := op.lease now s.leases

/-- The clock does not go back. No user is online before the first call. -/
def presenceSystem : TransitionSystem PresenceState (ℕ × PresenceOp) where
  init s := (∀ u, s.redis.keys (socketsKey u) = .absent) ∧ s.redis.keys ONLINE_USERS_KEY = .absent ∧
    s.leases = fun _ _ => none
  step s a := if s.clock ≤ a.1 then some (s.call a.1 a.2) else none

/-- The user holds a lease that ends after `now`. -/
def Online (leases : Leases) (now : ℕ) (u : JsString) : Prop :=
  ∃ socketId e, leases u socketId = some e ∧ now < e

/-! ## The invariant -/

/-- What Redis holds at a time follows the leases that have not ended then. -/
structure Indexed (r : Redis) (leases : Leases) (now : ℕ) : Prop where
  /-- No lease ends more than a minute from now. -/
  bounded : ∀ u s e, leases u s = some e → e ≤ expiryScore now
  /-- Redis holds leases only, -/
  leased : ∀ u s e, (r.members (socketsKey u)).lookup s = some e → leases u s = some e
  /-- all of them that have not ended, -/
  held : ∀ u s e, leases u s = some e → now < e → (r.members (socketsKey u)).lookup s = some e
  /-- and every one ends before its key goes away. -/
  kept : ∀ u d, r.deadline (socketsKey u) = some d → ∀ s e,
    (r.members (socketsKey u)).lookup s = some e → e ≤ d
  /-- A score to come is the end of a lease, -/
  scored : ∀ u x, (r.members ONLINE_USERS_KEY).lookup u = some x → now < x →
    ∃ s, leases u s = some x
  /-- and no lease of the user ends later. -/
  latest : ∀ u s e, leases u s = some e → now < e →
    ∃ x, (r.members ONLINE_USERS_KEY).lookup u = some x ∧ e ≤ x
  /-- The index does not go away. -/
  lasting : r.deadline ONLINE_USERS_KEY = none

section Indexed

variable {r r' : Redis} {leases : Leases} {now later : ℕ}

/-- A key without a deadline gets none from a change that sets none. -/
theorem deadline_eq_none {key : JsString} (h : r.deadline key = none)
    (hold : ∀ d, r'.deadline key = some d → r.deadline key = some d) :
    r'.deadline key = none := by
  cases hd : r'.deadline key with
  | none => rfl
  | some d =>
    have hsome := hold d hd
    rw [h] at hsome
    cases hsome

/-- Time passes, and the keys past their deadlines go. -/
theorem Indexed.evictedAt (h : Indexed r leases now) (hle : now ≤ later) :
    Indexed (r.evictedAt later) leases later := by
  have hindex : (r.evictedAt later).members ONLINE_USERS_KEY = r.members ONLINE_USERS_KEY := by
    apply Redis.members_evictedAt
    intro d hd
    rw [h.lasting] at hd
    cases hd
  constructor
  case bounded =>
    intro u s e he
    exact (h.bounded u s e he).trans (Nat.add_le_add_right hle _)
  case leased =>
    intro u s e he
    exact h.leased u s e (Redis.lookup_of_evictedAt he).1
  case held =>
    intro u s e he hlt
    have hheld := h.held u s e he (hle.trans_lt hlt)
    rw [Redis.members_evictedAt]
    · exact hheld
    · intro d hd
      -- a lease that has not ended keeps its key
      exact hlt.le.trans (h.kept u d hd s e hheld)
  case kept =>
    intro u d hd s e he
    exact h.kept u d (Redis.deadline_evictedAt hd) s e (Redis.lookup_of_evictedAt he).1
  case scored =>
    intro u x hx hlt
    rw [hindex] at hx
    exact h.scored u x hx (hle.trans_lt hlt)
  case latest =>
    intro u s e he hlt
    rw [hindex]
    exact h.latest u s e he (hle.trans_lt hlt)
  case lasting => exact deadline_eq_none h.lasting fun _ => Redis.deadline_evictedAt

/-- A script that keeps the sockets of one user in step keeps the index in step. -/
theorem Indexed.rescored {u : JsString} {leases' : Leases} (h : Indexed r leases now)
    (hr : Rescored u r r') (hothers : ∀ v ≠ u, leases' v = leases v)
    (hbounded : ∀ s e, leases' u s = some e → e ≤ expiryScore now)
    (hleased : ∀ s e, (r'.members (socketsKey u)).lookup s = some e → leases' u s = some e)
    (hheld : ∀ s e, leases' u s = some e → now < e →
      (r'.members (socketsKey u)).lookup s = some e)
    (hkept : ∀ d, r'.deadline (socketsKey u) = some d → ∀ s e,
      (r'.members (socketsKey u)).lookup s = some e → e ≤ d) : Indexed r' leases' now := by
  constructor
  case bounded =>
    intro v s e he
    by_cases hv : v = u
    · subst hv
      exact hbounded s e he
    · rw [hothers v hv] at he
      exact h.bounded v s e he
  case leased =>
    intro v s e he
    by_cases hv : v = u
    · subst hv
      exact hleased s e he
    · rw [hothers v hv]
      rw [hr.sockets v hv] at he
      exact h.leased v s e he
  case held =>
    intro v s e he hlt
    by_cases hv : v = u
    · subst hv
      exact hheld s e he hlt
    · rw [hothers v hv] at he
      rw [hr.sockets v hv]
      exact h.held v s e he hlt
  case kept =>
    intro v d hd s e he
    by_cases hv : v = u
    · subst hv
      exact hkept d hd s e he
    · rw [hr.sockets v hv] at he
      exact h.kept v d (hr.deadlines v hv d hd) s e he
  case scored =>
    intro v x hx hlt
    by_cases hv : v = u
    · subst hv
      -- the score is the one of the last entry
      rw [hr.index] at hx
      obtain ⟨current, hlast, rfl⟩ := Option.map_eq_some_iff.mp hx
      exact ⟨current.1, hleased _ _ (SortedSet.lookup_last? hlast)⟩
    · rw [hr.others v hv] at hx
      rw [hothers v hv]
      exact h.scored v x hx hlt
  case latest =>
    intro v s e he hlt
    by_cases hv : v = u
    · subst hv
      have hlookup := hheld s e he hlt
      rw [hr.index]
      -- the socket is in the set, so that the set has a last entry
      cases hlast : r'.zrangeLast (socketsKey v) with
      | none =>
        rw [Redis.zrangeLast, SortedSet.last?_eq_none_iff] at hlast
        rw [hlast] at hlookup
        cases hlookup
      | some current => exact ⟨current.2, rfl, SortedSet.le_last? hlast hlookup⟩
    · rw [hothers v hv] at he
      rw [hr.others v hv]
      exact h.latest v s e he hlt
  case lasting => exact deadline_eq_none h.lasting hr.indexDeadline

theorem Indexed.markUserOnline {u socketId : JsString} (h : Indexed (r.evictedAt now) leases now) :
    Indexed (MernChat.markUserOnline now u socketId r)
      (PresenceOp.lease now leases (.markUserOnline u socketId)) now := by
  refine h.rescored markUserOnline_rescored ?_ ?_ ?_ ?_ ?_
  · intro v hv
    funext s
    simp [PresenceOp.lease, hv]
  · intro s e he
    by_cases hs : s = socketId
    · simp only [PresenceOp.lease, hs, and_self, if_true, Option.some.injEq] at he
      exact he.symm.le
    · simp only [PresenceOp.lease, hs, and_false, if_false] at he
      exact h.bounded u s e he
  · intro s e he
    rw [members_markUserOnline] at he
    by_cases hs : s = socketId
    · rw [hs, AList.lookup_insert] at he
      simpa [PresenceOp.lease, hs] using he
    · rw [AList.lookup_insert_ne hs] at he
      simpa [PresenceOp.lease, hs] using h.leased u s e he
  · intro s e he hlt
    rw [members_markUserOnline]
    by_cases hs : s = socketId
    · rw [hs, AList.lookup_insert]
      simpa [PresenceOp.lease, hs] using he
    · rw [AList.lookup_insert_ne hs]
      exact h.held u s e (by simpa [PresenceOp.lease, hs] using he) hlt
  · intro d hd s e he
    -- the key outlives the lease that is new, and no other ends later
    rw [deadline_markUserOnline hd]
    have hle : e ≤ expiryScore now := by
      rw [members_markUserOnline] at he
      by_cases hs : s = socketId
      · rw [hs, AList.lookup_insert, Option.some.injEq] at he
        exact he.symm.le
      · rw [AList.lookup_insert_ne hs] at he
        exact h.bounded u s e (h.leased u s e he)
    exact hle.trans (Nat.add_le_add_left (by decide) _)

theorem Indexed.markUserOffline {u socketId : JsString} (h : Indexed (r.evictedAt now) leases now) :
    Indexed (MernChat.markUserOffline now u socketId r)
      (PresenceOp.lease now leases (.markUserOffline u socketId)) now := by
  refine h.rescored markUserOffline_rescored ?_ ?_ ?_ ?_ ?_
  · intro v hv
    funext s
    simp [PresenceOp.lease, hv]
  · intro s e he
    by_cases hs : s = socketId
    · simp [PresenceOp.lease, hs] at he
    · exact h.bounded u s e (by simpa [PresenceOp.lease, hs] using he)
  · intro s e he
    rw [members_markUserOffline] at he
    by_cases hs : s = socketId
    · rw [hs, AList.lookup_erase] at he
      cases he
    · rw [AList.lookup_erase_ne hs] at he
      simpa [PresenceOp.lease, hs] using h.leased u s e he
  · intro s e he hlt
    rw [members_markUserOffline]
    by_cases hs : s = socketId
    · simp [PresenceOp.lease, hs] at he
    · rw [AList.lookup_erase_ne hs]
      exact h.held u s e (by simpa [PresenceOp.lease, hs] using he) hlt
  · intro d hd s e he
    rw [members_markUserOffline] at he
    by_cases hs : s = socketId
    · rw [hs, AList.lookup_erase] at he
      cases he
    · rw [AList.lookup_erase_ne hs] at he
      exact h.kept u d (deadline_markUserOffline hd) s e he

theorem Indexed.isUserOnline {u : JsString} (h : Indexed (r.evictedAt now) leases now) :
    Indexed (MernChat.isUserOnline now u r).2 leases now := by
  -- the read first drops the leases that have ended
  have hleft : ∀ s e, ((MernChat.isUserOnline now u r).2.members (socketsKey u)).lookup s = some e ↔
      ((r.evictedAt now).members (socketsKey u)).lookup s = some e ∧ now < e := by
    intro s e
    rw [members_isUserOnline, SortedSet.lookup_removeRange]
    simp
  refine h.rescored isUserOnline_rescored (fun _ _ => rfl) (h.bounded u) ?_ ?_ ?_
  · intro s e he
    exact h.leased u s e ((hleft s e).mp he).1
  · intro s e he hlt
    exact (hleft s e).mpr ⟨h.held u s e he hlt, hlt⟩
  · intro d hd s e he
    exact h.kept u d (deadline_isUserOnline hd) s e ((hleft s e).mp he).1

theorem Indexed.getOnlineUserIds (h : Indexed (r.evictedAt now) leases now) :
    Indexed (MernChat.getOnlineUserIds now r).2 leases now := by
  have hsockets : ∀ u, (MernChat.getOnlineUserIds now r).2.members (socketsKey u) =
      (r.evictedAt now).members (socketsKey u) := by
    intro u
    rw [members_getOnlineUserIds, if_neg (socketsKey_ne_onlineUsers u)]
  -- the read first drops the scores that have ended
  have hleft : ∀ u x,
      ((MernChat.getOnlineUserIds now r).2.members ONLINE_USERS_KEY).lookup u = some x ↔
        ((r.evictedAt now).members ONLINE_USERS_KEY).lookup u = some x ∧ now < x := by
    intro u x
    rw [members_getOnlineUserIds, if_pos rfl, SortedSet.lookup_removeRange]
    simp
  refine ⟨h.bounded, ?_, ?_, ?_, ?_, ?_, ?_⟩
  · intro u s e he
    rw [hsockets u] at he
    exact h.leased u s e he
  · intro u s e he hlt
    rw [hsockets u]
    exact h.held u s e he hlt
  · intro u d hd s e he
    rw [hsockets u] at he
    exact h.kept u d (deadline_getOnlineUserIds hd) s e he
  · intro u x hx hlt
    exact h.scored u x ((hleft u x).mp hx).1 hlt
  · intro u s e he hlt
    obtain ⟨x, hx, hle⟩ := h.latest u s e he hlt
    exact ⟨x, (hleft u x).mpr ⟨hx, hlt.trans_le hle⟩, hle⟩
  · exact deadline_eq_none h.lasting fun _ => deadline_getOnlineUserIds

/-- Every call keeps the index in step with the leases. -/
theorem Indexed.run (h : Indexed r leases now) (hle : now ≤ later) (op : PresenceOp) :
    Indexed (op.run later r) (op.lease later leases) later := by
  have hevicted := h.evictedAt hle
  cases op with
  | markUserOnline u s => exact hevicted.markUserOnline
  | markUserOffline u s => exact hevicted.markUserOffline
  | isUserOnline u => exact hevicted.isUserOnline
  | getOnlineUserIds => exact hevicted.getOnlineUserIds

theorem indexed_of_init {s : PresenceState} (h : presenceSystem.init s) :
    Indexed s.redis s.leases s.clock := by
  obtain ⟨hsockets, hindex, hleases⟩ := h
  have hnone : ∀ u, (s.redis.members (socketsKey u)) = ∅ := by
    intro u
    rw [Redis.members, hsockets u]
    rfl
  refine ⟨?_, ?_, ?_, ?_, ?_, ?_, ?_⟩
  · simp [hleases]
  · simp [hnone]
  · simp [hleases]
  · simp [hnone]
  · intro u x hx
    rw [Redis.members, hindex] at hx
    cases hx
  · simp [hleases]
  · rw [Redis.deadline, hindex]
    rfl

/-- The index is in step with the leases in every run. -/
theorem indexed_of_reachable {s : PresenceState} (h : presenceSystem.Reachable Guard.all s) :
    Indexed s.redis s.leases s.clock := by
  refine h.invariant (fun _ => indexed_of_init) ?_
  intro s a t hI _ hs
  simp only [presenceSystem] at hs
  split_ifs at hs with hle
  obtain rfl := Option.some.inj hs
  exact hI.run hle a.2

/-! ## What the reads return -/

theorem Indexed.mem_getOnlineUserIds (h : Indexed (r.evictedAt now) leases now) {u : JsString} :
    u ∈ (MernChat.getOnlineUserIds now r).1 ↔ Online leases now u := by
  rw [MernChat.mem_getOnlineUserIds]
  constructor
  · rintro ⟨x, hx, hlt⟩
    obtain ⟨s, hs⟩ := h.scored u x hx hlt
    exact ⟨s, x, hs, hlt⟩
  · rintro ⟨s, e, he, hlt⟩
    obtain ⟨x, hx, hle⟩ := h.latest u s e he hlt
    exact ⟨x, hx, hlt.trans_le hle⟩

theorem Indexed.isUserOnline_iff (h : Indexed (r.evictedAt now) leases now) {u : JsString} :
    (MernChat.isUserOnline now u r).1 = true ↔ Online leases now u := by
  rw [isUserOnline_eq_true]
  constructor
  · rintro ⟨s, e, he, hlt⟩
    exact ⟨s, e, h.leased u s e he, hlt⟩
  · rintro ⟨s, e, he, hlt⟩
    exact ⟨s, e, h.held u s e he hlt, hlt⟩

end Indexed

/-- **The presence index is the live leases**, at every time of every run: a read of the index
returns every user online once and no one else, `isUserOnline` agrees with it, and a departing
socket leaves a user online for as long as another socket holds a lease. -/
theorem presence_exact {s : PresenceState} (h : presenceSystem.Reachable Guard.all s) {now : ℕ}
    (hnow : s.clock ≤ now) :
    ((getOnlineUserIds now s.redis).1.Nodup ∧
      ∀ u, u ∈ (getOnlineUserIds now s.redis).1 ↔ Online s.leases now u) ∧
    (∀ u, (isUserOnline now u s.redis).1 = true ↔ u ∈ (getOnlineUserIds now s.redis).1) ∧
    ∀ u socketId later, now ≤ later →
      (∃ other ≠ socketId, ∃ e, s.leases u other = some e ∧ later < e) →
        u ∈ (getOnlineUserIds later (markUserOffline now u socketId s.redis)).1 := by
  have hI := indexed_of_reachable h
  have hevicted := hI.evictedAt hnow
  refine ⟨⟨nodup_getOnlineUserIds, fun u => hevicted.mem_getOnlineUserIds⟩, ?_, ?_⟩
  · intro u
    rw [hevicted.isUserOnline_iff, hevicted.mem_getOnlineUserIds]
  · rintro u socketId later hlater ⟨other, hother, e, he, hlt⟩
    -- the lease of the other socket is as it was, and has not ended
    have hoffline := (hI.run hnow (.markUserOffline u socketId)).evictedAt hlater
    refine hoffline.mem_getOnlineUserIds.mpr ⟨other, e, ?_, hlt⟩
    simp only [PresenceOp.lease, hother, and_false, if_false]
    exact he

/-- A Redis without presence. -/
def PresenceState.start : PresenceState := ⟨⟨fun _ => .absent⟩, 0, fun _ _ => none⟩

/-- Two sockets of one user connect, and one departs: the user stays online. -/
theorem presence_exact_sample :
    ∃ s, presenceSystem.runFrom .start
        [(10, .markUserOnline (js "ada") (js "a")), (20, .markUserOnline (js "ada") (js "b"))] =
          some s ∧
      js "ada" ∈ (getOnlineUserIds 60019 (markUserOffline 30 (js "ada") (js "a") s.redis)).1 := by
  have hrun : presenceSystem.runFrom .start
      [(10, .markUserOnline (js "ada") (js "a")), (20, .markUserOnline (js "ada") (js "b"))] =
        some _ := rfl
  have hstart : presenceSystem.Reachable Guard.all .start := .init ⟨fun _ => rfl, rfl, rfl⟩
  refine ⟨_, hrun, ?_⟩
  apply (presence_exact (hstart.of_runFrom hrun) (by decide)).2.2
  · decide
  · exact ⟨js "b", by decide, 60020, rfl, by decide⟩

end MernChat
