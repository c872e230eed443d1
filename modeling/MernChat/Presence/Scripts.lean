import MernChat.Library.SortedSet
import MernChat.Runtime.Encoding

/-!
# Presence in Redis

Every socket of a user holds a lease of a minute, in a sorted set of the user's sockets, scored by
when the lease ends. The index of the online users is one more sorted set, in which a user's score
is the end of the user's last lease. Scripts keep the two in step; a script runs atomically. The
key of a user's sockets goes away two minutes after the last lease was taken or renewed.

Times are milliseconds since 1970, and the clock of Redis is that of its clients.

## Main definitions

* `Redis`: the sorted sets by their keys, with the commands the scripts use
* `MARK_ONLINE_SCRIPT`, `MARK_OFFLINE_SCRIPT`, `IS_ONLINE_SCRIPT`, `GET_ONLINE_USERS_SCRIPT`
* `markUserOnline`, `markUserOffline`, `isUserOnline`, `getOnlineUserIds`

## Main results

* `socketsKey_injective`, `socketsKey_ne_onlineUsers`: the keys are distinct
* `markUserOnline_sockets`, …: what each function leaves in the sockets of a user and in the index
-/

namespace MernChat

open Library

/-! ## Redis -/

/-- A key: its sorted set, and when it goes away. -/
structure RedisKey where
  members : SortedSet JsString ℕ
  deadline : Option ℕ

/-- A key with no members is no key. -/
def RedisKey.absent : RedisKey := ⟨∅, none⟩

/-- The key at `now`: past its deadline it is deleted. -/
def RedisKey.evictedAt (k : RedisKey) (now : ℕ) : RedisKey :=
  if k.deadline.any (· < now) then .absent else k

/-- The keys that hold sorted sets. -/
structure Redis where
  keys : JsString → RedisKey

namespace Redis

def members (r : Redis) (key : JsString) : SortedSet JsString ℕ := (r.keys key).members

def deadline (r : Redis) (key : JsString) : Option ℕ := (r.keys key).deadline

/-- `DEL key`. -/
def del (r : Redis) (key : JsString) : Redis := ⟨Function.update r.keys key .absent⟩

/-- The key holds `members` and keeps its deadline; it is gone when no member is left. -/
def put (r : Redis) (key : JsString) (members : SortedSet JsString ℕ) : Redis :=
  if members.entries.isEmpty then r.del key
  else ⟨Function.update r.keys key ⟨members, r.deadline key⟩⟩

/-- `ZADD key score member`. -/
def zadd (r : Redis) (key : JsString) (score : ℕ) (member : JsString) : Redis :=
  r.put key ((r.members key).insert member score)

/-- `ZREM key member`. -/
def zrem (r : Redis) (key member : JsString) : Redis := r.put key ((r.members key).erase member)

/-- `ZREMRANGEBYSCORE key min max`. -/
def zremrangebyscore (r : Redis) (key : JsString) (min max : ℕ) : Redis :=
  r.put key ((r.members key).removeRange min max)

/-- `ZRANGE key 0 -1`. Members of one score are listed by the bytes of their texts, which is by
their code points. -/
def zrange (r : Redis) (key : JsString) : List JsString :=
  ((r.members key).range textCodePoints).map Sigma.fst

/-- `ZRANGE key -1 -1 WITHSCORES`. -/
def zrangeLast (r : Redis) (key : JsString) : Option (Σ _ : JsString, ℕ) :=
  (r.members key).last? textCodePoints

/-- `EXPIRE key seconds`. -/
def expire (r : Redis) (now : ℕ) (key : JsString) (seconds : ℕ) : Redis :=
  if (r.members key).entries.isEmpty then r
  else ⟨Function.update r.keys key ⟨r.members key, some (now + seconds * 1000)⟩⟩

/-- The keys that are there at `now`. -/
def evictedAt (r : Redis) (now : ℕ) : Redis := ⟨fun key => (r.keys key).evictedAt now⟩

end Redis

/-! ## The scripts -/

def PRESENCE_KEY_PREFIX : JsString := js "chatapp:presence:user:"

def SOCKETS_SUFFIX : JsString := js ":sockets"

def ONLINE_USERS_KEY : JsString := js "chatapp:presence:users"

def PRESENCE_TTL_SECONDS : ℕ := 60

def PRESENCE_KEY_TTL_SECONDS : ℕ := PRESENCE_TTL_SECONDS * 2

def socketsKey (userId : JsString) : JsString := PRESENCE_KEY_PREFIX ++ userId ++ SOCKETS_SUFFIX

def expiryScore (now : ℕ) : ℕ := now + PRESENCE_TTL_SECONDS * 1000

def MARK_ONLINE_SCRIPT (redisNow : ℕ) (sockets_key online_users_key user_id socket_id : JsString)
    (expiry key_ttl : ℕ) (r : Redis) : Redis :=
  let r := r.zadd sockets_key expiry socket_id
  let r := r.expire redisNow sockets_key key_ttl
  match r.zrangeLast sockets_key with
  -- `tonumber(nil)` raises an error; the socket was just added, so the set has a last entry
  | none => r
  | some current => r.zadd online_users_key current.2 user_id

/-- The end of the next two scripts. -/
def rescore (sockets_key online_users_key user_id : JsString) (r : Redis) : ℕ × Redis :=
  match r.zrangeLast sockets_key with
  -- the user's last socket is gone
  | none => (0, (r.zrem online_users_key user_id).del sockets_key)
  | some current => (1, r.zadd online_users_key current.2 user_id)

def MARK_OFFLINE_SCRIPT (sockets_key online_users_key user_id socket_id : JsString) (r : Redis) :
    ℕ × Redis :=
  rescore sockets_key online_users_key user_id (r.zrem sockets_key socket_id)

def IS_ONLINE_SCRIPT (sockets_key online_users_key user_id : JsString) (now : ℕ) (r : Redis) :
    ℕ × Redis :=
  rescore sockets_key online_users_key user_id (r.zremrangebyscore sockets_key 0 now)

def GET_ONLINE_USERS_SCRIPT (online_users_key : JsString) (now : ℕ) (r : Redis) :
    List JsString × Redis :=
  -- the sockets of the users are not looked at
  let r := r.zremrangebyscore online_users_key 0 now
  (r.zrange online_users_key, r)

/-! ## The functions -/

/-- A script runs at `now` on the keys that are there. -/
def markUserOnline (now : ℕ) (userId socketId : JsString) (r : Redis) : Redis :=
  MARK_ONLINE_SCRIPT now (socketsKey userId) ONLINE_USERS_KEY userId socketId (expiryScore now)
    PRESENCE_KEY_TTL_SECONDS (r.evictedAt now)

def markUserOffline (now : ℕ) (userId socketId : JsString) (r : Redis) : Redis :=
  (MARK_OFFLINE_SCRIPT (socketsKey userId) ONLINE_USERS_KEY userId socketId (r.evictedAt now)).2

def isUserOnline (now : ℕ) (userId : JsString) (r : Redis) : Bool × Redis :=
  let (result, r) :=
    IS_ONLINE_SCRIPT (socketsKey userId) ONLINE_USERS_KEY userId now (r.evictedAt now)
  (result == 1, r)

def getOnlineUserIds (now : ℕ) (r : Redis) : List JsString × Redis :=
  GET_ONLINE_USERS_SCRIPT ONLINE_USERS_KEY now (r.evictedAt now)

/-! ## The keys -/

theorem socketsKey_injective : Function.Injective socketsKey := by
  intro u v h
  exact List.append_cancel_left (List.append_cancel_right h)

theorem socketsKey_ne_onlineUsers (u : JsString) : socketsKey u ≠ ONLINE_USERS_KEY := by
  intro h
  -- the prefix of the sockets ends in a colon where the key of the index has an `s`
  have hprefix := congrArg (List.take 22) h
  rw [socketsKey, List.append_assoc, List.take_append_of_le_length (by decide)] at hprefix
  revert hprefix
  decide

/-! ## What the commands leave -/

namespace Redis

variable {r : Redis} {key other member : JsString} {x : ℕ}

theorem members_del : (r.del key).members other = if other = key then ∅ else r.members other := by
  by_cases h : other = key <;> simp [del, members, RedisKey.absent, h]

theorem deadline_del :
    (r.del key).deadline other = if other = key then none else r.deadline other := by
  by_cases h : other = key <;> simp [del, deadline, RedisKey.absent, h]

theorem members_put {members : SortedSet JsString ℕ} :
    (r.put key members).members other = if other = key then members else r.members other := by
  unfold put
  split_ifs with hempty h h
  · rw [members_del, if_pos h]
    exact AList.ext (List.isEmpty_iff.mp hempty).symm
  · rw [members_del, if_neg h]
  · rw [h]
    simp [Redis.members]
  · simp [Redis.members, Function.update_of_ne h]

/-- A deadline that is there was there. -/
theorem deadline_put {members : SortedSet JsString ℕ} {d : ℕ}
    (h : (r.put key members).deadline other = some d) : r.deadline other = some d := by
  unfold put at h
  by_cases hkey : other = key
  · subst hkey
    split_ifs at h with hempty
    · simp [deadline_del] at h
    · simpa [Redis.deadline] using h
  · split_ifs at h with hempty
    · simpa [deadline_del, hkey] using h
    · simpa [Redis.deadline, Function.update_of_ne hkey] using h

theorem members_expire {now seconds : ℕ} :
    (r.expire now key seconds).members other = r.members other := by
  unfold expire
  split_ifs with hempty
  · rfl
  · by_cases h : other = key
    · subst h
      simp [members]
    · simp [members, Function.update_of_ne h]

theorem deadline_expire {now seconds : ℕ} (h : (r.members key).entries ≠ []) :
    (r.expire now key seconds).deadline other =
      if other = key then some (now + seconds * 1000) else r.deadline other := by
  unfold expire
  rw [if_neg (by simpa using h)]
  by_cases hkey : other = key <;> simp [deadline, hkey]

theorem keys_evictedAt (r : Redis) (key : JsString) (now : ℕ) :
    (r.evictedAt now).keys key = .absent ∨
      (r.evictedAt now).keys key = r.keys key ∧ ∀ d, r.deadline key = some d → now ≤ d := by
  simp only [evictedAt, RedisKey.evictedAt]
  split_ifs with hgone
  · exact .inl rfl
  · refine .inr ⟨rfl, fun d hd => ?_⟩
    rw [deadline] at hd
    simpa [hd] using hgone

/-- What an eviction leaves was there. -/
theorem lookup_of_evictedAt {now : ℕ} (h : ((r.evictedAt now).members key).lookup member = some x) :
    (r.members key).lookup member = some x ∧ ∀ d, r.deadline key = some d → now ≤ d := by
  rw [members] at h
  rcases r.keys_evictedAt key now with hkey | ⟨hkey, hd⟩
  · rw [hkey] at h
    cases h
  · rw [hkey] at h
    exact ⟨h, hd⟩

theorem members_evictedAt {now : ℕ} (h : ∀ d, r.deadline key = some d → now ≤ d) :
    (r.evictedAt now).members key = r.members key := by
  have hkept : ¬ (r.keys key).deadline.any (· < now) = true := by
    rw [Option.any_eq_true]
    rintro ⟨d, hd, hlt⟩
    exact absurd (of_decide_eq_true hlt) (Nat.not_lt.mpr (h d hd))
  show ((r.keys key).evictedAt now).members = (r.keys key).members
  rw [RedisKey.evictedAt, if_neg hkept]

theorem deadline_evictedAt {now d : ℕ} (h : (r.evictedAt now).deadline key = some d) :
    r.deadline key = some d := by
  rw [deadline] at h
  rcases r.keys_evictedAt key now with hkey | ⟨hkey, -⟩
  · rw [hkey] at h
    cases h
  · rw [hkey] at h
    exact h

end Redis

/-! ## The end of a script -/

section Functions

variable {r : Redis} {u v : JsString} {now : ℕ}

/-- A script has left the sockets of other users alone, and given the user the score of the user's
last lease in the index. -/
structure Rescored (u : JsString) (r r' : Redis) : Prop where
  sockets : ∀ v ≠ u, r'.members (socketsKey v) = r.members (socketsKey v)
  index : (r'.members ONLINE_USERS_KEY).lookup u =
    (r'.zrangeLast (socketsKey u)).map Sigma.snd
  others : ∀ v ≠ u, (r'.members ONLINE_USERS_KEY).lookup v = (r.members ONLINE_USERS_KEY).lookup v
  deadlines : ∀ v ≠ u, ∀ d, r'.deadline (socketsKey v) = some d →
    r.deadline (socketsKey v) = some d
  indexDeadline : ∀ d, r'.deadline ONLINE_USERS_KEY = some d → r.deadline ONLINE_USERS_KEY = some d

theorem Rescored.of_put {members : SortedSet JsString ℕ} {r' : Redis}
    (h : Rescored u (r.put (socketsKey u) members) r') : Rescored u r r' where
  sockets v hv := by
    rw [h.sockets v hv, Redis.members_put, if_neg (socketsKey_injective.ne hv)]
  index := h.index
  others v hv := by
    rw [h.others v hv, Redis.members_put, if_neg (socketsKey_ne_onlineUsers u).symm]
  deadlines v hv d hd := Redis.deadline_put (h.deadlines v hv d hd)
  indexDeadline d hd := Redis.deadline_put (h.indexDeadline d hd)

/-- The user's score in the index becomes the one of the last lease. -/
theorem rescored_zadd {current : Σ _ : JsString, ℕ}
    (h : r.zrangeLast (socketsKey u) = some current) :
    Rescored u r (r.zadd ONLINE_USERS_KEY current.2 u) := by
  have hsockets : ∀ v, (r.zadd ONLINE_USERS_KEY current.2 u).members (socketsKey v) =
      r.members (socketsKey v) := by
    intro v
    rw [Redis.zadd, Redis.members_put, if_neg (socketsKey_ne_onlineUsers v)]
  refine ⟨fun v _ => hsockets v, ?_, ?_, fun v _ d hd => Redis.deadline_put hd,
    fun d hd => Redis.deadline_put hd⟩
  · rw [Redis.zrangeLast, hsockets u, ← Redis.zrangeLast, h, Redis.zadd, Redis.members_put,
      if_pos rfl]
    exact AList.lookup_insert _
  · intro v hv
    rw [Redis.zadd, Redis.members_put, if_pos rfl]
    exact AList.lookup_insert_ne hv

/-- The user leaves the index, with the key of the sockets. -/
theorem rescored_del :
    Rescored u r ((r.zrem ONLINE_USERS_KEY u).del (socketsKey u)) := by
  have hindex : ((r.zrem ONLINE_USERS_KEY u).del (socketsKey u)).members ONLINE_USERS_KEY =
      (r.members ONLINE_USERS_KEY).erase u := by
    rw [Redis.members_del, if_neg (socketsKey_ne_onlineUsers u).symm, Redis.zrem, Redis.members_put,
      if_pos rfl]
  refine ⟨?_, ?_, ?_, ?_, ?_⟩
  · intro v hv
    rw [Redis.members_del, if_neg (socketsKey_injective.ne hv), Redis.zrem, Redis.members_put,
      if_neg (socketsKey_ne_onlineUsers v)]
  · rw [hindex, Redis.zrangeLast, Redis.members_del, if_pos rfl]
    rw [AList.lookup_erase]
    rfl
  · intro v hv
    rw [hindex, AList.lookup_erase_ne hv]
  · intro v hv d hd
    rw [Redis.deadline_del, if_neg (socketsKey_injective.ne hv)] at hd
    exact Redis.deadline_put hd
  · intro d hd
    rw [Redis.deadline_del, if_neg (socketsKey_ne_onlineUsers u).symm] at hd
    exact Redis.deadline_put hd

theorem rescore_rescored : Rescored u r (rescore (socketsKey u) ONLINE_USERS_KEY u r).2 := by
  unfold rescore
  cases h : r.zrangeLast (socketsKey u) with
  | none => exact rescored_del
  | some current => exact rescored_zadd h

/-- The sockets of the user stay as they are. -/
theorem members_rescore :
    (rescore (socketsKey u) ONLINE_USERS_KEY u r).2.members (socketsKey u) =
      r.members (socketsKey u) := by
  unfold rescore
  cases h : r.zrangeLast (socketsKey u) with
  | none =>
    rw [Redis.zrangeLast, SortedSet.last?_eq_none_iff] at h
    rw [h]
    simp only [Redis.members_del, if_pos]
  | some current =>
    simp only
    rw [Redis.zadd, Redis.members_put, if_neg (socketsKey_ne_onlineUsers u)]

theorem deadline_rescore {d : ℕ}
    (h : (rescore (socketsKey u) ONLINE_USERS_KEY u r).2.deadline (socketsKey u) = some d) :
    r.deadline (socketsKey u) = some d := by
  unfold rescore at h
  cases hlast : r.zrangeLast (socketsKey u) with
  | none =>
    rw [hlast] at h
    simp [Redis.deadline_del] at h
  | some current =>
    rw [hlast] at h
    have hzadd : (r.zadd ONLINE_USERS_KEY current.2 u).deadline (socketsKey u) = some d := h
    rw [Redis.zadd] at hzadd
    exact Redis.deadline_put hzadd

theorem rescore_eq_one :
    (rescore (socketsKey u) ONLINE_USERS_KEY u r).1 = 1 ↔
      (r.zrangeLast (socketsKey u)).isSome = true := by
  unfold rescore
  cases h : r.zrangeLast (socketsKey u) <;> simp

/-! ## What the functions leave -/

theorem markUserOffline_rescored {socketId : JsString} :
    Rescored u (r.evictedAt now) (markUserOffline now u socketId r) :=
  rescore_rescored.of_put

theorem members_markUserOffline {socketId : JsString} :
    (markUserOffline now u socketId r).members (socketsKey u) =
      ((r.evictedAt now).members (socketsKey u)).erase socketId := by
  rw [markUserOffline, MARK_OFFLINE_SCRIPT, members_rescore, Redis.zrem, Redis.members_put,
    if_pos rfl]

theorem deadline_markUserOffline {socketId : JsString} {d : ℕ}
    (h : (markUserOffline now u socketId r).deadline (socketsKey u) = some d) :
    (r.evictedAt now).deadline (socketsKey u) = some d :=
  Redis.deadline_put (deadline_rescore h)

theorem isUserOnline_rescored : Rescored u (r.evictedAt now) (isUserOnline now u r).2 :=
  rescore_rescored.of_put

theorem members_isUserOnline :
    (isUserOnline now u r).2.members (socketsKey u) =
      ((r.evictedAt now).members (socketsKey u)).removeRange 0 now := by
  show (rescore _ _ _ _).2.members _ = _
  rw [members_rescore, Redis.zremrangebyscore, Redis.members_put, if_pos rfl]

theorem deadline_isUserOnline {d : ℕ}
    (h : (isUserOnline now u r).2.deadline (socketsKey u) = some d) :
    (r.evictedAt now).deadline (socketsKey u) = some d :=
  Redis.deadline_put (deadline_rescore h)

/-- The answer is whether a lease is left. -/
theorem isUserOnline_eq_true :
    (isUserOnline now u r).1 = true ↔
      ∃ socketId x, ((r.evictedAt now).members (socketsKey u)).lookup socketId = some x ∧
        now < x := by
  have hleft : ∀ socketId x,
      (((r.evictedAt now).members (socketsKey u)).removeRange 0 now).lookup socketId = some x ↔
        ((r.evictedAt now).members (socketsKey u)).lookup socketId = some x ∧ now < x := by
    intro socketId x
    simp [SortedSet.lookup_removeRange]
  simp only [← hleft]
  rw [isUserOnline, beq_iff_eq, IS_ONLINE_SCRIPT, rescore_eq_one, Redis.zrangeLast,
    Redis.zremrangebyscore, Redis.members_put, if_pos rfl]
  cases hlast : SortedSet.last? textCodePoints
      (((r.evictedAt now).members (socketsKey u)).removeRange 0 now) with
  | none =>
    rw [SortedSet.last?_eq_none_iff] at hlast
    rw [hlast]
    simp
  | some e => exact iff_of_true rfl ⟨e.1, e.2, SortedSet.lookup_last? hlast⟩

/-- The sockets with the new lease, before the index follows. -/
def Redis.marked (r : Redis) (now : ℕ) (u socketId : JsString) : Redis :=
  ((r.evictedAt now).zadd (socketsKey u) (expiryScore now) socketId).expire now (socketsKey u)
    PRESENCE_KEY_TTL_SECONDS

theorem members_marked {socketId key : JsString} :
    (r.marked now u socketId).members key =
      if key = socketsKey u then
        ((r.evictedAt now).members (socketsKey u)).insert socketId (expiryScore now)
      else (r.evictedAt now).members key := by
  rw [Redis.marked, Redis.members_expire, Redis.zadd, Redis.members_put]

theorem deadline_marked {socketId key : JsString} :
    (r.marked now u socketId).deadline key =
      if key = socketsKey u then some (now + PRESENCE_KEY_TTL_SECONDS * 1000)
      else ((r.evictedAt now).zadd (socketsKey u) (expiryScore now) socketId).deadline key := by
  rw [Redis.marked, Redis.deadline_expire]
  rw [Redis.zadd, Redis.members_put, if_pos rfl]
  simp [AList.insert]

/-- The set has a last entry, the socket just added being one. -/
theorem markUserOnline_eq (r : Redis) (now : ℕ) (u socketId : JsString) :
    ∃ current, (r.marked now u socketId).zrangeLast (socketsKey u) = some current ∧
      markUserOnline now u socketId r =
        (r.marked now u socketId).zadd ONLINE_USERS_KEY current.2 u := by
  cases hlast : (r.marked now u socketId).zrangeLast (socketsKey u) with
  | none =>
    rw [Redis.zrangeLast, SortedSet.last?_eq_none_iff, members_marked, if_pos rfl] at hlast
    have hlookup := AList.lookup_insert (b := expiryScore now) (a := socketId)
      ((r.evictedAt now).members (socketsKey u))
    rw [hlast] at hlookup
    cases hlookup
  | some current =>
    refine ⟨current, rfl, ?_⟩
    rw [markUserOnline, MARK_ONLINE_SCRIPT]
    rw [Redis.marked] at hlast ⊢
    simp only [hlast]

theorem markUserOnline_rescored {socketId : JsString} :
    Rescored u (r.evictedAt now) (markUserOnline now u socketId r) := by
  obtain ⟨current, hlast, heq⟩ := markUserOnline_eq r now u socketId
  have hzadd := rescored_zadd hlast
  rw [← heq] at hzadd
  refine ⟨?_, hzadd.index, ?_, ?_, ?_⟩
  · intro v hv
    rw [hzadd.sockets v hv, members_marked, if_neg (socketsKey_injective.ne hv)]
  · intro v hv
    rw [hzadd.others v hv, members_marked, if_neg (socketsKey_ne_onlineUsers u).symm]
  · intro v hv d hd
    have hmarked := hzadd.deadlines v hv d hd
    rw [deadline_marked, if_neg (socketsKey_injective.ne hv)] at hmarked
    exact Redis.deadline_put hmarked
  · intro d hd
    have hmarked := hzadd.indexDeadline d hd
    rw [deadline_marked, if_neg (socketsKey_ne_onlineUsers u).symm] at hmarked
    exact Redis.deadline_put hmarked

theorem members_markUserOnline {socketId : JsString} :
    (markUserOnline now u socketId r).members (socketsKey u) =
      ((r.evictedAt now).members (socketsKey u)).insert socketId (expiryScore now) := by
  obtain ⟨current, -, heq⟩ := markUserOnline_eq r now u socketId
  rw [heq, Redis.zadd, Redis.members_put, if_neg (socketsKey_ne_onlineUsers u), members_marked,
    if_pos rfl]

theorem deadline_markUserOnline {socketId : JsString} {d : ℕ}
    (h : (markUserOnline now u socketId r).deadline (socketsKey u) = some d) :
    d = now + PRESENCE_KEY_TTL_SECONDS * 1000 := by
  obtain ⟨current, -, heq⟩ := markUserOnline_eq r now u socketId
  rw [heq, Redis.zadd] at h
  have hmarked := Redis.deadline_put h
  rw [deadline_marked, if_pos rfl] at hmarked
  exact (Option.some.inj hmarked).symm

/-- The users listed are those whose score is still to come. -/
theorem mem_getOnlineUserIds :
    v ∈ (getOnlineUserIds now r).1 ↔
      ∃ x, ((r.evictedAt now).members ONLINE_USERS_KEY).lookup v = some x ∧ now < x := by
  have hleft : ∀ x,
      (((r.evictedAt now).members ONLINE_USERS_KEY).removeRange 0 now).lookup v = some x ↔
        ((r.evictedAt now).members ONLINE_USERS_KEY).lookup v = some x ∧ now < x := by
    intro x
    simp [SortedSet.lookup_removeRange]
  simp only [← hleft]
  rw [getOnlineUserIds, GET_ONLINE_USERS_SCRIPT, Redis.zrange, Redis.zremrangebyscore,
    Redis.members_put, if_pos rfl, List.mem_map]
  constructor
  · rintro ⟨e, he, rfl⟩
    exact ⟨e.2, SortedSet.mem_range.mp he⟩
  · rintro ⟨x, hx⟩
    exact ⟨⟨v, x⟩, SortedSet.mem_range.mpr hx, rfl⟩

/-- Every user is listed once. -/
theorem nodup_getOnlineUserIds : (getOnlineUserIds now r).1.Nodup := SortedSet.nodup_range _ _

theorem members_getOnlineUserIds {key : JsString} :
    (getOnlineUserIds now r).2.members key =
      if key = ONLINE_USERS_KEY then
        ((r.evictedAt now).members ONLINE_USERS_KEY).removeRange 0 now
      else (r.evictedAt now).members key := by
  rw [getOnlineUserIds, GET_ONLINE_USERS_SCRIPT, Redis.zremrangebyscore, Redis.members_put]

theorem deadline_getOnlineUserIds {key : JsString} {d : ℕ}
    (h : (getOnlineUserIds now r).2.deadline key = some d) :
    (r.evictedAt now).deadline key = some d :=
  Redis.deadline_put h

end Functions

end MernChat
