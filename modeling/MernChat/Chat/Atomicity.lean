import MernChat.Chat.SendTransactions
import MernChat.Library.Transition
import MernChat.Outbox.Repository

/-!
# `sendMessage` is not all-or-nothing

Each of the two transactions is made whole or not at all, but they are two: when the
conversation is new and the message cannot be stored, the conversation stays. Nothing else can
be left behind, except by a `COMMIT` whose acknowledgement is lost.

## Main definitions

* `ChatAction`, `chatSystem`: the application's operations on its tables
* `AllOrNothing`: a call that throws changed nothing, and a call that returns added one message,
  with its event, to the conversation of the two users
* `ChecksPass`, `CreationCommits`, `StoreCommits`: what each part of a call needs
* `AtomicCall`: the calls that leave nothing behind

## Main results

* `database_wellFormed`
* `sendMessage_allOrNothing_iff`: a call is all-or-nothing exactly when it is one of those
-/

namespace MernChat

open Library Library.TransitionSystem

variable {env : SendEnv} {input : SendMessageInput} {db db' : Database}

/-! ## What the parts of a call need -/

/-- The conversation `findDirectConversation` looks for. -/
def Database.conversationFor (db : Database) (x y : JsString) : Option ConversationRow :=
  (Uuid.parse (canonicalizeMemberPair x y).1).bind fun a =>
    (Uuid.parse (canonicalizeMemberPair x y).2).bind fun b => db.conversationOf a b

/-- The call gets past its checks: two users, both found. -/
structure ChecksPass (env : SendEnv) (input : SendMessageInput) (db : Database) : Prop where
  distinct : input.senderId ≠ input.receiverId
  findUserById : env.fault .findUserById = none
  receiver : ∃ v, Uuid.parse input.receiverId = some v ∧ db.hasUser v = true
  findDirectConversation : env.fault .findDirectConversation = none
  sender : ∃ u, Uuid.parse input.senderId = some u

/-- The creation of the conversation takes effect. -/
structure CreationCommits (env : SendEnv) (input : SendMessageInput) (db : Database) : Prop where
  connect : env.fault .createConnect = none
  begin : env.fault .createBegin = none
  insertConversation : env.fault .insertConversation = none
  insertMemberA : env.fault .insertMemberA = none
  insertMemberB : env.fault .insertMemberB = none
  commit : ∀ e, env.fault .createCommit ≠ some (.rejected e)
  pair : ∃ a b, ParsedPair input.senderId input.receiverId a b ∧ a < b ∧ db.hasUser a = true ∧
    db.hasUser b = true
  id : db.hasConversation env.conversationId = false

/-- The store of the message takes effect. -/
structure StoreCommits (env : SendEnv) (input : SendMessageInput) (db : Database) : Prop where
  connect : env.fault .storeConnect = none
  begin : env.fault .storeBegin = none
  insertMessage : env.fault .insertMessage = none
  insertOutboxEvent : env.fault .insertOutboxEvent = none
  commit : ∀ e, env.fault .storeCommit ≠ some (.rejected e)
  storable : Storable env input db

/-- **The calls that are all-or-nothing**, among those past the checks. Where the conversation is
there, the `COMMIT` of the message is acknowledged or without effect. Where it is not, its
creation has no effect, or everything after it succeeds too. -/
def AtomicCall (env : SendEnv) (input : SendMessageInput) (db : Database) : Prop :=
  ChecksPass env input db →
    if (db.conversationFor input.senderId input.receiverId).isSome then
      StoreCommits env input db → env.fault .storeCommit = none
    else
      CreationCommits env input db →
        env.fault .createCommit = none ∧ StoreCommits env input db ∧ env.fault .storeCommit = none

/-! ## All or nothing -/

/-- The tables a call writes are as before. -/
structure SameTables (db db' : Database) : Prop where
  conversations : db'.conversations = db.conversations
  conversation_members : db'.conversation_members = db.conversation_members
  messages : db'.messages = db.messages
  outbox_events : db'.outbox_events = db.outbox_events

/-- One message and one outbox row were added; the row names the message, its conversation, the
sender and the recipient; and the conversation is the only one of the two users, with exactly
their two memberships. -/
structure SentMessage (input : SendMessageInput) (db db' : Database) (result : SendMessageResult)
    (u v : Uuid) (m : MessageRow) (row : OutboxRow) (c : ConversationRow) : Prop where
  sender : Uuid.parse input.senderId = some u
  receiver : Uuid.parse input.receiverId = some v
  messages : db'.messages = db.messages ++ [m]
  outbox_events : db'.outbox_events = db.outbox_events ++ [row]
  message : m.conversationId = c.id ∧ m.senderId = u
  payload : row.payload.data.messageId = m.id.toText ∧
    row.payload.data.conversationId = c.id.toText ∧
    row.payload.data.senderId = input.senderId ∧ row.payload.data.recipientId = input.receiverId
  aggregateId : row.aggregateId = c.id
  conversation : db'.conversations.filter (·.isBetween u v) = [c]
  members : (db'.membersOf c.id).Perm [u, v]
  result : result.message._id = m.id.toText ∧ result.conversationId = c.id.toText

/-- **All or nothing.** -/
def AllOrNothing (env : SendEnv) (input : SendMessageInput) (db : Database) : Prop :=
  match exec (sendMessage env input) db with
  | (.error _, db') => SameTables db db'
  | (.ok result, db') => ∃ u v m row c, SentMessage input db db' result u v m row c

/-! ## The checks -/

theorem hasUser_iff_find {v : Uuid} :
    ((db.users.find? fun row => row.id == v).map mapUser).isSome = true ↔
      db.hasUser v = true := by
  simp [Database.hasUser, List.find?_isSome]

theorem parsedPair_iff {x y : JsString} {a b : Uuid} :
    ParsedPair x y a b ↔ if x < y then Uuid.parse x = some a ∧ Uuid.parse y = some b
      else Uuid.parse y = some a ∧ Uuid.parse x = some b := by
  constructor
  · intro h
    have h₁ := h.fst
    have h₂ := h.snd
    unfold canonicalizeMemberPair at h₁ h₂
    split_ifs at h₁ h₂ ⊢
    · exact ⟨h₁, h₂⟩
    · exact ⟨h₁, h₂⟩
  · intro h
    constructor <;> unfold canonicalizeMemberPair <;> split_ifs at h ⊢
    · exact h.1
    · exact h.1
    · exact h.2
    · exact h.2

/-- The two users are the pair, in one order or the other. -/
theorem ParsedPair.users {x y : JsString} {a b u v : Uuid} (h : ParsedPair x y a b)
    (hu : Uuid.parse x = some u) (hv : Uuid.parse y = some v) :
    a = u ∧ b = v ∨ a = v ∧ b = u := by
  rw [parsedPair_iff] at h
  split_ifs at h
  · exact Or.inl ⟨Option.some.inj (h.1.symm.trans hu), Option.some.inj (h.2.symm.trans hv)⟩
  · exact Or.inr ⟨Option.some.inj (h.1.symm.trans hv), Option.some.inj (h.2.symm.trans hu)⟩

theorem exists_parsedPair {x y : JsString} {u v : Uuid} (hu : Uuid.parse x = some u)
    (hv : Uuid.parse y = some v) : ∃ a b, ParsedPair x y a b := by
  by_cases h : x < y
  · exact ⟨u, v, parsedPair_iff.mpr (by rw [if_pos h]; exact ⟨hu, hv⟩)⟩
  · exact ⟨v, u, parsedPair_iff.mpr (by rw [if_neg h]; exact ⟨hv, hu⟩)⟩

theorem ParsedPair.conversationFor {x y : JsString} {a b : Uuid} (h : ParsedPair x y a b) :
    db.conversationFor x y = db.conversationOf a b := by
  simp only [Database.conversationFor, h.fst, h.snd, Option.bind_some]

/-- The conversation is that of the sender and the receiver. -/
def Resolved (conversations : List ConversationRow) (input : SendMessageInput)
    (conversation : PostgresConversation) : Prop :=
  ∃ c ∈ conversations, conversation = mapConversation c ∧
    ∃ u v, Uuid.parse input.senderId = some u ∧ Uuid.parse input.receiverId = some v ∧
      c.isBetween u v = true

theorem Resolved.mono {cs cs' : List ConversationRow} (hsub : ∀ c ∈ cs, c ∈ cs')
    {input : SendMessageInput} {conversation : PostgresConversation}
    (h : Resolved cs input conversation) : Resolved cs' input conversation := by
  obtain ⟨c, hc, h⟩ := h
  exact ⟨c, hsub c hc, h⟩

/-- The conversation of a pair is that of the sender and the receiver. -/
theorem Resolved.of_parsedPair {cs : List ConversationRow} {input : SendMessageInput}
    {c : ConversationRow} (hc : c ∈ cs)
    (hp : ParsedPair input.senderId input.receiverId c.memberAId c.memberBId) :
    Resolved cs input (mapConversation c) := by
  rw [parsedPair_iff] at hp
  split_ifs at hp
  · exact ⟨c, hc, rfl, c.memberAId, c.memberBId, hp.1, hp.2,
      ConversationRow.isBetween_iff.mpr (Or.inl ⟨rfl, rfl⟩)⟩
  · exact ⟨c, hc, rfl, c.memberBId, c.memberAId, hp.2, hp.1,
      ConversationRow.isBetween_iff.mpr (Or.inr ⟨rfl, rfl⟩)⟩

/-- A call that fails its checks changes nothing. -/
theorem exec_sendMessage_of_not_checks (h : ¬ ChecksPass env input db) :
    ∃ e, exec (sendMessage env input) db = (.error e, db) := by
  unfold sendMessage
  by_cases hdistinct : input.senderId ≠ input.receiverId
  · rw [exec_bind_ok (exec_require_pos hdistinct _ _)]
    have hquery : exec (query (env.fault .findUserById) (findUserById input.receiverId)) db = _ :=
      rfl
    rcases exec_query hquery with ⟨r, t, hf, hx, hq⟩ | ⟨-, e, hq⟩
    · obtain ⟨v, hv, rfl, ht⟩ := findUserById_eq_ok.mp hx
      rw [ht] at hq
      rw [exec_bind_ok hq]
      by_cases huser : db.hasUser v = true
      · rw [exec_bind_ok (exec_require_pos (hasUser_iff_find.mpr huser) _ _)]
        have hquery' : exec (query (env.fault .findDirectConversation)
          (findDirectConversation input.senderId input.receiverId)) db = _ := rfl
        rcases exec_query hquery' with ⟨r, t, hf', hx', hq'⟩ | ⟨-, e, hq'⟩
        · -- the ids of the pair were read, so that every check has passed
          obtain ⟨a, b, ha, hb, -, -⟩ := selectDirectConversation_eq_ok.mp hx'
          have hpair : ParsedPair input.senderId input.receiverId a b := ⟨ha, hb⟩
          rw [parsedPair_iff] at hpair
          refine absurd ⟨hdistinct, hf, ⟨v, hv, huser⟩, hf', ?_⟩ h
          split_ifs at hpair
          · exact ⟨a, hpair.1⟩
          · exact ⟨b, hpair.2⟩
        · exact ⟨e, exec_bind_error (exec_bind_error hq')⟩
      · exact ⟨_, exec_bind_error (exec_require_neg (mt hasUser_iff_find.mp huser) _ _)⟩
    · exact ⟨e, exec_bind_error hq⟩
  · exact ⟨_, exec_bind_error (exec_require_neg hdistinct _ _)⟩

/-- A call that passes its checks goes on with the conversation it found, or with a new one. -/
theorem exec_sendMessage_of_checks (h : ChecksPass env input db) :
    exec (sendMessage env input) db =
      match db.conversationFor input.senderId input.receiverId with
      | some c => exec (storeAndSerialize env input (mapConversation c)) db
      | none => exec (createDirectConversation env input.senderId input.receiverId >>=
          storeAndSerialize env input) db := by
  obtain ⟨v, hv, huser⟩ := h.receiver
  obtain ⟨u, hu⟩ := h.sender
  obtain ⟨a, b, hpair⟩ := exists_parsedPair hu hv
  have hfind : exec (query (env.fault .findUserById) (findUserById input.receiverId)) db =
      (.ok ((db.users.find? fun row => row.id == v).map mapUser), db) :=
    exec_query_ok h.findUserById (findUserById_eq_ok.mpr ⟨v, hv, rfl, rfl⟩)
  have hconv : exec (query (env.fault .findDirectConversation)
      (findDirectConversation input.senderId input.receiverId)) db =
      (.ok ((db.conversationOf a b).map mapConversation), db) :=
    exec_query_ok h.findDirectConversation
      (selectDirectConversation_eq_ok.mpr ⟨a, b, hpair.fst, hpair.snd, rfl, rfl⟩)
  unfold sendMessage
  rw [exec_bind_ok (exec_require_pos h.distinct _ _), exec_bind_ok hfind,
    exec_bind_ok (exec_require_pos (hasUser_iff_find.mpr huser) _ _), hpair.conversationFor]
  -- the conversation is there, or the call goes on with its creation
  cases hc : db.conversationOf a b with
  | some c =>
    rw [hc] at hconv
    rw [exec_bind_ok]
    unfold findOrCreateConversation
    rw [exec_bind_ok hconv]
    rfl
  | none =>
    rw [hc] at hconv
    unfold findOrCreateConversation
    rw [bind_assoc, exec_bind_ok hconv]
    rfl

/-! ## The two transactions -/

theorem commits_store_iff {c : ConversationRow} (hc : db.hasConversation c.id = true) :
    (∃ r t, Commits (storeFaults env) (storeMessage env input (mapConversation c)) db r t) ↔
      StoreCommits env input db := by
  constructor
  · rintro ⟨r, t, h⟩
    obtain ⟨hfm, hfo, m, row, hs, -, -⟩ := (storeMessage_eq_ok hc).mp h.body
    exact ⟨h.connect, h.begin, hfm, hfo, h.commit, exists_storedRows_iff.mp ⟨m, row, hs⟩⟩
  · intro h
    obtain ⟨m, row, hs⟩ := exists_storedRows_iff.mpr h.storable
    exact ⟨_, _, h.connect, h.begin, (storeMessage_eq_ok hc).mpr
      ⟨h.insertMessage, h.insertOutboxEvent, m, row, hs, rfl, rfl⟩, h.commit⟩

/-- **A store that takes effect** adds the rows of its message, and returns unless its `COMMIT`
is not acknowledged. -/
theorem exec_store_of_commits {c : ConversationRow} (hc : db.hasConversation c.id = true)
    (h : StoreCommits env input db) : ∃ m row, StoredRows env input db c.id m row ∧
      ((env.fault .storeCommit = none ∧ ∃ d, exec (storeAndSerialize env input (mapConversation c))
          db = (.ok ⟨⟨m.id.toText, m.senderId.toText, input.receiverId, m.content, d, d⟩,
            c.id.toText⟩, db.withMessage m row)) ∨
        (env.fault .storeCommit ≠ none ∧ ∃ e, exec (storeAndSerialize env input
          (mapConversation c)) db = (.error e, db.withMessage m row))) := by
  obtain ⟨r, t, hcommits⟩ := (commits_store_iff hc).mpr h
  obtain ⟨-, -, m, row, hs, rfl, rfl⟩ := (storeMessage_eq_ok hc).mp hcommits.body
  refine ⟨m, row, hs, ?_⟩
  rcases exec_transaction_of_commits hcommits with ⟨hack, hexec⟩ | ⟨hlost, e, hexec⟩
  · obtain ⟨d, -, hd⟩ := serializeMessage_isSome hs input.receiverId
    refine Or.inl ⟨hack, d, ?_⟩
    unfold storeAndSerialize
    rw [exec_bind_ok hexec, hd]
    rfl
  · exact Or.inr ⟨hlost, e, exec_bind_error hexec⟩

theorem exec_store_of_not_commits {c : ConversationRow} (hc : db.hasConversation c.id = true)
    (h : ¬ StoreCommits env input db) :
    ∃ e, exec (storeAndSerialize env input (mapConversation c)) db = (.error e, db) := by
  have hfail : ∀ r t, ¬ Commits (storeFaults env) (storeMessage env input (mapConversation c)) db
      r t := by
    intro r t hcommits
    exact h ((commits_store_iff hc).mp ⟨r, t, hcommits⟩)
  obtain ⟨e, he⟩ := exec_transaction_of_not_commits hfail
  exact ⟨e, exec_bind_error he⟩

/-- A store leaves the tables as they were, or with the rows of its message. -/
theorem exec_store_cases {c : ConversationRow} (hc : db.hasConversation c.id = true) :
    (exec (storeAndSerialize env input (mapConversation c)) db).2 = db ∨
      ∃ m row, StoredRows env input db c.id m row ∧
        (exec (storeAndSerialize env input (mapConversation c)) db).2 = db.withMessage m row := by
  by_cases hs : StoreCommits env input db
  · obtain ⟨m, row, hrows, ⟨-, d, he⟩ | ⟨-, e, he⟩⟩ := exec_store_of_commits hc hs
    · exact Or.inr ⟨m, row, hrows, congrArg Prod.snd he⟩
    · exact Or.inr ⟨m, row, hrows, congrArg Prod.snd he⟩
  · obtain ⟨e, he⟩ := exec_store_of_not_commits hc hs
    exact Or.inl (congrArg Prod.snd he)

/-- The pair has no conversation, and thus none without its memberships. -/
theorem hasMember_of_none {x y : JsString} (hnone : db.conversationFor x y = none) :
    ∀ a b c, ParsedPair x y a b → db.conversationOf a b = some c →
      db.hasMember c.id a = true ∧ db.hasMember c.id b = true := by
  intro a b c hp hc
  rw [hp.conversationFor, hc] at hnone
  cases hnone

/-- The creation needs its inputs and its operations; the conversation is not there. -/
theorem commits_create_iff (hw : db.Valid)
    (hnone : db.conversationFor input.senderId input.receiverId = none) :
    (∃ r t, Commits (createFaults env) (createConversation env input.senderId input.receiverId) db
      r t) ↔ CreationCommits env input db := by
  constructor
  · rintro ⟨r, t, h⟩
    obtain ⟨a, b, hp, hlt, hi, hfa, hfb, hcase⟩ :=
      (createConversation_eq_ok hw (hasMember_of_none hnone)).mp h.body
    rw [hp.conversationFor] at hnone
    -- the `INSERT` would find a conversation of the pair; there is none
    rcases hcase with ⟨c, hc, -⟩ | ⟨-, hid, hua, hub, -, -⟩
    · rw [hnone] at hc
      cases hc
    · exact ⟨h.connect, h.begin, hi, hfa, hfb, h.commit, ⟨a, b, hp, hlt, hua, hub⟩, hid⟩
  · intro h
    obtain ⟨a, b, hp, hlt, hua, hub⟩ := h.pair
    have hpair := hnone
    rw [hp.conversationFor] at hpair
    exact ⟨_, _, h.connect, h.begin,
      (createConversation_eq_ok hw (hasMember_of_none hnone)).mpr ⟨a, b, hp, hlt,
      h.insertConversation, h.insertMemberA, h.insertMemberB,
      Or.inr ⟨hpair, h.id, hua, hub, rfl, rfl⟩⟩, h.commit⟩

/-- **A creation that takes effect** adds the conversation with its memberships, and returns unless
its `COMMIT` is not acknowledged. -/
theorem exec_create_of_commits (hw : db.Valid)
    (hnone : db.conversationFor input.senderId input.receiverId = none)
    (h : CreationCommits env input db) : ∃ a b,
      ParsedPair input.senderId input.receiverId a b ∧ a < b ∧ db.conversationOf a b = none ∧
      ((env.fault .createCommit = none ∧
          exec (createDirectConversation env input.senderId input.receiverId) db =
            (.ok (mapConversation (newConversation env.conversationId a b env.createAt)),
              db.withConversation (newConversation env.conversationId a b env.createAt)
                env.createAt)) ∨
        (env.fault .createCommit ≠ none ∧ ∃ e,
          exec (createDirectConversation env input.senderId input.receiverId) db =
            (.error e, db.withConversation (newConversation env.conversationId a b env.createAt)
              env.createAt))) := by
  obtain ⟨r, t, hcommits⟩ := (commits_create_iff hw hnone).mpr h
  obtain ⟨a, b, hp, hlt, -, -, -, hcase⟩ :=
    (createConversation_eq_ok hw (hasMember_of_none hnone)).mp hcommits.body
  rw [hp.conversationFor] at hnone
  rcases hcase with ⟨c, hc, -⟩ | ⟨-, -, -, -, rfl, rfl⟩
  · rw [hnone] at hc
    cases hc
  · refine ⟨a, b, hp, hlt, hnone, ?_⟩
    rcases exec_transaction_of_commits hcommits with ⟨hack, hexec⟩ | ⟨hlost, e, hexec⟩
    · exact Or.inl ⟨hack, hexec⟩
    · exact Or.inr ⟨hlost, e, hexec⟩

theorem exec_create_of_not_commits (hw : db.Valid)
    (hnone : db.conversationFor input.senderId input.receiverId = none)
    (h : ¬ CreationCommits env input db) :
    ∃ e, exec (createDirectConversation env input.senderId input.receiverId) db =
      (.error e, db) := by
  apply exec_transaction_of_not_commits
  intro r t hcommits
  exact h ((commits_create_iff hw hnone).mp ⟨r, t, hcommits⟩)

/-! ## The outcome of a call -/

theorem allOrNothing_error {e : Thrown} (h : exec (sendMessage env input) db = (.error e, db')) :
    AllOrNothing env input db ↔ SameTables db db' := by
  rw [AllOrNothing, h]

theorem allOrNothing_ok {result : SendMessageResult}
    (h : exec (sendMessage env input) db = (.ok result, db')) :
    AllOrNothing env input db ↔ ∃ u v m row c, SentMessage input db db' result u v m row c := by
  rw [AllOrNothing, h]

theorem SameTables.refl (db : Database) : SameTables db db := ⟨rfl, rfl, rfl, rfl⟩

theorem not_sameTables_of_messages {m : MessageRow} (h : db'.messages = db.messages ++ [m]) :
    ¬ SameTables db db' := by
  intro hs
  have hlen := congrArg List.length (h.symm.trans hs.messages)
  simp at hlen

theorem not_sameTables_of_conversations {c : ConversationRow}
    (h : db'.conversations = db.conversations ++ [c]) : ¬ SameTables db db' := by
  intro hs
  have hlen := congrArg List.length (h.symm.trans hs.conversations)
  simp at hlen

/-- **A call that returns**: the rows stored in the conversation of the two users. -/
theorem sentMessage_of_storedRows (db : Database) {db₁ : Database} (hw : db₁.WellFormed)
    {c : ConversationRow} (hc : c ∈ db₁.conversations) (hmessages : db₁.messages = db.messages)
    (houtbox : db₁.outbox_events = db.outbox_events) {a b v : Uuid}
    (hp : ParsedPair input.senderId input.receiverId a b) (hca : c.memberAId = a)
    (hcb : c.memberBId = b) (hv : Uuid.parse input.receiverId = some v) {m : MessageRow}
    {row : OutboxRow} (hs : StoredRows env input db₁ c.id m row) (d : JsString) :
    ∃ u, SentMessage input db (db₁.withMessage m row)
      ⟨⟨m.id.toText, m.senderId.toText, input.receiverId, m.content, d, d⟩, c.id.toText⟩ u v m row
      c := by
  obtain ⟨u, content, hu, -, -, rfl⟩ := hs.message
  obtain ⟨createdAt, occurredAt, -, -, hrow⟩ := hs.event
  obtain ⟨-, -, hagg, hpayload⟩ := storedEvent_row hrow
  have hmembers := hw.members c hc
  rw [hca, hcb] at hmembers
  -- the pair is canonical, and the sender is either of the two
  have hbetween : c.isBetween u v = true := by
    rw [ConversationRow.isBetween_iff, hca, hcb]
    exact hp.users hu hv
  refine ⟨u, ?_⟩
  exact {
    sender := hu
    receiver := hv
    messages := by rw [← hmessages]; rfl
    outbox_events := by rw [← houtbox]; rfl
    message := ⟨rfl, rfl⟩
    payload := by rw [hpayload]; exact ⟨rfl, rfl, rfl, rfl⟩
    aggregateId := hagg
    conversation := hw.toValid.filter_isBetween hc hbetween
    members := by
      show (db₁.membersOf c.id).Perm [u, v]
      rw [hmembers]
      rcases hp.users hu hv with ⟨rfl, rfl⟩ | ⟨rfl, rfl⟩
      · exact List.Perm.refl _
      · exact List.Perm.swap _ _ _
    result := ⟨rfl, rfl⟩ }

/-- The creation of a conversation does not change what a store needs. -/
theorem storeCommits_withConversation {c : ConversationRow} {now : Int} :
    StoreCommits env input (db.withConversation c now) ↔ StoreCommits env input db := by
  constructor
  · rintro ⟨h₁, h₂, h₃, h₄, h₅, ⟨h₆, h₇, h₈, h₉, h₁₀, h₁₁, h₁₂⟩⟩
    exact ⟨h₁, h₂, h₃, h₄, h₅, ⟨h₆, h₇, h₈, h₉, h₁₀, h₁₁, h₁₂⟩⟩
  · rintro ⟨h₁, h₂, h₃, h₄, h₅, ⟨h₆, h₇, h₈, h₉, h₁₀, h₁₁, h₁₂⟩⟩
    exact ⟨h₁, h₂, h₃, h₄, h₅, ⟨h₆, h₇, h₈, h₉, h₁₀, h₁₁, h₁₂⟩⟩

/-- A call to a conversation that is there. -/
theorem allOrNothing_found (hw : db.WellFormed) (h : ChecksPass env input db)
    {c : ConversationRow} (hc : db.conversationFor input.senderId input.receiverId = some c) :
    AllOrNothing env input db ↔ (StoreCommits env input db → env.fault .storeCommit = none) := by
  obtain ⟨v, hv, -⟩ := h.receiver
  obtain ⟨u, hu⟩ := h.sender
  obtain ⟨a, b, hp⟩ := exists_parsedPair hu hv
  have hexec := exec_sendMessage_of_checks h
  rw [hc] at hexec
  rw [hp.conversationFor] at hc
  obtain ⟨hmem, hca, hcb⟩ := Database.conversationOf_eq_some hc
  have hthere := Database.hasConversation_iff.mpr ⟨c, hmem, rfl⟩
  by_cases hs : StoreCommits env input db
  · obtain ⟨m, row, hrows, ⟨hack, d, he⟩ | ⟨hlost, e, he⟩⟩ := exec_store_of_commits hthere hs
    · rw [allOrNothing_ok (hexec.trans he)]
      obtain ⟨u', hsent⟩ := sentMessage_of_storedRows db hw hmem rfl rfl hp hca hcb hv hrows d
      exact iff_of_true ⟨u', v, m, row, c, hsent⟩ fun _ => hack
    · -- committed, but the acknowledgement is lost
      rw [allOrNothing_error (hexec.trans he)]
      exact iff_of_false (not_sameTables_of_messages rfl) fun himp => hlost (himp hs)
  · obtain ⟨e, he⟩ := exec_store_of_not_commits hthere hs
    rw [allOrNothing_error (hexec.trans he)]
    exact iff_of_true (.refl db) fun h => absurd h hs

/-- A call to a conversation that is to be created. -/
theorem allOrNothing_created (hw : db.WellFormed) (h : ChecksPass env input db)
    (hnone : db.conversationFor input.senderId input.receiverId = none) :
    AllOrNothing env input db ↔ (CreationCommits env input db →
      env.fault .createCommit = none ∧ StoreCommits env input db ∧
        env.fault .storeCommit = none) := by
  obtain ⟨v, hv, -⟩ := h.receiver
  have hexec := exec_sendMessage_of_checks h
  rw [hnone] at hexec
  by_cases hcreate : CreationCommits env input db
  · obtain ⟨a, b, hp, hlt, hpair, ⟨hack, hce⟩ | ⟨hlost, e, hce⟩⟩ :=
      exec_create_of_commits hw.toValid hnone hcreate
    · have hw₁ := hw.withConversation env.createAt env.createAt hlt hpair hcreate.id
      have hmem : newConversation env.conversationId a b env.createAt ∈
          (db.withConversation (newConversation env.conversationId a b env.createAt)
            env.createAt).conversations := List.mem_append_right _ (List.mem_singleton.mpr rfl)
      have hthere := Database.hasConversation_iff.mpr ⟨_, hmem, rfl⟩
      have hexec' := hexec.trans (exec_bind_ok hce)
      by_cases hs : StoreCommits env input db
      · obtain ⟨m, row, hrows, ⟨hack', d, he⟩ | ⟨hlost, e, he⟩⟩ :=
          exec_store_of_commits hthere (storeCommits_withConversation.mpr hs)
        · rw [allOrNothing_ok (hexec'.trans he)]
          obtain ⟨u, hsent⟩ :=
            sentMessage_of_storedRows db hw₁ hmem rfl rfl hp rfl rfl hv hrows d
          exact iff_of_true ⟨u, v, m, row, _, hsent⟩ fun _ => ⟨hack, hs, hack'⟩
        · rw [allOrNothing_error (hexec'.trans he)]
          exact iff_of_false (not_sameTables_of_messages rfl) fun himp =>
            hlost (himp hcreate).2.2
      · -- the message is not stored, and the conversation stays
        obtain ⟨e, he⟩ := exec_store_of_not_commits hthere
          (mt storeCommits_withConversation.mp hs)
        rw [allOrNothing_error (hexec'.trans he)]
        exact iff_of_false (not_sameTables_of_conversations rfl) fun himp =>
          hs (himp hcreate).2.1
    · rw [allOrNothing_error (hexec.trans (exec_bind_error hce))]
      exact iff_of_false (not_sameTables_of_conversations rfl) fun himp => hlost (himp hcreate).1
  · obtain ⟨e, hce⟩ := exec_create_of_not_commits hw.toValid hnone hcreate
    rw [allOrNothing_error (hexec.trans (exec_bind_error hce))]
    exact iff_of_true (.refl db) fun h => absurd h hcreate

/-! ## A call that meets no failure -/

/-- Where no operation fails, a call that stores its message returns it. -/
theorem exec_sendMessage_of_commits (hdb : db.Valid) (hfault : ∀ op, env.fault op = none)
    (hchecks : ChecksPass env input db)
    (hcreate : db.conversationFor input.senderId input.receiverId = none →
      CreationCommits env input db) (hstore : StoreCommits env input db) :
    ∃ db₁ c m row d, db₁.messages = db.messages ∧ StoredRows env input db₁ c m row ∧
      exec (sendMessage env input) db =
        (.ok ⟨⟨m.id.toText, m.senderId.toText, input.receiverId, m.content, d, d⟩, c.toText⟩,
          db₁.withMessage m row) := by
  rw [exec_sendMessage_of_checks hchecks]
  cases hfor : db.conversationFor input.senderId input.receiverId with
  | some c =>
    obtain ⟨v, hv, -⟩ := hchecks.receiver
    obtain ⟨u, hu⟩ := hchecks.sender
    obtain ⟨a, b, hpair⟩ := exists_parsedPair hu hv
    rw [hpair.conversationFor] at hfor
    have hthere := Database.hasConversation_iff.mpr
      ⟨c, (Database.conversationOf_eq_some hfor).1, rfl⟩
    obtain ⟨m, row, hrows, ⟨-, d, he⟩ | ⟨hlost, -⟩⟩ := exec_store_of_commits hthere hstore
    · exact ⟨db, c.id, m, row, d, rfl, hrows, he⟩
    · exact absurd (hfault _) hlost
  | none =>
    obtain ⟨a, b, -, -, -, ⟨-, hce⟩ | ⟨hlost, -⟩⟩ := exec_create_of_commits hdb hfor (hcreate hfor)
    · -- the message goes to the conversation just committed
      have hthere : (db.withConversation (newConversation env.conversationId a b env.createAt)
          env.createAt).hasConversation
            (newConversation env.conversationId a b env.createAt).id = true :=
        Database.hasConversation_iff.mpr
          ⟨_, List.mem_append_right _ (List.mem_singleton.mpr rfl), rfl⟩
      obtain ⟨m, row, hrows, ⟨-, d, he⟩ | ⟨hlost, -⟩⟩ :=
        exec_store_of_commits hthere (storeCommits_withConversation.mpr hstore)
      · exact ⟨db.withConversation (newConversation env.conversationId a b env.createAt)
          env.createAt, _, m, row, d, rfl, hrows, (exec_bind_ok hce).trans he⟩
      · exact absurd (hfault _) hlost
    · exact absurd (hfault _) hlost

/-- A call that returns has passed its checks, and its transactions have taken effect. -/
theorem commits_of_exec_eq_ok (hdb : db.Valid) {result : SendMessageResult}
    (h : exec (sendMessage env input) db = (.ok result, db')) :
    ChecksPass env input db ∧
      (db.conversationFor input.senderId input.receiverId = none → CreationCommits env input db) ∧
      StoreCommits env input db := by
  by_cases hchecks : ChecksPass env input db
  · refine ⟨hchecks, ?_⟩
    rw [exec_sendMessage_of_checks hchecks] at h
    cases hfor : db.conversationFor input.senderId input.receiverId with
    | some c =>
      rw [hfor] at h
      obtain ⟨a, -, b, -, hc⟩ : ∃ a, Uuid.parse _ = some a ∧ ∃ b, Uuid.parse _ = some b ∧
          db.conversationOf a b = some c := by
        simpa only [Database.conversationFor, Option.bind_eq_some_iff] using hfor
      refine ⟨nofun, ?_⟩
      by_contra hstore
      obtain ⟨e, he⟩ := exec_store_of_not_commits (Database.hasConversation_iff.mpr
        ⟨c, (Database.conversationOf_eq_some hc).1, rfl⟩) hstore
      cases h.symm.trans he
    | none =>
      rw [hfor] at h
      by_cases hcreate : CreationCommits env input db
      · refine ⟨fun _ => hcreate, ?_⟩
        by_contra hstore
        obtain ⟨a, b, -, -, -, ⟨-, hce⟩ | ⟨-, e, hce⟩⟩ := exec_create_of_commits hdb hfor hcreate
        · have hthere : (db.withConversation (newConversation env.conversationId a b env.createAt)
              env.createAt).hasConversation
                (newConversation env.conversationId a b env.createAt).id = true :=
            Database.hasConversation_iff.mpr
              ⟨_, List.mem_append_right _ (List.mem_singleton.mpr rfl), rfl⟩
          obtain ⟨e, he⟩ := exec_store_of_not_commits hthere
            (mt storeCommits_withConversation.mp hstore)
          cases h.symm.trans ((exec_bind_ok hce).trans he)
        · cases h.symm.trans (exec_bind_error hce)
      · obtain ⟨e, hce⟩ := exec_create_of_not_commits hdb hfor hcreate
        cases h.symm.trans (exec_bind_error hce)
  · obtain ⟨e, he⟩ := exec_sendMessage_of_not_checks hchecks
    cases h.symm.trans he

/-! ## The application's operations -/

/-- The relay's updates of the outbox. -/
inductive OutboxUpdate
  | claim (ids : List Uuid) (now leaseMs : Int)
  | markPublished (ids : List Uuid) (now : Int)
  | reschedule (id : Uuid) (nextAttemptAt : Int) (errorMessage : JsString)
  | deadLetter (id : Uuid) (errorMessage : JsString)

def OutboxUpdate.row : OutboxUpdate → OutboxRow → OutboxRow
  | .claim ids now leaseMs => claimRow ids now leaseMs
  | .markPublished ids now => markPublishedRow ids now
  | .reschedule id nextAttemptAt errorMessage => rescheduleRow id nextAttemptAt errorMessage
  | .deadLetter id errorMessage => deadLetterRow id errorMessage

inductive ChatAction
  | createUser (row : UserRow)
  | sendMessage (env : SendEnv) (input : SendMessageInput)
  | updateOutbox (update : OutboxUpdate)

/-- The tables after an operation, whether it returns or throws. -/
def chatStep (db : Database) : ChatAction → Database
  | .createUser row => (exec (query none (insertUser row)) db).2
  | .sendMessage env input => (exec (sendMessage env input) db).2
  | .updateOutbox update => { db with outbox_events := db.outbox_events.map update.row }

/-- The runs of the application's operations, from the empty tables on. -/
def chatSystem : TransitionSystem Database ChatAction where
  init db := db = Database.empty
  step db a := some (chatStep db a)

/-- A new user keeps the invariant. -/
theorem Database.WellFormed.createUser (hw : db.WellFormed) (row : UserRow) :
    (exec (query none (MernChat.insertUser row)) db).2.WellFormed := by
  have hquery : exec (query none (MernChat.insertUser row)) db = _ := rfl
  rcases exec_query hquery with ⟨r, t, -, hx, hq⟩ | ⟨-, e, hq⟩
  · rw [hq]
    exact hw.insertUser hx
  · rw [hq]
    exact hw

/-- The store of a message keeps the invariant, however it ends. -/
theorem Database.WellFormed.store (hw : db.WellFormed) {c : ConversationRow}
    (hc : db.hasConversation c.id = true) :
    (exec (storeAndSerialize env input (mapConversation c)) db).2.WellFormed := by
  rcases exec_store_cases hc with he | ⟨m, row, -, he⟩
  · rw [he]
    exact hw
  · rw [he]
    exact hw.withMessage m row

/-- **A call keeps the invariant**, however it ends. -/
theorem Database.WellFormed.sendMessage (hw : db.WellFormed) :
    (exec (MernChat.sendMessage env input) db).2.WellFormed := by
  by_cases h : ChecksPass env input db
  · rw [exec_sendMessage_of_checks h]
    cases hfor : db.conversationFor input.senderId input.receiverId with
    | some c =>
      obtain ⟨a, -, b, -, hc⟩ : ∃ a, Uuid.parse _ = some a ∧ ∃ b, Uuid.parse _ = some b ∧
          db.conversationOf a b = some c := by
        simpa only [Database.conversationFor, Option.bind_eq_some_iff] using hfor
      exact hw.store (Database.hasConversation_iff.mpr
        ⟨c, (Database.conversationOf_eq_some hc).1, rfl⟩)
    | none =>
      by_cases hcreate : CreationCommits env input db
      · obtain ⟨a, b, -, hlt, hpair, hcase⟩ := exec_create_of_commits hw.toValid hfor hcreate
        have hw₁ := hw.withConversation env.createAt env.createAt hlt hpair hcreate.id
        rcases hcase with ⟨-, hce⟩ | ⟨-, e, hce⟩
        · show (exec (_ >>= _) db).2.WellFormed
          rw [exec_bind_ok hce]
          exact hw₁.store (Database.hasConversation_iff.mpr
            ⟨_, List.mem_append_right _ (List.mem_singleton.mpr rfl), rfl⟩)
        · show (exec (_ >>= _) db).2.WellFormed
          rw [exec_bind_error hce]
          exact hw₁
      · obtain ⟨e, hce⟩ := exec_create_of_not_commits hw.toValid hfor hcreate
        show (exec (_ >>= _) db).2.WellFormed
        rw [exec_bind_error hce]
        exact hw
  · obtain ⟨e, he⟩ := exec_sendMessage_of_not_checks h
    rw [he]
    exact hw

/-- Every state the application reaches is well formed. -/
theorem database_wellFormed {G : Guard Database ChatAction}
    (h : chatSystem.Reachable G db) : db.WellFormed := by
  refine h.invariant ?_ ?_
  · rintro s rfl
    exact .empty
  · intro s a t hs _ hst
    obtain rfl := Option.some.inj hst
    cases a with
    | createUser row => exact hs.createUser row
    | sendMessage env input => exact hs.sendMessage
    | updateOutbox update =>
      exact ⟨⟨hs.userIds, hs.conversationIds, hs.pairs, hs.canonical, hs.belongs⟩, hs.members⟩

/-! ## All or nothing, exactly -/

/-- **When `sendMessage` is all-or-nothing**: it leaves something behind exactly when it creates the
conversation and something fails from the `COMMIT` of the creation on, or when the message is
committed and the acknowledgement is lost. -/
theorem sendMessage_allOrNothing_iff (h : chatSystem.Reachable Guard.all db) (env : SendEnv)
    (input : SendMessageInput) : AllOrNothing env input db ↔ AtomicCall env input db := by
  have hw := database_wellFormed h
  unfold AtomicCall
  by_cases hchecks : ChecksPass env input db
  · simp only [hchecks, forall_const]
    cases hfor : db.conversationFor input.senderId input.receiverId with
    | some c =>
      rw [allOrNothing_found hw hchecks hfor, Option.isSome_some, if_pos rfl]
    | none =>
      rw [allOrNothing_created hw hchecks hfor, Option.isSome_none, if_neg Bool.false_ne_true]
  · obtain ⟨e, he⟩ := exec_sendMessage_of_not_checks hchecks
    rw [allOrNothing_error he]
    exact iff_of_true (.refl db) fun hc => absurd hc hchecks

/-! ### A call that stores, and one that does not -/

/-- A random UUID, as far as its version and variant go, with low digits `n`. -/
def sampleId (n : Nat) : Uuid := Uuid.ofNat (4 * 16 ^ 19 + 8 * 16 ^ 15 + n)

def sampleUser (n : Nat) : UserRow where
  id := sampleId n
  fullname := js "User"
  email := js (toString n)
  passwordHash := js "hash"
  createdAt := 1767225600000000
  updatedAt := 1767225600000000

/-- The tables with two users. -/
def sampleDatabase : Database where
  users := [sampleUser 1, sampleUser 0xAB]
  conversations := []
  conversation_members := []
  messages := []
  outbox_events := []

theorem reachable_sampleDatabase : chatSystem.Reachable Guard.all sampleDatabase := by
  have hrun : chatSystem.runFrom Database.empty
      [.createUser (sampleUser 1), .createUser (sampleUser 0xAB)] = some sampleDatabase := rfl
  exact Reachable.of_runFrom (.init rfl) hrun

/-- A call with fresh ids, in 2026. -/
def sampleEnv (fault : SendOp → Option (Fault Thrown)) : SendEnv where
  fault := fault
  conversationId := sampleId 0x10
  messageId := sampleId 0x11
  eventId := sampleId 0x12
  createAt := 1767225600000000
  storeAt := 1767225600000000
  dateNow := 1767225600000
  sequenceNumber := 1

def sampleInput : SendMessageInput where
  senderId := (sampleId 1).toText
  receiverId := (sampleId 0xAB).toText
  message := js "hi"
  correlationId := js "r"

theorem sendMessage_allOrNothing_iff_sample :
    AllOrNothing (sampleEnv fun _ => none) sampleInput sampleDatabase := by
  apply (sendMessage_allOrNothing_iff reachable_sampleDatabase _ _).mpr
  have hnone : (sampleDatabase.conversationFor sampleInput.senderId
      sampleInput.receiverId).isSome = false := by decide +kernel
  intro _
  rw [hnone, if_neg Bool.false_ne_true]
  intro _
  have hcommit : ∀ e : Thrown, (none : Option (Fault Thrown)) ≠ some (.rejected e) := by
    intro e h
    cases h
  refine ⟨rfl, ⟨rfl, rfl, rfl, rfl, hcommit, ?_⟩, rfl⟩
  exact {
    sender := ⟨sampleId 1, Uuid.parse_toText _, by decide +kernel⟩
    content := ⟨js "hi", by decide +kernel⟩
    strings := by decide +kernel
    messageId := by decide +kernel
    fresh := by decide
    storeAt := ⟨1767225600000, by decide +kernel⟩
    dateNow := ⟨1767225600000, by decide +kernel⟩ }

/-- The insert of the message fails: the call throws, and the conversation created for it stays. -/
theorem sendMessage_leaves_conversation :
    ∃ db env input, chatSystem.Reachable Guard.all db ∧ ¬ AllOrNothing env input db := by
  let fault : SendOp → Option (Fault Thrown) := fun op =>
    if op = .insertMessage then some (.rejected (.error (js "Connection terminated"))) else none
  refine ⟨sampleDatabase, sampleEnv fault, sampleInput, reachable_sampleDatabase, ?_⟩
  have hthrows : exec (sendMessage (sampleEnv fault) sampleInput) sampleDatabase =
      (.error (.error (js "Connection terminated")), sampleDatabase.withConversation
        (newConversation (sampleId 0x10) (sampleId 1) (sampleId 0xAB) 1767225600000000)
        1767225600000000) := by
    decide +kernel
  rw [allOrNothing_error hthrows]
  exact not_sameTables_of_conversations rfl

end MernChat
