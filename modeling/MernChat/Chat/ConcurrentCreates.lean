import Mathlib.Data.List.Perm.Basic
import MernChat.Chat.SendTransactions
import MernChat.Library.Transition

/-!
# Direct conversations under concurrency

Any number of calls of `createDirectConversation` run side by side, one statement at a time. An
open transaction sees what is committed and what it has inserted itself. An insert that conflicts
with a row of another open transaction waits for that transaction; the other waits of the
database (for locks of rows) only leave out some of the runs that are considered here. A call may
fail before each of its statements, and its transaction is rolled back; a `COMMIT` may take effect
without the call returning.

## Main definitions

* `Writes`: the rows an open transaction has inserted
* `CreateCall`, `ConversationsState`, `ConversationsAction`, `conversationsSystem`
* `CallBound`, `Settled`: the invariant

## Main results

* `one_conversation`: in every run a pair of users has one conversation, with its two members;
  every call that returns returns it, and every find afterwards finds it
-/

namespace MernChat

open Library TransitionSystem

/-! ## Open transactions -/

/-- The rows an open transaction has inserted. -/
structure Writes where
  conversations : List ConversationRow
  members : List MemberRow

def Writes.empty : Writes := ⟨[], []⟩

/-- The tables as the transaction sees them. -/
def Writes.over (w : Writes) (db : Database) : Database :=
  { db with
    conversations := db.conversations ++ w.conversations
    conversation_members := db.conversation_members ++ w.members }

/-- The rows of `view` that are not in `db`; statements only append rows. -/
def Writes.beyond (db view : Database) : Writes where
  conversations := view.conversations.drop db.conversations.length
  members := view.conversation_members.drop db.conversation_members.length

/-- What a call does next. -/
inductive CreatePhase where
  /-- `INSERT INTO conversations`. -/
  | insert
  /-- `SELECT … FOR UPDATE`. -/
  | select
  /-- `ensureMembership` of the first member. -/
  | ensureA (conversation : PostgresConversation)
  /-- `ensureMembership` of the second member. -/
  | ensureB (conversation : PostgresConversation)
  | commit (conversation : PostgresConversation)
  | ended

/-- A call of `createDirectConversation`, with the start of its transaction. -/
structure CreateCall where
  userA : Uuid
  userB : Uuid
  now : Int
  phase : CreatePhase
  writes : Writes

/-- `[memberAId, memberBId]`. -/
def CreateCall.pair (call : CreateCall) : JsString × JsString :=
  canonicalizeMemberPair call.userA.toText call.userB.toText

/-- A call that has returned a conversation. -/
structure Returned where
  userA : Uuid
  userB : Uuid
  conversation : PostgresConversation

/-- What is committed, the calls in the order they began, and what was returned. -/
structure ConversationsState where
  db : Database
  calls : List CreateCall
  returned : List Returned

inductive ConversationsAction where
  /-- A user is committed. -/
  | register (row : UserRow)
  /-- A call begins. -/
  | begin (userA userB : Uuid) (now : Int)
  /-- The `n`-th call executes its next statement; an insert draws the id. -/
  | statement (n : ℕ) (id : Uuid)
  /-- The `n`-th call fails, and is rolled back. -/
  | fail (n : ℕ)
  /-- The `n`-th call commits, and returns or not. -/
  | commit (n : ℕ) (returns : Bool)

namespace ConversationsState

/-- A row of another open transaction has the pair of the call, or the id. -/
def conversationWaits (s : ConversationsState) (n : ℕ) (a b : JsString) (id : Uuid) : Bool :=
  (s.calls.eraseIdx n).any fun other => other.writes.conversations.any fun row =>
    row.memberAId.toText == a && row.memberBId.toText == b || row.id == id

/-- A row of another open transaction makes the user a member of the conversation. -/
def memberWaits (s : ConversationsState) (n : ℕ) (c u : JsString) : Bool :=
  (s.calls.eraseIdx n).any fun other => other.writes.members.any fun row =>
    row.conversationId.toText == c && row.userId.toText == u

def setCall (s : ConversationsState) (n : ℕ) (call : CreateCall) : ConversationsState :=
  { s with calls := s.calls.set n call }

/-- `ROLLBACK`. -/
def rollback (s : ConversationsState) (n : ℕ) (call : CreateCall) : ConversationsState :=
  s.setCall n { call with phase := .ended, writes := .empty }

/-- The call goes on as `f` says where its statement succeeds, and is rolled back where it
fails. -/
def runTx {α : Type} (s : ConversationsState) (n : ℕ) (call : CreateCall) (x : DbTx α)
    (f : α → Option CreatePhase) : ConversationsState :=
  match x (call.writes.over s.db) with
  | .error _ => s.rollback n call
  | .ok (a, view) =>
    match f a with
    | none => s.rollback n call
    | some phase => s.setCall n { call with phase, writes := .beyond s.db view }

end ConversationsState

/-- The next statement of a call. -/
def createStatement (s : ConversationsState) (n : ℕ) (call : CreateCall) (id : Uuid) :
    Option ConversationsState :=
  match call.phase with
  | .insert =>
    -- a unique index makes the insert wait for the other transaction
    if s.conversationWaits n call.pair.1 call.pair.2 id then none
    else some (s.runTx n call (insertConversation id call.pair.1 call.pair.2 call.now) fun row =>
      match row with
      | some row => some (.ensureA (mapConversation row))
      | none => some .select)
  | .select =>
    some (s.runTx n call (selectDirectConversation call.pair.1 call.pair.2) fun conversation =>
      conversation.map .ensureA)
  | .ensureA conversation =>
    if s.memberWaits n conversation.id call.pair.1 then none
    else some (s.runTx n call (ensureMembership conversation.id call.pair.1 call.now) fun _ =>
      some (.ensureB conversation))
  | .ensureB conversation =>
    if s.memberWaits n conversation.id call.pair.2 then none
    else some (s.runTx n call (ensureMembership conversation.id call.pair.2 call.now) fun _ =>
      some (.commit conversation))
  | .commit _ => none
  | .ended => none

def conversationsStep (s : ConversationsState) : ConversationsAction → Option ConversationsState
  | .register row =>
    match insertUser row s.db with
    | .ok (_, db) => some { s with db }
    | .error _ => none
  | .begin userA userB now =>
    some { s with calls := s.calls ++ [{ userA, userB, now, phase := .insert, writes := .empty }] }
  | .statement n id => s.calls[n]?.bind fun call => createStatement s n call id
  | .fail n => s.calls[n]?.map fun call => s.rollback n call
  | .commit n returns =>
    s.calls[n]?.bind fun call =>
      match call.phase with
      | .commit conversation =>
        some { s.rollback n call with
          db := call.writes.over s.db
          returned := if returns then ⟨call.userA, call.userB, conversation⟩ :: s.returned
            else s.returned }
      | _ => none

def conversationsSystem : TransitionSystem ConversationsState ConversationsAction where
  init s := s = ⟨Database.empty, [], []⟩
  step s a := conversationsStep s a

/-! ## The invariant -/

/-- The row is that of the pair. -/
def IsPair (row : ConversationRow) (pair : JsString × JsString) : Prop :=
  (row.memberAId.toText, row.memberBId.toText) = pair

/-- The row may be committed: its id and its pair are not taken. -/
structure NewRow (db : Database) (row : ConversationRow) (now : Int) : Prop where
  eq : row = newConversation row.id row.memberAId row.memberBId now
  ordered : row.memberAId < row.memberBId
  pair : db.conversationOf row.memberAId row.memberBId = none
  id : db.hasConversation row.id = false

/-- The call has a conversation: its own, not yet committed, with `members` so far, or a committed
one. -/
def CallResolved (db : Database) (call : CreateCall) (conversation : PostgresConversation)
    (members : ConversationRow → List MemberRow) : Prop :=
  ∃ row : ConversationRow, conversation = mapConversation row ∧ IsPair row call.pair ∧
    (call.writes = ⟨[row], members row⟩ ∧ NewRow db row call.now ∨
      call.writes = .empty ∧ row ∈ db.conversations)

/-- The members a call has inserted. -/
def memberA (now : Int) (row : ConversationRow) : MemberRow := ⟨row.id, row.memberAId, now⟩

def memberB (now : Int) (row : ConversationRow) : MemberRow := ⟨row.id, row.memberBId, now⟩

/-- What is known of a call, by its phase. -/
def CallBound (db : Database) (call : CreateCall) : Prop :=
  match call.phase with
  | .insert => call.writes = .empty
  | .select => call.writes = .empty
  | .ensureA conversation => CallResolved db call conversation fun _ => []
  | .ensureB conversation => CallResolved db call conversation fun row => [memberA call.now row]
  | .commit conversation => CallResolved db call conversation fun row =>
      [memberA call.now row, memberB call.now row]
  | .ended => call.writes = .empty

/-- Two rows differ in their ids and in their pairs. -/
def Apart (r r' : ConversationRow) : Prop := r.id ≠ r'.id ∧ r.pair ≠ r'.pair

/-- The rows of two calls are apart. -/
def CallsApart (c d : CreateCall) : Prop :=
  ∀ r ∈ c.writes.conversations, ∀ r' ∈ d.writes.conversations, Apart r r'

/-- What is committed is well formed, the calls are bound to it and apart from each other, and
what was returned is committed. -/
structure Settled (s : ConversationsState) : Prop where
  wellFormed : s.db.WellFormed
  calls : ∀ call ∈ s.calls, CallBound s.db call
  apart : s.calls.Pairwise CallsApart
  returned : ∀ x ∈ s.returned, ∃ row ∈ s.db.conversations, x.conversation = mapConversation row ∧
    IsPair row (canonicalizeMemberPair x.userA.toText x.userB.toText)

theorem Apart.symm {r r' : ConversationRow} (h : Apart r r') : Apart r' r :=
  ⟨h.1.symm, h.2.symm⟩

theorem CallsApart.symm {c d : CreateCall} (h : CallsApart c d) : CallsApart d c :=
  fun r hr r' hr' => (h r' hr' r hr).symm

section Writes

variable {w : Writes} {db : Database}

@[simp] theorem Writes.empty_over (db : Database) : Writes.empty.over db = db := by
  simp [Writes.over, Writes.empty]

@[simp] theorem Writes.beyond_self : Writes.beyond db db = .empty := by
  simp [Writes.beyond, Writes.empty]

@[simp] theorem Writes.beyond_addConversation (row : ConversationRow) :
    Writes.beyond db (db.addConversation row) = ⟨[row], []⟩ := by
  simp [Writes.beyond, Database.addConversation]

@[simp] theorem Writes.beyond_addMember (row : MemberRow) :
    Writes.beyond db ((w.over db).addMember row) = { w with members := w.members ++ [row] } := by
  simp [Writes.beyond, Writes.over, Database.addMember]

end Writes

/-! ## One call changes -/

section Calls

variable {s : ConversationsState} {n : ℕ} {call call' : CreateCall}

/-- A call changes, and its rows stay apart from those of the other calls. -/
theorem Settled.setCall (h : Settled s) (hn : s.calls[n]? = some call)
    (hbound : CallBound s.db call')
    (hapart : ∀ other ∈ s.calls.eraseIdx n, CallsApart call' other) :
    Settled (s.setCall n call') := by
  obtain ⟨hlt, hcall⟩ := List.getElem?_eq_some_iff.mp hn
  refine ⟨h.wellFormed, ?_, ?_, h.returned⟩
  · intro c hc
    rcases List.mem_or_eq_of_mem_set hc with hc | rfl
    · exact h.calls c hc
    · exact hbound
  · -- apartness is symmetric, so that the call may stand first
    have hold := (List.Perm.pairwise_iff CallsApart.symm
      (List.getElem_cons_eraseIdx_perm hlt)).mpr h.apart
    apply (List.Perm.pairwise_iff CallsApart.symm (List.set_perm_cons_eraseIdx hlt call')).mpr
    exact List.pairwise_cons.mpr ⟨hapart, (List.pairwise_cons.mp hold).2⟩

/-- The rows of one call are apart from those of the others. -/
theorem Settled.apart_others (h : Settled s) (hn : s.calls[n]? = some call) :
    ∀ other ∈ s.calls.eraseIdx n, CallsApart call other := by
  obtain ⟨hlt, rfl⟩ := List.getElem?_eq_some_iff.mp hn
  have hold := (List.Perm.pairwise_iff CallsApart.symm
    (List.getElem_cons_eraseIdx_perm hlt)).mpr h.apart
  exact (List.pairwise_cons.mp hold).1

theorem Settled.rollback (h : Settled s) (hn : s.calls[n]? = some call) :
    Settled (s.rollback n call) :=
  h.setCall hn rfl (by simp [CallsApart, Writes.empty])

/-- A statement succeeds, or the call is rolled back. -/
theorem Settled.runTx (h : Settled s) (hn : s.calls[n]? = some call) {α : Type} {x : DbTx α}
    {f : α → Option CreatePhase}
    (hok : ∀ a view phase, x (call.writes.over s.db) = .ok (a, view) → f a = some phase →
      CallBound s.db { call with phase, writes := .beyond s.db view } ∧
        ∀ other ∈ s.calls.eraseIdx n,
          CallsApart { call with phase, writes := .beyond s.db view } other) :
    Settled (s.runTx n call x f) := by
  unfold ConversationsState.runTx
  split
  · exact h.rollback hn
  · rename_i a view hx
    split
    · exact h.rollback hn
    · rename_i phase hphase
      obtain ⟨hbound, hapart⟩ := hok a view phase hx hphase
      exact h.setCall hn hbound hapart

end Calls

/-! ## The statements -/

section Statements

variable {db view : Database} {call : CreateCall} {conversation : PostgresConversation}
  {members : ConversationRow → List MemberRow}

/-- The pair is printed in the order of the ids. -/
theorem canonicalizeMemberPair_toText (u v : Uuid) :
    ∃ a b : Uuid, canonicalizeMemberPair u.toText v.toText = (a.toText, b.toText) ∧
      (a = u ∧ b = v ∨ a = v ∧ b = u) := by
  unfold canonicalizeMemberPair
  split_ifs
  · exact ⟨u, v, rfl, .inl ⟨rfl, rfl⟩⟩
  · exact ⟨v, u, rfl, .inr ⟨rfl, rfl⟩⟩

theorem isPair_of_parse {u v a b : Uuid} {row : ConversationRow}
    (ha : Uuid.parse (canonicalizeMemberPair u.toText v.toText).1 = some a)
    (hb : Uuid.parse (canonicalizeMemberPair u.toText v.toText).2 = some b)
    (hrow : row.memberAId = a ∧ row.memberBId = b) :
    IsPair row (canonicalizeMemberPair u.toText v.toText) := by
  obtain ⟨x, y, hpair, -⟩ := canonicalizeMemberPair_toText u v
  rw [hpair, Uuid.parse_toText] at ha hb
  rw [hpair, IsPair, hrow.1, hrow.2, Option.some.inj ha, Option.some.inj hb]

/-- Only a conversation that is committed has members. -/
theorem NewRow.not_hasMember {row : ConversationRow} {now : Int} (h : NewRow db row now)
    (hdb : db.WellFormed) (u : Uuid) : db.hasMember row.id u = false := by
  simp only [Database.hasMember, List.any_eq_false, Bool.and_eq_true, beq_iff_eq, not_and]
  intro m hm hid
  obtain ⟨c, hc, hcm⟩ := hdb.belongs m hm
  have hnone := h.id
  rw [Bool.eq_false_iff, ne_eq, Database.hasConversation_iff] at hnone
  exact absurd ⟨c, hc, hcm.trans hid⟩ hnone

/-- `ensureMembership` inserts the row of a new conversation, and finds that of a committed
one. -/
theorem CallResolved.ensure (h : CallResolved db call conversation members) (hdb : db.WellFormed)
    (pick : ConversationRow → Uuid) {text : JsString}
    (htext : ∀ row, IsPair row call.pair → (pick row).toText = text)
    (hpick : ∀ row : ConversationRow, pick row = row.memberAId ∨ pick row = row.memberBId)
    (hnew : ∀ row : ConversationRow, row.memberAId < row.memberBId →
      ∀ m ∈ members row, m.userId ≠ pick row)
    (hok : ensureMembership conversation.id text call.now (call.writes.over db) = .ok ((), view))
    (phase : CreatePhase) :
    CallResolved db { call with phase, writes := .beyond db view } conversation
        (fun row => members row ++ [⟨row.id, pick row, call.now⟩]) ∧
      (Writes.beyond db view).conversations = call.writes.conversations := by
  obtain ⟨row, rfl, hpair, hcase⟩ := h
  obtain ⟨c, u, hc, hu, hresult⟩ := ensureMembership_eq_ok.mp hok
  obtain rfl : row.id = c := by
    rw [mapConversation, Uuid.parse_toText] at hc
    exact Option.some.inj hc
  obtain rfl : pick row = u := by
    rw [← htext row hpair, Uuid.parse_toText] at hu
    exact Option.some.inj hu
  rcases hcase with ⟨hwrites, hrow⟩ | ⟨hwrites, hrow⟩
  · -- a new conversation has no member yet but the one inserted before
    rw [hwrites] at hresult
    have hnone : ((⟨[row], members row⟩ : Writes).over db).hasMember row.id (pick row) = false := by
      have hcommitted := hrow.not_hasMember hdb (pick row)
      simp only [Database.hasMember, Writes.over, List.any_append, Bool.or_eq_false_iff]
      refine ⟨hcommitted, List.any_eq_false.mpr fun m hm => ?_⟩
      simp [hnew row hrow.ordered m hm]
    rw [hnone] at hresult
    rcases hresult with ⟨hmember, -⟩ | ⟨-, -, -, rfl⟩
    · cases hmember
    · rw [Writes.beyond_addMember, hwrites]
      exact ⟨⟨row, rfl, hpair, .inl ⟨rfl, hrow⟩⟩, rfl⟩
  · -- a committed conversation has both members
    rw [hwrites, Writes.empty_over] at hresult
    rcases hresult with ⟨-, rfl⟩ | ⟨hmember, -⟩
    · rw [Writes.beyond_self, hwrites]
      exact ⟨⟨row, rfl, hpair, .inr ⟨rfl, hrow⟩⟩, rfl⟩
    · have hthere : db.hasMember row.id (pick row) = true := by
        rw [Database.hasMember_iff, hdb.members row hrow]
        simpa using hpick row
      rw [hthere] at hmember
      cases hmember

/-- `INSERT` finds a conflict, or inserts a row that may be committed. -/
theorem insert_resolved {id : Uuid} {r : Option ConversationRow} (hwrites : call.writes = .empty)
    (hok : insertConversation id call.pair.1 call.pair.2 call.now (call.writes.over db) =
      .ok (r, view)) (phase : CreatePhase) :
    r = none ∧ Writes.beyond db view = .empty ∨
      ∃ row, r = some row ∧ row.id = id ∧ IsPair row call.pair ∧
        Writes.beyond db view = ⟨[row], []⟩ ∧
          CallResolved db { call with phase, writes := .beyond db view } (mapConversation row)
            fun _ => [] := by
  rw [hwrites, Writes.empty_over] at hok
  obtain ⟨a, b, ha, hb, hlt, hcase⟩ := insertConversation_eq_ok.mp hok
  rcases hcase with ⟨-, rfl, rfl⟩ | ⟨hnone, hid, -, -, rfl, rfl⟩
  · exact .inl ⟨rfl, Writes.beyond_self⟩
  · have hpair : IsPair (newConversation id a b call.now) call.pair :=
      isPair_of_parse ha hb ⟨rfl, rfl⟩
    rw [Writes.beyond_addConversation]
    refine .inr ⟨_, rfl, rfl, hpair, rfl, _, rfl, hpair, .inl ⟨rfl, rfl, hlt, hnone, hid⟩⟩

/-- `SELECT` finds a committed conversation. -/
theorem select_resolved {r : Option PostgresConversation} {phase : CreatePhase}
    (hwrites : call.writes = .empty)
    (hok : selectDirectConversation call.pair.1 call.pair.2 (call.writes.over db) = .ok (r, view))
    (hr : r = some conversation) :
    Writes.beyond db view = .empty ∧
      CallResolved db { call with phase, writes := .beyond db view } conversation members := by
  rw [hwrites, Writes.empty_over] at hok
  obtain ⟨a, b, ha, hb, hfound, rfl⟩ := selectDirectConversation_eq_ok.mp hok
  obtain ⟨row, hrow, rfl⟩ := Option.map_eq_some_iff.mp (hfound.symm.trans hr)
  obtain ⟨hmem, hmembers⟩ := Database.conversationOf_eq_some hrow
  exact ⟨Writes.beyond_self, row, rfl, isPair_of_parse ha hb hmembers,
    .inr ⟨Writes.beyond_self, hmem⟩⟩

end Statements

/-! ## A commit -/

section Commit

variable {db : Database} {row : ConversationRow} {now : Int}

theorem over_members (row : ConversationRow) (now : Int) :
    (⟨[row], [memberA now row, memberB now row]⟩ : Writes).over db =
      db.withConversation row now := by
  simp [Writes.over, Database.withConversation, Database.addMember, Database.addConversation,
    memberA, memberB]

theorem NewRow.wellFormed (h : NewRow db row now) (hdb : db.WellFormed) :
    (db.withConversation row now).WellFormed := by
  have hcreated := hdb.withConversation now now h.ordered h.pair h.id
  rwa [← h.eq] at hcreated

/-- A row that is apart from the one committed may still be committed. -/
theorem NewRow.apart {other : ConversationRow} {later : Int} (h : NewRow db other later)
    (hapart : Apart other row) : NewRow (db.withConversation row now) other later := by
  refine ⟨h.eq, h.ordered, ?_, ?_⟩
  · rw [Database.conversationOf_eq_none]
    intro c hc
    rcases List.mem_append.mp hc with hc | hc
    · exact Database.conversationOf_eq_none.mp h.pair c hc
    · rw [List.mem_singleton.mp hc]
      exact hapart.2.symm
  · have hid := h.id
    rw [Bool.eq_false_iff, ne_eq, Database.hasConversation_iff] at hid ⊢
    rintro ⟨c, hc, hcid⟩
    rcases List.mem_append.mp hc with hc | hc
    · exact hid ⟨c, hc, hcid⟩
    · rw [List.mem_singleton.mp hc] at hcid
      exact hapart.1 hcid.symm

/-- A call goes on when the committed conversations grow and its own row may still be
committed. -/
theorem CallResolved.mono {db' : Database} {call : CreateCall} {conversation : PostgresConversation}
    {members : ConversationRow → List MemberRow} (h : CallResolved db call conversation members)
    (hnew : ∀ r ∈ call.writes.conversations, NewRow db r call.now → NewRow db' r call.now)
    (hmem : ∀ r ∈ db.conversations, r ∈ db'.conversations) :
    CallResolved db' call conversation members := by
  obtain ⟨own, hconv, hpair, ⟨hwrites, hown⟩ | ⟨hwrites, hown⟩⟩ := h
  · refine ⟨own, hconv, hpair, .inl ⟨hwrites, hnew own ?_ hown⟩⟩
    rw [hwrites]
    exact List.mem_singleton_self own
  · exact ⟨own, hconv, hpair, .inr ⟨hwrites, hmem own hown⟩⟩

theorem CallBound.mono {db' : Database} {call : CreateCall} (h : CallBound db call)
    (hnew : ∀ r ∈ call.writes.conversations, NewRow db r call.now → NewRow db' r call.now)
    (hmem : ∀ r ∈ db.conversations, r ∈ db'.conversations) : CallBound db' call := by
  cases hphase : call.phase with
  | insert | select | ended =>
    simp only [CallBound, hphase] at h ⊢
    exact h
  | ensureA conversation | ensureB conversation | commit conversation =>
    simp only [CallBound, hphase] at h ⊢
    exact CallResolved.mono h hnew hmem

end Commit

/-! ## Every run -/

variable {s t : ConversationsState}

theorem Settled.commit (h : Settled s) {n : ℕ} {call : CreateCall}
    {conversation : PostgresConversation} (hn : s.calls[n]? = some call)
    (hphase : call.phase = .commit conversation) (returns : Bool) :
    Settled { s.rollback n call with
      db := call.writes.over s.db
      returned := if returns then ⟨call.userA, call.userB, conversation⟩ :: s.returned
        else s.returned } := by
  have hbound := h.calls call (List.mem_of_getElem? hn)
  simp only [CallBound, hphase] at hbound
  obtain ⟨row, rfl, hpair, hcase⟩ := hbound
  have hrollback := h.rollback hn
  -- the conversation is committed, and what was committed stays
  have hcommitted : row ∈ (call.writes.over s.db).conversations ∧
      ∀ c ∈ s.db.conversations, c ∈ (call.writes.over s.db).conversations := by
    refine ⟨?_, fun c hc => List.mem_append_left _ hc⟩
    rcases hcase with ⟨hwrites, -⟩ | ⟨-, hmem⟩
    · rw [hwrites]
      exact List.mem_append_right _ (List.mem_singleton_self row)
    · exact List.mem_append_left _ hmem
  refine ⟨?_, ?_, hrollback.apart, ?_⟩
  · rcases hcase with ⟨hwrites, hnew⟩ | ⟨hwrites, -⟩
    · rw [hwrites, over_members]
      exact hnew.wellFormed h.wellFormed
    · rw [hwrites, Writes.empty_over]
      exact h.wellFormed
  · intro other hother
    have hold := hrollback.calls other hother
    rcases hcase with ⟨hwrites, -⟩ | ⟨hwrites, -⟩
    · -- the rows of the other calls are apart from the one committed
      rw [hwrites, over_members]
      refine hold.mono (fun r hr hnew => hnew.apart ?_) fun c hc => List.mem_append_left _ hc
      obtain ⟨hlt, -⟩ := List.getElem?_eq_some_iff.mp hn
      rcases List.mem_cons.mp ((List.set_perm_cons_eraseIdx hlt _).mem_iff.mp hother) with
        rfl | hother
      · cases hr
      · refine (h.apart_others hn other hother row ?_ r hr).symm
        rw [hwrites]
        exact List.mem_singleton_self row
    · rw [hwrites, Writes.empty_over]
      exact hold
  · intro x hx
    have hreturned : x = ⟨call.userA, call.userB, mapConversation row⟩ ∨ x ∈ s.returned := by
      cases returns
      · exact .inr hx
      · exact List.mem_cons.mp hx
    rcases hreturned with rfl | hx
    · exact ⟨row, hcommitted.1, rfl, hpair⟩
    · obtain ⟨c, hc, hconv, hcpair⟩ := h.returned x hx
      exact ⟨c, hcommitted.2 c hc, hconv, hcpair⟩

/-- A row that did not have to wait is apart from those of the other calls. -/
theorem apart_of_not_waits {n : ℕ} {pair : JsString × JsString} {row r : ConversationRow}
    {other : CreateCall} (hwait : s.conversationWaits n pair.1 pair.2 row.id = false)
    (hpair : IsPair row pair) (hother : other ∈ s.calls.eraseIdx n)
    (hr : r ∈ other.writes.conversations) : Apart row r := by
  have hothers := List.any_eq_false.mp hwait other hother
  rw [Bool.not_eq_true, List.any_eq_false] at hothers
  have hfree := hothers r hr
  simp only [Bool.or_eq_true, Bool.and_eq_true, beq_iff_eq, not_or] at hfree
  refine ⟨Ne.symm hfree.2, fun hsame => hfree.1 ?_⟩
  have hmembers : row.memberAId = r.memberAId ∧ row.memberBId = r.memberBId := Prod.mk.inj hsame
  rw [← hpair, ← hmembers.1, ← hmembers.2]
  exact ⟨rfl, rfl⟩

/-- A statement of a call keeps the invariant. -/
theorem Settled.statement (h : Settled s) {n : ℕ} {call : CreateCall} {id : Uuid}
    (hn : s.calls[n]? = some call) (hs : createStatement s n call id = some t) : Settled t := by
  have hbound := h.calls call (List.mem_of_getElem? hn)
  have hothers := h.apart_others hn
  cases hphase : call.phase with
  | insert =>
    simp only [CallBound, hphase] at hbound
    simp only [createStatement, hphase] at hs
    split_ifs at hs with hwait
    obtain rfl := Option.some.inj hs
    refine h.runTx hn fun r view phase hok hr => ?_
    -- after a conflict nothing is written; otherwise the new row is
    rcases insert_resolved hbound hok phase with
      ⟨rfl, hwrites⟩ | ⟨row, rfl, rfl, hpair, hwrites, hres⟩
    · obtain rfl := Option.some.inj hr
      refine ⟨hwrites, ?_⟩
      rintro other - r hr
      rw [hwrites] at hr
      cases hr
    · obtain rfl := Option.some.inj hr
      refine ⟨hres, ?_⟩
      intro other hother r hr r' hr'
      rw [hwrites] at hr
      obtain rfl := List.mem_singleton.mp hr
      -- the insert did not have to wait for the other call
      exact apart_of_not_waits (Bool.eq_false_iff.mpr hwait) hpair hother hr'
  | select =>
    simp only [CallBound, hphase] at hbound
    simp only [createStatement, hphase] at hs
    obtain rfl := Option.some.inj hs
    refine h.runTx hn fun r view phase hok hr => ?_
    obtain ⟨conversation, rfl, rfl⟩ := Option.map_eq_some_iff.mp hr
    obtain ⟨hwrites, hres⟩ := select_resolved hbound hok rfl
    refine ⟨hres, ?_⟩
    rintro other - r hr
    rw [hwrites] at hr
    cases hr
  | ensureA conversation =>
    simp only [CallBound, hphase] at hbound
    simp only [createStatement, hphase] at hs
    split_ifs at hs
    obtain rfl := Option.some.inj hs
    refine h.runTx hn fun r view phase hok hr => ?_
    obtain rfl := Option.some.inj hr
    obtain ⟨hres, hwrites⟩ := CallResolved.ensure hbound h.wellFormed ConversationRow.memberAId
      (fun row hpair => congrArg Prod.fst hpair) (fun _ => .inl rfl) (by simp) hok
      (.ensureB conversation)
    refine ⟨hres, ?_⟩
    intro other hother r hr
    rw [hwrites] at hr
    exact hothers other hother r hr
  | ensureB conversation =>
    simp only [CallBound, hphase] at hbound
    simp only [createStatement, hphase] at hs
    split_ifs at hs
    obtain rfl := Option.some.inj hs
    refine h.runTx hn fun r view phase hok hr => ?_
    obtain rfl := Option.some.inj hr
    obtain ⟨hres, hwrites⟩ := CallResolved.ensure hbound h.wellFormed ConversationRow.memberBId
      (fun row hpair => congrArg Prod.snd hpair) (fun _ => .inr rfl)
      (fun row hlt m hm => by simpa [List.mem_singleton.mp hm, memberA] using hlt.ne) hok
      (.commit conversation)
    refine ⟨hres, ?_⟩
    intro other hother r hr
    rw [hwrites] at hr
    exact hothers other hother r hr
  | commit conversation =>
    simp only [createStatement, hphase] at hs
    cases hs
  | ended =>
    simp only [createStatement, hphase] at hs
    cases hs

theorem Settled.step (h : Settled s) {a : ConversationsAction}
    (hs : conversationsStep s a = some t) : Settled t := by
  cases a with
  | register row =>
    simp only [conversationsStep] at hs
    split at hs
    · rename_i db hok
      obtain rfl := Option.some.inj hs
      obtain ⟨-, rfl⟩ := Database.insertUser_eq_ok hok
      refine ⟨h.wellFormed.insertUser hok, fun call hcall => ?_, h.apart, h.returned⟩
      exact (h.calls call hcall).mono (fun r _ hnew => ⟨hnew.eq, hnew.ordered, hnew.pair, hnew.id⟩)
        fun c hc => hc
    · cases hs
  | begin userA userB now =>
    obtain rfl := Option.some.inj hs
    refine ⟨h.wellFormed, ?_, ?_, h.returned⟩
    · intro call hcall
      rcases List.mem_append.mp hcall with hcall | hcall
      · exact h.calls call hcall
      · rw [List.mem_singleton.mp hcall]
        rfl
    · refine List.pairwise_append.mpr ⟨h.apart, List.pairwise_singleton _ _, ?_⟩
      intro c _ d hd r _ r' hr'
      rw [List.mem_singleton.mp hd] at hr'
      cases hr'
  | statement n id =>
    obtain ⟨call, hn, hstatement⟩ := Option.bind_eq_some_iff.mp hs
    exact h.statement hn hstatement
  | fail n =>
    obtain ⟨call, hn, rfl⟩ := Option.map_eq_some_iff.mp hs
    exact h.rollback hn
  | commit n returns =>
    obtain ⟨call, hn, hcommit⟩ := Option.bind_eq_some_iff.mp hs
    split at hcommit
    · rename_i conversation hphase
      obtain rfl := Option.some.inj hcommit
      exact h.commit hn hphase returns
    · cases hcommit

theorem settled_of_reachable (h : conversationsSystem.Reachable Guard.all s) : Settled s := by
  refine h.invariant ?_ fun s a t hS _ hs => hS.step hs
  rintro s rfl
  exact ⟨Database.WellFormed.empty, by simp, List.Pairwise.nil, by simp⟩

/-- The conversation found for a pair is the committed one, in either order of the arguments. -/
theorem findDirectConversation_of_isPair {db : Database} (hdb : db.WellFormed)
    {row : ConversationRow} (hrow : row ∈ db.conversations) {u v : Uuid}
    (hpair : IsPair row (canonicalizeMemberPair u.toText v.toText)) :
    findDirectConversation u.toText v.toText db = .ok (some (mapConversation row), db) := by
  have hfound : db.conversationOf row.memberAId row.memberBId = some row := by
    cases hc : db.conversationOf row.memberAId row.memberBId with
    | none => exact absurd rfl (Database.conversationOf_eq_none.mp hc row hrow)
    | some c =>
      obtain ⟨hmem, hA, hB⟩ := Database.conversationOf_eq_some hc
      rw [eq_of_key hdb.pairs hmem hrow (Prod.ext hA hB)]
  show selectDirectConversation _ _ db = _
  rw [← hpair]
  exact selectDirectConversation_eq_ok.mpr
    ⟨_, _, Uuid.parse_toText _, Uuid.parse_toText _, by rw [hfound]; rfl, rfl⟩

theorem canonicalizeMemberPair_swap (u v : Uuid) :
    canonicalizeMemberPair u.toText v.toText = canonicalizeMemberPair v.toText u.toText := by
  simp only [canonicalizeMemberPair, Uuid.toText_lt_toText]
  rcases lt_trichotomy u v with h | rfl | h
  · rw [if_pos h, if_neg h.asymm]
  · rfl
  · rw [if_neg h.asymm, if_pos h]

/-- **One conversation for a pair.** In every run of calls, their statements in any order and any
of them failing at any statement: a pair of users has at most one committed conversation, every
committed conversation has exactly the memberships of its two members, all calls for a pair that
return return one id, and a find afterwards finds it. -/
theorem one_conversation (h : conversationsSystem.Reachable Guard.all s) :
    (∀ u v, (s.db.conversations.filter (·.isBetween u v)).length ≤ 1) ∧
    (∀ c ∈ s.db.conversations, c.memberAId ≠ c.memberBId ∧
      (s.db.membersOf c.id).Perm [c.memberAId, c.memberBId]) ∧
    (∀ x ∈ s.returned, ∀ y ∈ s.returned,
      (x.userA = y.userA ∧ x.userB = y.userB ∨ x.userA = y.userB ∧ x.userB = y.userA) →
        x.conversation.id = y.conversation.id) ∧
    ∀ x ∈ s.returned, ∀ u v, (u = x.userA ∧ v = x.userB ∨ u = x.userB ∧ v = x.userA) →
      ∃ found, findDirectConversation u.toText v.toText s.db = .ok (some found, s.db) ∧
        found.id = x.conversation.id := by
  have hS := settled_of_reachable h
  -- a returned conversation is the one its pair has
  have hreturned : ∀ x ∈ s.returned, ∀ u v,
      (u = x.userA ∧ v = x.userB ∨ u = x.userB ∧ v = x.userA) → ∃ row ∈ s.db.conversations,
        x.conversation = mapConversation row ∧
          IsPair row (canonicalizeMemberPair u.toText v.toText) := by
    intro x hx u v huv
    obtain ⟨row, hrow, hconv, hpair⟩ := hS.returned x hx
    refine ⟨row, hrow, hconv, ?_⟩
    rcases huv with ⟨rfl, rfl⟩ | ⟨rfl, rfl⟩
    · exact hpair
    · rw [canonicalizeMemberPair_swap]
      exact hpair
  refine ⟨?_, ?_, ?_, ?_⟩
  · intro u v
    cases hfilter : s.db.conversations.filter (·.isBetween u v) with
    | nil => simp
    | cons c rest =>
      have hc : c ∈ s.db.conversations.filter (·.isBetween u v) := by
        rw [hfilter]
        exact List.mem_cons_self
      rw [List.mem_filter] at hc
      rw [← hfilter, hS.wellFormed.filter_isBetween hc.1 hc.2]
      exact le_rfl
  · intro c hc
    refine ⟨(hS.wellFormed.canonical c hc).ne, ?_⟩
    rw [hS.wellFormed.members c hc]
  · intro x hx y hy hxy
    obtain ⟨row, hrow, hconv, hpair⟩ := hreturned x hx x.userA x.userB (.inl ⟨rfl, rfl⟩)
    obtain ⟨row', hrow', hconv', hpair'⟩ := hreturned y hy x.userA x.userB (by tauto)
    have hsame : row = row' := by
      have hmembers : (row.memberAId.toText, row.memberBId.toText) =
          (row'.memberAId.toText, row'.memberBId.toText) := hpair.trans hpair'.symm
      obtain ⟨hA, hB⟩ := Prod.mk.inj hmembers
      exact eq_of_key hS.wellFormed.pairs hrow hrow'
        (Prod.ext (Uuid.toText_injective hA) (Uuid.toText_injective hB))
    rw [hconv, hconv', hsame]
  · intro x hx u v huv
    obtain ⟨row, hrow, hconv, hpair⟩ := hreturned x hx u v huv
    refine ⟨_, findDirectConversation_of_isPair hS.wellFormed hrow hpair, ?_⟩
    rw [hconv]

/-- Two users, and two calls for them in either order: the second waits for the first to commit,
finds its conversation, and returns it too. -/
def createRun : List ConversationsAction :=
  [.register ⟨.ofNat 1, js "Ada", js "ada@example.com", js "hash", 0, 0⟩,
    .register ⟨.ofNat 2, js "Bob", js "bob@example.com", js "hash", 0, 0⟩,
    .begin (.ofNat 1) (.ofNat 2) 5, .begin (.ofNat 2) (.ofNat 1) 6, .statement 0 (.ofNat 3),
    .statement 0 (.ofNat 4), .statement 0 (.ofNat 4), .commit 0 true, .statement 1 (.ofNat 5),
    .statement 1 (.ofNat 5), .statement 1 (.ofNat 5), .statement 1 (.ofNat 5), .commit 1 true]

theorem one_conversation_sample :
    ∃ s, conversationsSystem.runFrom ⟨Database.empty, [], []⟩ createRun = some s ∧
      s.returned.length = 2 ∧ (s.db.conversations.filter
        (·.isBetween (.ofNat 1) (.ofNat 2))).length ≤ 1 := by
  obtain ⟨s, hrun, hreturned⟩ := exists_of_any
    (o := conversationsSystem.runFrom ⟨Database.empty, [], []⟩ createRun)
    (fun s => s.returned.length = 2) (by decide +kernel)
  exact ⟨s, hrun, hreturned, (one_conversation (.of_runFrom (.init rfl) hrun)).1 _ _⟩

end MernChat
