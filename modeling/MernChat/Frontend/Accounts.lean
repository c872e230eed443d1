import MernChat.Frontend.Merging
import MernChat.Library.Transition
import Mathlib.Data.Set.Insert

/-!
# Accounts that follow each other on one page

The page keeps its messages under the id of the other user, and keeps them when a user signs
out. Someone who signs in later on the same page, and opens a conversation with a contact the
first user had opened, sees the first user's messages with that contact. The request of
`useMessages` is aborted when the conversation is left; that of `useSendMessage` is not, and its
answer is stored whoever is signed in when it arrives.

## Main definitions

* `BrowserState`, `BrowserEvent`, `browserStep`: the page, from one login to the next
* `BrowserStep`: its steps, case by case
* `Visit`: the page with the accounts whose messages were stored
* `Honest`: the server answers with the messages of the account it authenticates
* `Exclusive`: no account opens, or has open, what is stored for another
* `NoLeak`: what is shown is between the user and the selected contact

## Main results

* `mem_messagesOf_step`: what the lists hold after an event
* `accounts_isolated_iff`: no leak while the steps are exclusive, and a leak at the first one
  that is not
-/

namespace MernChat

open Library

/-! ## The page -/

/-- What the server has returned, and the account it was returned to. -/
structure BrowserResponse (α : Type) where
  account : JsString
  data : α

/-- A request for a conversation, with the user who was signed in when it was made. -/
structure BrowserRequest (α : Type) where
  conversationId : JsString
  madeBy : JsString
  response : Option (BrowserResponse α)

structure BrowserState where
  authUser : Option PublicUser
  conversationStore : ConversationState
  /-- The request of `useMessages`, until it is answered, fails or is aborted. -/
  history : Option (BrowserRequest (List Message))
  error : Bool
  /-- The requests of `useSendMessage`. Nothing aborts them. -/
  sends : List (BrowserRequest Message)

inductive BrowserEvent where
  /-- `setAuthUser`: a login, signup or restored session; null at a logout and for
  `auth:expired`. -/
  | setAuthUser (user : Option PublicUser)
  /-- The effect of `Right`, which is mounted when a user signs in. -/
  | homeMounted
  /-- A click on a contact, or a search. -/
  | selectConversation (conversation : PublicUser)
  /-- A click on `Retry`, which is shown for an error. -/
  | retry
  /-- The server answers the request of `useMessages`, as an account. -/
  | historyAnswered (account : JsString) (messages : List Message)
  /-- The answer to the request of `useMessages` arrives. -/
  | historyLoaded
  | historyFailed
  | sendMessage
  /-- The server answers the `i`-th request of `useSendMessage`, as an account. -/
  | sendAnswered (i : ℕ) (account : JsString) (message : Message)
  /-- The answer to the `i`-th request of `useSendMessage` arrives. -/
  | messageSent (i : ℕ)
  | sendFailed (i : ℕ)
  /-- The event of the socket. -/
  | newMessage (message : Message)

/-- A message that is stored: under which conversation, and of which account. -/
structure StoredMessage where
  account : JsString
  conversationId : JsString
  message : Message

namespace BrowserState

variable (s : BrowserState)

/-- A page that was just loaded. -/
def initial : BrowserState where
  authUser := none
  conversationStore := .initial
  history := none
  error := false
  sends := []

def messagesOf (c : JsString) : List Message := s.conversationStore.messagesOf c

def selectedConversation : Option PublicUser := s.conversationStore.selectedConversation

/-- The user and the conversation of `Messages` and `Typesend`, which are mounted while a user is
signed in and has selected one. -/
def mounted : Option (PublicUser × PublicUser) :=
  match s.authUser, s.selectedConversation with
  | some u, some c => some (u, c)
  | _, _ => none

/-- The dependency of the effect of `useMessages`, while there is one. -/
def mountedId : Option JsString := s.mounted.map (·.2._id)

/-- The effect of `useMessages`: the request before is aborted, and a new one is made. -/
def loadMessages : BrowserState :=
  { s with
    history := s.mounted.map fun (u, c) => ⟨c._id, u._id, none⟩
    error := false }

/-- The page after an update: the effect is run again if the conversation is another one. -/
def rerender (t : BrowserState) : BrowserState :=
  if t.mountedId = s.mountedId then t else t.loadMessages

/-- The messages an event stores. -/
def stores : BrowserEvent → List StoredMessage
  | .historyLoaded =>
    match s.history with
    | some ⟨c, _, some response⟩ => response.data.map fun m => ⟨response.account, c, m⟩
    | _ => []
  | .messageSent i =>
    match s.sends[i]? with
    | some ⟨c, _, some response⟩ => [⟨response.account, c, response.data⟩]
    | _ => []
  | .newMessage message =>
    match s.mounted with
    | some (u, c) =>
      if message.senderId = c._id ∨ message.receiverId = c._id then [⟨u._id, c._id, message⟩]
      else []
    | none => []
  | _ => []

end BrowserState

variable {dateParse : JsString → JsDate}

/-- The contacts and the home page are there while a user is signed in. `Typesend` holds a second
message back while its first is under way; it is mounted anew for every login, so any number of
requests may be under way. -/
def browserStep (dateParse : JsString → JsDate) (s : BrowserState) :
    BrowserEvent → Option BrowserState
  -- neither a login nor a logout touches the conversation store
  | .setAuthUser user => some (s.rerender { s with authUser := user })
  | .homeMounted =>
    if s.authUser.isSome then
      some (s.rerender
        { s with conversationStore := setSelectedConversation none s.conversationStore })
    else none
  | .selectConversation c =>
    if s.authUser.isSome then
      some (s.rerender
        { s with conversationStore := setSelectedConversation (some c) s.conversationStore })
    else none
  | .retry => if s.error then some s.loadMessages else none
  | .historyAnswered account messages => s.history.bind fun request =>
    if request.response.isNone then
      some { s with history := some { request with response := some ⟨account, messages⟩ } }
    else none
  | .historyLoaded => s.history.bind fun request => request.response.map fun response =>
    { s with
      conversationStore :=
        mergeMessages dateParse request.conversationId response.data s.conversationStore
      history := none }
  | .historyFailed => s.history.map fun _ => { s with history := none, error := true }
  | .sendMessage => s.mounted.map fun (u, c) =>
    { s with sends := s.sends ++ [⟨c._id, u._id, none⟩] }
  | .sendAnswered i account message => s.sends[i]?.bind fun request =>
    if request.response.isNone then
      some { s with sends := s.sends.set i { request with response := some ⟨account, message⟩ } }
    else none
  -- the conversation of a request is that of its start, whoever is signed in when it is answered
  | .messageSent i => s.sends[i]?.bind fun request => request.response.map fun response =>
    { s with
      conversationStore := appendMessage request.conversationId response.data s.conversationStore
      sends := s.sends.eraseIdx i }
  | .sendFailed i => s.sends[i]?.map fun _ => { s with sends := s.sends.eraseIdx i }
  -- the listener is that of the mounted `Messages`
  | .newMessage message => s.mounted.map fun _ =>
    { s with conversationStore := handleNewMessage message s.conversationStore }

/-- A page, with the accounts whose messages were stored for a conversation. The accounts are part
of the history of the page; no step reads them. -/
structure Visit where
  page : BrowserState
  storedBy : List (JsString × JsString)

/-- The pairs an event adds: the account of each message with the conversation it is stored
under. -/
def newlyStored (s : BrowserState) (e : BrowserEvent) : List (JsString × JsString) :=
  (s.stores e).map fun d => (d.account, d.conversationId)

def browserSystem (dateParse : JsString → JsDate) : TransitionSystem Visit BrowserEvent where
  init v := v = ⟨.initial, []⟩
  step v e := (browserStep dateParse v.page e).map fun page =>
    { page, storedBy := newlyStored v.page e ++ v.storedBy }

/-! ## The server -/

/-- The message is between the two users. -/
def Between (u c : JsString) (m : Message) : Prop :=
  m.senderId = u ∧ m.receiverId = c ∨ m.senderId = c ∧ m.receiverId = u

/-- The messages of the server: their ids are distinct, and no one writes to oneself. -/
structure ServerMessages where
  Sent : Message → Prop
  distinct : ∀ m m', Sent m → Sent m' → m._id = m'._id → m = m'
  others : ∀ m, Sent m → m.senderId ≠ m.receiverId

/-- The account a request is authenticated as: the user who made it, or, once the interceptor has
refreshed the session and sent it again, the one who is signed in then. -/
def BrowserState.Authenticates (s : BrowserState) {α : Type} (request : BrowserRequest α)
    (account : JsString) : Prop :=
  account = request.madeBy ∨ s.authUser.map (·._id) = some account

/-- The server returns and emits only messages of the user who is authenticated at that moment:
the moment it answers, whoever is signed in when the answer arrives. -/
def Honest (S : ServerMessages) : Guard Visit BrowserEvent
  | v, .historyAnswered account messages => ∀ request, v.page.history = some request →
      v.page.Authenticates request account ∧
        ∀ m ∈ messages, S.Sent m ∧ Between account request.conversationId m
  | v, .sendAnswered i account m => ∀ request, v.page.sends[i]? = some request →
      v.page.Authenticates request account ∧
        S.Sent m ∧ m.senderId = account ∧ m.receiverId = request.conversationId
  | v, .newMessage m =>
    ∃ u, v.page.authUser = some u ∧ S.Sent m ∧ (m.senderId = u._id ∨ m.receiverId = u._id)
  | _, _ => True

/-! ## Leaks -/

/-- Messages of the account `u` only were stored for `c`. -/
def Visit.OnlyBy (v : Visit) (u c : PublicUser) : Prop :=
  ∀ a, (a, c._id) ∈ v.storedBy → a = u._id

/-- What arrives for the conversation that is open is of the user who is signed in. -/
def Visit.ArrivesForUser (v : Visit) (e : BrowserEvent) : Prop :=
  ∀ u c, v.page.mounted = some (u, c) → ∀ d ∈ v.page.stores e, d.conversationId = c._id →
    d.account = u._id

/-- No account opens a conversation for which messages of another account were stored, no answer
to another account arrives for the conversation that is open, and no message comes from the socket
while the user has selected their own entry. -/
def Exclusive : Guard Visit BrowserEvent
  | v, .setAuthUser (some u) => ∀ c, v.page.selectedConversation = some c → v.OnlyBy u c
  | v, .selectConversation c => ∀ u, v.page.authUser = some u → v.OnlyBy u c
  | v, .historyLoaded => v.ArrivesForUser .historyLoaded
  | v, .messageSent i => v.ArrivesForUser (.messageSent i)
  | v, .newMessage _ => ∀ u c, v.page.mounted = some (u, c) → c._id ≠ u._id
  | _, _ => True

/-- Every message shown is between the user and the selected contact. -/
def Visit.NoLeak (v : Visit) : Prop :=
  ∀ u c, v.page.authUser = some u → v.page.selectedConversation = some c →
    ∀ m ∈ useMessages v.page.conversationStore,
      ({m.senderId, m.receiverId} : Set JsString) = {u._id, c._id}

theorem between_iff {u c : JsString} {m : Message} :
    Between u c m ↔ ({m.senderId, m.receiverId} : Set JsString) = {u, c} := by
  rw [Set.pair_eq_pair_iff]
  rfl

theorem Between.left_eq {a u c : JsString} {m : Message} (h : Between a c m) (h' : Between u c m) :
    a = u := by
  rcases h with ⟨h₁, h₂⟩ | ⟨h₁, h₂⟩ <;> rcases h' with ⟨h₃, h₄⟩ | ⟨h₃, h₄⟩ <;> grind

theorem noLeak_iff {v : Visit} {u c : PublicUser} (hu : v.page.authUser = some u)
    (hc : v.page.selectedConversation = some c) :
    v.NoLeak ↔ ∀ m ∈ v.page.messagesOf c._id, Between u._id c._id m := by
  have hshown : useMessages v.page.conversationStore = v.page.messagesOf c._id := by
    unfold useMessages
    rw [show v.page.conversationStore.selectedConversation = some c from hc]
    rfl
  simp only [Visit.NoLeak, hu, hc, hshown, Option.some.injEq, between_iff]
  constructor
  · intro h m hm
    exact h u c rfl rfl m hm
  · rintro h _ _ rfl rfl m hm
    exact h m hm

/-! ## What an event stores -/

/-- A list absorbs messages: it holds no others, and keeps their ids and those there before. -/
structure Absorbs (old new incoming : List Message) : Prop where
  mem : ∀ m ∈ new, m ∈ old ∨ m ∈ incoming
  kept : ∀ m, m ∈ old ∨ m ∈ incoming → ∃ m' ∈ new, m'._id = m._id

theorem absorbs_mergeUniqueMessages (old incoming : List Message) :
    Absorbs old (mergeUniqueMessages dateParse old incoming) incoming := by
  have hperm : (mergeUniqueMessages dateParse old incoming).Perm
      ((old ++ incoming).foldl (upsert SerializedMessage._id) []) :=
    perm_mergeUniqueMessages old incoming
  constructor
  · intro m hm
    have := mem_of_mem_foldl_upsert _ (hperm.mem_iff.mp hm)
    simpa using this
  · intro m hm
    have hid : m._id ∈ (mergeUniqueMessages dateParse old incoming).map SerializedMessage._id := by
      rw [(hperm.map _).mem_iff, map_key_foldl_upsert, mem_foldl_insertNew]
      exact Or.inr (List.mem_map_of_mem (List.mem_append.mpr hm))
    exact List.mem_map.mp hid

theorem absorbs_insertNew (old : List Message) (m : Message) :
    Absorbs old (insertNew SerializedMessage._id old m) [m] := by
  constructor
  · intro m' hm'
    by_cases h : m._id ∈ old.map SerializedMessage._id
    · rw [insertNew_of_mem _ h] at hm'
      exact Or.inl hm'
    · rw [insertNew_of_not_mem _ h] at hm'
      exact List.mem_append.mp hm'
  · intro m' hm'
    have hid : m'._id ∈ (insertNew SerializedMessage._id old m).map SerializedMessage._id := by
      rw [map_key_insertNew, mem_insertNew]
      rcases hm' with hm' | hm'
      · exact Or.inl (List.mem_map_of_mem hm')
      · exact Or.inr (List.mem_singleton.mp hm' ▸ rfl)
    exact List.mem_map.mp hid

/-- Messages that their ids tell apart are absorbed as they are. -/
theorem Absorbs.mem_iff {S : ServerMessages} {old new incoming : List Message}
    (h : Absorbs old new incoming) (hold : ∀ m ∈ old, S.Sent m) (hin : ∀ m ∈ incoming, S.Sent m)
    (m : Message) : m ∈ new ↔ m ∈ old ∨ m ∈ incoming := by
  have hsent : ∀ m', m' ∈ old ∨ m' ∈ incoming → S.Sent m' := fun m' hm' =>
    hm'.elim (hold m') (hin m')
  constructor
  · exact h.mem m
  · intro hm
    obtain ⟨m', hm', hid⟩ := h.kept m hm
    exact S.distinct m' m (hsent m' (h.mem m' hm')) (hsent m hm) hid ▸ hm'

section Step

variable {S : ServerMessages} {s t : BrowserState} {e : BrowserEvent}

@[simp] theorem conversationStore_rerender :
    (s.rerender t).conversationStore = t.conversationStore := by
  unfold BrowserState.rerender
  split_ifs <;> rfl

@[simp] theorem authUser_rerender : (s.rerender t).authUser = t.authUser := by
  unfold BrowserState.rerender
  split_ifs <;> rfl

@[simp] theorem selectedConversation_rerender :
    (s.rerender t).selectedConversation = t.selectedConversation :=
  congrArg ConversationState.selectedConversation conversationStore_rerender

@[simp] theorem sends_rerender : (s.rerender t).sends = t.sends := by
  unfold BrowserState.rerender
  split_ifs <;> rfl

/-- The effect keeps the request, or makes one that has no answer. -/
theorem history_rerender :
    (s.rerender t).history = t.history ∨
      ∀ request, (s.rerender t).history = some request → request.response = none := by
  unfold BrowserState.rerender
  split_ifs
  · exact Or.inl rfl
  · refine Or.inr fun request h => ?_
    obtain ⟨_, -, rfl⟩ := Option.map_eq_some_iff.mp h
    rfl

theorem mounted_eq_some {u c : PublicUser} :
    s.mounted = some (u, c) ↔ s.authUser = some u ∧ s.selectedConversation = some c := by
  unfold BrowserState.mounted
  cases s.authUser <;> cases s.selectedConversation <;> simp

/-- The steps, one case for each way they can go. -/
inductive BrowserStep (dateParse : JsString → JsDate) (s : BrowserState) :
    BrowserEvent → BrowserState → Prop
  | setAuthUser (user : Option PublicUser) :
    BrowserStep dateParse s (.setAuthUser user) (s.rerender { s with authUser := user })
  | homeMounted : BrowserStep dateParse s .homeMounted (s.rerender
      { s with conversationStore := setSelectedConversation none s.conversationStore })
  | selectConversation (c : PublicUser) :
    BrowserStep dateParse s (.selectConversation c) (s.rerender
      { s with conversationStore := setSelectedConversation (some c) s.conversationStore })
  | retry : BrowserStep dateParse s .retry s.loadMessages
  | historyAnswered {request account messages} (h : s.history = some request) :
    BrowserStep dateParse s (.historyAnswered account messages)
      { s with history := some { request with response := some ⟨account, messages⟩ } }
  | historyLoaded {request response} (h : s.history = some request)
    (hresponse : request.response = some response) :
    BrowserStep dateParse s .historyLoaded
      { s with
        conversationStore :=
          mergeMessages dateParse request.conversationId response.data s.conversationStore
        history := none }
  | historyFailed : BrowserStep dateParse s .historyFailed { s with history := none, error := true }
  | sendMessage (u c : PublicUser) : BrowserStep dateParse s .sendMessage
      { s with sends := s.sends ++ [⟨c._id, u._id, none⟩] }
  | sendAnswered {i request account message} (h : s.sends[i]? = some request) :
    BrowserStep dateParse s (.sendAnswered i account message)
      { s with sends := s.sends.set i { request with response := some ⟨account, message⟩ } }
  | messageSent {i request response} (h : s.sends[i]? = some request)
    (hresponse : request.response = some response) :
    BrowserStep dateParse s (.messageSent i)
      { s with
        conversationStore := appendMessage request.conversationId response.data s.conversationStore
        sends := s.sends.eraseIdx i }
  | sendFailed (i : ℕ) :
    BrowserStep dateParse s (.sendFailed i) { s with sends := s.sends.eraseIdx i }
  | newMessage {message u c} (h : s.mounted = some (u, c)) :
    BrowserStep dateParse s (.newMessage message)
      { s with conversationStore := handleNewMessage message s.conversationStore }

theorem browserStep_cases (h : browserStep dateParse s e = some t) :
    BrowserStep dateParse s e t := by
  cases e with
  | setAuthUser user => exact Option.some.inj h ▸ .setAuthUser user
  | homeMounted =>
    simp only [browserStep, Option.ite_none_right_eq_some, Option.some.injEq] at h
    exact h.2 ▸ .homeMounted
  | selectConversation c =>
    simp only [browserStep, Option.ite_none_right_eq_some, Option.some.injEq] at h
    exact h.2 ▸ .selectConversation c
  | retry =>
    simp only [browserStep, Option.ite_none_right_eq_some, Option.some.injEq] at h
    exact h.2 ▸ .retry
  | historyAnswered account messages =>
    obtain ⟨request, hrequest, h⟩ := Option.bind_eq_some_iff.mp h
    simp only [Option.ite_none_right_eq_some, Option.some.injEq] at h
    exact h.2 ▸ .historyAnswered hrequest
  | historyLoaded =>
    obtain ⟨request, hrequest, h⟩ := Option.bind_eq_some_iff.mp h
    obtain ⟨response, hresponse, rfl⟩ := Option.map_eq_some_iff.mp h
    exact .historyLoaded hrequest hresponse
  | historyFailed =>
    obtain ⟨_, -, rfl⟩ := Option.map_eq_some_iff.mp h
    exact .historyFailed
  | sendMessage =>
    obtain ⟨⟨u, c⟩, -, rfl⟩ := Option.map_eq_some_iff.mp h
    exact .sendMessage u c
  | sendAnswered i account message =>
    obtain ⟨request, hrequest, h⟩ := Option.bind_eq_some_iff.mp h
    simp only [Option.ite_none_right_eq_some, Option.some.injEq] at h
    exact h.2 ▸ .sendAnswered hrequest
  | messageSent i =>
    obtain ⟨request, hrequest, h⟩ := Option.bind_eq_some_iff.mp h
    obtain ⟨response, hresponse, rfl⟩ := Option.map_eq_some_iff.mp h
    exact .messageSent hrequest hresponse
  | sendFailed i =>
    obtain ⟨_, -, rfl⟩ := Option.map_eq_some_iff.mp h
    exact .sendFailed i
  | newMessage message =>
    obtain ⟨⟨u, c⟩, hmounted, rfl⟩ := Option.map_eq_some_iff.mp h
    exact .newMessage hmounted

theorem stores_historyLoaded {request : BrowserRequest (List Message)}
    {response : BrowserResponse (List Message)} (h : s.history = some request)
    (hresponse : request.response = some response) : s.stores .historyLoaded =
      response.data.map fun m => ⟨response.account, request.conversationId, m⟩ := by
  obtain ⟨c, u, r⟩ := request
  obtain rfl : r = some response := hresponse
  simp [BrowserState.stores, h]

theorem stores_messageSent {i : ℕ} {request : BrowserRequest Message}
    {response : BrowserResponse Message} (h : s.sends[i]? = some request)
    (hresponse : request.response = some response) : s.stores (.messageSent i) =
      [⟨response.account, request.conversationId, response.data⟩] := by
  obtain ⟨c, u, r⟩ := request
  obtain rfl : r = some response := hresponse
  simp [BrowserState.stores, h]

/-- A message of the socket is stored for the conversation that is open, or not at all. -/
theorem stores_newMessage {message : Message} {u c : PublicUser} (h : s.mounted = some (u, c)) :
    s.stores (.newMessage message) =
      if message.senderId = c._id ∨ message.receiverId = c._id then [⟨u._id, c._id, message⟩]
      else [] := by
  simp only [BrowserState.stores, h]

/-- What a list holds after an append. -/
theorem mem_messagesOf_append {state : ConversationState} {d : JsString} {message : Message}
    (hold : ∀ c, ∀ m ∈ state.messagesOf c, S.Sent m) (hin : S.Sent message) (c : JsString)
    (m : Message) : m ∈ (appendMessage d message state).messagesOf c ↔
      m ∈ state.messagesOf c ∨ c = d ∧ m = message := by
  rw [messagesOf_appendMessage]
  by_cases hc : c = d
  · rw [if_pos hc, hc]
    have habs := (absorbs_insertNew (state.messagesOf d) message).mem_iff (S := S) (hold d)
      (by simpa using hin) m
    simpa using habs
  · rw [if_neg hc]
    simp [hc]

/-- **What the lists hold after an event**: what they held, and what the event stores. -/
theorem mem_messagesOf_step (h : browserStep dateParse s e = some t)
    (hold : ∀ c, ∀ m ∈ s.messagesOf c, S.Sent m) (hin : ∀ d ∈ s.stores e, S.Sent d.message)
    (c : JsString) (m : Message) :
    m ∈ t.messagesOf c ↔
      m ∈ s.messagesOf c ∨ ∃ d ∈ s.stores e, d.conversationId = c ∧ d.message = m := by
  have hsame : t.messagesOf c = s.messagesOf c → s.stores e = [] →
      (m ∈ t.messagesOf c ↔
        m ∈ s.messagesOf c ∨ ∃ d ∈ s.stores e, d.conversationId = c ∧ d.message = m) := by
    intro hc hd
    simp [hc, hd]
  cases browserStep_cases h with
  | setAuthUser user => exact hsame (by simp [BrowserState.messagesOf]) rfl
  | homeMounted =>
    refine hsame ?_ rfl
    simp only [BrowserState.messagesOf, conversationStore_rerender]
    rfl
  | selectConversation d =>
    refine hsame ?_ rfl
    simp only [BrowserState.messagesOf, conversationStore_rerender]
    rfl
  | historyLoaded hrequest hresponse =>
    rename_i request response
    rw [stores_historyLoaded hrequest hresponse] at hin ⊢
    show m ∈ (mergeMessages dateParse request.conversationId response.data
      s.conversationStore).messagesOf c ↔ m ∈ s.conversationStore.messagesOf c ∨ _
    rw [messagesOf_mergeMessages]
    by_cases hc : c = request.conversationId
    · rw [if_pos hc, hc]
      have hsent : ∀ m ∈ response.data, S.Sent m := fun m hm =>
        hin _ (List.mem_map_of_mem hm)
      have habs : Absorbs (s.conversationStore.messagesOf request.conversationId)
          (mergeUniqueMessages dateParse (s.conversationStore.messagesOf request.conversationId)
            response.data) response.data :=
        absorbs_mergeUniqueMessages _ _
      simpa using habs.mem_iff (S := S) (hold _) hsent m
    · rw [if_neg hc]
      simp [Ne.symm hc]
  | messageSent hrequest hresponse =>
    rename_i i request response
    rw [stores_messageSent hrequest hresponse] at hin ⊢
    have hmem := mem_messagesOf_append (S := S) (d := request.conversationId) hold
      (hin _ (List.mem_singleton_self _)) c m
    refine hmem.trans (or_congr_right ?_)
    simp [eq_comm]
  | newMessage hmounted =>
    rename_i message u selected
    rw [stores_newMessage hmounted] at hin ⊢
    have hselected : s.conversationStore.selectedConversation = some selected :=
      (mounted_eq_some.mp hmounted).2
    show m ∈ (handleNewMessage message s.conversationStore).messagesOf c ↔ _
    rcases handleNewMessage_cases message s.conversationStore with
      ⟨d, hsel, hfor, hstep⟩ | ⟨hnot, hstep⟩
    · -- a message of the selected conversation is appended to its list
      obtain rfl := Option.some.inj (hselected.symm.trans hsel)
      rw [if_pos hfor] at hin ⊢
      rw [hstep]
      have hmem := mem_messagesOf_append (S := S) (d := selected._id) hold
        (hin _ (List.mem_singleton_self _)) c m
      refine hmem.trans (or_congr_right ?_)
      simp [eq_comm]
    · rw [if_neg (hnot selected hselected), hstep]
      simp [BrowserState.messagesOf]
  | retry => exact hsame rfl rfl
  | historyAnswered => exact hsame rfl rfl
  | historyFailed => exact hsame rfl rfl
  | sendMessage => exact hsame rfl rfl
  | sendAnswered => exact hsame rfl rfl
  | sendFailed => exact hsame rfl rfl

/-- Who is signed in, and what is selected, after an event. -/
theorem browserStep_fields (h : browserStep dateParse s e = some t) :
    (∃ user, e = .setAuthUser user ∧ t.authUser = user ∧
        t.selectedConversation = s.selectedConversation) ∨
    (e = .homeMounted ∧ t.authUser = s.authUser ∧ t.selectedConversation = none) ∨
    (∃ c, e = .selectConversation c ∧ t.authUser = s.authUser ∧
        t.selectedConversation = some c) ∨
    (t.authUser = s.authUser ∧ t.selectedConversation = s.selectedConversation) := by
  have hsame : t.authUser = s.authUser ∧ t.selectedConversation = s.selectedConversation →
      (∃ user, e = .setAuthUser user ∧ t.authUser = user ∧
          t.selectedConversation = s.selectedConversation) ∨
      (e = .homeMounted ∧ t.authUser = s.authUser ∧ t.selectedConversation = none) ∨
      (∃ c, e = .selectConversation c ∧ t.authUser = s.authUser ∧
          t.selectedConversation = some c) ∨
      (t.authUser = s.authUser ∧ t.selectedConversation = s.selectedConversation) :=
    fun h => Or.inr (Or.inr (Or.inr h))
  cases browserStep_cases h with
  | setAuthUser user =>
    exact Or.inl ⟨user, rfl, authUser_rerender, selectedConversation_rerender⟩
  | homeMounted =>
    exact Or.inr (Or.inl ⟨rfl, authUser_rerender, selectedConversation_rerender⟩)
  | selectConversation c =>
    exact Or.inr (Or.inr (Or.inl ⟨c, rfl, authUser_rerender, selectedConversation_rerender⟩))
  | messageSent => exact hsame ⟨rfl, selectedConversation_appendMessage _ _ _⟩
  | newMessage =>
    rename_i message u c _
    refine hsame ⟨rfl, ?_⟩
    show (handleNewMessage message s.conversationStore).selectedConversation = _
    rcases handleNewMessage_cases message s.conversationStore with
      ⟨d, -, -, hstep⟩ | ⟨-, hstep⟩
    · rw [hstep]
      exact selectedConversation_appendMessage d._id message _
    · rw [hstep]
      rfl
  | historyLoaded => exact hsame ⟨rfl, rfl⟩
  | retry => exact hsame ⟨rfl, rfl⟩
  | historyAnswered => exact hsame ⟨rfl, rfl⟩
  | historyFailed => exact hsame ⟨rfl, rfl⟩
  | sendMessage => exact hsame ⟨rfl, rfl⟩
  | sendAnswered => exact hsame ⟨rfl, rfl⟩
  | sendFailed => exact hsame ⟨rfl, rfl⟩

/-- An event that stores something changes neither who is signed in nor what is selected. -/
theorem fields_of_stores (h : browserStep dateParse s e = some t) {d : StoredMessage}
    (hd : d ∈ s.stores e) :
    t.authUser = s.authUser ∧ t.selectedConversation = s.selectedConversation := by
  rcases browserStep_fields h with
    ⟨user, rfl, -⟩ | ⟨rfl, -⟩ | ⟨c, rfl, -⟩ | hfields
  · cases hd
  · cases hd
  · cases hd
  · exact hfields

end Step

/-! ## The answers on their way -/

/-- The messages of an answer are between its account and the conversation of its request. -/
def OwnAnswer (S : ServerMessages) {α : Type} (messages : α → List Message)
    (request : BrowserRequest α) : Prop :=
  ∀ response, request.response = some response → ∀ m ∈ messages response.data,
    S.Sent m ∧ Between response.account request.conversationId m

/-- Every answer on its way is one of its own account. -/
structure OwnAnswers (S : ServerMessages) (s : BrowserState) : Prop where
  history : ∀ request, s.history = some request → OwnAnswer S id request
  sends : ∀ request ∈ s.sends, OwnAnswer S (fun m => [m]) request

theorem ownAnswer_of_response_eq_none {S : ServerMessages} {α : Type}
    {messages : α → List Message} {request : BrowserRequest α} (h : request.response = none) :
    OwnAnswer S messages request :=
  fun _ hresponse => absurd (h.symm.trans hresponse) (Option.some_ne_none _).symm

/-- **An honest event** leaves the answers on their way to their own accounts. -/
theorem OwnAnswers.step {S : ServerMessages} {v : Visit} {t : BrowserState} {e : BrowserEvent}
    (hO : OwnAnswers S v.page) (hh : Honest S v e)
    (h : browserStep dateParse v.page e = some t) : OwnAnswers S t := by
  have hrerender : ∀ t : BrowserState, t.history = v.page.history → t.sends = v.page.sends →
      OwnAnswers S (v.page.rerender t) := by
    intro t hhistory hsends
    constructor
    · intro request hrequest
      rcases history_rerender (s := v.page) (t := t) with hsame | hnew
      · exact hO.history request (hhistory ▸ hsame ▸ hrequest)
      · exact ownAnswer_of_response_eq_none (hnew request hrequest)
    · intro request hrequest
      rw [sends_rerender, hsends] at hrequest
      exact hO.sends request hrequest
  cases browserStep_cases h with
  | setAuthUser user => exact hrerender _ rfl rfl
  | homeMounted => exact hrerender _ rfl rfl
  | selectConversation c => exact hrerender _ rfl rfl
  | retry =>
    refine ⟨fun request hrequest => ?_, hO.sends⟩
    obtain ⟨_, -, rfl⟩ := Option.map_eq_some_iff.mp hrequest
    exact ownAnswer_of_response_eq_none rfl
  | historyAnswered hrequest =>
    refine ⟨fun request' hrequest' => ?_, hO.sends⟩
    obtain rfl := Option.some.inj hrequest'
    intro response hresponse m hm
    obtain rfl := Option.some.inj hresponse
    exact (hh _ hrequest).2 m hm
  | historyLoaded => exact ⟨fun _ h => absurd h.symm (Option.some_ne_none _), hO.sends⟩
  | historyFailed => exact ⟨fun _ h => absurd h.symm (Option.some_ne_none _), hO.sends⟩
  | sendMessage u c =>
    refine ⟨hO.history, fun request hrequest => ?_⟩
    rcases List.mem_append.mp hrequest with hrequest | hrequest
    · exact hO.sends request hrequest
    · obtain rfl := List.mem_singleton.mp hrequest
      exact ownAnswer_of_response_eq_none rfl
  | sendAnswered hrequest =>
    refine ⟨hO.history, fun request' hrequest' => ?_⟩
    rcases List.mem_or_eq_of_mem_set hrequest' with hold | rfl
    · exact hO.sends request' hold
    · intro response hresponse m hm
      obtain rfl := Option.some.inj hresponse
      obtain rfl := List.mem_singleton.mp hm
      obtain ⟨-, hsent, hs, hr⟩ := hh _ hrequest
      exact ⟨hsent, Or.inl ⟨hs, hr⟩⟩
  | messageSent => exact ⟨hO.history, fun _ hr => hO.sends _ (List.mem_of_mem_eraseIdx hr)⟩
  | sendFailed => exact ⟨hO.history, fun _ hr => hO.sends _ (List.mem_of_mem_eraseIdx hr)⟩
  | newMessage => exact ⟨hO.history, hO.sends⟩

/-! ## The invariant -/

/-- Every message is stored for an account of its own, every answer on its way is of its account,
and no account has open what was stored for another. -/
structure Isolated (S : ServerMessages) (v : Visit) : Prop where
  sent : ∀ c, ∀ m ∈ v.page.messagesOf c, S.Sent m
  answers : OwnAnswers S v.page
  owner : ∀ c, ∀ m ∈ v.page.messagesOf c, ∃ a, (a, c) ∈ v.storedBy ∧ Between a c m
  stored : ∀ a c, (a, c) ∈ v.storedBy → ∃ m ∈ v.page.messagesOf c, Between a c m
  open_own : ∀ u c, v.page.authUser = some u → v.page.selectedConversation = some c → v.OnlyBy u c

section Isolation

variable {S : ServerMessages} {v w : Visit} {e : BrowserEvent}

/-- The event comes from the socket to a user who has selected their own entry. -/
def Visit.ToOwnEntry (v : Visit) (e : BrowserEvent) : Prop :=
  ∃ message u c, e = .newMessage message ∧ v.page.mounted = some (u, c) ∧ c._id = u._id

theorem not_toOwnEntry (hex : Exclusive v e) : ¬ v.ToOwnEntry e := by
  rintro ⟨message, u, c, rfl, hmounted, hself⟩
  exact hex u c hmounted hself

/-- What an honest event stores is of the server, and of its account and conversation unless the
user has selected their own entry. -/
theorem OwnAnswers.of_stores (hO : OwnAnswers S v.page) (hh : Honest S v e) {d : StoredMessage}
    (hd : d ∈ v.page.stores e) : S.Sent d.message ∧
      (¬ v.ToOwnEntry e → Between d.account d.conversationId d.message) := by
  cases e with
  | historyLoaded =>
    simp only [BrowserState.stores] at hd
    split at hd
    · rename_i c u response hrequest
      obtain ⟨m, hm, rfl⟩ := List.mem_map.mp hd
      obtain ⟨hsent, hb⟩ := hO.history _ hrequest response rfl m hm
      exact ⟨hsent, fun _ => hb⟩
    · cases hd
  | messageSent i =>
    simp only [BrowserState.stores] at hd
    split at hd
    · rename_i c u response hrequest
      obtain rfl := List.mem_singleton.mp hd
      obtain ⟨hsent, hb⟩ := hO.sends _ (List.mem_of_getElem? hrequest) response rfl _
        (List.mem_singleton_self _)
      exact ⟨hsent, fun _ => hb⟩
    · cases hd
  | newMessage message =>
    obtain ⟨u', hu', hsent, hparty⟩ := hh
    simp only [BrowserState.stores] at hd
    split at hd
    · rename_i u c hmounted
      split_ifs at hd with hfor
      · obtain rfl := List.mem_singleton.mp hd
        refine ⟨hsent, fun hown => ?_⟩
        obtain rfl := Option.some.inj ((mounted_eq_some.mp hmounted).1.symm.trans hu')
        -- the contact is another user, so user and contact are the two parties
        have hne : c._id ≠ u._id := fun hself => hown ⟨message, u, c, rfl, hmounted, hself⟩
        rcases hparty with hs | hr <;> rcases hfor with hs' | hr'
        · exact absurd (hs'.symm.trans hs) hne
        · exact Or.inl ⟨hs, hr'⟩
        · exact Or.inr ⟨hs', hr⟩
        · exact absurd (hr'.symm.trans hr) hne
      · cases hd
    · cases hd
  | setAuthUser | homeMounted | selectConversation | retry | historyAnswered | historyFailed
  | sendMessage | sendAnswered | sendFailed => cases hd

theorem mem_newlyStored {s : BrowserState} {a c : JsString} :
    (a, c) ∈ newlyStored s e ↔ ∃ d ∈ s.stores e, d.account = a ∧ d.conversationId = c := by
  simp [newlyStored]

/-- A step of the system is a step of the page. -/
theorem browserSystem_step (h : (browserSystem dateParse).step v e = some w) :
    browserStep dateParse v.page e = some w.page ∧
      w.storedBy = newlyStored v.page e ++ v.storedBy := by
  obtain ⟨page, hpage, rfl⟩ := Option.map_eq_some_iff.mp h
  exact ⟨hpage, rfl⟩

/-- What the lists hold after an honest event. -/
theorem Isolated.mem_step (hI : Isolated S v) (hh : Honest S v e)
    (h : (browserSystem dateParse).step v e = some w) (c : JsString) (m : Message) :
    m ∈ w.page.messagesOf c ↔ m ∈ v.page.messagesOf c ∨
      ∃ d ∈ v.page.stores e, d.conversationId = c ∧ d.message = m :=
  mem_messagesOf_step (browserSystem_step h).1 hI.sent
    (fun _ hd => (hI.answers.of_stores hh hd).1) c m

/-- What an exclusive event stores for the conversation that is open is of the user. -/
theorem account_of_stores (hex : Exclusive v e) {u c : PublicUser}
    (hu : v.page.authUser = some u) (hc : v.page.selectedConversation = some c)
    {d : StoredMessage} (hd : d ∈ v.page.stores e) (hid : d.conversationId = c._id) :
    d.account = u._id := by
  have hmounted := mounted_eq_some.mpr ⟨hu, hc⟩
  cases e with
  | historyLoaded => exact hex u c hmounted d hd hid
  | messageSent i => exact hex u c hmounted d hd hid
  | newMessage message =>
    rw [stores_newMessage hmounted] at hd
    split_ifs at hd
    · rw [List.mem_singleton.mp hd]
    · cases hd
  | setAuthUser | homeMounted | selectConversation | retry | historyAnswered | historyFailed
  | sendMessage | sendAnswered | sendFailed => cases hd

/-- **An honest and exclusive event** keeps the accounts apart. -/
theorem Isolated.step (hI : Isolated S v) (hh : Honest S v e) (hex : Exclusive v e)
    (h : (browserSystem dateParse).step v e = some w) : Isolated S w := by
  have hmem := hI.mem_step hh h
  obtain ⟨hpage, hstored⟩ := browserSystem_step h
  constructor
  · intro c m hm
    rcases (hmem c m).mp hm with hm | ⟨d, hd, -, rfl⟩
    · exact hI.sent c m hm
    · exact (hI.answers.of_stores hh hd).1
  · exact hI.answers.step hh hpage
  · intro c m hm
    rw [hstored]
    rcases (hmem c m).mp hm with hm | ⟨d, hd, rfl, rfl⟩
    · obtain ⟨a, ha, hb⟩ := hI.owner c m hm
      exact ⟨a, List.mem_append_right _ ha, hb⟩
    · have hnew := mem_newlyStored.mpr ⟨d, hd, rfl, rfl⟩
      exact ⟨d.account, List.mem_append_left _ hnew,
        (hI.answers.of_stores hh hd).2 (not_toOwnEntry hex)⟩
  · intro a c hac
    rw [hstored, List.mem_append] at hac
    rcases hac with hac | hac
    · obtain ⟨d, hd, rfl, rfl⟩ := mem_newlyStored.mp hac
      exact ⟨d.message, (hmem _ _).mpr (Or.inr ⟨d, hd, rfl, rfl⟩),
        (hI.answers.of_stores hh hd).2 (not_toOwnEntry hex)⟩
    · obtain ⟨m, hm, hb⟩ := hI.stored a c hac
      exact ⟨m, (hmem c m).mpr (Or.inl hm), hb⟩
  · intro u c hu hc a hac
    rw [hstored, List.mem_append] at hac
    rcases browserStep_fields hpage with
      ⟨user, rfl, hauth, hsel⟩ | ⟨rfl, -, hsel⟩ | ⟨d, rfl, hauth, hsel⟩ | ⟨hauth, hsel⟩
    · -- a login finds the contact selected by whoever was signed in before
      have hac' := hac.resolve_left List.not_mem_nil
      obtain rfl : user = some u := hauth.symm.trans hu
      exact hex c (hsel.symm.trans hc) a hac'
    · exact absurd (hsel.symm.trans hc) (Option.some_ne_none _).symm
    · have hac' := hac.resolve_left List.not_mem_nil
      obtain rfl : d = c := Option.some.inj (hsel.symm.trans hc)
      exact hex u (hauth.symm.trans hu) a hac'
    · rw [hauth] at hu
      rw [hsel] at hc
      rcases hac with hac | hac
      · obtain ⟨d, hd, rfl, hid⟩ := mem_newlyStored.mp hac
        exact account_of_stores hex hu hc hd hid
      · exact hI.open_own u c hu hc a hac

theorem Isolated.noLeak (hI : Isolated S v) : v.NoLeak := by
  intro u c hu hc
  refine (noLeak_iff hu hc).mpr ?_ u c hu hc
  intro m hm
  obtain ⟨a, ha, hb⟩ := hI.owner _ m hm
  exact hI.open_own u c hu hc a ha ▸ hb

/-- What another account stored is shown. -/
theorem Isolated.leaks (hI : Isolated S v) (hh : Honest S v e)
    (h : (browserSystem dateParse).step v e = some w) {u c : PublicUser}
    (hu : w.page.authUser = some u) (hc : w.page.selectedConversation = some c)
    (hno : ¬ v.OnlyBy u c) : ¬ w.NoLeak := by
  simp only [Visit.OnlyBy, not_forall] at hno
  obtain ⟨a, ha, hne⟩ := hno
  obtain ⟨m, hm, hb⟩ := hI.stored a c._id ha
  intro hnl
  have hshown := (noLeak_iff hu hc).mp hnl m ((hI.mem_step hh h _ _).mpr (Or.inl hm))
  exact hne (hb.left_eq hshown)

/-- What an event stores for the conversation that is open is shown. -/
theorem Isolated.between_of_stores (hI : Isolated S v) (hh : Honest S v e)
    (h : (browserSystem dateParse).step v e = some w) {u c : PublicUser}
    (hmounted : v.page.mounted = some (u, c)) {d : StoredMessage} (hd : d ∈ v.page.stores e)
    (hid : d.conversationId = c._id) (hnl : w.NoLeak) : Between u._id c._id d.message := by
  obtain ⟨huser, hselected⟩ := mounted_eq_some.mp hmounted
  obtain ⟨hu, hc⟩ := fields_of_stores (browserSystem_step h).1 hd
  have hm : d.message ∈ w.page.messagesOf c._id :=
    (hI.mem_step hh h _ _).mpr (Or.inr ⟨d, hd, hid, rfl⟩)
  exact (noLeak_iff (hu.trans huser) (hc.trans hselected)).mp hnl d.message hm

/-- An answer to another account is shown when it arrives for the conversation that is open. -/
theorem Isolated.leaks_of_arrival (hI : Isolated S v) (hh : Honest S v e)
    (hown : ¬ v.ToOwnEntry e) (h : (browserSystem dateParse).step v e = some w)
    (hno : ¬ v.ArrivesForUser e) : ¬ w.NoLeak := by
  simp only [Visit.ArrivesForUser, not_forall] at hno
  obtain ⟨u, c, hmounted, d, hd, hid, hne⟩ := hno
  have hb : Between d.account c._id d.message := hid ▸ (hI.answers.of_stores hh hd).2 hown
  intro hnl
  exact hne (hb.left_eq (hI.between_of_stores hh h hmounted hd hid hnl))

/-- **The first event that is not exclusive leaks.** -/
theorem Isolated.leak_of_not_exclusive (hI : Isolated S v) (hh : Honest S v e)
    (hex : ¬ Exclusive v e) (h : (browserSystem dateParse).step v e = some w) : ¬ w.NoLeak := by
  obtain ⟨hpage, -⟩ := browserSystem_step h
  cases e with
  | setAuthUser user =>
    cases user with
    | none => exact absurd trivial hex
    | some u =>
      simp only [Exclusive, not_forall] at hex
      obtain ⟨c, hc, hno⟩ := hex
      have hw : v.page.rerender { v.page with authUser := some u } = w.page :=
        Option.some.inj hpage
      refine hI.leaks hh h (u := u) (c := c) ?_ ?_ hno
      · rw [← hw, authUser_rerender]
      · rw [← hw, selectedConversation_rerender]
        exact hc
  | selectConversation c =>
    simp only [Exclusive, not_forall] at hex
    obtain ⟨u, hu, hno⟩ := hex
    simp only [browserStep, Option.ite_none_right_eq_some, Option.some.injEq] at hpage
    obtain ⟨-, hw⟩ := hpage
    refine hI.leaks hh h (u := u) (c := c) ?_ ?_ hno
    · rw [← hw, authUser_rerender]
      exact hu
    · rw [← hw, selectedConversation_rerender]
      rfl
  | historyLoaded =>
    refine hI.leaks_of_arrival hh ?_ h hex
    rintro ⟨_, _, _, he, -⟩
    cases he
  | messageSent i =>
    refine hI.leaks_of_arrival hh ?_ h hex
    rintro ⟨_, _, _, he, -⟩
    cases he
  | newMessage m =>
    simp only [Exclusive, not_forall, not_not] at hex
    obtain ⟨u, c, hmounted, hself⟩ := hex
    have hanswer := hh
    obtain ⟨u', hu', hsent, hparty⟩ := hanswer
    obtain rfl := Option.some.inj ((mounted_eq_some.mp hmounted).1.symm.trans hu')
    have hd : ⟨u._id, c._id, m⟩ ∈ v.page.stores (.newMessage m) := by
      rw [stores_newMessage hmounted, hself, if_pos hparty]
      exact List.mem_singleton_self _
    intro hnl
    -- the two parties of a message are never one user
    have hb := hI.between_of_stores hh h hmounted hd rfl hnl
    rw [hself] at hb
    rcases hb with ⟨hs, hr⟩ | ⟨hs, hr⟩
    · exact S.others m hsent (hs.trans hr.symm)
    · exact S.others m hsent (hs.trans hr.symm)
  | homeMounted | retry | historyAnswered | historyFailed | sendMessage | sendAnswered
  | sendFailed => exact absurd trivial hex

theorem isolated_of_reachable
    (h : (browserSystem dateParse).Reachable (fun v e => Honest S v e ∧ Exclusive v e) v) :
    Isolated S v := by
  refine h.invariant ?_ fun v e w hI hg hstep => hI.step hg.1 hg.2 hstep
  rintro _ rfl
  constructor
  · intro c m hm
    cases hm
  · constructor
    · intro request hrequest
      cases hrequest
    · intro request hrequest
      cases hrequest
  · intro c m hm
    cases hm
  · intro a c hac
    cases hac
  · intro u c hu
    cases hu

end Isolation

/-- **Accounts are isolated exactly while their steps are exclusive**: in every run of logins,
logouts, selections, loads, sends and deliveries in which no account opens what was stored for
another, and no answer to another account arrives for the open conversation, what is shown is
between the user and the selected contact; and the first step that is not exclusive shows
something else. -/
theorem accounts_isolated_iff (dateParse : JsString → JsDate) (S : ServerMessages) :
    (∀ v, (browserSystem dateParse).Reachable (fun v e => Honest S v e ∧ Exclusive v e) v →
      v.NoLeak) ∧
    ∀ v e w, (browserSystem dateParse).Reachable (fun v e => Honest S v e ∧ Exclusive v e) v →
      Honest S v e → (browserSystem dateParse).step v e = some w → ¬ Exclusive v e →
        ¬ w.NoLeak :=
  ⟨fun _ h => (isolated_of_reachable h).noLeak, fun _ _ _ h hh hstep hex =>
    (isolated_of_reachable h).leak_of_not_exclusive hh hex hstep⟩

/-! ## Two accounts and one contact -/

def alice : PublicUser := ⟨js "a", js "Alice", js "alice@example.com"⟩

def bob : PublicUser := ⟨js "b", js "Bob", js "bob@example.com"⟩

def carol : PublicUser := ⟨js "c", js "Carol", js "carol@example.com"⟩

def aliceToCarol : Message :=
  ⟨js "1", js "a", js "c", js "hi", js "2026-01-01T00:00:00.000Z", js "2026-01-01T00:00:00.000Z"⟩

/-- A server with one message. -/
def oneMessage : ServerMessages where
  Sent m := m = aliceToCarol
  distinct := by
    rintro _ _ rfl rfl _
    rfl
  others := by
    rintro _ rfl
    decide

/-- Alice has written to Carol; the server has answered, and the answer is on its way. -/
def answeredAlice : Visit where
  page :=
    { authUser := some alice
      conversationStore := setSelectedConversation (some carol) .initial
      history := some ⟨carol._id, alice._id, none⟩
      error := false
      sends := [⟨carol._id, alice._id, some ⟨alice._id, aliceToCarol⟩⟩] }
  storedBy := []

/-- The answer has arrived, and Alice signs out. -/
def leftByAlice : Visit where
  page :=
    { authUser := none
      conversationStore := appendMessage carol._id aliceToCarol
        (setSelectedConversation (some carol) .initial)
      history := none
      error := false
      sends := [] }
  storedBy := [(alice._id, carol._id)]

/-- Alice signs out before the answer arrives, Bob signs in, and opens Carol. -/
def bobWithCarol : Visit where
  page :=
    { authUser := some bob
      conversationStore := setSelectedConversation (some carol) .initial
      history := some ⟨carol._id, bob._id, none⟩
      error := false
      sends := [⟨carol._id, alice._id, some ⟨alice._id, aliceToCarol⟩⟩] }
  storedBy := []

theorem reachable_answeredAlice :
    (browserSystem parseISOString).Reachable
      (fun v e => Honest oneMessage v e ∧ Exclusive v e) answeredAlice := by
  have h₁ := TransitionSystem.Reachable.init (S := browserSystem parseISOString)
    (G := fun v e => Honest oneMessage v e ∧ Exclusive v e) rfl
  have h₂ := h₁.step (a := BrowserEvent.setAuthUser (some alice))
    ⟨trivial, fun c hc => by cases hc⟩ rfl
  have h₃ := h₂.step (a := BrowserEvent.selectConversation carol)
    ⟨trivial, fun u _ a ha => by cases ha⟩ rfl
  have h₄ := h₃.step (a := BrowserEvent.sendMessage) ⟨trivial, trivial⟩ rfl
  refine h₄.step (a := BrowserEvent.sendAnswered 0 alice._id aliceToCarol) ⟨?_, trivial⟩ rfl
  intro request hrequest
  obtain rfl := Option.some.inj hrequest
  exact ⟨Or.inl rfl, rfl, rfl, rfl⟩

theorem reachable_leftByAlice :
    (browserSystem parseISOString).Reachable
      (fun v e => Honest oneMessage v e ∧ Exclusive v e) leftByAlice := by
  have h := reachable_answeredAlice.step (a := BrowserEvent.messageSent 0)
    ⟨trivial, fun u c hmounted d hd _ => ?_⟩ rfl
  · exact h.step (a := BrowserEvent.setAuthUser none) ⟨trivial, trivial⟩ rfl
  · obtain ⟨hu, -⟩ := mounted_eq_some.mp hmounted
    obtain rfl := Option.some.inj hu
    obtain rfl := List.mem_singleton.mp hd
    rfl

theorem reachable_bobWithCarol :
    (browserSystem parseISOString).Reachable
      (fun v e => Honest oneMessage v e ∧ Exclusive v e) bobWithCarol := by
  have h₁ := reachable_answeredAlice.step (a := BrowserEvent.setAuthUser none)
    ⟨trivial, trivial⟩ rfl
  have h₂ := h₁.step (a := BrowserEvent.setAuthUser (some bob))
    ⟨trivial, fun _ _ a ha => by cases ha⟩ rfl
  have h₃ := h₂.step (a := BrowserEvent.homeMounted) ⟨trivial, trivial⟩ rfl
  exact h₃.step (a := BrowserEvent.selectConversation carol)
    ⟨trivial, fun u _ a ha => by cases ha⟩ rfl

/-- No leak up to the logout; the next account finds the contact open. No leak either while the
answer is on its way; it arrives while the next account has the contact open. -/
theorem accounts_isolated_iff_sample :
    (leftByAlice.NoLeak ∧ ∃ w, (browserSystem parseISOString).step leftByAlice
      (.setAuthUser (some bob)) = some w ∧ ¬ w.NoLeak) ∧
    bobWithCarol.NoLeak ∧ ∃ w, (browserSystem parseISOString).step bobWithCarol
      (.messageSent 0) = some w ∧ ¬ w.NoLeak := by
  have h := accounts_isolated_iff parseISOString oneMessage
  refine ⟨⟨h.1 _ reachable_leftByAlice, _, rfl, ?_⟩, h.1 _ reachable_bobWithCarol, _, rfl, ?_⟩
  · refine h.2 leftByAlice (.setAuthUser (some bob)) _ reachable_leftByAlice trivial rfl ?_
    intro hex
    have hbob := hex carol rfl (js "a") (List.mem_singleton_self _)
    revert hbob
    decide
  · refine h.2 bobWithCarol (.messageSent 0) _ reachable_bobWithCarol trivial rfl ?_
    intro hex
    have hbob := hex bob carol rfl _ (List.mem_singleton_self _) rfl
    revert hbob
    decide

/-- Alice writes to Carol and signs out; Bob signs in on the same page and opens Carol: he sees
Alice's message. -/
theorem accounts_not_isolated :
    ∃ S v, (browserSystem parseISOString).Reachable (Honest S) v ∧ ¬ v.NoLeak := by
  have h₁ : (browserSystem parseISOString).Reachable (Honest oneMessage) leftByAlice :=
    reachable_leftByAlice.mono fun _ _ h => h.1
  have h₂ := h₁.step (a := BrowserEvent.setAuthUser (some bob)) trivial rfl
  have h₃ := h₂.step (a := BrowserEvent.homeMounted) trivial rfl
  have h₄ := h₃.step (a := BrowserEvent.selectConversation carol) trivial rfl
  refine ⟨oneMessage, _, h₄, fun hno => ?_⟩
  have hbetween := (noLeak_iff (u := bob) (c := carol) rfl rfl).mp hno aliceToCarol
    (List.mem_singleton_self _)
  rcases hbetween with ⟨hs, -⟩ | ⟨hs, -⟩
  · revert hs
    decide
  · revert hs
    decide

end MernChat
