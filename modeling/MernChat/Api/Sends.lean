import MernChat.Api.Security

/-!
# A message for each answer

A request to send a message is answered with the message exactly when its call has returned it, and
then the message was stored under a new id and emitted once. What was emitted, and what was
answered, are the same messages.

## Main definitions

* `Flight.message`: the message a request was answered with
* `EventOf`: an event of a call of the request
* `Silent`, `Emits`: what a step emits

## Main results

* `silent_or_emits`: every step of a request
* `sends_match_events`: the answers and the events of every run
-/

namespace MernChat.Api

open Library

/-! ## What a step emits -/

def HttpResponse.message (response : HttpResponse) : Option SerializedMessage :=
  match response.body with
  | .message data => some data
  | _ => none

/-- The message the request was answered with. -/
def Flight.message (f : Flight) : Option SerializedMessage :=
  match f.phase with
  | .answered response => response.message
  | _ => none

/-- The event is of a call of the process. -/
def EventOf (s : ApiState) (n : ℕ) (e : RoomEvent) : Prop :=
  ∃ x, s.authorships[e.call]? = some x ∧ x.process = n

/-- Nothing was emitted, and no message was answered. -/
structure Silent (s : ApiState) (x : Flight × ApiState) : Prop where
  emitted : x.2.emitted = s.emitted
  message : x.1.message = none

/-- The message of a call was emitted, and answered; it is new. -/
structure Emits (n : ℕ) (r : HttpRequest) (B : Backend) (s : ApiState) (x : Flight × ApiState) :
    Prop where
  event : ∃ (k : ℕ) (id : JsString) (m : SerializedMessage),
    EventOf s n ⟨k, getUserRoomName id, m⟩ ∧
      x.2.emitted = s.emitted ++ [⟨k, getUserRoomName id, m⟩] ∧ x.1.message = some m ∧
        layers B.config B.urlOrigin r = .endpoint (.sendMessage id) ∧
          ∃ row ∈ x.2.chat.db.messages, s.chat.db.hasMessage row.id = false ∧
            serializeMessage (mapMessage row) id = some m

section Steps

variable {B : Backend} {s t : ApiState} {n : ℕ} {r : HttpRequest} {drawn : Uuid}
  {requestId : JsString} {res : PendingResponse} {action : ApiAction} {phase : Phase}
  {x : Flight × ApiState} {endpoint : Endpoint}

theorem silent_authenticate {a : AuthAction} (h : s.authenticate B a = some t) {f : Flight}
    (hf : f.message = none) : Silent s (f, t) := by
  obtain ⟨auth, -, rfl⟩ := Option.map_eq_some_iff.mp h
  exact ⟨rfl, hf⟩

theorem message_answer {statusCode : ℕ} {body : ResponseBody} (h : body.isPlain = true) :
    (answer res statusCode body).message = none := by
  cases body with
  | error | message | page => cases h
  | _ => rfl

/-- **A call that returns** emits its message, and nothing else does. -/
theorem HandlerStep.silent_or_emits
    (h : HandlerStep B n r requestId drawn endpoint res s phase action x) (hc : Coherent B s)
    (hk : KnownRequest B n r s phase)
    (hlayers : layers B.config B.urlOrigin r = .endpoint endpoint) :
    Silent s x ∨ Emits n r B s x := by
  cases h with
  | refused | limited | emailFree | listing | begun | proceeded | threw | otherUser
  | chatUserFound | conversationFound | pageRead => exact Or.inl ⟨rfl, rfl⟩
  | answered _ _ _ hplain => exact Or.inl ⟨rfl, message_answer hplain⟩
  | admitted _ hroute =>
    rcases hroute with ⟨-, rfl⟩ | ⟨-, rfl⟩
    · exact Or.inl ⟨rfl, rfl⟩
    · exact Or.inl ⟨rfl, rfl⟩
  | registered => exact Or.inl ⟨rfl, rfl⟩
  | sessionCreated _ _ _ ht =>
    obtain ⟨auth, -, rfl⟩ := Option.map_eq_some_iff.mp ht
    exact Or.inl ⟨rfl, rfl⟩
  | loggedIn _ _ ht | tokenIssued _ _ ht | sessionFound _ _ ht | tokenReissued _ ht
  | userGone _ _ ht | presented _ _ _ ht | attached _ _ _ ht | leaving _ ht =>
    exact Or.inl (silent_authenticate ht rfl)
  | refusedAfter _ _ _ _ _ _ ht => exact Or.inl (silent_authenticate ht rfl)
  | answeredAfter _ _ _ _ _ ht _ _ hplain =>
    exact Or.inl (silent_authenticate ht (message_answer hplain))
  | @returned id user k call _ _ message hroute hproceed houtcome =>
    subst hroute
    obtain ⟨-, hcalling, hreceiver⟩ := hk
    obtain ⟨y, hy, hyn, -⟩ := hcalling.record
    have hresolved := hc.attributed.resolved call (List.mem_of_getElem? hcalling.there)
    obtain ⟨u, v, row, -, -, hrow, hnew, hmessage⟩ :=
      proceed_returned hresolved hproceed houtcome
    rw [hreceiver id hlayers] at hmessage
    exact Or.inr ⟨k, id, message, ⟨y, hy, hyn⟩, rfl, rfl, hlayers, row, hrow, hnew, hmessage⟩

/-- **Every step of a request** emits nothing, or the message it answers. -/
theorem silent_or_emits {f : Flight} (hc : Coherent B s) (hk : KnownRequest B n r s f.phase)
    (h : httpStep B n r requestId drawn f action s = some x) : Silent s x ∨ Emits n r B s x := by
  obtain ⟨res, phase⟩ := f
  obtain ⟨endpoint, hlayers, hstep⟩ := httpStep_cases h
  exact hstep.silent_or_emits hc hk hlayers

end Steps

/-! ## Every run -/

theorem id_of_serializeMessage {row : MessageRow} {receiverId : JsString} {m : SerializedMessage}
    (h : serializeMessage (mapMessage row) receiverId = some m) : m._id = row.id.toText := by
  simp only [serializeMessage, Option.bind_eq_bind, Option.bind_eq_some_iff] at h
  obtain ⟨_, -, _, -, h⟩ := h
  obtain rfl := Option.some.inj h
  rfl

section Events

variable {B : Backend} {s t : ApiState} {n m : ℕ} {e : RoomEvent}

/-- The calls of what was emitted stay what they are. -/
theorem eventOf_iff (hc : Coherent B s) (hg : Grows s t) (he : e ∈ s.emitted) :
    EventOf t n e ↔ EventOf s n e := by
  obtain ⟨x, hx, -⟩ := hc.emitted e he
  have hx' := hg.getElem?_authorships hx
  constructor
  · rintro ⟨y, hy, hyn⟩
    rw [hx'] at hy
    obtain rfl := Option.some.inj hy
    exact ⟨x, hx, hyn⟩
  · rintro ⟨y, hy, hyn⟩
    rw [hx] at hy
    obtain rfl := Option.some.inj hy
    exact ⟨x, hx', hyn⟩

theorem EventOf.unique (h : EventOf s n e) (h' : EventOf s m e) : n = m := by
  obtain ⟨x, hx, rfl⟩ := h
  obtain ⟨y, hy, rfl⟩ := h'
  rw [hx] at hy
  rw [Option.some.inj hy]

/-- The process was answered with the messages of its events. -/
def Answers (s : ApiState) (n : ℕ) (f : Flight) : Prop :=
  ∀ m, f.message = some m ↔ ∃ e ∈ s.emitted, e.message = m ∧ EventOf s n e

theorem Answers.of_emitted {f : Flight} (h : Answers s n f) (hc : Coherent B s) (hg : Grows s t)
    (hemitted : t.emitted = s.emitted) : Answers t n f := by
  intro m
  rw [h m, hemitted]
  refine exists_congr fun e => and_congr_right fun he => and_congr_right fun _ => ?_
  exact (eventOf_iff hc hg he).symm

end Events

section Runs

variable {B : Backend} {σ τ : Pool ApiState Arrival Flight}

/-- **The invariant**: what was emitted has different ids, and belongs to the answers. -/
structure Matched (σ : Pool ApiState Arrival Flight) : Prop where
  ids : (σ.shared.emitted.map fun e => e.message._id).Nodup
  answers : ∀ n r drawn f, σ.processes[n]? = some (.http r drawn, f) → Answers σ.shared n f

/-- What is known of the runs. -/
structure Sound (B : Backend) (σ : Pool ApiState Arrival Flight) : Prop where
  coherent : Coherent B σ.shared
  known : ∀ n a f, σ.processes[n]? = some (a, f) → Known B n a f σ.shared
  processes : ∀ x ∈ entries σ.shared, ∃ f, σ.processes[x.1]? = some (x.2, f)

theorem sound_of_reachable (h : (apiSystem B).Reachable (GenuineRequests B).lift σ) :
    Sound B σ :=
  ⟨coherent_of_reachable h, fun _ _ _ hn => known_of_reachable h hn, exists_process h⟩

/-- A process that has just started has no events. -/
theorem Sound.not_eventOf (h : Sound B σ) {e : RoomEvent} :
    ¬ EventOf σ.shared σ.processes.length e := by
  rintro ⟨x, hx, hn⟩
  obtain ⟨f, hf⟩ := h.processes (x.process, x.arrival)
    (Or.inr (Or.inl ⟨x, List.mem_of_getElem? hx, rfl⟩))
  have hlt := (List.getElem?_eq_some_iff.mp hf).1
  simp only [hn, lt_irrefl] at hlt

theorem message_dispatch {requestId : JsString} {r : HttpRequest} :
    (dispatch B requestId r).message = none := by
  unfold dispatch
  simp only
  split
  · rfl
  · rfl
  · rename_i endpoint _
    cases endpoint with
    | live | ready | metrics | signup | login => rfl
    | refresh | logout => simp only [enter]; split <;> rfl
    | _ => simp only [enter]; split <;> rfl

/-- A request starts. -/
theorem Matched.start (h : Matched σ) (hs : Sound B σ) {a : Arrival}
    (hstep : (apiProgram B).poolStep σ (.start a) = some τ) : Matched τ := by
  obtain ⟨f, shared, hstart, rfl⟩ := PoolProgram.poolStep_start hstep
  obtain rfl : shared = σ.shared := by
    cases a with
    | http r drawn => exact (Prod.mk.inj (Option.some.inj hstart)).2.symm
    | socket accessToken => exact (Prod.mk.inj (Option.some.inj hstart)).2.symm
  refine ⟨h.ids, ?_⟩
  intro n r drawn f' hn
  rcases PoolProgram.getElem?_concat_eq hn with ⟨hold, -⟩ | ⟨rfl, heq⟩
  · exact h.answers n r drawn f' hold
  · obtain ⟨rfl, rfl⟩ := Prod.mk.inj heq
    obtain ⟨rfl, -⟩ := Prod.mk.inj (Option.some.inj hstart)
    intro m
    rw [message_dispatch]
    constructor
    · rintro ⟨⟩
    · rintro ⟨e, -, -, he⟩
      exact absurd he hs.not_eventOf

/-- A socket takes a step. -/
theorem Matched.socket (h : Matched σ) (hs : Sound B σ) {n : ℕ} {accessToken : Option JsString}
    {f f' : Flight} {action : ApiAction} {t : ApiState}
    (hn : σ.processes[n]? = some (.socket accessToken, f))
    (hg : GenuineRequests B n (.socket accessToken) f action σ.shared)
    (hstep : socketStep B n accessToken f action σ.shared = some (f', t)) :
    Matched ⟨t, σ.processes.set n (.socket accessToken, f')⟩ := by
  have hemitted := (socketStep_unwritten hstep).emitted
  have hgrows := (kept_socketStep hs.coherent (hs.known n _ f hn) hg hstep).1.grows
  refine ⟨?_, ?_⟩
  · show (t.emitted.map _).Nodup
    rw [hemitted]
    exact h.ids
  · intro m r drawn f'' hm
    rcases PoolProgram.getElem?_set_eq hm with ⟨hold, -⟩ | ⟨-, heq⟩
    · exact (h.answers m r drawn f'' hold).of_emitted hs.coherent hgrows hemitted
    · cases (Prod.mk.inj heq).1

/-- **A request takes a step.** -/
theorem Matched.http (h : Matched σ) (hs : Sound B σ) {n : ℕ} {r : HttpRequest} {drawn : Uuid}
    {f f' : Flight} {action : ApiAction} {t : ApiState}
    (hn : σ.processes[n]? = some (.http r drawn, f))
    (hg : GenuineRequests B n (.http r drawn) f action σ.shared)
    (hstep : httpStep B n r (normalizeRequestId drawn r.requestId) drawn f action σ.shared =
      some (f', t)) :
    Matched ⟨t, σ.processes.set n (.http r drawn, f')⟩ := by
  have hknown : KnownRequest B n r σ.shared f.phase := hs.known n _ f hn
  have hgrows := (kept_httpStep hs.coherent hknown hg hstep).1.grows
  -- it was not answered yet, so that none of its events is there
  have hpending : f.message = none := by
    obtain ⟨res, phase⟩ := f
    cases phase with
    | answered response => exact nomatch httpStep_answered.symm.trans hstep
    | _ => rfl
  have hnone : ∀ e ∈ σ.shared.emitted, ¬ EventOf σ.shared n e := by
    intro e he hof
    have hsome := (h.answers n r drawn f hn e.message).mpr ⟨e, he, rfl, hof⟩
    rw [hpending] at hsome
    cases hsome
  rcases silent_or_emits hs.coherent hknown hstep with ⟨hemitted, hmessage⟩ |
    ⟨k, id, message, hof, hemitted, hmessage, -, row, -, hnew, hrow⟩
  · have hemitted : t.emitted = σ.shared.emitted := hemitted
    refine ⟨?_, ?_⟩
    · show (t.emitted.map _).Nodup
      rw [hemitted]
      exact h.ids
    · intro m r' drawn' f'' hm
      rcases PoolProgram.getElem?_set_eq hm with ⟨hold, -⟩ | ⟨rfl, heq⟩
      · exact (h.answers m r' drawn' f'' hold).of_emitted hs.coherent hgrows hemitted
      · obtain ⟨-, rfl⟩ := Prod.mk.inj heq
        have hanswers : Answers σ.shared m f'' := by
          intro message
          rw [show f''.message = f.message from hmessage.trans hpending.symm]
          exact h.answers m r drawn f hn message
        exact hanswers.of_emitted hs.coherent hgrows hemitted
  · have hemitted : t.emitted = σ.shared.emitted ++ [⟨k, getUserRoomName id, message⟩] := hemitted
    have hof' : EventOf t n ⟨k, getUserRoomName id, message⟩ := by
      obtain ⟨x, hx, hxn⟩ := hof
      exact ⟨x, hgrows.getElem?_authorships hx, hxn⟩
    refine ⟨?_, ?_⟩
    · show (t.emitted.map _).Nodup
      rw [hemitted, List.map_append, List.nodup_append]
      refine ⟨h.ids, List.nodup_singleton _, ?_⟩
      intro x hx y hy hxy
      obtain ⟨e, he, rfl⟩ := List.mem_map.mp hx
      obtain rfl := List.mem_singleton.mp hy
      -- the message of `e` was stored before, and the new one was not
      obtain ⟨z, -, -, u, v, old, hold, -, -, holdm⟩ := hs.coherent.emitted e he
      have hid : old.id = row.id := by
        have htext := (id_of_serializeMessage holdm).symm.trans
          (hxy.trans (id_of_serializeMessage hrow))
        exact Uuid.toText_injective htext
      rw [Database.hasMessage, List.any_eq_false] at hnew
      exact hnew old hold (by simp [hid])
    · intro m r' drawn' f'' hm other
      show _ ↔ ∃ e ∈ t.emitted, _
      rw [hemitted]
      rcases PoolProgram.getElem?_set_eq hm with ⟨hold, hne⟩ | ⟨rfl, heq⟩
      · rw [h.answers m r' drawn' f'' hold other]
        constructor
        · rintro ⟨e, he, heq, hem⟩
          exact ⟨e, List.mem_append_left _ he, heq, (eventOf_iff hs.coherent hgrows he).mpr hem⟩
        · rintro ⟨e, he, heq, hem⟩
          rcases List.mem_append.mp he with he | he
          · exact ⟨e, he, heq, (eventOf_iff hs.coherent hgrows he).mp hem⟩
          · obtain rfl := List.mem_singleton.mp he
            exact absurd (hem.unique hof') hne
      · obtain ⟨-, rfl⟩ := Prod.mk.inj heq
        have hmessage : f''.message = some message := hmessage
        rw [hmessage]
        constructor
        · intro hsame
          exact ⟨_, List.mem_append_right _ (List.mem_singleton_self _), Option.some.inj hsame,
            hof'⟩
        · rintro ⟨e, he, heq, hem⟩
          rcases List.mem_append.mp he with he | he
          · exact absurd ((eventOf_iff hs.coherent hgrows he).mp hem) (hnone e he)
          · obtain rfl := List.mem_singleton.mp he
            rw [← heq]

theorem matched_of_reachable (h : (apiSystem B).Reachable (GenuineRequests B).lift σ) :
    Matched σ := by
  refine h.invariant_of (I := Matched) (fun _ hs => sound_of_reachable hs) ?_ ?_
  · rintro s ⟨⟨-, -, -, hemitted, -⟩, hnone⟩
    refine ⟨by rw [hemitted]; exact List.nodup_nil, ?_⟩
    intro n r drawn f hn
    rw [hnone] at hn
    cases hn
  · rintro s (a | ⟨n, action⟩) t hs - hm hg hstep
    · exact hm.start hs hstep
    · obtain ⟨a, f, f', shared, hn, hst, rfl⟩ := PoolProgram.poolStep_step hstep
      cases a with
      | http r drawn => exact hm.http hs hn (hg _ hn) hst
      | socket accessToken => exact hm.socket hs hn (hg _ hn) hst

/-- The request of the process was answered with the message. -/
def AnsweredWith (σ : Pool ApiState Arrival Flight) (n : ℕ) (r : HttpRequest)
    (m : SerializedMessage) : Prop :=
  ∃ drawn f, σ.processes[n]? = some (.http r drawn, f) ∧ f.message = some m

/-- **The answers and the events are the same messages**, in every run: what was emitted has ids of
its own; it was answered to the request that has sent it, and to no other; and whatever message was
answered was stored and emitted, to the room of its receiver. -/
theorem sends_match_events (h : (apiSystem B).Reachable (GenuineRequests B).lift σ) :
    (σ.shared.emitted.map fun e => e.message._id).Nodup ∧
      (∀ e ∈ σ.shared.emitted, ∃ n r id, AnsweredWith σ n r e.message ∧
        layers B.config B.urlOrigin r = .endpoint (.sendMessage id) ∧
          e.room = getUserRoomName id ∧ ∃ row ∈ σ.shared.chat.db.messages,
            serializeMessage (mapMessage row) id = some e.message) ∧
        ∀ n r m, AnsweredWith σ n r m → (∃ e ∈ σ.shared.emitted, e.message = m) ∧
          ∀ n' r' m', AnsweredWith σ n' r' m' → m'._id = m._id → n' = n := by
  have hs := sound_of_reachable h
  have hm := matched_of_reachable h
  refine ⟨hm.ids, ?_, ?_⟩
  · intro e he
    obtain ⟨x, hx, hroom, u, v, row, hrow, -, -, hmessage⟩ := hs.coherent.emitted e he
    have hmem := List.mem_of_getElem? hx
    obtain ⟨r, drawn, id, message, harrival, hlayers, -, -, -, hinput⟩ :=
      (hs.coherent.authorships x hmem).request
    obtain ⟨f, hf⟩ := hs.processes (x.process, x.arrival) (Or.inr (Or.inl ⟨x, hmem, rfl⟩))
    rw [harrival] at hf
    rw [hinput] at hroom hmessage
    have hanswered := (hm.answers _ _ _ _ hf _).mpr ⟨e, he, rfl, x, hx, rfl⟩
    exact ⟨x.process, r, id, ⟨drawn, f, hf, hanswered⟩, hlayers, hroom, row, hrow, hmessage⟩
  · rintro n r m ⟨drawn, f, hn, hmessage⟩
    obtain ⟨e, he, hem, hof⟩ := (hm.answers n r drawn f hn m).mp hmessage
    refine ⟨⟨e, he, hem⟩, ?_⟩
    rintro n' r' m' ⟨drawn', f', hn', hmessage'⟩ hid
    obtain ⟨e', he', hem', hof'⟩ := (hm.answers n' r' drawn' f' hn' m').mp hmessage'
    -- two events with one id are one event
    obtain rfl : e' = e := List.inj_on_of_nodup_map hm.ids he' he (by rw [hem', hem, hid])
    exact hof'.unique hof

theorem sends_match_events_sample : ∃ σ r m, AnsweredWith σ 2 r m ∧
    (∃ e ∈ σ.shared.emitted, e.message = m) ∧
      ∀ n' r' m', AnsweredWith σ n' r' m' → m'._id = m._id → n' = 2 := by
  obtain ⟨σ, hσ, hsent⟩ := exists_reachable sampleBackend sampleSendRun
    (fun σ => (exchange σ 2).any (fun x => x.2.2.message.isSome) = true) (by decide +kernel)
  obtain ⟨⟨r, drawn, response⟩, hx, hmessage⟩ := (Option.any_eq_true _ _).mp hsent
  obtain ⟨f, hn, hanswered⟩ := exchange_eq_some hx
  obtain ⟨m, hm⟩ := Option.isSome_iff_exists.mp hmessage
  have hof : AnsweredWith σ 2 r m := by
    refine ⟨drawn, f, hn, ?_⟩
    rw [Flight.message, hanswered]
    exact hm
  exact ⟨σ, r, m, hof, (sends_match_events hσ).2.2 2 r m hof⟩

end Runs

end MernChat.Api
