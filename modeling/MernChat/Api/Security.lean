import MernChat.Api.Answers

/-!
# Who the messages are from, and who gets them

Behind every message, every page and every message event that reaches a socket there is a user who
has signed up or logged in with a password, in a session that had not ended when it was looked up,
over requests that came from an origin of the configuration. Among requests and sockets, only such
requests write to the tables of PostgreSQL at all.

## Main definitions

* `SignedIn`: a token goes back to a request that has shown its user, by way of a session
* `SentOver`: a message goes back to a request that sent it
* `Unwritten`: a step leaves the tables as they were

## Main results

* `message_provenance`: every message in the table was sent by its sender
* `page_provenance`: a page has what the reader and the other have sent each other
* `delivery_provenance`: a socket gets the messages that were sent to its user
* `writes_have_origin`: who writes to the tables or emits a message asks with `POST`, from an
  origin of the configuration
-/

namespace MernChat.Api

open Library

variable {B : Backend} {σ τ : Pool ApiState Arrival Flight}

/-- **The history is that of the processes.** -/
theorem exists_process (h : (apiSystem B).Reachable (GenuineRequests B).lift σ) :
    ∀ x ∈ entries σ.shared, ∃ f, σ.processes[x.1]? = some (x.2, f) := by
  refine (apiProof B).exists_process entries ?_ ?_ ?_ h
  · rintro s ⟨-, -, -, -, hgrants, hauthorships, hdeliveries⟩
    simp [entries, hgrants, hauthorships, hdeliveries]
  · rintro n (⟨r, drawn⟩ | accessToken) f s t hstart
    · obtain ⟨-, rfl⟩ := Prod.mk.inj (Option.some.inj hstart)
      exact Set.subset_insert _ _
    · obtain ⟨-, rfl⟩ := Prod.mk.inj (Option.some.inj hstart)
      exact Set.subset_insert _ _
  · rintro n (⟨r, drawn⟩ | accessToken) f action f' s t hc hk hg hstep
    · exact (kept_httpStep hc hk hg hstep).1.entries
    · exact (kept_socketStep hc hk hg hstep).1.entries

/-! ## Where tokens and messages are from -/

/-- **The token goes back to a password, by way of a session that had not ended**: what a gate has
read at the time `now`, in the state `lookup` of the database, has the row of the session the token
was issued for, unexpired; and the session was created for its user by a request from an origin of
the configuration, which had shown the user. -/
def SignedIn (B : Backend) (σ : Pool ApiState Arrival Flight) (token : JsString) (now : Int)
    (lookup : AuthDatabase) (userId : JsString) : Prop :=
  ∃ row ∈ lookup.sessions, row.userId.toText = userId ∧ pgTimestamp now < row.expiresAt ∧
    (token, ⟨userId, row.id.toText⟩) ∈ σ.shared.auth.minted ∧
      ∃ g ∈ σ.shared.grants, g.sessionId = row.id ∧ g.userId = userId ∧
        now < g.createdAt + REFRESH_TOKEN_TTL_MS ∧ ∃ r drawn f,
          σ.processes[g.process]? = some (.http r drawn, f) ∧
            OriginAllowed B.config B.urlOrigin r ∧ ShowsUser B σ.shared r userId

/-- **The message was sent to `v`** by the request of one of the calls, which came from an origin of
the configuration, with a token of its sender. -/
def SentOver (B : Backend) (σ : Pool ApiState Arrival Flight) (row : MessageRow) (v : Uuid) :
    Prop :=
  ∃ x ∈ σ.shared.authorships, ∃ (r : HttpRequest) (drawn : Uuid) (f : Flight)
      (id message : JsString),
    σ.processes[x.process]? = some (.http r drawn, f) ∧ OriginAllowed B.config B.urlOrigin r ∧
      layers B.config B.urlOrigin r = .endpoint (.sendMessage id) ∧
        Uuid.parse id = some v ∧ r.accessToken = .text x.token ∧
        SignedIn B σ x.token x.now x.lookup row.senderId.toText ∧ r.fields.message = some message ∧
          0 < (trim message).length ∧ (trim message).length ≤ 5000 ∧
            pgText (trim message) = some row.content

theorem signedIn_of_authorized (h : (apiSystem B).Reachable (GenuineRequests B).lift σ)
    {token userId : JsString} {now : Int} {lookup : AuthDatabase}
    (ha : Authorized σ.shared token now lookup userId) : SignedIn B σ token now lookup userId := by
  obtain ⟨row, hrow, hactive, huser, hminted, -⟩ := ha.justified
  obtain ⟨g, hg, hid, hguser, -, hexpires⟩ := ha.granted row hrow
  have hgrant : g.userId = userId := hguser.trans huser.symm
  obtain ⟨r, drawn, harrival, hshown⟩ := (coherent_of_reachable h).grants g hg
  obtain ⟨f, hf⟩ := exists_process h (g.process, g.arrival) (Or.inl ⟨g, hg, rfl⟩)
  rw [harrival] at hf
  rw [hgrant] at hshown
  have hlasts : now < g.createdAt + REFRESH_TOKEN_TTL_MS := by
    rw [hexpires] at hactive
    unfold pgTimestamp at hactive
    omega
  have horigin : OriginAllowed B.config B.urlOrigin r := by
    obtain ⟨_, -, -, _, _, -, -, -, ⟨hlayers, -⟩ | ⟨hlayers, -⟩⟩ := hshown.row
    · exact (layers_origin hlayers rfl).2
    · exact (layers_origin hlayers rfl).2
  exact ⟨row, hrow, huser.symm, hactive, hminted, g, hg, hid, hgrant, hlasts, r, drawn, f, hf,
    horigin, hshown⟩

theorem length_of_validateRequest {id message : JsString}
    (h : validateRequest (sendMessageSchema id (some message)) = none) :
    0 < (trim message).length ∧ (trim message).length ≤ 5000 := by
  unfold validateRequest at h
  split_ifs at h with hnil
  obtain ⟨-, hmessage⟩ := List.append_eq_nil_iff.mp hnil
  simp only at hmessage
  split_ifs at hmessage
  exact ⟨by omega, by omega⟩

/-- The two members of a conversation differ. -/
theorem ne_of_isBetween (h : (apiSystem B).Reachable (GenuineRequests B).lift σ)
    {c : ConversationRow} (hc : c ∈ σ.shared.chat.db.conversations) {u v : Uuid}
    (hbetween : c.isBetween u v = true) : u ≠ v := by
  rintro rfl
  have hlt := (coherent_of_reachable h).attributed.wellFormed.canonical c hc
  rcases ConversationRow.isBetween_iff.mp hbetween with ⟨ha, hb⟩ | ⟨ha, hb⟩
  · rw [ha, hb] at hlt
    exact absurd hlt (lt_irrefl u)
  · rw [ha, hb] at hlt
    exact absurd hlt (lt_irrefl u)

/-- A message of a call was sent over its request. -/
theorem sentOver_of_authored (h : (apiSystem B).Reachable (GenuineRequests B).lift σ)
    {x : Authorship} (hx : x ∈ σ.shared.authorships) {u v : Uuid} {row : MessageRow}
    (hsent : SentBy x.env x.input u v row) : SentOver B σ row v ∧ row.senderId = u ∧
      x.user._id = u.toText := by
  have hauthored := (coherent_of_reachable h).authorships x hx
  obtain ⟨r, drawn, id, message, harrival, hlayers, htoken, hmessage, hvalid, hinput⟩ :=
    hauthored.request
  obtain ⟨f, hf⟩ := exists_process h (x.process, x.arrival) (Or.inr (Or.inl ⟨x, hx, rfl⟩))
  rw [harrival] at hf
  obtain ⟨hsender, hreceiver, hcontent, -, hrow⟩ := hsent
  rw [hinput] at hsender hreceiver hcontent
  obtain ⟨w, hw⟩ := hauthored.authorized.exists_id
  have huser : x.user._id = u.toText := by
    simp only [hw, Uuid.parse_toText, Option.some.injEq] at hsender
    rw [hw, hsender]
  obtain ⟨hpos, hle⟩ := length_of_validateRequest hvalid
  refine ⟨⟨x, hx, r, drawn, f, id, message, hf, (layers_origin hlayers rfl).2, hlayers, hreceiver,
    htoken, ?_, hmessage, hpos, hle, hcontent⟩, hrow, huser⟩
  rw [hrow, ← huser]
  exact signedIn_of_authorized h hauthored.authorized

/-- **Every message was sent by its sender**, in a conversation with the user it was sent to: behind
its row there is a request with a token that goes back to the password of the sender, and whose
message, trimmed, is its content. -/
theorem message_provenance (h : (apiSystem B).Reachable (GenuineRequests B).lift σ)
    {row : MessageRow} (hrow : row ∈ σ.shared.chat.db.messages) :
    ∃ v, SentOver B σ row v ∧ row.senderId ≠ v ∧ ∃ c ∈ σ.shared.chat.db.conversations,
      c.id = row.conversationId ∧ c.isBetween row.senderId v = true := by
  have hc := coherent_of_reachable h
  obtain ⟨u, v, ⟨send, hsend, hby⟩, c, hcmem, hid, hbetween⟩ := hc.attributed.sent row hrow
  rw [hc.sends] at hsend
  obtain ⟨x, hx, rfl⟩ := List.mem_map.mp hsend
  obtain ⟨hsent, hsender, -⟩ := sentOver_of_authored h hx hby
  exact ⟨v, hsent, hsender ▸ ne_of_isBetween h hcmem hbetween, c, hcmem, hid, hsender ▸ hbetween⟩

theorem message_provenance_sample : ∃ σ, ∃ row ∈ σ.shared.chat.db.messages,
    row.content = js "hi" ∧ ∃ v, SentOver sampleBackend σ row v ∧ row.senderId ≠ v ∧
      ∃ c ∈ σ.shared.chat.db.conversations,
        c.id = row.conversationId ∧ c.isBetween row.senderId v = true := by
  obtain ⟨σ, hσ, hsent⟩ := exists_reachable sampleBackend sampleSendRun
    (fun σ => σ.shared.chat.db.messages.any (fun row => row.content == js "hi") = true)
    (by decide +kernel)
  obtain ⟨row, hrow, hcontent⟩ := List.any_eq_true.mp hsent
  exact ⟨σ, row, hrow, beq_iff_eq.mp hcontent, message_provenance hσ hrow⟩

/-- **A page has what the two have sent each other.** Who is answered with a page has brought a
token for which `secureRoute` has attached its user, by way of a session that it has found
unexpired; and each message of the page was sent by the reader to the user asked for, or by that
user to the reader. -/
theorem page_provenance (h : (apiSystem B).Reachable (GenuineRequests B).lift σ) {n : ℕ}
    {r : HttpRequest} {drawn : Uuid} {f : Flight}
    (hn : σ.processes[n]? = some (.http r drawn, f)) {response : HttpResponse}
    (hanswered : f.phase = .answered response) {page : MessagePageResult}
    (hpage : response.body = .page page) :
    ∃ u id token now lookup user, layers B.config B.urlOrigin r = .endpoint (.getMessage id) ∧
      r.accessToken = .text token ∧
        σ.shared.auth.requests n = some (.attached token now lookup user) ∧
        user._id = Uuid.toText u ∧ SignedIn B σ token now lookup user._id ∧
        ∀ m ∈ page.messages, ∃ v, Uuid.parse id = some v ∧ u ≠ v ∧
          ∃ row ∈ σ.shared.chat.db.messages,
            serializeMessage (mapMessage row) m.receiverId = some m ∧
              (row.senderId = u ∧ SentOver B σ row v ∧ m.receiverId = id ∨
                row.senderId = v ∧ SentOver B σ row u ∧ m.receiverId = u.toText) := by
  have hc := coherent_of_reachable h
  have hk : KnownRequest B n r σ.shared f.phase := known_of_reachable h hn
  rw [hanswered] at hk
  obtain ⟨user, id, hattached, hlayers, hserved⟩ := hk page hpage
  obtain ⟨token, now, lookup, htoken, hrequest, hauthorized⟩ := hattached.authorized hc
  obtain ⟨u, hu⟩ := hauthorized.exists_id
  refine ⟨u, id, token, now, lookup, user, hlayers, htoken, hrequest, hu,
    signedIn_of_authorized h hauthorized, ?_⟩
  intro m hm
  obtain ⟨u', v, hu', hv, hne, row, hrow, hserialized, x, hx⟩ := hserved m hm
  obtain rfl : u = u' := Uuid.toText_injective (hu.symm.trans hu')
  refine ⟨v, hv, hne, row, hrow, hserialized, ?_⟩
  rcases hx with ⟨hx, ⟨hby, -, hreceiver⟩ | ⟨hby, -, hreceiver⟩⟩
  · obtain ⟨hsent, hsender, -⟩ := sentOver_of_authored h hx hby
    exact Or.inl ⟨hsender, hsent, hreceiver⟩
  · obtain ⟨hsent, hsender, -⟩ := sentOver_of_authored h hx hby
    exact Or.inr ⟨hsender, hsent, hreceiver.trans hu⟩

/-- The messages of a page. -/
def ResponseBody.messages : ResponseBody → List SerializedMessage
  | .page p => p.messages
  | _ => []

/-- A page with the message. -/
theorem page_provenance_sample : ∃ σ r drawn f response page,
    σ.processes[3]? = some (.http r drawn, f) ∧ f.phase = .answered response ∧
      response.body = .page page ∧ page.messages.length = 1 ∧
        ∃ u id token now lookup user, layers sampleBackend.config sampleBackend.urlOrigin r =
            .endpoint (.getMessage id) ∧ r.accessToken = .text token ∧
          σ.shared.auth.requests 3 = some (.attached token now lookup user) ∧
          user._id = Uuid.toText u ∧ SignedIn sampleBackend σ token now lookup user._id ∧
            ∀ m ∈ page.messages, ∃ v, Uuid.parse id = some v ∧ u ≠ v ∧
              ∃ row ∈ σ.shared.chat.db.messages,
                serializeMessage (mapMessage row) m.receiverId = some m ∧
                  (row.senderId = u ∧ SentOver sampleBackend σ row v ∧ m.receiverId = id ∨
                    row.senderId = v ∧ SentOver sampleBackend σ row u ∧
                      m.receiverId = u.toText) := by
  obtain ⟨σ, hσ, hpage⟩ := exists_reachable sampleBackend (sampleSendRun ++ sampleReadRun)
    (fun σ => (exchange σ 3).any (fun x => x.2.2.body.messages.length == 1) = true)
    (by decide +kernel)
  obtain ⟨⟨r, drawn, response⟩, hx, hlength⟩ := (Option.any_eq_true _ _).mp hpage
  obtain ⟨f, hn, hanswered⟩ := exchange_eq_some hx
  cases hbody : response.body with
  | page page =>
    simp only [hbody, ResponseBody.messages, beq_iff_eq] at hlength
    exact ⟨σ, r, drawn, f, response, page, hn, hanswered, hbody, hlength,
      page_provenance hσ hn hanswered hbody⟩
  | _ => simp [hbody, ResponseBody.messages] at hlength

/-- **A socket gets the messages that were sent to its user.** A `newMessage` event that reaches a
socket has a message that is stored, and that was sent to the user whose token its handshake has
brought. -/
theorem delivery_provenance (h : (apiSystem B).Reachable (GenuineRequests B).lift σ) {d : Delivery}
    (hd : d ∈ σ.shared.deliveries) :
    (∃ f, σ.processes[d.process]? = some (.socket (some d.token), f)) ∧
      SignedIn B σ d.token d.now d.lookup d.userId ∧ ∃ v, d.userId = v.toText ∧
        ∃ row ∈ σ.shared.chat.db.messages, SentOver B σ row v ∧ row.senderId ≠ v ∧
          serializeMessage (mapMessage row) d.userId = some d.event.message := by
  have hc := coherent_of_reachable h
  have hdelivered := hc.deliveries d hd
  obtain ⟨f, hf⟩ := exists_process h (d.process, d.arrival) (Or.inr (Or.inr ⟨d, hd, rfl⟩))
  rw [hdelivered.arrival] at hf
  refine ⟨⟨f, hf⟩, signedIn_of_authorized h hdelivered.authorized, ?_⟩
  obtain ⟨x, hx, hroom, u, v, row, hrow, hby, ⟨c, hcmem, -, hbetween⟩, hserialized⟩ :=
    hc.emitted _ hdelivered.emitted
  have hreceiver : x.input.receiverId = d.userId :=
    List.append_cancel_left (hroom.symm.trans hdelivered.room)
  obtain ⟨w, hw⟩ := hdelivered.authorized.exists_id
  have hv : d.userId = v.toText := by
    have hparse := hby.receiver
    rw [hreceiver, hw, Uuid.parse_toText] at hparse
    rw [hw, Option.some.inj hparse]
  obtain ⟨hsent, hsender, -⟩ := sentOver_of_authored h (List.mem_of_getElem? hx) hby
  exact ⟨v, hv, row, hrow, hsent, hsender ▸ ne_of_isBetween h hcmem hbetween,
    hreceiver ▸ hserialized⟩

theorem delivery_provenance_sample : ∃ σ, ∃ d ∈ σ.shared.deliveries, d.process = 4 ∧
    (∃ f, σ.processes[d.process]? = some (.socket (some d.token), f)) ∧
      SignedIn sampleBackend σ d.token d.now d.lookup d.userId ∧ ∃ v, d.userId = v.toText ∧
        ∃ row ∈ σ.shared.chat.db.messages, SentOver sampleBackend σ row v ∧ row.senderId ≠ v ∧
          serializeMessage (mapMessage row) d.userId = some d.event.message := by
  obtain ⟨σ, hσ, hdelivered⟩ := exists_reachable sampleBackend (sampleSendRun ++ sampleReadRun)
    (fun σ => σ.shared.deliveries.any (fun d => d.process == 4) = true) (by decide +kernel)
  obtain ⟨d, hd, hprocess⟩ := List.any_eq_true.mp hdelivered
  exact ⟨σ, d, hd, beq_iff_eq.mp hprocess, delivery_provenance hσ hd⟩

/-! ## Who writes -/

/-- The tables of PostgreSQL are as they were, and no message was emitted. -/
structure Unwritten (s t : ApiState) : Prop where
  auth : t.auth.db = s.auth.db
  chat : t.chat.db = s.chat.db
  emitted : t.emitted = s.emitted

section Unwritten

variable {s t : ApiState} {n : ℕ} {r : HttpRequest} {drawn : Uuid} {requestId : JsString}
  {res : PendingResponse} {action : ApiAction} {phase : Phase} {f : Flight} {endpoint : Endpoint}

theorem Unwritten.refl (s : ApiState) : Unwritten s s := ⟨rfl, rfl, rfl⟩

/-- A step of authentication that does not write. -/
theorem unwritten_authenticate {a : AuthAction} (h : s.authenticate B a = some t)
    (ha : ∀ u, authStep B.jwt B.hashToken s.auth a = some u → u.db = s.auth.db) :
    Unwritten s t := by
  obtain ⟨u, hu, rfl⟩ := Option.map_eq_some_iff.mp h
  exact ⟨ha u hu, rfl, rfl⟩

theorem Endpoint.isUnsafe_of_route (h : endpoint.isCredential = true ∨ endpoint.isRefresh = true) :
    endpoint.isUnsafe = true := by
  cases endpoint with
  | signup | login | refresh | logout => rfl
  | _ => rcases h with h | h <;> cases h

/-- The ways that a step of a safe route can go write nothing. -/
theorem HandlerStep.unwritten {x : Flight × ApiState}
    (h : HandlerStep B n r requestId drawn endpoint res s phase action x)
    (hhas : endpoint.has phase = true) (hsafe : endpoint.isUnsafe = false) : Unwritten s x.2 := by
  have hroute : ¬ endpoint.isUnsafe = true := by simp [hsafe]
  cases h with
  | refused | answered | limited | admitted | emailFree | listing | otherUser | chatUserFound
  | conversationFound | pageRead => exact .refl s
  | presented _ _ _ ht =>
    refine unwritten_authenticate ht fun u hu => ?_
    obtain rfl := Option.some.inj hu
    rfl
  | attached _ hreq _ ht =>
    refine unwritten_authenticate ht fun u hu => ?_
    simp only [authStep, hreq, Option.some.injEq] at hu
    obtain rfl := hu
    rfl
  | registered h | loggedIn h | sessionCreated h | tokenIssued h =>
    exact absurd (Endpoint.isUnsafe_of_route (Or.inl h)) hroute
  | sessionFound h | tokenReissued h | userGone h =>
    exact absurd (Endpoint.isUnsafe_of_route (Or.inr h)) hroute
  | refusedAfter _ _ hwrites | answeredAfter _ hwrites => exact absurd (hwrites hhas) hroute
  | leaving h =>
    subst h
    cases hsafe
  | begun h | proceeded h | threw h | returned h =>
    subst h
    cases hsafe

/-- **A safe route does not write**, whatever step it takes. -/
theorem httpStep_unwritten (hlayers : layers B.config B.urlOrigin r = .endpoint endpoint)
    (hhas : endpoint.has f.phase = true) (hsafe : endpoint.isUnsafe = false) {f' : Flight}
    (h : httpStep B n r requestId drawn f action s = some (f', t)) : Unwritten s t := by
  obtain ⟨res, phase⟩ := f
  obtain ⟨found, hfound, hstep⟩ := httpStep_cases h
  obtain rfl := Admission.endpoint.inj (hfound.symm.trans hlayers)
  exact hstep.unwritten hhas hsafe

/-- A socket does not write to the tables. -/
theorem socketStep_unwritten {accessToken : Option JsString} {f' : Flight}
    (h : socketStep B n accessToken f action s = some (f', t)) : Unwritten s t := by
  obtain ⟨res, phase⟩ := f
  cases socketStep_cases h with
  | refused | disconnected => exact .refl s
  | presented _ ht =>
    refine unwritten_authenticate ht fun u hu => ?_
    obtain rfl := Option.some.inj hu
    rfl
  | connected hreq _ ht =>
    refine unwritten_authenticate ht fun u hu => ?_
    simp only [authStep, hreq, Option.some.injEq] at hu
    obtain rfl := hu
    rfl
  | received => exact ⟨rfl, rfl, rfl⟩

end Unwritten

/-- **Who writes has passed the check of the origin.** In every run, whatever fails, a step of a
request or a socket that changes a table of users, sessions, conversations or messages, or emits a
message, is one of a request that came with `POST` and from an origin of the configuration; no
other request, and no socket, ever takes one. -/
theorem writes_have_origin {g : PoolGuard ApiState Arrival Flight ApiAction}
    (h : (apiSystem B).Reachable g.lift σ) {b : PoolAction Arrival ApiAction}
    (hstep : (apiSystem B).step σ b = some τ) (hwrites : ¬ Unwritten σ.shared τ.shared) :
    ∃ n action r drawn f, b = .step n action ∧ σ.processes[n]? = some (.http r drawn, f) ∧
      r.method = js "POST" ∧ OriginAllowed B.config B.urlOrigin r := by
  cases b with
  | start a =>
    obtain ⟨f, shared, hstart, rfl⟩ := PoolProgram.poolStep_start hstep
    refine absurd ?_ hwrites
    cases a with
    | http r drawn =>
      obtain ⟨-, rfl⟩ := Prod.mk.inj (Option.some.inj hstart)
      exact .refl _
    | socket accessToken =>
      obtain ⟨-, rfl⟩ := Prod.mk.inj (Option.some.inj hstart)
      exact .refl _
  | step n action =>
    obtain ⟨a, f, f', shared, hn, hst, rfl⟩ := PoolProgram.poolStep_step hstep
    cases a with
    | socket accessToken => exact absurd (socketStep_unwritten hst) hwrites
    | http r drawn =>
      obtain ⟨hpost, horigin⟩ : r.method = js "POST" ∧ OriginAllowed B.config B.urlOrigin r := by
        rcases (routed_of_reachable h hn).placed with ⟨endpoint, hlayers, hhas⟩ | ⟨_, hphase, -⟩
        · cases hchanges : endpoint.isUnsafe with
          | true => exact layers_origin hlayers hchanges
          | false => exact absurd (httpStep_unwritten hlayers hhas hchanges hst) hwrites
        · obtain ⟨res, phase⟩ := f
          obtain rfl := hphase
          exact nomatch httpStep_answered.symm.trans hst
      exact ⟨n, action, r, drawn, f, rfl, hn, hpost, horigin⟩

/-- The operation that stores the message. -/
theorem writes_have_origin_sample : ∃ σ τ,
    (apiSystem sampleBackend).step σ (.step 2 .query) = some τ ∧
      τ.shared.chat.db.messages.length = 1 ∧
        ∃ n action r drawn f,
          (.step 2 .query : PoolAction Arrival ApiAction) = .step n action ∧
            σ.processes[n]? = some (.http r drawn, f) ∧ r.method = js "POST" ∧
              OriginAllowed sampleBackend.config sampleBackend.urlOrigin r := by
  obtain ⟨σ, hσ, hstored⟩ := exists_reachable sampleBackend sampleSendRun.dropLast
    (fun σ => ((apiSystem sampleBackend).step σ (.step 2 .query)).any (fun τ =>
      σ.shared.chat.db.messages.length == 0 && τ.shared.chat.db.messages.length == 1) = true)
    (by decide +kernel)
  obtain ⟨τ, hτ, hlengths⟩ := (Option.any_eq_true _ _).mp hstored
  obtain ⟨hbefore, hafter⟩ := Bool.and_eq_true_iff.mp hlengths
  have hwrites : ¬ Unwritten σ.shared τ.shared := by
    intro h
    rw [h.chat, beq_iff_eq.mp hbefore] at hafter
    cases hafter
  exact ⟨σ, τ, hτ, beq_iff_eq.mp hafter, writes_have_origin hσ hτ hwrites⟩

end MernChat.Api
