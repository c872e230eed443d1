import MernChat.Api.Sends

/-!
# Logging out

A logout deletes the sessions of its refresh token, and a logout from everywhere those of its user.
The access tokens of such a session still verify, for as long as they last. But no request that
starts afterwards gets in with one of them, nor does a socket: every gate looks the session up, and
it does not come back, whatever the other requests do and however often they log in or refresh.

## Main definitions

* `Names`: a token is one of the session
* `DeletesSession`: the step of a logout
* `TurnedAway`: how far a request or a socket with such a token gets

## Main results

* `TurnedAway.http`, `TurnedAway.socket`: every step of such a request or socket
* `logout_is_final`: in every run after a logout
-/

namespace MernChat.Api

open Library TransitionSystem

/-- Whenever the token verifies, it names the session. -/
def Names (B : Backend) (token : JsString) (id : Uuid) : Prop :=
  ∀ now decoded, verifyAccessToken B.jwt now token = .ok decoded →
    Uuid.parse decoded.sessionId = some id

/-- **The step deletes the session**: it is one of the refresh token that logs out, or one of the
user that logs out from everywhere. The acknowledgement may be lost. -/
structure DeletesSession (B : Backend) (σ : Pool ApiState Arrival Flight) (n : ℕ)
    (action : ApiAction) (row : SessionRow) : Prop where
  deletes : action = .query ∨ ∃ code, action = .lost code
  session : ∃ r drawn f, σ.processes[n]? = some (.http r drawn, f) ∧
    (layers B.config B.urlOrigin r = .endpoint .logout ∧
        (∃ token, f.phase = .revoking token ∧ row.tokenHash = B.hashToken token) ∨
      layers B.config B.urlOrigin r = .endpoint .logoutAll ∧ f.phase = .revokingAll ∧
        ∃ userId, σ.shared.auth.requests n = some (.revoking userId) ∧
          Uuid.parse userId = some row.userId)

/-- A request with a token of the session is at its gate, or was turned away there, and a socket
never gets a connection. -/
def TurnedAway (B : Backend) (id : Uuid) (n : ℕ) (a : Arrival) (f : Flight) (s : ApiState) : Prop :=
  match a with
  | .http r _ => ∀ endpoint token, layers B.config B.urlOrigin r = .endpoint endpoint →
    endpoint.isSecured = true → r.accessToken = .text token → Names B token id →
      f.phase = .securing token ∨ ∃ response error, f.phase = .answered response ∧
        response.body = .error error
  | .socket none => True
  | .socket (some token) => Names B token id →
    f.phase = .handshake ∨ (∃ error, f.phase = .refused error) ∨ f.phase = .handshakeFound ∧
      ∀ gate token now lookup, s.auth.requests n = some (.gate gate token now lookup) →
        ∀ row ∈ lookup.sessions, row.id ≠ id

section Steps

variable {B : Backend} {s t : ApiState} {n : ℕ} {r : HttpRequest} {drawn : Uuid}
  {requestId : JsString} {f f' : Flight} {action : ApiAction} {id : Uuid} {a : Arrival}

/-- What other requests do does not let it in. -/
theorem TurnedAway.stable (h : TurnedAway B id n a f s)
    (hreq : t.auth.requests n = s.auth.requests n) : TurnedAway B id n a f t := by
  cases a with
  | http r drawn => exact h
  | socket accessToken =>
    cases accessToken with
    | none => exact trivial
    | some token =>
      intro hnames
      rcases h hnames with hphase | hrefused | ⟨hphase, hlookup⟩
      · exact Or.inl hphase
      · exact Or.inr (Or.inl hrefused)
      · exact Or.inr (Or.inr ⟨hphase, hreq ▸ hlookup⟩)

/-- A request starts at its gate. -/
theorem turnedAway_start {a : Arrival} (h : apiStart B a s = some (f, t)) :
    TurnedAway B id n a f t := by
  cases a with
  | http r drawn =>
    obtain ⟨rfl, -⟩ := Prod.mk.inj (Option.some.inj h)
    intro endpoint token hlayers hsecured htoken _
    refine Or.inl ?_
    simp only [dispatch, hlayers]
    cases endpoint with
    | logoutAll | me | allUsers | sendMessage id | getMessage id => simp [enter, htoken, Flight.at]
    | _ => cases hsecured
  | socket accessToken =>
    obtain ⟨rfl, -⟩ := Prod.mk.inj (Option.some.inj h)
    cases accessToken with
    | none => exact trivial
    | some token => exact fun _ => Or.inl rfl

/-- The lookup of a gate does not find the session. -/
theorem HandlerStep.refuses {endpoint : Endpoint} {res : PendingResponse} {token : JsString}
    {x : Flight × ApiState}
    (h : HandlerStep B n r requestId drawn endpoint res s (.securing token) action x)
    (hB : Bound B.jwt s.auth) (hid : id ∈ s.auth.removed) (hnames : Names B token id) :
    ∃ error, x.1 = refuse requestId res error := by
  cases h with
  | refused error => exact ⟨error, rfl⟩
  | presented _ hverified hfound =>
    exact absurd hfound (hB.not_found hid (hnames _ _ hverified) _ _)
  -- the other handlers are behind the gate
  | answered _ hlater | refusedAfter _ _ _ hlater | answeredAfter _ _ hlater => cases hlater

/-- **Every step of a request** with a token of the session. -/
theorem TurnedAway.http (h : TurnedAway B id n (.http r drawn) f s) (hB : Bound B.jwt s.auth)
    (hid : id ∈ s.auth.removed)
    (hstep : httpStep B n r requestId drawn f action s = some (f', t)) :
    TurnedAway B id n (.http r drawn) f' t := by
  intro endpoint token hlayers hsecured htoken hnames
  refine Or.inr ?_
  obtain ⟨res, phase⟩ := f
  rcases h endpoint token hlayers hsecured htoken hnames with rfl | ⟨response, _, rfl, -⟩
  · obtain ⟨found, -, hcases⟩ := httpStep_cases hstep
    obtain ⟨error, rfl⟩ := hcases.refuses hB hid hnames
    exact ⟨_, _, rfl, rfl⟩
  · rw [httpStep_answered] at hstep
    cases hstep

/-- **Every step of a socket** with a token of the session. -/
theorem TurnedAway.socket {accessToken : Option JsString}
    (h : TurnedAway B id n (.socket accessToken) f s)
    (hk : KnownSocket n accessToken s f.phase) (hB : Bound B.jwt s.auth)
    (hid : id ∈ s.auth.removed)
    (hstep : socketStep B n accessToken f action s = some (f', t)) :
    TurnedAway B id n (.socket accessToken) f' t := by
  cases accessToken with
  | none => exact trivial
  | some token =>
    intro hnames
    obtain ⟨res, phase⟩ := f
    cases socketStep_cases hstep with
    | refused error => exact Or.inr (Or.inl ⟨error, rfl⟩)
    | presented hcookie ht =>
      obtain rfl := Option.some.inj hcookie
      obtain ⟨auth, hauth, rfl⟩ := exists_authStep ht
      refine Or.inr (Or.inr ⟨rfl, ?_⟩)
      intro gate token' now' lookup hreq row hrow
      -- the sessions of the lookup are those of now, and the session is not among them
      have hgate : AuthRequest.gate gate token' now' lookup = _ :=
        Option.some.inj (hreq.symm.trans (requests_present hauth))
      obtain ⟨-, -, -, rfl⟩ := AuthRequest.gate.inj hgate
      exact (hB.removed id hid).2 row hrow
    | connected hrequest hpassed =>
      obtain ⟨token', heq, now, lookup, hreq, -⟩ := hk
      obtain rfl := Option.some.inj heq
      obtain ⟨-, rfl, rfl, rfl⟩ := AuthRequest.gate.inj (Option.some.inj (hrequest.symm.trans hreq))
      rcases h hnames with hphase | ⟨error, hphase⟩ | ⟨-, hlookup⟩
      · cases hphase
      · cases hphase
      · obtain ⟨user, ⟨decoded, hverify, hfound, -⟩, -⟩ := socketHandshake_eq_ok.mp hpassed
        obtain ⟨row, hrow, hparse, -⟩ := readIn_findActiveSessionById.mp hfound
        rw [hnames _ decoded hverify] at hparse
        exact absurd (Option.some.inj hparse).symm (hlookup _ _ _ _ hreq row hrow)
    -- the socket has not connected
    | received | disconnected =>
      rcases h hnames with hphase | ⟨error, hphase⟩ | ⟨hphase, -⟩ <;> cases hphase

end Steps

/-! ## After a logout -/

section Runs

variable {B : Backend} {σ τ : Pool ApiState Arrival Flight} {m : ℕ} {action : ApiAction}
  {row : SessionRow} {id : Uuid}

/-- The deletion is recorded. -/
theorem mem_removed_of_deletes (h : DeletesSession B σ m action row)
    (hrow : row ∈ σ.shared.auth.db.sessions)
    (hstep : (apiSystem B).step σ (.step m action) = some τ) :
    row.id ∈ τ.shared.auth.removed := by
  obtain ⟨a, f, f', shared, hm, hst, rfl⟩ := PoolProgram.poolStep_step hstep
  obtain ⟨r, drawn, f'', hm', hsession⟩ := h.session
  rw [hm] at hm'
  obtain ⟨rfl, rfl⟩ := Prod.mk.inj (Option.some.inj hm')
  obtain ⟨res, phase⟩ := f
  have hst : httpStep B m r (normalizeRequestId drawn r.requestId) drawn ⟨res, phase⟩ action
    σ.shared = some (f', shared) := hst
  rcases hsession with ⟨hlayers, token, rfl, hhash⟩ | ⟨hlayers, rfl, userId, hreq, huser⟩
  · have hauth : ∃ t, σ.shared.authenticate B (.logout token) = some t ∧ shared = t := by
      rcases h.deletes with rfl | ⟨code, rfl⟩
      all_goals
        simp only [httpStep, hlayers, handlerStep, refreshStep] at hst
        obtain ⟨t, ht, heq⟩ := Option.map_eq_some_iff.mp hst
        exact ⟨t, ht, (Prod.mk.inj heq).2.symm⟩
    obtain ⟨t, ht, rfl⟩ := hauth
    obtain ⟨auth, hauth, rfl⟩ := exists_authStep ht
    exact mem_removed_of_logout hauth hrow hhash
  · have hauth : ∃ t, σ.shared.authenticate B (.revokeAll m) = some t ∧ shared = t := by
      rcases h.deletes with rfl | ⟨code, rfl⟩
      all_goals
        simp only [httpStep, hlayers, handlerStep, secureStep, accountStep, Option.none_or] at hst
        obtain ⟨t, ht, heq⟩ := Option.map_eq_some_iff.mp hst
        exact ⟨t, ht, (Prod.mk.inj heq).2.symm⟩
    obtain ⟨t, ht, rfl⟩ := hauth
    obtain ⟨auth, hauth, rfl⟩ := exists_authStep ht
    exact mem_removed_of_revokeAll hreq hauth hrow huser

/-- **Once a session is removed**, every process that starts afterwards is turned away with a token
of it. -/
theorem turnedAway_of_removed (h : (apiSystem B).Reachable (GenuineRequests B).lift σ)
    (hid : id ∈ σ.shared.auth.removed)
    (hτ : ((apiSystem B).startedAt σ).Reachable (GenuineRequests B).lift τ) :
    id ∈ τ.shared.auth.removed ∧ ∀ n a f, σ.processes.length ≤ n →
      τ.processes[n]? = some (a, f) → TurnedAway B id n a f τ.shared := by
  have hlate : σ.processes.length ≤ τ.processes.length ∧ id ∈ τ.shared.auth.removed ∧
      ∀ n a f, σ.processes.length ≤ n → τ.processes[n]? = some (a, f) →
        TurnedAway B id n a f τ.shared := by
    refine hτ.invariant_of (I := fun τ => σ.processes.length ≤ τ.processes.length ∧
      id ∈ τ.shared.auth.removed ∧ ∀ n a f, σ.processes.length ≤ n →
        τ.processes[n]? = some (a, f) → TurnedAway B id n a f τ.shared)
      (J := Sound B) (fun _ hs => sound_of_reachable (h.trans hs)) ?_ ?_
    · rintro s rfl
      refine ⟨le_rfl, hid, ?_⟩
      intro n a f hn hlookup
      rw [List.getElem?_eq_none hn] at hlookup
      cases hlookup
    · rintro s (a | ⟨m, action⟩) t hs - ⟨hlength, hremoved, haway⟩ hg hstep
      · obtain ⟨f, shared, hstart, rfl⟩ := PoolProgram.poolStep_start hstep
        obtain rfl : shared = s.shared := by
          cases a with
          | http r drawn => exact (Prod.mk.inj (Option.some.inj hstart)).2.symm
          | socket accessToken => exact (Prod.mk.inj (Option.some.inj hstart)).2.symm
        refine ⟨?_, hremoved, ?_⟩
        · rw [List.length_append]
          exact Nat.le_add_right_of_le hlength
        · intro n b f' hn hlookup
          rcases PoolProgram.getElem?_concat_eq hlookup with ⟨hold, -⟩ | ⟨rfl, heq⟩
          · exact haway n b f' hn hold
          · obtain ⟨rfl, rfl⟩ := Prod.mk.inj heq
            exact turnedAway_start hstart
      · obtain ⟨a, f, f', shared, hm, hst, rfl⟩ := PoolProgram.poolStep_step hstep
        have hadvance : Advance B m a s.shared shared := by
          cases a with
          | http r drawn => exact (kept_httpStep hs.coherent (hs.known m _ f hm) (hg _ hm) hst).1
          | socket accessToken =>
            exact (kept_socketStep hs.coherent (hs.known m _ f hm) (hg _ hm) hst).1
        refine ⟨by rw [List.length_set]; exact hlength, hadvance.grows.removed id hremoved, ?_⟩
        intro n b f'' hn hlookup
        rcases PoolProgram.getElem?_set_eq hlookup with ⟨hold, hne⟩ | ⟨rfl, heq⟩
        · exact (haway n b f'' hn hold).stable (hadvance.requests n hne)
        · obtain ⟨rfl, rfl⟩ := Prod.mk.inj heq
          have hold := haway n b f hn hm
          cases b with
          | http r drawn => exact hold.http hs.coherent.bound hremoved hst
          | socket accessToken =>
            exact hold.socket (hs.known n _ f hm) hs.coherent.bound hremoved hst
  exact hlate.2

/-- **A logout is final.** After the step that deletes a session, in every run, the session does not
come back; no request that starts then and brings a token of the session gets past the gate of a
route, but is at the gate or answered with an error; and no socket that brings one is connected. -/
theorem logout_is_final (h : (apiSystem B).Reachable (GenuineRequests B).lift σ)
    {σ' : Pool ApiState Arrival Flight}
    (hg : (GenuineRequests B).lift σ (.step m action))
    (hstep : (apiSystem B).step σ (.step m action) = some σ')
    (hrow : row ∈ σ.shared.auth.db.sessions) (hdeletes : DeletesSession B σ m action row)
    (hτ : ((apiSystem B).startedAt σ').Reachable (GenuineRequests B).lift τ) :
    (∀ row' ∈ τ.shared.auth.db.sessions, row'.id ≠ row.id) ∧
      (∀ n r drawn f, σ'.processes.length ≤ n → τ.processes[n]? = some (.http r drawn, f) →
        ∀ endpoint token, layers B.config B.urlOrigin r = .endpoint endpoint →
          endpoint.isSecured = true → r.accessToken = .text token → Names B token row.id →
            f.phase = .securing token ∨ ∃ response error, f.phase = .answered response ∧
              response.body = .error error) ∧
        ∀ n token f, σ'.processes.length ≤ n →
          τ.processes[n]? = some (.socket (some token), f) → Names B token row.id →
            ∀ userId, f.phase ≠ .connected userId := by
  have hσ' : (apiSystem B).Reachable (GenuineRequests B).lift σ' := h.step hg hstep
  obtain ⟨hremoved, haway⟩ :=
    turnedAway_of_removed hσ' (mem_removed_of_deletes hdeletes hrow hstep) hτ
  have hbound : Bound B.jwt τ.shared.auth := (coherent_of_reachable (hσ'.trans hτ)).bound
  refine ⟨(hbound.removed row.id hremoved).2, ?_, ?_⟩
  · intro n r drawn f hn hlookup
    exact haway n _ f hn hlookup
  · intro n token f hn hlookup hnames userId hconnected
    rcases haway n _ f hn hlookup hnames with hphase | ⟨error, hphase⟩ | ⟨hphase, -⟩
    all_goals
      rw [hphase] at hconnected
      cases hconnected

/-! ### A token that was issued before -/

/-- The route of a request. -/
def endpointOf (B : Backend) : Arrival → Option Endpoint
  | .http r _ =>
    match layers B.config B.urlOrigin r with
    | .endpoint endpoint => some endpoint
    | _ => none
  | .socket _ => none

theorem endpointOf_eq_some {a : Arrival} {endpoint : Endpoint}
    (h : endpointOf B a = some endpoint) :
    ∃ r drawn, a = .http r drawn ∧ layers B.config B.urlOrigin r = .endpoint endpoint := by
  cases a with
  | socket accessToken => cases h
  | http r drawn =>
    simp only [endpointOf] at h
    split at h
    · rename_i hlayers
      obtain rfl := Option.some.inj h
      exact ⟨r, drawn, rfl, hlayers⟩
    · cases h

def Arrival.bringsToken : Arrival → JsString → Bool
  | .http r _, token =>
    match r.accessToken with
    | .text text => text == token
    | _ => false
  | .socket _, _ => false

def Phase.revokes : Phase → JsString → Bool
  | .revoking token, hash => token == hash
  | _, _ => false

/-- A signup, and a logout up to its deletion. -/
def sampleLogoutRun : List (PoolAction Arrival ApiAction) :=
  sampleSignupRun 0 1 2 "ada@example.com" ++
    [.start (.http { sampleRequest "POST" [js "api", js "user", js "logout"] .absent {} with
      refreshToken := .text (js "ada@example.com") } (sampleId 0x21))]

/-- A request that brings the access token of the signup. -/
def sampleLateRun : List (PoolAction Arrival ApiAction) :=
  [.start (.http (sampleRequest "GET" [js "api", js "user", js "me"] (.text (sampleToken 1 2)) {})
    (sampleId 0x22)), .step 2 (.at 1767225602000)]

theorem names_sampleToken : Names sampleBackend (sampleToken 1 2) (sampleId 2) := by
  rintro now ⟨userId, sessionId⟩ hverify
  have hfields : plainJwt.verify (sampleToken 1 2) now =
      .ok (.fields (some userId) (some sessionId)) := (verifyAccessToken_eq_ok.mp hverify).1
  have hnil : sampleToken 1 2 ≠ [] := by decide +kernel
  have hplain : plainJwt.verify (sampleToken 1 2) now = .ok (.fields
      (some ((sampleToken 1 2).take 36)) (some ((sampleToken 1 2).drop 36))) := by
    simp only [plainJwt, if_neg hnil]
  rw [hplain] at hfields
  obtain ⟨-, hsession⟩ := JwtDecoded.fields.inj (Except.ok.inj hfields)
  obtain rfl := Option.some.inj hsession
  show Uuid.parse ((sampleToken 1 2).drop 36) = some (sampleId 2)
  decide +kernel

theorem logout_is_final_sample : ∃ (τ : Pool ApiState Arrival Flight) (r : HttpRequest)
    (drawn : Uuid) (f : Flight), τ.processes[2]? = some (.http r drawn, f) ∧
      layers sampleBackend.config sampleBackend.urlOrigin r = .endpoint .me ∧
        r.accessToken = .text (sampleToken 1 2) ∧
          (f.phase = .securing (sampleToken 1 2) ∨ ∃ response error,
            f.phase = .answered response ∧ response.body = .error error) := by
  obtain ⟨σ, hσ, hlogout, hafter⟩ := exists_reachable sampleBackend sampleLogoutRun
    (fun σ => (σ.processes[1]?).any (fun p => endpointOf sampleBackend p.1 == some .logout &&
        p.2.phase.revokes (js "ada@example.com") && σ.shared.auth.db.sessions.any (fun row =>
          row.id == sampleId 2 && row.tokenHash == js "ada@example.com")) = true ∧
      ((apiSystem sampleBackend).step σ (.step 1 .query)).any (fun σ' =>
        σ'.processes.length == 2 &&
          (((apiSystem sampleBackend).startedAt σ').runIf (genuineAction sampleBackend) σ'
            sampleLateRun).any (fun τ => (τ.processes[2]?).any (fun p =>
              endpointOf sampleBackend p.1 == some .me &&
                p.1.bringsToken (sampleToken 1 2)))) = true)
    (by decide +kernel)
  obtain ⟨⟨a, f⟩, hm, hchecks⟩ := (Option.any_eq_true _ _).mp hlogout
  simp only [Bool.and_eq_true, beq_iff_eq, List.any_eq_true] at hchecks
  obtain ⟨⟨hendpoint, hrevokes⟩, row, hrow, hid, hhash⟩ := hchecks
  obtain ⟨r, drawn, rfl, hlayers⟩ := endpointOf_eq_some hendpoint
  have hphase : f.phase = .revoking (js "ada@example.com") := by
    cases hp : f.phase with
    | revoking token =>
      rw [hp] at hrevokes
      rw [beq_iff_eq.mp hrevokes]
    | _ =>
      rw [hp] at hrevokes
      cases hrevokes
  have hdeletes : DeletesSession sampleBackend σ 1 .query row :=
    ⟨Or.inl rfl, r, drawn, f, hm, Or.inl ⟨hlayers, _, hphase, hhash⟩⟩
  obtain ⟨σ', hstep, hlate⟩ := (Option.any_eq_true _ _).mp hafter
  obtain ⟨hlength, hlate⟩ := Bool.and_eq_true_iff.mp hlate
  obtain ⟨τ, hrun, hτ⟩ := (Option.any_eq_true _ _).mp hlate
  obtain ⟨⟨b, f'⟩, hn, hb⟩ := (Option.any_eq_true _ _).mp hτ
  simp only [Bool.and_eq_true, beq_iff_eq] at hb
  obtain ⟨r', drawn', rfl, hlayers'⟩ := endpointOf_eq_some hb.1
  have htoken : r'.accessToken = .text (sampleToken 1 2) := by
    have hbrings := hb.2
    simp only [Arrival.bringsToken] at hbrings
    split at hbrings
    · rename_i htext
      rw [htext, beq_iff_eq.mp hbrings]
    · cases hbrings
  have hreach : ((apiSystem sampleBackend).startedAt σ').Reachable
      (GenuineRequests sampleBackend).lift τ :=
    .of_runIf (fun s b _ => genuineAction_sound) (.init rfl) hrun
  have hgenuine : (GenuineRequests sampleBackend).lift σ (.step 1 .query) :=
    genuineAction_sound (by simp [genuineAction, hm, genuineStep])
  refine ⟨τ, r', drawn', f', hn, hlayers', htoken, ?_⟩
  exact (logout_is_final hσ hgenuine hstep hrow hdeletes hreach).2.1 2 r' drawn' f'
    (beq_iff_eq.mp hlength).le hn .me (sampleToken 1 2) hlayers' rfl htoken
    (hid ▸ names_sampleToken)

end Runs

end MernChat.Api
