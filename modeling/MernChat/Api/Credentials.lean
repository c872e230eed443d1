import MernChat.Api.Revocation

/-!
# Who is given tokens

Tokens are handed out in cookies. A signup and a login set those of the session they have created,
for the user they have shown a password of; a refresh sets the access token of the session whose
refresh token it has brought. No other answer sets a token, whatever runs beside it.

## Main definitions

* `SetsCookies`: what a step does to the cookies
* `CookieFrom`: a token of a cookie goes back to the request or to its refresh token

## Main results

* `httpStep_cookies`: every step of a request
* `credentials_go_to_owner`: every cookie of every answer
-/

namespace MernChat.Api

open Library

/-- **What a step does to the cookies**: nothing, clear them, or set tokens it has issued. -/
inductive SetsCookies (B : Backend) (n : ℕ) (s : ApiState) (phase : Phase) (res : PendingResponse)
    (x : Flight × ApiState) : Prop
  | nothing (cookies : x.1.res.cookies = res.cookies)
  | clears (cookies : x.1.res.cookies = (clearAuthCookies B.config res).cookies)
  | issues {user : PublicUser} {refreshToken userId : JsString} {session : PostgresSession}
      {now : Int} (at_phase : phase = .issuingToken user refreshToken)
      (request : s.auth.requests n = some (.sessionCreated userId session))
      (step : s.authenticate B (.issueToken n now) = some x.2)
      (cookies : x.1.res.cookies = ((res.accessToken B.config
        (issueAccessToken B.jwt now userId session.id)).refreshToken B.config
          refreshToken).cookies)
  | refreshes {session : PostgresSession} {now : Int} (at_phase : phase = .issuingRefreshed session)
      (step : s.authenticate B (.issueToken n now) = some x.2)
      (cookies : x.1.res.cookies =
        (res.accessToken B.config (issueAccessToken B.jwt now session.userId session.id)).cookies)

section Steps

variable {B : Backend} {s t : ApiState} {n : ℕ} {r : HttpRequest} {drawn : Uuid}
  {requestId : JsString} {res : PendingResponse} {action : ApiAction} {phase : Phase}
  {x : Flight × ApiState} {endpoint : Endpoint}

theorem cookies_of_cleared {f : Flight} {res' : PendingResponse} (hf : f.res = res')
    (h : res' = res ∨ res' = clearAuthCookies B.config res) :
    SetsCookies B n s phase res (f, t) := by
  rcases h with rfl | rfl
  · exact .nothing (congrArg PendingResponse.cookies hf)
  · exact .clears (congrArg PendingResponse.cookies hf)

/-- **Every way that a step goes**, and the cookies. -/
theorem HandlerStep.cookies (h : HandlerStep B n r requestId drawn endpoint res s phase action x) :
    SetsCookies B n s phase res x := by
  cases h with
  | tokenIssued _ hreq ht => exact .issues rfl hreq ht rfl
  | tokenReissued _ ht => exact .refreshes rfl ht rfl
  | refusedAfter _ _ _ _ _ _ _ hcookies | answeredAfter _ _ _ _ _ _ hcookies =>
    exact cookies_of_cleared rfl hcookies
  | _ => exact .nothing rfl

/-- **Every step of a request**, and the cookies. -/
theorem httpStep_cookies {f : Flight}
    (h : httpStep B n r requestId drawn f action s = some x) :
    SetsCookies B n s f.phase f.res x := by
  obtain ⟨res, phase⟩ := f
  obtain ⟨endpoint, -, hstep⟩ := httpStep_cases h
  exact hstep.cookies

end Steps

/-! ## Every run -/

/-- **The cookie is the request's own**: a token of a session that it was granted, or an access
token of one whose refresh token it has brought. -/
def CookieFrom (B : Backend) (n : ℕ) (r : HttpRequest) (s : ApiState) (c : SetCookie) : Prop :=
  ∀ token, c.value = some token →
    (c.name = js "accessToken" ∧ ∃ g ∈ s.grants,
      (token, ⟨g.userId, g.sessionId.toText⟩) ∈ s.auth.minted ∧
        (g.process = n ∨ RefreshesWith B r g)) ∨
    c.name = js "refreshToken" ∧ ∃ g ∈ s.grants, g.process = n ∧ B.hashToken token = g.tokenHash

section Cookies

variable {B : Backend} {s t : ApiState} {n : ℕ} {r : HttpRequest} {drawn : Uuid}
  {requestId : JsString} {f f' : Flight} {action : ApiAction}

theorem CookieFrom.mono (h : Grows s t) {c : SetCookie} (hc : CookieFrom B n r s c) :
    CookieFrom B n r t c := by
  intro token htoken
  rcases hc token htoken with ⟨hname, g, hg, hminted, hown⟩ | ⟨hname, g, hg, hown⟩
  · exact Or.inl ⟨hname, g, h.grants g hg, h.auth.minted _ hminted, hown⟩
  · exact Or.inr ⟨hname, g, h.grants g hg, hown⟩

theorem cookieFrom_cleared {c : SetCookie} {res : PendingResponse}
    (hres : ∀ c ∈ res.cookies, CookieFrom B n r s c)
    (hc : c ∈ (clearAuthCookies B.config res).cookies) : CookieFrom B n r s c := by
  rcases List.mem_append.mp hc with hc | hc
  · rcases List.mem_append.mp hc with hc | hc
    · exact hres c hc
    · obtain rfl := List.mem_singleton.mp hc
      exact nofun
  · obtain rfl := List.mem_singleton.mp hc
    exact nofun

/-- The token is recorded when it is issued. -/
theorem mem_minted {now : Int} {userId : JsString} {session : PostgresSession}
    (hreq : s.auth.requests n = some (.sessionCreated userId session) ∨
      session.userId = userId ∧ s.auth.requests n = some (.refreshed session))
    (h : s.authenticate B (.issueToken n now) = some t) :
    (issueAccessToken B.jwt now userId session.id, ⟨userId, session.id⟩) ∈ t.auth.minted := by
  obtain ⟨auth, hauth, rfl⟩ := exists_authStep h
  rcases hreq with hreq | ⟨rfl, hreq⟩
  · simp only [authStep, hreq] at hauth
    obtain rfl := Option.some.inj hauth
    exact List.mem_cons_self
  · simp only [authStep, hreq] at hauth
    obtain rfl := Option.some.inj hauth
    exact List.mem_cons_self

/-- **A step sets no cookies but the request's own.** -/
theorem cookies_step (hk : KnownRequest B n r s f.phase) (hg : Grows s t)
    (hcookies : ∀ c ∈ f.res.cookies, CookieFrom B n r s c)
    (h : httpStep B n r requestId drawn f action s = some (f', t)) :
    ∀ c ∈ f'.res.cookies, CookieFrom B n r t c := by
  have hold : ∀ c ∈ f.res.cookies, CookieFrom B n r t c := fun c hc => (hcookies c hc).mono hg
  obtain ⟨res, phase⟩ := f
  intro c hc
  cases httpStep_cookies h with
  | nothing heq => exact hold c (heq ▸ hc)
  | clears heq => exact cookieFrom_cleared hold (heq ▸ hc)
  | @issues user refreshToken userId session now hphase hreq hstep heq =>
    obtain rfl : phase = .issuingToken user refreshToken := hphase
    obtain ⟨session', hreq', g, hgrant, hown, ⟨huser, hsession⟩, hhash⟩ := hk
    obtain ⟨rfl, rfl⟩ := AuthRequest.sessionCreated.inj (Option.some.inj (hreq.symm.trans hreq'))
    have hminted := mem_minted (Or.inl hreq) hstep
    have hmem : c ∈ res.cookies ++ [_] ++ [_] := heq ▸ hc
    rcases List.mem_append.mp hmem with hmem | hmem
    · rcases List.mem_append.mp hmem with hmem | hmem
      · exact hold c hmem
      · obtain rfl := List.mem_singleton.mp hmem
        intro token htoken
        obtain rfl := Option.some.inj htoken
        exact Or.inl ⟨rfl, g, hg.grants g hgrant, by rw [huser, hsession]; exact hminted,
          Or.inl hown⟩
    · obtain rfl := List.mem_singleton.mp hmem
      intro token htoken
      obtain rfl := Option.some.inj htoken
      exact Or.inr ⟨rfl, g, hg.grants g hgrant, hown, hhash⟩
  | @refreshes session now hphase hstep heq =>
    obtain rfl : phase = .issuingRefreshed session := hphase
    obtain ⟨hreq, g, hgrant, ⟨huser, hsession⟩, hrefreshes⟩ := hk
    have hminted := mem_minted (Or.inr ⟨rfl, hreq⟩) hstep
    have hmem : c ∈ res.cookies ++ [_] := heq ▸ hc
    rcases List.mem_append.mp hmem with hmem | hmem
    · exact hold c hmem
    · obtain rfl := List.mem_singleton.mp hmem
      intro token htoken
      obtain rfl := Option.some.inj htoken
      exact Or.inl ⟨rfl, g, hg.grants g hgrant, by rw [huser, hsession]; exact hminted,
        Or.inr hrefreshes⟩

theorem cookies_enter {res : PendingResponse} {endpoint : Endpoint} :
    (enter B requestId res r endpoint).res = res ∨
      (enter B requestId res r endpoint).res = clearAuthCookies B.config res := by
  unfold enter
  split
  · exact Or.inl rfl
  · exact Or.inl rfl
  · exact Or.inl rfl
  · exact Or.inl rfl
  · exact Or.inl rfl
  · split
    · exact Or.inl rfl
    · exact Or.inl rfl
  · split
    · exact Or.inr rfl
    · exact Or.inr rfl
    · exact Or.inl rfl
    · exact Or.inl rfl
  · split
    · exact Or.inl rfl
    · exact Or.inl rfl

/-- A request starts without tokens. -/
theorem cookies_dispatch : ∀ c ∈ (dispatch B requestId r).res.cookies, CookieFrom B n r s c := by
  have hnone : ∀ c ∈ (requestContext B.config requestId).cookies, CookieFrom B n r s c := nofun
  unfold dispatch
  simp only
  split
  · exact hnone
  · exact hnone
  · rename_i endpoint _
    rcases cookies_enter (B := B) (r := r) with henter | henter
    · rw [henter]
      exact hnone
    · rw [henter]
      exact fun c hc => cookieFrom_cleared hnone hc

/-- What is answered has the cookies that were set. -/
def SendsCookies (f : Flight) : Prop :=
  ∀ response, f.phase = .answered response → response.cookies = f.res.cookies

theorem sendsCookies_answer {res : PendingResponse} (statusCode : ℕ) (body : ResponseBody) :
    SendsCookies (answer res statusCode body) := by
  intro response hphase
  rw [← Phase.answered.inj hphase]
  rfl

theorem sendsCookies_refuse {res : PendingResponse} (error : RequestError) :
    SendsCookies (refuse requestId res error) := by
  intro response hphase
  rw [← Phase.answered.inj hphase]
  rfl

theorem sendsCookies_of_has {endpoint : Endpoint} (h : endpoint.has f.phase = true) :
    SendsCookies f := by
  intro response hphase
  rw [hphase] at h
  cases endpoint <;> cases h

theorem sendsCookies_of_continues {endpoint : Endpoint} {res : PendingResponse} {phase : Phase}
    (h : Continues B.config requestId endpoint res phase f) : SendsCookies f := by
  cases h with
  | next sets has rank => exact sendsCookies_of_has has
  | answer sets status fine => exact sendsCookies_answer _ _
  | refuse sets error => exact sendsCookies_refuse error

theorem sendsCookies_dispatch : SendsCookies (dispatch B requestId r) := by
  unfold dispatch
  simp only
  split
  · exact sendsCookies_refuse _
  · exact sendsCookies_answer _ _
  · unfold enter
    split
    · exact sendsCookies_answer _ _
    · exact nofun
    · exact nofun
    · exact nofun
    · exact nofun
    · split
      · exact nofun
      · exact sendsCookies_refuse _
    · split
      · exact sendsCookies_answer _ _
      · exact sendsCookies_answer _ _
      · exact nofun
      · exact sendsCookies_refuse _
    · split
      · exact nofun
      · exact sendsCookies_refuse _

end Cookies

section Runs

variable {B : Backend} {σ τ : Pool ApiState Arrival Flight}

/-- The tokens a request sets are its own, and so are those it has sent. -/
structure Owns (B : Backend) (n : ℕ) (r : HttpRequest) (s : ApiState) (f : Flight) : Prop where
  cookies : ∀ c ∈ f.res.cookies, CookieFrom B n r s c
  sends : SendsCookies f

theorem owns_of_reachable (h : (apiSystem B).Reachable (GenuineRequests B).lift σ) {n : ℕ}
    {r : HttpRequest} {drawn : Uuid} {f : Flight}
    (hn : σ.processes[n]? = some (.http r drawn, f)) : Owns B n r σ.shared f := by
  have hall : ∀ (n : ℕ) (r : HttpRequest) (drawn : Uuid) (f : Flight),
      σ.processes[n]? = some (.http r drawn, f) → Owns B n r σ.shared f := by
    refine h.invariant_of
      (I := fun σ => ∀ (n : ℕ) (r : HttpRequest) (drawn : Uuid) (f : Flight),
        σ.processes[n]? = some (.http r drawn, f) → Owns B n r σ.shared f)
      (J := fun σ => Sound B σ ∧ ∀ (n : ℕ) (r : HttpRequest) (drawn : Uuid)
        (f : Flight), σ.processes[n]? = some (.http r drawn, f) →
          Routed B (normalizeRequestId drawn r.requestId) r f)
      (fun _ hs => ⟨sound_of_reachable hs, fun _ _ _ _ hn => routed_of_reachable hs hn⟩) ?_ ?_
    · rintro s ⟨-, hnone⟩ n r drawn f hn
      rw [hnone] at hn
      cases hn
    · rintro s (a | ⟨m, action⟩) t ⟨hs, hrouted⟩ - howns hg hstep n r drawn f hn
      · obtain ⟨f', shared, hstart, rfl⟩ := PoolProgram.poolStep_start hstep
        rcases PoolProgram.getElem?_concat_eq hn with ⟨hold, -⟩ | ⟨rfl, heq⟩
        · obtain rfl : shared = s.shared := by
            cases a with
            | http r drawn => exact (Prod.mk.inj (Option.some.inj hstart)).2.symm
            | socket accessToken => exact (Prod.mk.inj (Option.some.inj hstart)).2.symm
          exact howns n r drawn f hold
        · obtain ⟨rfl, rfl⟩ := Prod.mk.inj heq
          obtain ⟨rfl, -⟩ := Prod.mk.inj (Option.some.inj hstart)
          exact ⟨cookies_dispatch, sendsCookies_dispatch⟩
      · obtain ⟨a, f₁, f₂, shared, hm, hst, rfl⟩ := PoolProgram.poolStep_step hstep
        have hadvance : Advance B m a s.shared shared := by
          cases a with
          | http r drawn => exact (kept_httpStep hs.coherent (hs.known m _ f₁ hm) (hg _ hm) hst).1
          | socket accessToken =>
            exact (kept_socketStep hs.coherent (hs.known m _ f₁ hm) (hg _ hm) hst).1
        rcases PoolProgram.getElem?_set_eq hn with ⟨hold, -⟩ | ⟨rfl, heq⟩
        · have hown := howns n r drawn f hold
          exact ⟨fun c hc => (hown.cookies c hc).mono hadvance.grows, hown.sends⟩
        · obtain ⟨rfl, rfl⟩ := Prod.mk.inj heq
          refine ⟨cookies_step (hs.known n _ f₁ hm) hadvance.grows
            (howns n r drawn f₁ hm).cookies hst, ?_⟩
          rcases (hrouted n r drawn f₁ hm).placed with ⟨endpoint, hlayers, hhas⟩ | ⟨_, hphase, -⟩
          · exact sendsCookies_of_continues (httpStep_continues hlayers hhas hst)
          · obtain ⟨res, phase⟩ := f₁
            obtain rfl := hphase
            exact nomatch httpStep_answered.symm.trans hst
  exact hall n r drawn f hn

/-- **Tokens go to their owner**, in every run. The cookies of `clearCookie` have no token; what any
other cookie of an answer has is a refresh token of a session that the request was granted, for the
user it has shown a password of; or an access token of such a session, or of one whose refresh token
the request has brought. -/
theorem credentials_go_to_owner (h : (apiSystem B).Reachable (GenuineRequests B).lift σ) {n : ℕ}
    {r : HttpRequest} {drawn : Uuid} {f : Flight}
    (hn : σ.processes[n]? = some (.http r drawn, f)) {response : HttpResponse}
    (hanswered : f.phase = .answered response) {c : SetCookie} (hc : c ∈ response.cookies)
    {token : JsString} (htoken : c.value = some token) :
    (c.name = js "accessToken" ∧ ∃ g ∈ σ.shared.grants,
      (token, ⟨g.userId, g.sessionId.toText⟩) ∈ σ.shared.auth.minted ∧
        (g.process = n ∧ ShowsUser B σ.shared r g.userId ∨ RefreshesWith B r g)) ∨
    c.name = js "refreshToken" ∧ ∃ g ∈ σ.shared.grants, g.process = n ∧
      B.hashToken token = g.tokenHash ∧ ShowsUser B σ.shared r g.userId := by
  -- what was granted to the process was granted to its request
  have hshown : ∀ g ∈ σ.shared.grants, g.process = n → ShowsUser B σ.shared r g.userId := by
    rintro g hg rfl
    obtain ⟨r', drawn', harrival, hshown⟩ := (coherent_of_reachable h).grants g hg
    obtain ⟨f', hf'⟩ := exists_process h (g.process, g.arrival) (Or.inl ⟨g, hg, rfl⟩)
    rw [hn, harrival] at hf'
    obtain ⟨hrequest, -⟩ := Prod.mk.inj (Option.some.inj hf')
    rw [(Arrival.http.inj hrequest).1]
    exact hshown
  obtain ⟨hcookies, hsends⟩ := owns_of_reachable h hn
  rw [hsends response hanswered] at hc
  rcases hcookies c hc token htoken with ⟨hname, g, hg, hminted, hown⟩ | ⟨hname, g, hg, hown, hhash⟩
  · refine Or.inl ⟨hname, g, hg, hminted, ?_⟩
    rcases hown with hown | hrefreshes
    · exact Or.inl ⟨hown, hshown g hg hown⟩
    · exact Or.inr hrefreshes
  · exact Or.inr ⟨hname, g, hg, hown, hhash, hshown g hg hown⟩

/-- The two cookies of a signup. -/
theorem credentials_go_to_owner_sample : ∃ (σ : Pool ApiState Arrival Flight) (r : HttpRequest)
    (response : HttpResponse), response.cookies.length = 2 ∧
      ∀ c ∈ response.cookies, ∀ token, c.value = some token →
        (c.name = js "accessToken" ∧ ∃ g ∈ σ.shared.grants,
          (token, ⟨g.userId, g.sessionId.toText⟩) ∈ σ.shared.auth.minted ∧
            (g.process = 0 ∧ ShowsUser sampleBackend σ.shared r g.userId ∨
              RefreshesWith sampleBackend r g)) ∨
        c.name = js "refreshToken" ∧ ∃ g ∈ σ.shared.grants, g.process = 0 ∧
          sampleBackend.hashToken token = g.tokenHash ∧
            ShowsUser sampleBackend σ.shared r g.userId := by
  obtain ⟨σ, hσ, hexchange⟩ := exists_reachable sampleBackend
    (sampleSignupRun 0 1 2 "ada@example.com")
    (fun σ => (exchange σ 0).any (fun x => x.2.2.cookies.length = 2) = true) (by decide +kernel)
  obtain ⟨⟨r, drawn, response⟩, hx, hchecks⟩ := (Option.any_eq_true _ _).mp hexchange
  obtain ⟨f, hn, hanswered⟩ := exchange_eq_some hx
  exact ⟨σ, r, response, of_decide_eq_true hchecks,
    fun c hc token htoken => credentials_go_to_owner hσ hn hanswered hc htoken⟩

end Runs

end MernChat.Api
