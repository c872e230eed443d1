import MernChat.Api.Coherence

/-!
# What a request knows

A request knows the user it has shown or was attached, and nothing that other requests do takes
that away.

## Main definitions

* `GenuineRequests`: only issued tokens verify, and the ids of sessions are fresh
* `AttachedTo`, `ServedTo`: the user of a request, and a message that is served to it
* `Known`: what is known of a request or a socket

## Main results

* `Known.stable`: what is known of a process survives the steps of the others
-/

namespace MernChat.Api

open Library

section Definitions

variable (B : Backend)

/-- Whatever the token names was issued with it. -/
def Issued (s : ApiState) (token : JsString) (now : Int) : Prop :=
  ∀ userId sessionId, B.jwt.verify token now = .ok (.fields (some userId) (some sessionId)) →
    (token, ⟨userId, sessionId⟩) ∈ s.auth.minted

/-- Only issued tokens verify, as what they were issued for; session ids are fresh. -/
def GenuineRequests : PoolGuard ApiState Arrival Flight ApiAction := fun _ a f action s =>
  match a, f.phase, action with
  | .http _ _, .creatingSession _, .createSession id _ _ _ => id ∉ s.auth.created.map Prod.fst
  | .http _ _, .securing token, .at now => Issued B s token now
  | .socket (some token), .handshake, .at now => Issued B s token now
  | _, _, _ => True

/-- The request of a process has the user attached, for the token it has brought. -/
def AttachedTo (s : ApiState) (n : ℕ) (r : HttpRequest) (user : PublicUser) : Prop :=
  ∃ token now lookup, r.accessToken = .text token ∧
    s.auth.requests n = some (.attached token now lookup user) ∧ AllGranted s.grants lookup

/-- The process is a gate's, between its lookups. -/
def InGate (s : ApiState) (n : ℕ) (gate : AuthGate) (token : JsString) : Prop :=
  ∃ now lookup, s.auth.requests n = some (.gate gate token now lookup) ∧
    AllGranted s.grants lookup

/-- **The message is one that the two have sent each other**, with its sender, and with its
receiver as the reader has written the id. -/
def ServedTo (s : ApiState) (userId id : JsString) (m : SerializedMessage) : Prop :=
  ∃ u v, userId = u.toText ∧ Uuid.parse id = some v ∧ u ≠ v ∧
    ∃ row ∈ s.chat.db.messages, serializeMessage (mapMessage row) m.receiverId = some m ∧
      ∃ x ∈ s.authorships,
        SentBy x.env x.input u v row ∧ m.senderId = userId ∧ m.receiverId = id ∨
          SentBy x.env x.input v u row ∧ m.senderId = v.toText ∧ m.receiverId = userId

/-- A page is answered to the user that is attached, of the conversation asked for. -/
def AnsweredPage (s : ApiState) (n : ℕ) (r : HttpRequest) (page : MessagePageResult) : Prop :=
  ∃ user id, AttachedTo s n r user ∧ layers B.config B.urlOrigin r = .endpoint (.getMessage id) ∧
    ∀ m ∈ page.messages, ServedTo s user._id id m

/-- The session of the grant, and its user. -/
def Grant.names (g : Grant) (userId sessionId : JsString) : Prop :=
  g.userId = userId ∧ g.sessionId.toText = sessionId

/-- The request has brought a refresh token of the session. -/
def RefreshesWith (r : HttpRequest) (g : Grant) : Prop :=
  ∃ token, r.refreshToken = .text token ∧ B.hashToken token = g.tokenHash

/-- The call of a process, and its record. -/
structure Calling (s : ApiState) (n : ℕ) (k : ℕ) (call : SendCall) : Prop where
  there : s.chat.calls[k]? = some call
  record : ∃ x, s.authorships[k]? = some x ∧ x.process = n ∧ x.input = call.input
  pending : call.phase ≠ .ended

/-- What is known of a request. -/
def KnownRequest (n : ℕ) (r : HttpRequest) (s : ApiState) : Phase → Prop
  | .findingEmail => layers B.config B.urlOrigin r = .endpoint .signup
  | .insertingUser => layers B.config B.urlOrigin r = .endpoint .signup ∧
    ∃ email password, r.fields.email = some email ∧ r.fields.password = some password
  | .authenticating => layers B.config B.urlOrigin r = .endpoint .login
  | .creatingSession user =>
    s.auth.requests n = some (.authenticated user._id) ∧ ShowsUser B s r user._id
  | .issuingToken user refreshToken =>
    ∃ session, s.auth.requests n = some (.sessionCreated user._id session) ∧
      ∃ g ∈ s.grants, g.process = n ∧ g.names user._id session.id ∧
        B.hashToken refreshToken = g.tokenHash
  | .refreshing token => r.refreshToken = .text token
  | .issuingRefreshed session => s.auth.requests n = some (.refreshed session) ∧
    ∃ g ∈ s.grants, g.names session.userId session.id ∧ RefreshesWith B r g
  | .findingUser session => s.auth.requests n = some (.refreshIssued session)
  | .revokingGone | .revokingAll => ∃ userId, s.auth.requests n = some (.revoking userId)
  | .securing token => r.accessToken = .text token
  | .secured => ∃ token, r.accessToken = .text token ∧ InGate s n .secureRoute token
  | .attached user | .listing user | .findingChatUser user | .findingConversation user =>
    AttachedTo s n r user
  | .sending user k call => AttachedTo s n r user ∧ Calling s n k call ∧
    ∀ id, layers B.config B.urlOrigin r = .endpoint (.sendMessage id) → call.input.receiverId = id
  | .findingPage user conversation _ => AttachedTo s n r user ∧
    ∀ id, layers B.config B.urlOrigin r = .endpoint (.getMessage id) →
      Resolved s.chat.db.conversations ⟨user._id, id, [], []⟩ conversation
  | .answered response => ∀ page, response.body = .page page → AnsweredPage B s n r page
  | _ => True

/-- What is known of a socket. -/
def KnownSocket (n : ℕ) (accessToken : Option JsString) (s : ApiState) : Phase → Prop
  | .handshakeFound => ∃ token, accessToken = some token ∧ InGate s n .socketHandshake token
  | .connected userId => ∃ token now lookup, accessToken = some token ∧
    s.auth.requests n = some (.connected token now lookup userId) ∧ AllGranted s.grants lookup
  | _ => True

/-- What is known of a process. -/
def Known (n : ℕ) (a : Arrival) (f : Flight) (s : ApiState) : Prop :=
  match a with
  | .http r _ => KnownRequest B n r s f.phase
  | .socket accessToken => KnownSocket n accessToken s f.phase

/-- What the others leave to a process. -/
structure Rely (n : ℕ) (s t : ApiState) : Prop where
  grows : Grows s t
  requests : t.auth.requests n = s.auth.requests n
  calls : ∀ (k : ℕ) x, s.authorships[k]? = some x → x.process = n →
    t.chat.calls[k]? = s.chat.calls[k]?

end Definitions

/-! ## What is known stays known -/

section Stable

variable {B : Backend} {s t : ApiState} {n : ℕ} {r : HttpRequest}

theorem Advance.rely {m : ℕ} {a : Arrival} (h : Advance B n a s t) (hm : m ≠ n) : Rely m s t :=
  ⟨h.grows, h.requests m hm, fun k x hk hx => h.calls k x hk (hx ▸ hm)⟩

theorem AttachedTo.stable (h : Rely n s t) {user : PublicUser} (ha : AttachedTo s n r user) :
    AttachedTo t n r user := by
  obtain ⟨token, now, lookup, htoken, hreq, hgranted⟩ := ha
  exact ⟨token, now, lookup, htoken, h.requests.trans hreq, hgranted.mono h.grows.grants⟩

theorem InGate.stable (h : Rely n s t) {gate : AuthGate} {token : JsString}
    (hg : InGate s n gate token) : InGate t n gate token := by
  obtain ⟨now, lookup, hreq, hgranted⟩ := hg
  exact ⟨now, lookup, h.requests.trans hreq, hgranted.mono h.grows.grants⟩

theorem ServedTo.mono (h : Grows s t) {userId id : JsString} {m : SerializedMessage}
    (hm : ServedTo s userId id m) : ServedTo t userId id m := by
  obtain ⟨u, v, hu, hv, hne, row, hrow, hserialized, x, hx, hsent⟩ := hm
  exact ⟨u, v, hu, hv, hne, row, h.messages row hrow, hserialized, x, h.authorships.subset hx,
    hsent⟩

theorem AnsweredPage.stable (h : Rely n s t) {page : MessagePageResult}
    (hp : AnsweredPage B s n r page) : AnsweredPage B t n r page := by
  obtain ⟨user, id, hattached, hlayers, hserved⟩ := hp
  exact ⟨user, id, hattached.stable h, hlayers, fun m hm => (hserved m hm).mono h.grows⟩

theorem Calling.stable (h : Rely n s t) {k : ℕ} {call : SendCall} (hc : Calling s n k call) :
    Calling t n k call := by
  obtain ⟨x, hx, hn, hinput⟩ := hc.record
  exact ⟨(h.calls k x hx hn).trans hc.there, ⟨x, h.grows.getElem?_authorships hx, hn, hinput⟩,
    hc.pending⟩

theorem KnownRequest.stable (h : Rely n s t) {phase : Phase} (hk : KnownRequest B n r s phase) :
    KnownRequest B n r t phase := by
  cases phase with
  | findingEmail | insertingUser | authenticating => exact hk
  | creatingSession user => exact ⟨h.requests.trans hk.1, hk.2.mono h.grows⟩
  | issuingToken user refreshToken =>
    obtain ⟨session, hreq, g, hg, hgrant⟩ := hk
    exact ⟨session, h.requests.trans hreq, g, h.grows.grants g hg, hgrant⟩
  | refreshing token => exact hk
  | issuingRefreshed session =>
    obtain ⟨hreq, g, hg, hgrant⟩ := hk
    exact ⟨h.requests.trans hreq, g, h.grows.grants g hg, hgrant⟩
  | findingUser session => exact h.requests.trans hk
  | revokingGone | revokingAll =>
    obtain ⟨userId, hreq⟩ := hk
    exact ⟨userId, h.requests.trans hreq⟩
  | securing token => exact hk
  | secured =>
    obtain ⟨token, htoken, hgate⟩ := hk
    exact ⟨token, htoken, hgate.stable h⟩
  | attached user | listing user | findingChatUser user | findingConversation user =>
    exact AttachedTo.stable h hk
  | sending user k call => exact ⟨hk.1.stable h, hk.2.1.stable h, hk.2.2⟩
  | findingPage user conversation cursor =>
    exact ⟨hk.1.stable h, fun id hlayers => (hk.2 id hlayers).mono h.grows.conversations⟩
  | answered response => exact fun page hpage => (hk page hpage).stable h
  | _ => exact trivial

theorem KnownSocket.stable (h : Rely n s t) {accessToken : Option JsString} {phase : Phase}
    (hk : KnownSocket n accessToken s phase) : KnownSocket n accessToken t phase := by
  cases phase with
  | handshakeFound =>
    obtain ⟨token, htoken, hgate⟩ := hk
    exact ⟨token, htoken, hgate.stable h⟩
  | connected userId =>
    obtain ⟨token, now, lookup, htoken, hreq, hgranted⟩ := hk
    exact ⟨token, now, lookup, htoken, h.requests.trans hreq, hgranted.mono h.grows.grants⟩
  | _ => exact trivial

/-- **What is known of a process survives the steps of the others.** -/
theorem Known.stable (h : Rely n s t) {a : Arrival} {f : Flight} (hk : Known B n a f s) :
    Known B n a f t := by
  cases a with
  | http r drawn => exact KnownRequest.stable h hk
  | socket accessToken => exact KnownSocket.stable h hk

/-- The user of a request is authorized. -/
theorem AttachedTo.authorized {user : PublicUser} (h : AttachedTo s n r user) (hc : Coherent B s) :
    ∃ token now lookup, r.accessToken = .text token ∧
      s.auth.requests n = some (.attached token now lookup user) ∧
        Authorized s token now lookup user._id := by
  obtain ⟨token, now, lookup, htoken, hreq, hgranted⟩ := h
  exact ⟨token, now, lookup, htoken, hreq, hc.bound.requests n _ hreq, hgranted⟩

end Stable

end MernChat.Api
