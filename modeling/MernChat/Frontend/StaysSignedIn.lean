import MernChat.Frontend.OneSocket

/-!
# What a user sees of the connection

A page shows one connection, that of its user. It never waits for nothing: what is shown settles
after a few renders, and a page that is settled is connected, tries to connect, or awaits an answer.
A user stays signed in while the server refuses no socket for good.

## Main definitions

* `Providers.contexts`: what the components show
* `Providers.Settled`: nothing is to be rendered or run
* `StayGuard`: what does not sign a user out

## Main results

* `one_socket`: one socket, and nothing is seen of the ones before
* `page_settles`: the page is not stuck
* `stays_signed_in`: what signs a user out
-/

namespace MernChat

open Library Library.TransitionSystem SocketProvider

variable {s t : Providers} {p : SocketProvider} {k : ℕ} {effect : SocketEffect}

/-! ## One socket -/

/-- The values of the two contexts. -/
def Providers.contexts (s : Providers) : Option AuthObject × AuthStatus × Option ℕ ×
    List JsString × SocketConnectionStatus :=
  (s.auth.authUser, s.auth.authStatus, s.sockets.socket, s.sockets.onlineUsers,
    s.sockets.connectionStatus)

/-- The action is of the socket of a run. -/
def ProvidersAction.ofSocket (k : ℕ) : ProvidersAction → Bool
  | .socketEvent j _ | .sessionChecked j _ => j == k
  | _ => false

/-- A run that is cleaned up does nothing any more. -/
theorem contexts_of_cleanedUp (hclean : ∀ effect, s.sockets.effects[k]? = some effect →
    effect.CleanedUp) {a : ProvidersAction} (ha : a.ofSocket k = true)
    (h : providersStep s a = some t) : t.contexts = s.contexts := by
  cases a with
  | auth | render | runSocketEffect | remount => cases ha
  | socketEvent j event =>
    obtain rfl : j = k := beq_iff_eq.mp ha
    obtain ⟨result, hresult, -⟩ := Option.map_eq_some_iff.mp h
    obtain ⟨effect, hrun, hopen⟩ := emitEvent_eq_some hresult
    exact absurd (hclean effect hrun).closed hopen
  | sessionChecked j ok =>
    obtain rfl : j = k := beq_iff_eq.mp ha
    obtain ⟨result, hresult, rfl⟩ := Option.map_eq_some_iff.mp h
    obtain ⟨effect, hrun, -, rfl⟩ := sessionChecked_eq_some hresult
    rw [handleSessionCheck, (hclean effect hrun).active]
    rfl

/-- **One socket.** In every run, whatever comes when: a socket that is not closed is that of the
context, and of the user the effect was last run with; without a user there is none, and no one is
shown as online; and what still comes from a socket that was replaced is not seen. An `auth:expired`
of the interceptor is an event of its own, whichever request it is dispatched for. -/
theorem one_socket (h : providersSystem.Reachable Guard.all s) :
    (∀ k effect, s.sockets.effects[k]? = some effect → effect.nextSocket ≠ .closed →
      s.sockets.socket = some k ∧ s.sockets.dependency = some effect.authUser) ∧
    (s.sockets.dependency = none → s.sockets.socket = none ∧ s.sockets.onlineUsers = [] ∧
      s.sockets.connectionStatus = .disconnected) ∧
    (∀ k a t, s.sockets.socket ≠ some k → a.ofSocket k = true → providersStep s a = some t →
      t.contexts = s.contexts) := by
  have hone := (Providers.consistent_of_reachable h).sockets
  refine ⟨fun k effect hrun hopen => ?_, fun hnone => ?_, fun k a t hne ha hst => ?_⟩
  · have hlive := hone.live hrun (.inl hopen)
    exact ⟨hlive.socket, hlive.dependency⟩
  · rcases hone.idle_or_live with hidle | ⟨k, effect, hlive⟩
    · exact ⟨hidle.socket, hidle.onlineUsers, hidle.connectionStatus⟩
    · exact nomatch hnone.symm.trans hlive.dependency
  · exact contexts_of_cleanedUp (fun effect hrun => hone.cleanedUp k effect hrun hne) ha hst

/-- A user whose session was restored, and whose socket has connected. -/
def connectedPage (user : PublicUser) : Providers where
  auth := ⟨some ⟨0, user⟩, .authenticated, [⟨true, .settled⟩], 1⟩
  sockets := ⟨some ⟨0, user⟩, some ⟨0, user⟩, some 0,
    [⟨⟨0, user⟩, true, false, .connected, true, 0⟩], some 0, [], .connected⟩

/-- The connection was lost, the token has expired, and the page has asked for the session. -/
def expiredPage (user : PublicUser) : Providers where
  auth := ⟨some ⟨0, user⟩, .authenticated, [⟨true, .settled⟩], 1⟩
  sockets := ⟨some ⟨0, user⟩, some ⟨0, user⟩, some 0,
    [⟨⟨0, user⟩, true, true, .closed, true, 1⟩], some 0, [], .connecting⟩

/-- The user has logged out before the answer. -/
def signedOutPage (user : PublicUser) : Providers where
  auth := ⟨none, .unauthenticated, [⟨true, .settled⟩], 1⟩
  sockets := ⟨none, none, none, [⟨⟨0, user⟩, false, true, .closed, false, 1⟩], none, [],
    .disconnected⟩

theorem connectedPage_reachable (user : PublicUser) :
    providersSystem.Reachable Guard.all (connectedPage user) := by
  have hrun : providersSystem.runFrom .initial [.auth .runEffect, .auth (.restore 0 (.user user)),
      .render, .runSocketEffect, .socketEvent 0 .connect] = some (connectedPage user) := rfl
  exact Reachable.of_runFrom (.init rfl) hrun

theorem expiredPage_reachable (user : PublicUser) :
    providersSystem.Reachable Guard.all (expiredPage user) := by
  have hrun : providersSystem.runFrom (connectedPage user) [.socketEvent 0 .disconnect,
      .socketEvent 0 (.connect_error (some .AUTH_EXPIRED))] = some (expiredPage user) := rfl
  exact Reachable.of_runFrom (connectedPage_reachable user) hrun

/-- The answer that comes after the logout is not seen. -/
theorem one_socket_sample : ∃ t,
    providersStep (signedOutPage ⟨[], [], []⟩) (.sessionChecked 0 true) = some t ∧
      t.contexts = (signedOutPage ⟨[], [], []⟩).contexts := by
  have hrun : providersSystem.runFrom (expiredPage ⟨[], [], []⟩) [.auth .signedOut, .render,
      .runSocketEffect] = some (signedOutPage ⟨[], [], []⟩) := rfl
  obtain ⟨-, -, hunseen⟩ :=
    one_socket (Reachable.of_runFrom (expiredPage_reachable ⟨[], [], []⟩) hrun)
  exact ⟨_, rfl, hunseen 0 (.sessionChecked 0 true) _ (Option.some_ne_none 0).symm rfl rfl⟩

/-! ## The page settles -/

/-- Nothing is to be rendered, and no effect is to be run. -/
def Providers.Settled (s : Providers) : Prop :=
  s.auth.authUser = s.sockets.rendered ∧ s.sockets.rendered = s.sockets.dependency

/-- What React does by itself. -/
def ProvidersAction.ofReact : ProvidersAction → Bool
  | .render | .runSocketEffect => true
  | _ => false

theorem rerun_step (h : s.sockets.rendered ≠ s.sockets.dependency) :
    providersStep s .runSocketEffect =
      some { s with sockets := runSocketEffect (cleanUpSocketEffect s.sockets) } := by
  rw [providersStep, if_pos h]

theorem render_step (huser : s.auth.authUser ≠ s.sockets.rendered)
    (h : s.sockets.rendered = s.sockets.dependency) : providersStep s .render =
      some { s with sockets := { s.sockets with rendered := s.auth.authUser } } := by
  rw [providersStep, if_pos ⟨huser, h⟩]

/-- The page is rendered, and its effect run. -/
theorem settles_of_dependency (hs : s.Consistent)
    (h : s.sockets.rendered = s.sockets.dependency) : ∃ as t, as.length ≤ 2 ∧
      (∀ a ∈ as, a.ofReact = true) ∧ providersSystem.runFrom s as = some t ∧ t.Settled ∧
      t.auth = s.auth := by
  by_cases huser : s.auth.authUser = s.sockets.rendered
  · exact ⟨[], s, Nat.zero_le 2, fun _ ha => (List.not_mem_nil ha).elim, rfl, ⟨huser, h⟩, rfl⟩
  · have hrendered := hs.render
    obtain ⟨-, hkept, hdependency, -⟩ := oneSocket_rerun hrendered.sockets
    refine ⟨[.render, .runSocketEffect],
      { s with sockets := runSocketEffect (cleanUpSocketEffect
        { s.sockets with rendered := s.auth.authUser }) }, le_rfl,
      by simp [ProvidersAction.ofReact], ?_, ⟨hkept.symm, hkept.trans hdependency.symm⟩, rfl⟩
    rw [runFrom_cons]
    refine Option.bind_eq_some_iff.mpr ⟨_, render_step huser h, ?_⟩
    rw [runFrom_cons]
    exact Option.bind_eq_some_iff.mpr
      ⟨_, rerun_step (fun heq => huser (heq.trans h.symm)), rfl⟩

/-- Renders and runs of the effect come to an end: they do not change the user. -/
theorem settles (hs : s.Consistent) : ∃ as t, as.length ≤ 3 ∧ (∀ a ∈ as, a.ofReact = true) ∧
    providersSystem.runFrom s as = some t ∧ t.Settled ∧ t.auth = s.auth := by
  by_cases h : s.sockets.rendered = s.sockets.dependency
  · obtain ⟨as, t, hlength, has, hrest⟩ := settles_of_dependency hs h
    exact ⟨as, t, hlength.trans (Nat.le_succ 2), has, hrest⟩
  -- the effect is still to be run for the last render
  · obtain ⟨-, hkept, hdependency, -⟩ := oneSocket_rerun hs.sockets
    obtain ⟨as, t, hlength, has, hrun, hsettled, hauth⟩ :=
      settles_of_dependency hs.rerun (hkept.trans hdependency.symm)
    refine ⟨.runSocketEffect :: as, t, Nat.succ_le_succ hlength, ?_, ?_, hsettled, hauth⟩
    · exact List.forall_mem_cons.mpr ⟨rfl, has⟩
    · rw [runFrom_cons]
      exact Option.bind_eq_some_iff.mpr ⟨_, rerun_step h, hrun⟩

/-! ## The page connects -/

/-- The socket of the last run connects. -/
theorem connect_step (hlive : s.sockets.Live k effect) (hsocket : effect.nextSocket = .connecting) :
    ∃ t, providersStep s (.socketEvent k .connect) = some t ∧ t.auth = s.auth ∧
      t.sockets.connectionStatus = .connected := by
  have hafter : effect.nextSocket.after .connect = some .connected := by
    rw [hsocket]
    rfl
  have hst : providersStep s (.socketEvent k .connect) = some (s.handled (handleEvent
      (s.sockets.update k fun effect => { effect with nextSocket := .connected }) k effect
        .connect)) := by
    rw [providersStep, emitEvent_eq hlive hafter, Option.map_some]
  refine ⟨_, hst, rfl, ?_⟩
  change (handleConnect _ effect).connectionStatus = .connected
  rw [handleConnect, hlive.active]
  rfl

/-- The session is there after all, and the socket connects again. -/
theorem check_step (hlive : s.sockets.Live k effect) (hsocket : effect.nextSocket = .closed)
    (hchecks : effect.checks = 1) : ∃ t effect', providersStep s (.sessionChecked k true) = some t ∧
      t.auth = s.auth ∧ t.sockets.effects[k]? = some effect' ∧
      effect'.nextSocket = .connecting := by
  have hst : providersStep s (.sessionChecked k true) = some (s.handled (handleSessionCheck
      (s.sockets.update k fun effect => { effect with checks := effect.checks - 1 }) k effect
        true)) := by
    have hne : effect.checks ≠ 0 := by
      rw [hchecks]
      exact Nat.one_ne_zero
    rw [providersStep, sessionChecked, hlive.run]
    simp only [if_neg hne, Option.map_some]
  rw [handleSessionCheck, hlive.active] at hst
  refine ⟨_, { effect with
    checks := effect.checks - 1
    suppressDisconnectState := false
    nextSocket := if effect.nextSocket = .connected then .connected else .connecting },
    hst, rfl, ?_, ?_⟩
  · change ((s.sockets.effects.modify k _).modify k _)[k]? = _
    rw [List.getElem?_modify_eq, List.getElem?_modify_eq, hlive.run]
    rfl
  · change (if effect.nextSocket = .connected then AppSocket.connected else .connecting) = _
    rw [hsocket]
    rfl

/-- The last run of the effect is with the user of a page that is settled. -/
theorem Providers.Settled.live (hs : s.Consistent) (hsettled : s.Settled)
    (huser : s.auth.authUser.isSome = true) : ∃ k effect, s.sockets.Live k effect ∧
      (effect.nextSocket = .closed → effect.checks = 1) := by
  rcases hs.sockets.idle_or_live with hidle | ⟨k, effect, hlive⟩
  · rw [hsettled.1, hsettled.2, hidle.dependency] at huser
    cases huser
  · refine ⟨k, effect, hlive, fun hclosed => ?_⟩
    have hshown := hlive.shown
    rw [SocketEffect.Shown, hclosed] at hshown
    rcases hshown with hchecks | ⟨hchecks, -⟩
    -- a socket is given up with its user, and then the page is not settled
    · exact absurd (hsettled.1.trans hsettled.2) (hs.givenUp ⟨k, effect, hlive, hclosed, hchecks⟩)
    · exact hchecks

/-- A page that is settled with a user can be connected. -/
theorem connects (hs : s.Consistent) (hsettled : s.Settled)
    (huser : s.auth.authUser.isSome = true) : ∃ as t, as.length ≤ 2 ∧
      providersSystem.runFrom s as = some t ∧ t.auth = s.auth ∧
      t.sockets.connectionStatus = .connected := by
  obtain ⟨k, effect, hlive, hchecks⟩ := hsettled.live hs huser
  cases hsocket : effect.nextSocket with
  | connected =>
    have hshown := hlive.shown
    rw [SocketEffect.Shown, hsocket] at hshown
    exact ⟨[], s, Nat.zero_le 2, rfl, rfl, hshown.1⟩
  | connecting =>
    obtain ⟨t, ht, hauth, hstatus⟩ := connect_step hlive hsocket
    refine ⟨[.socketEvent k .connect], t, Nat.le_succ 1, ?_, hauth, hstatus⟩
    rw [runFrom_cons]
    exact Option.bind_eq_some_iff.mpr ⟨t, ht, rfl⟩
  | closed =>
    obtain ⟨r, effect', hr, hauth, hrun, hconnecting⟩ := check_step hlive hsocket (hchecks hsocket)
    have hlive' := (hs.step hr).sockets.live hrun (.inl (by rw [hconnecting]; decide))
    obtain ⟨t, ht, hauth', hstatus⟩ := connect_step hlive' hconnecting
    refine ⟨[.sessionChecked k true, .socketEvent k .connect], t, le_rfl, ?_,
      hauth'.trans hauth, hstatus⟩
    rw [runFrom_cons]
    refine Option.bind_eq_some_iff.mpr ⟨r, hr, ?_⟩
    rw [runFrom_cons]
    exact Option.bind_eq_some_iff.mpr ⟨t, ht, rfl⟩

/-- **The page settles.** From every state of every run, React comes to an end after at most three
renders and effects, with the same user. A page that is settled without a user has no connection and
shows none. One that is settled with a user shows the connection of the socket of that user, which
is there, is being tried, or waits for the one answer that is asked for. And from every state with a
user, answers of the server lead to a page that is connected, without another login. -/
theorem page_settles (h : providersSystem.Reachable Guard.all s) :
    (∃ as t, as.length ≤ 3 ∧ (∀ a ∈ as, a.ofReact = true) ∧
      providersSystem.runFrom s as = some t ∧ t.Settled ∧ t.auth = s.auth) ∧
    (s.Settled → s.auth.authUser = none → s.sockets.socket = none ∧ s.sockets.onlineUsers = [] ∧
      s.sockets.connectionStatus = .disconnected ∧
      ∀ effect ∈ s.sockets.effects, effect.nextSocket = .closed) ∧
    (s.Settled → ∀ user, s.auth.authUser = some user → ∃ k effect,
      s.sockets.socket = some k ∧ s.sockets.effects[k]? = some effect ∧ effect.authUser = user ∧
      s.sockets.connectionStatus ≠ .disconnected ∧
      (s.sockets.connectionStatus = .connected ↔ effect.nextSocket = .connected) ∧
      (effect.nextSocket = .closed → effect.checks = 1)) ∧
    (s.auth.authUser.isSome = true → ∃ as t, as.length ≤ 5 ∧
      providersSystem.runFrom s as = some t ∧ t.auth = s.auth ∧
      t.sockets.connectionStatus = .connected) := by
  have hs := Providers.consistent_of_reachable h
  refine ⟨settles hs, fun hsettled hnone => ?_, fun hsettled user huser => ?_, fun huser => ?_⟩
  · have hdependency : s.sockets.dependency = none :=
      (hsettled.1.trans hsettled.2).symm.trans hnone
    rcases hs.sockets.idle_or_live with hidle | ⟨k, effect, hlive⟩
    · refine ⟨hidle.socket, hidle.onlineUsers, hidle.connectionStatus, fun effect hmem => ?_⟩
      obtain ⟨k, hrun⟩ := List.mem_iff_getElem?.mp hmem
      refine (hs.sockets.cleanedUp k effect hrun ?_).closed
      rw [hidle.socket]
      exact (Option.some_ne_none k).symm
    · exact nomatch hdependency.symm.trans hlive.dependency
  · obtain ⟨k, effect, hlive, hchecks⟩ := hsettled.live hs (by rw [huser]; rfl)
    have hsame : effect.authUser = user := Option.some.inj
      (hlive.dependency.symm.trans ((hsettled.1.trans hsettled.2).symm.trans huser))
    have hshown := hlive.shown
    rw [SocketEffect.Shown] at hshown
    refine ⟨k, effect, hlive.socket, hlive.run, hsame, ?_, ?_, hchecks⟩
    · cases hsocket : effect.nextSocket <;> rw [hsocket] at hshown
      · rw [(hshown.resolve_left (by rw [hchecks hsocket]; exact Nat.one_ne_zero)).2]
        decide
      · rcases hshown.1 with hstatus | hstatus <;> rw [hstatus] <;> decide
      · rw [hshown.1]
        decide
    · cases hsocket : effect.nextSocket <;> rw [hsocket] at hshown
      · rw [(hshown.resolve_left (by rw [hchecks hsocket]; exact Nat.one_ne_zero)).2]
        decide
      · rcases hshown.1 with hstatus | hstatus <;> rw [hstatus] <;> decide
      · rw [hshown.1]
        exact ⟨fun _ => rfl, fun _ => rfl⟩
  · obtain ⟨as, r, hlength, -, hrun, hsettled, hauth⟩ := settles hs
    have hr := Providers.consistent_of_reachable (h.of_runFrom hrun)
    obtain ⟨bs, t, hlength', hrun', hauth', hstatus⟩ :=
      connects hr hsettled (by rw [hauth]; exact huser)
    refine ⟨as ++ bs, t, ?_, ?_, hauth'.trans hauth, hstatus⟩
    · rw [List.length_append]
      omega
    · rw [runFrom_append]
      exact Option.bind_eq_some_iff.mpr ⟨r, hrun, hrun'⟩

/-- The page that has asked for the session can connect again. -/
theorem page_settles_sample : ∃ as t, as.length ≤ 5 ∧
    providersSystem.runFrom (expiredPage ⟨[], [], []⟩) as = some t ∧
      t.auth = (expiredPage ⟨[], [], []⟩).auth ∧ t.sockets.connectionStatus = .connected :=
  (page_settles (expiredPage_reachable ⟨[], [], []⟩)).2.2.2 rfl

/-! ## What signs a user out -/

/-- No login, logout or `auth:expired`, no other run of the effect of `AuthProvider`, and the last
socket is refused for an expired token only, after which the session is there. -/
def StayGuard : Guard Providers ProvidersAction
  | _, .auth (.restore _ _) => True
  | _, .auth _ => False
  | _, .socketEvent _ (.connect_error (some authCode)) => authCode = .AUTH_EXPIRED
  | s, .sessionChecked k ok => s.sockets.socket = some k → ok = true
  | _, _ => True

/-- The mounted effect has restored the session, or has found none. -/
def AuthProvider.Restored (p : AuthProvider) : Prop :=
  ∀ (i : ℕ) (effect : AuthEffect), p.effects[i]? = some effect → effect.mounted = true →
    effect.restoreSession = .settled

/-- A run that is not mounted is answered. -/
theorem restored_of_restore {p q : AuthProvider} (hp : p.Restored) {i : ℕ} {answer : RestoreAnswer}
    (h : AuthProviderStep p (.restore i answer) q) :
    q.Restored ∧ q.authUser = p.authUser ∧ q.authStatus = p.authStatus := by
  have hkept {effect : AuthEffect} (phase : RestorePhase) (heffect : p.effects[i]? = some effect)
      (hphase : effect.restoreSession ≠ .settled) : (p.setPhase i phase).Restored := by
    intro j later hlater hmounted
    obtain ⟨before, hbefore, hsame, hrestore⟩ := AuthProvider.getElem?_setPhase hlater
    rw [hsame] at hmounted
    have hsettled := hp j before hbefore hmounted
    -- the run that is answered is not the one that is mounted
    have hij : i ≠ j := by
      rintro rfl
      obtain rfl : effect = before := Option.some.inj (heffect.symm.trans hbefore)
      exact hphase hsettled
    rw [hrestore, if_neg hij, hsettled]
  cases h with
  | refresh heffect hphase =>
    exact ⟨hkept _ heffect (by rw [hphase]; exact nofun), rfl, rfl⟩
  | ignored answer heffect hphase hmounted => exact ⟨hkept _ heffect hphase, rfl, rfl⟩
  | restored user heffect hphase hmounted => exact absurd (hp i _ heffect hmounted) hphase
  | notRestored answer heffect hphase hmounted => exact absurd (hp i _ heffect hmounted) hphase

/-- A socket that is not refused for good does not dispatch `auth:expired`. -/
theorem emitEvent_dispatches {event : SocketEvent} {result : SocketProvider × Bool}
    (hp : p.OneSocket) (hguard : StayGuard s (.socketEvent k event))
    (h : emitEvent p k event = some result) : result.2 = false := by
  obtain ⟨effect, hlive⟩ := live_of_emitEvent hp h
  cases emitEvent_cases hlive h with
  | refused hsocket hcode => exact absurd hguard hcode
  | connect | disconnect | failed | expired | getOnlineUsers => rfl

theorem sessionChecked_dispatches {ok : Bool} {result : SocketProvider × Bool}
    (hp : p.OneSocket) (hok : p.socket = some k → ok = true)
    (h : sessionChecked p k ok = some result) : result.2 = false := by
  obtain ⟨effect, hrun, -, rfl⟩ := sessionChecked_eq_some h
  rw [handleSessionCheck]
  cases hactive : effect.active with
  | false => rfl
  | true =>
    have hlive := hp.live hrun (.inr (.inl hactive))
    rw [hok hlive.socket]
    rfl

/-- A step that is admitted keeps the user. -/
theorem stays_step (hs : s.Consistent) (hrestored : s.auth.Restored) {a : ProvidersAction}
    (hguard : StayGuard s a) (h : providersStep s a = some t) : t.auth.Restored ∧
      t.auth.authUser = s.auth.authUser ∧ t.auth.authStatus = s.auth.authStatus := by
  have hsame (heq : t.auth = s.auth) : t.auth.Restored ∧ t.auth.authUser = s.auth.authUser ∧
      t.auth.authStatus = s.auth.authStatus := by
    rw [heq]
    exact ⟨hrestored, rfl, rfl⟩
  have hhandled {result : SocketProvider × Bool} (hresult : result.2 = false) :
      (s.handled result).auth = s.auth := by
    rw [Providers.handled, hresult]
    rfl
  cases a with
  | auth action =>
    obtain ⟨auth, hauth, rfl⟩ := Option.map_eq_some_iff.mp h
    cases action with
    | restore i answer => exact restored_of_restore hrestored (authProviderStep_cases hauth)
    | runEffect | signedIn | signedOut | authExpired => exact hguard.elim
  | render | runSocketEffect | remount =>
    rw [providersStep] at h
    split at h
    · cases h
      exact hsame rfl
    · cases h
  | socketEvent k event =>
    obtain ⟨result, hresult, rfl⟩ := Option.map_eq_some_iff.mp h
    exact hsame (hhandled (emitEvent_dispatches hs.sockets hguard hresult))
  | sessionChecked k ok =>
    obtain ⟨result, hresult, rfl⟩ := Option.map_eq_some_iff.mp h
    exact hsame (hhandled (sessionChecked_dispatches hs.sockets hguard hresult))

/-- **A user stays signed in.** Once the session is restored, no run changes the user of the page
by connections that are lost and found, by tokens that expire, by answers to runs that are gone, or
by renders and effects in any order: only a login, a logout, an `auth:expired` event, a socket that
is refused for good, or a session that is not there when it is asked for. -/
theorem stays_signed_in (h : providersSystem.Reachable Guard.all s) (hrestored : s.auth.Restored)
    (hrun : (providersSystem.startedAt s).Reachable StayGuard t) :
    t.auth.authUser = s.auth.authUser ∧ t.auth.authStatus = s.auth.authStatus := by
  have hall : t.Consistent ∧ t.auth.Restored ∧ t.auth.authUser = s.auth.authUser ∧
      t.auth.authStatus = s.auth.authStatus := by
    refine hrun.invariant (I := fun t => t.Consistent ∧ t.auth.Restored ∧
      t.auth.authUser = s.auth.authUser ∧ t.auth.authStatus = s.auth.authStatus) ?_ ?_
    · rintro r rfl
      exact ⟨Providers.consistent_of_reachable h, hrestored, rfl, rfl⟩
    · rintro r a r' ⟨hr, hrestored, huser, hstatus⟩ hguard hst
      obtain ⟨hrestored', huser', hstatus'⟩ := stays_step hr hrestored hguard hst
      exact ⟨hr.step hst, hrestored', huser'.trans huser, hstatus'.trans hstatus⟩
  exact hall.2.2

theorem connectedPage_restored (user : PublicUser) : (connectedPage user).auth.Restored := by
  intro i effect heffect _
  obtain rfl : effect = ⟨true, .settled⟩ := List.mem_singleton.mp (List.mem_of_getElem? heffect)
  rfl

/-- The connection is lost, and the token has expired. -/
theorem stays_signed_in_sample :
    (expiredPage ⟨[], [], []⟩).auth.authUser = (connectedPage ⟨[], [], []⟩).auth.authUser := by
  have hlost : StayGuard (connectedPage ⟨[], [], []⟩) (.socketEvent 0 .disconnect) := trivial
  have hexpired (s : Providers) :
      StayGuard s (.socketEvent 0 (.connect_error (some .AUTH_EXPIRED))) := rfl
  have hrun : (providersSystem.startedAt (connectedPage ⟨[], [], []⟩)).Reachable StayGuard
      (expiredPage ⟨[], [], []⟩) := .step (.step (.init rfl) hlost rfl) (hexpired _) rfl
  exact (stays_signed_in (connectedPage_reachable ⟨[], [], []⟩) (connectedPage_restored _) hrun).1

end MernChat
