import MernChat.Frontend.SocketProvider

/-!
# One socket

The page has at most one socket that is not closed, that of the last run of the effect, and shows
how it stands.

## Main definitions

* `SocketProvider.Live`, `SocketProvider.Idle`: the last run of the effect, with a user or without
* `SocketProvider.OneSocket`: the invariant of the component
* `LiveEvent`: the events of the socket, case by case
* `Providers.Consistent`: the invariant of both components

## Main results

* `oneSocket_emitEvent`, `oneSocket_sessionChecked`, `oneSocket_rerun`: what each step keeps
* `Providers.consistent_of_reachable`: the invariant of every run
-/

namespace MernChat

open Library Library.TransitionSystem

variable {p q : SocketProvider} {k : ℕ} {effect : SocketEffect} {result : SocketProvider × Bool}

/-! ## The invariant of the component -/

/-- A run that was cleaned up. -/
structure SocketEffect.CleanedUp (effect : SocketEffect) : Prop where
  active : effect.active = false
  listening : effect.listening = false
  closed : effect.nextSocket = .closed

/-- How the socket of a run is shown. -/
def SocketEffect.Shown (effect : SocketEffect) (status : SocketConnectionStatus) : Prop :=
  match effect.nextSocket with
  | .connected => status = .connected ∧ effect.suppressDisconnectState = false ∧ effect.checks = 0
  | .connecting => (status = .connecting ∨ status = .reconnecting) ∧
      effect.suppressDisconnectState = false ∧ effect.checks = 0
  | .closed => effect.checks = 0 ∨ effect.checks = 1 ∧ status = .connecting

namespace SocketProvider

/-- The run that is not cleaned up. -/
structure Live (p : SocketProvider) (k : ℕ) (effect : SocketEffect) : Prop where
  run : p.effects[k]? = some effect
  cleanup : p.cleanup = some k
  socket : p.socket = some k
  dependency : p.dependency = some effect.authUser
  active : effect.active = true
  listening : effect.listening = true
  shown : effect.Shown p.connectionStatus

/-- The effect was last run without a user. -/
structure Idle (p : SocketProvider) : Prop where
  cleanup : p.cleanup = none
  socket : p.socket = none
  dependency : p.dependency = none
  onlineUsers : p.onlineUsers = []
  connectionStatus : p.connectionStatus = .disconnected

structure OneSocket (p : SocketProvider) : Prop where
  cleanedUp : ∀ (k : ℕ) (effect : SocketEffect), p.effects[k]? = some effect →
    p.socket ≠ some k → effect.CleanedUp
  idle_or_live : p.Idle ∨ ∃ k effect, p.Live k effect
  offline : p.connectionStatus = .disconnected ∨ p.connectionStatus = .reconnecting →
    p.onlineUsers = []

/-- The socket is given up: it is closed, and no answer is awaited. -/
def GivenUp (p : SocketProvider) : Prop :=
  ∃ k effect, p.Live k effect ∧ effect.nextSocket = .closed ∧ effect.checks = 0

theorem oneSocket_initial : initial.OneSocket where
  cleanedUp := fun _ _ h => nomatch h
  idle_or_live := .inl ⟨rfl, rfl, rfl, rfl, rfl⟩
  offline := fun _ => rfl

/-- The run of a socket that is not closed. -/
theorem OneSocket.live (hp : p.OneSocket) (heffect : p.effects[k]? = some effect)
    (hopen : effect.nextSocket ≠ .closed ∨ effect.active = true ∨ effect.listening = true) :
    p.Live k effect := by
  have hsocket : p.socket = some k := by
    by_contra hne
    have hclean := hp.cleanedUp k effect heffect hne
    rcases hopen with h | h | h
    · exact h hclean.closed
    · rw [hclean.active] at h
      cases h
    · rw [hclean.listening] at h
      cases h
  rcases hp.idle_or_live with hidle | ⟨j, live, hlive⟩
  · rw [hidle.socket] at hsocket
    cases hsocket
  · obtain rfl : j = k := Option.some.inj (hlive.socket.symm.trans hsocket)
    obtain rfl : live = effect := Option.some.inj (hlive.run.symm.trans heffect)
    exact hlive

theorem Live.unique {j : ℕ} {effect' : SocketEffect} (h : p.Live k effect)
    (h' : p.Live j effect') : j = k ∧ effect' = effect := by
  obtain rfl : k = j := Option.some.inj (h.socket.symm.trans h'.socket)
  exact ⟨rfl, Option.some.inj (h'.run.symm.trans h.run)⟩

theorem Live.not_givenUp (h : p.Live k effect)
    (hopen : effect.nextSocket ≠ .closed ∨ effect.checks ≠ 0) : ¬p.GivenUp := by
  rintro ⟨j, effect', hlive, hclosed, hchecks⟩
  obtain ⟨rfl, rfl⟩ := h.unique hlive
  rcases hopen with h | h
  · exact h hclosed
  · exact h hchecks

/-- A run that has asked for the session has closed its socket, and asked once. -/
theorem Live.asked (h : p.Live k effect) (hchecks : effect.checks ≠ 0) :
    effect.nextSocket = .closed ∧ effect.checks = 1 ∧ p.connectionStatus = .connecting := by
  have hshown := h.shown
  rw [SocketEffect.Shown] at hshown
  cases hsocket : effect.nextSocket <;> rw [hsocket] at hshown
  · exact ⟨rfl, hshown.resolve_left hchecks⟩
  · exact absurd hshown.2.2 hchecks
  · exact absurd hshown.2.2 hchecks

/-- What a step of the live run changes. -/
def change (p : SocketProvider) (k : ℕ) (f : SocketEffect → SocketEffect)
    (status : SocketConnectionStatus) (onlineUsers : List JsString) : SocketProvider :=
  { p with
    effects := p.effects.modify k f
    connectionStatus := status
    onlineUsers := onlineUsers }

theorem Live.change {f : SocketEffect → SocketEffect} {status : SocketConnectionStatus}
    {onlineUsers : List JsString} (h : p.Live k effect)
    (hf : (f effect).authUser = effect.authUser ∧ (f effect).active = effect.active ∧
      (f effect).listening = effect.listening)
    (hshown : (f effect).Shown status) : (p.change k f status onlineUsers).Live k (f effect) where
  run := by rw [SocketProvider.change, List.getElem?_modify_eq, h.run]; rfl
  cleanup := h.cleanup
  socket := h.socket
  dependency := by rw [hf.1]; exact h.dependency
  active := by rw [hf.2.1]; exact h.active
  listening := by rw [hf.2.2]; exact h.listening
  shown := hshown

theorem OneSocket.change {f : SocketEffect → SocketEffect} {status : SocketConnectionStatus}
    {onlineUsers : List JsString} (hp : p.OneSocket) (h : p.Live k effect)
    (hf : (f effect).authUser = effect.authUser ∧ (f effect).active = effect.active ∧
      (f effect).listening = effect.listening)
    (hshown : (f effect).Shown status)
    (hoffline : status = .disconnected ∨ status = .reconnecting → onlineUsers = []) :
    (p.change k f status onlineUsers).OneSocket where
  cleanedUp := by
    intro j other hother hne
    have hjk : k ≠ j := fun hjk => hne (hjk ▸ h.socket)
    rw [SocketProvider.change, List.getElem?_modify_ne _ _ hjk] at hother
    exact hp.cleanedUp j other hother hne
  idle_or_live := .inr ⟨k, f effect, h.change hf hshown⟩
  offline := hoffline

/-- The socket is not given up by a change after which it is open, or an answer is awaited. -/
theorem OneSocket.change_open {f : SocketEffect → SocketEffect} {status : SocketConnectionStatus}
    {onlineUsers : List JsString} {dispatched : Prop} (hp : p.OneSocket) (h : p.Live k effect)
    (hf : (f effect).authUser = effect.authUser ∧ (f effect).active = effect.active ∧
      (f effect).listening = effect.listening)
    (hshown : (f effect).Shown status)
    (hoffline : status = .disconnected ∨ status = .reconnecting → onlineUsers = [])
    (hopen : (f effect).nextSocket ≠ .closed ∨ (f effect).checks ≠ 0) :
    (p.change k f status onlineUsers).OneSocket ∧
      (p.change k f status onlineUsers).rendered = p.rendered ∧
      (p.change k f status onlineUsers).dependency = p.dependency ∧
      ((p.change k f status onlineUsers).GivenUp → dispatched) :=
  ⟨hp.change h hf hshown hoffline, rfl, rfl, fun hgiven =>
    absurd hgiven ((h.change hf hshown).not_givenUp hopen)⟩

end SocketProvider

open SocketProvider

/-! ## Events -/

/-- The events of the socket, case by case. -/
inductive LiveEvent (p : SocketProvider) (k : ℕ) (effect : SocketEffect) :
    SocketEvent → SocketProvider × Bool → Prop
  | connect (h : effect.nextSocket = .connecting) : LiveEvent p k effect .connect
      (p.change k (fun effect => { effect with nextSocket := .connected }) .connected
        p.onlineUsers, false)
  | disconnect (h : effect.nextSocket = .connected) : LiveEvent p k effect .disconnect
      (p.change k (fun effect => { effect with nextSocket := .connecting }) .reconnecting [], false)
  /-- There is no connection yet. -/
  | failed (h : effect.nextSocket = .connecting) : LiveEvent p k effect (.connect_error none)
      (p.change k (fun effect => { effect with nextSocket := .connecting }) .reconnecting [], false)
  /-- The server refuses the socket for good. -/
  | refused {authCode : SocketAuthCode} (h : effect.nextSocket = .connecting)
      (hcode : authCode ≠ .AUTH_EXPIRED) : LiveEvent p k effect (.connect_error (some authCode))
      (p.change k (fun effect =>
        { effect with nextSocket := .closed, suppressDisconnectState := true }) .disconnected [],
        true)
  /-- The token has expired. -/
  | expired (h : effect.nextSocket = .connecting) :
      LiveEvent p k effect (.connect_error (some .AUTH_EXPIRED))
      (p.change k (fun effect =>
        { effect with
          nextSocket := .closed
          suppressDisconnectState := true
          checks := effect.checks + 1 }) .connecting [], false)
  | getOnlineUsers (userIds : List JsString) (h : effect.nextSocket = .connected) :
      LiveEvent p k effect (.getOnlineUsers userIds)
      (p.change k (fun effect => { effect with nextSocket := .connected }) p.connectionStatus
        userIds, false)

/-- A socket that is not connected is closed silently. -/
theorem disconnectSocket_eq (heffect : p.effects[k]? = some effect)
    (h : effect.nextSocket ≠ .connected ∨ effect.listening = false) :
    disconnectSocket p k = p.update k fun effect => { effect with nextSocket := .closed } := by
  have hnot : ¬(effect.nextSocket = .connected ∧ effect.listening = true) := by
    rintro ⟨hconnected, hlistening⟩
    rcases h with h | h
    · exact h hconnected
    · rw [h] at hlistening
      cases hlistening
  rw [disconnectSocket, heffect]
  exact if_neg hnot

/-- A socket that is refused is closed already. -/
theorem giveUp_refused (hlive : p.Live k effect) :
    giveUp (p.update k fun effect => { effect with nextSocket := .closed }) k =
      p.change k (fun effect =>
        { effect with nextSocket := .closed, suppressDisconnectState := true })
        .disconnected [] := by
  have hrun : ((p.effects.modify k fun effect => { effect with nextSocket := .closed }).modify k
      fun effect => { effect with suppressDisconnectState := true })[k]? =
        some { effect with nextSocket := .closed, suppressDisconnectState := true } := by
    rw [List.getElem?_modify_eq, List.getElem?_modify_eq, hlive.run]
    rfl
  rw [giveUp]
  refine (disconnectSocket_eq hrun (.inl ?_)).trans ?_
  · exact nofun
  simp only [update, List.modify_modify_eq]
  rfl

theorem handleConnectError_some {authCode : SocketAuthCode} (hactive : effect.active = true) :
    handleConnectError p k effect (some authCode) =
      if authCode ≠ .AUTH_EXPIRED then (giveUp p k, true)
      else
        ({ giveUp p k with connectionStatus := .connecting }.update k
          fun effect => { effect with checks := effect.checks + 1 }, false) := by
  simp only [handleConnectError, hactive, Bool.not_true, Bool.false_eq_true, if_false]

theorem emitEvent_eq (hlive : p.Live k effect) {event : SocketEvent} {socket : AppSocket}
    (hafter : effect.nextSocket.after event = some socket) : emitEvent p k event =
      some (handleEvent (p.update k fun effect => { effect with nextSocket := socket }) k effect
        event) := by
  simp only [emitEvent, hlive.run, hafter, hlive.listening, if_true]

/-- Every event is one of the cases. -/
theorem emitEvent_cases (hlive : p.Live k effect) {event : SocketEvent}
    (h : emitEvent p k event = some result) : LiveEvent p k effect event result := by
  cases hafter : effect.nextSocket.after event with
  | none =>
    simp only [emitEvent, hlive.run, hafter] at h
    cases h
  | some socket =>
    rw [emitEvent_eq hlive hafter] at h
    cases event with
    | connect =>
      cases hsocket : effect.nextSocket <;> rw [hsocket] at hafter <;> cases hafter
      rw [handleEvent, handleConnect, hlive.active, if_pos rfl] at h
      cases h
      exact .connect hsocket
    | disconnect =>
      cases hsocket : effect.nextSocket <;> rw [hsocket] at hafter <;> cases hafter
      have hshown := hlive.shown
      rw [SocketEffect.Shown, hsocket] at hshown
      rw [handleEvent, handleDisconnect, hlive.active, hshown.2.1] at h
      cases h
      exact .disconnect hsocket
    | getOnlineUsers userIds =>
      cases hsocket : effect.nextSocket <;> rw [hsocket] at hafter <;> cases hafter
      rw [handleEvent, handleOnlineUsers, hlive.active, if_pos rfl] at h
      cases h
      exact .getOnlineUsers userIds hsocket
    | connect_error authCode =>
      cases hsocket : effect.nextSocket <;> rw [hsocket] at hafter <;> cases hafter
      rw [handleEvent] at h
      cases authCode with
      | none =>
        rw [handleConnectError, hlive.active] at h
        cases h
        exact .failed hsocket
      | some authCode =>
        rw [Option.isSome_some, if_pos rfl, handleConnectError_some hlive.active,
          giveUp_refused hlive] at h
        by_cases hcode : authCode = .AUTH_EXPIRED
        · subst hcode
          rw [if_neg (not_not.mpr rfl), update] at h
          simp only [change, List.modify_modify_eq] at h
          cases h
          exact .expired hsocket
        · rw [if_pos hcode] at h
          cases h
          exact .refused hsocket hcode

/-- A socket that emits an event is not closed. -/
theorem emitEvent_eq_some {event : SocketEvent} (h : emitEvent p k event = some result) :
    ∃ effect, p.effects[k]? = some effect ∧ effect.nextSocket ≠ .closed := by
  rw [emitEvent] at h
  cases hrun : p.effects[k]? with
  | none =>
    rw [hrun] at h
    cases h
  | some effect =>
    refine ⟨effect, rfl, fun hclosed => ?_⟩
    simp only [hrun, hclosed, AppSocket.after] at h
    cases h

/-- A run that is answered has asked. -/
theorem sessionChecked_eq_some {ok : Bool} (h : sessionChecked p k ok = some result) :
    ∃ effect, p.effects[k]? = some effect ∧ effect.checks ≠ 0 ∧ result = handleSessionCheck
      (p.update k fun effect => { effect with checks := effect.checks - 1 }) k effect ok := by
  rw [sessionChecked] at h
  cases hrun : p.effects[k]? with
  | none =>
    rw [hrun] at h
    cases h
  | some effect =>
    simp only [hrun] at h
    by_cases hchecks : effect.checks = 0
    · rw [if_pos hchecks] at h
      cases h
    · rw [if_neg hchecks] at h
      exact ⟨effect, rfl, hchecks, (Option.some.inj h).symm⟩

/-- Only the socket of the last run emits an event. -/
theorem live_of_emitEvent (hp : p.OneSocket) {event : SocketEvent}
    (h : emitEvent p k event = some result) : ∃ effect, p.Live k effect := by
  obtain ⟨effect, hrun, hopen⟩ := emitEvent_eq_some h
  exact ⟨effect, hp.live hrun (.inl hopen)⟩

/-- What an event keeps, and whether it gives the socket up. -/
theorem oneSocket_emitEvent (hp : p.OneSocket) {event : SocketEvent}
    (h : emitEvent p k event = some result) : result.1.OneSocket ∧
      result.1.rendered = p.rendered ∧ result.1.dependency = p.dependency ∧
      (result.1.GivenUp → result.2 = true) := by
  obtain ⟨effect, hlive⟩ := live_of_emitEvent hp h
  have hshown := hlive.shown
  rw [SocketEffect.Shown] at hshown
  cases emitEvent_cases hlive h with
  | connect hsocket =>
    rw [hsocket] at hshown
    exact hp.change_open hlive ⟨rfl, rfl, rfl⟩ ⟨rfl, hshown.2⟩ (by simp) (.inl nofun)
  | disconnect hsocket | failed hsocket =>
    rw [hsocket] at hshown
    exact hp.change_open hlive ⟨rfl, rfl, rfl⟩ ⟨.inr rfl, hshown.2⟩ (fun _ => rfl) (.inl nofun)
  | refused hsocket =>
    rw [hsocket] at hshown
    exact ⟨hp.change hlive ⟨rfl, rfl, rfl⟩ (.inl hshown.2.2) fun _ => rfl, rfl, rfl, fun _ => rfl⟩
  | expired hsocket =>
    rw [hsocket] at hshown
    have hchecks : effect.checks + 1 = 1 := by rw [hshown.2.2]
    exact hp.change_open hlive ⟨rfl, rfl, rfl⟩ (.inr ⟨hchecks, rfl⟩) (fun _ => rfl)
      (.inr (Nat.succ_ne_zero _))
  | getOnlineUsers userIds hsocket =>
    rw [hsocket] at hshown
    exact hp.change_open hlive ⟨rfl, rfl, rfl⟩ hshown (by rw [hshown.1]; simp) (.inl nofun)

/-- A run that is cleaned up is answered. -/
theorem oneSocket_update (hp : p.OneSocket) (hrun : p.effects[k]? = some effect)
    (hactive : effect.active = false) {f : SocketEffect → SocketEffect}
    (hf : ∀ effect : SocketEffect, effect.CleanedUp → (f effect).CleanedUp) :
    (p.update k f).OneSocket ∧ ((p.update k f).GivenUp → p.GivenUp) := by
  -- the run of the socket is active, so it is another one
  have hne : p.socket ≠ some k := by
    intro hsocket
    rcases hp.idle_or_live with hidle | ⟨j, live, hlive⟩
    · rw [hidle.socket] at hsocket
      cases hsocket
    · obtain rfl : j = k := Option.some.inj (hlive.socket.symm.trans hsocket)
      obtain rfl : live = effect := Option.some.inj (hlive.run.symm.trans hrun)
      rw [hlive.active] at hactive
      cases hactive
  have hlater (j : ℕ) (other : SocketEffect) (hj : k ≠ j) :
      (p.update k f).Live j other ↔ p.Live j other := by
    have hsame : (p.update k f).effects[j]? = p.effects[j]? := List.getElem?_modify_ne _ _ hj
    exact ⟨fun h => ⟨hsame.symm.trans h.run, h.cleanup, h.socket, h.dependency, h.active,
      h.listening, h.shown⟩, fun h => ⟨hsame.trans h.run, h.cleanup, h.socket, h.dependency,
      h.active, h.listening, h.shown⟩⟩
  refine ⟨⟨fun j other hother hj => ?_, ?_, hp.offline⟩, ?_⟩
  · rw [update, List.getElem?_modify] at hother
    obtain ⟨before, hbefore, rfl⟩ := Option.map_eq_some_iff.mp hother
    have hclean := hp.cleanedUp j before hbefore hj
    split
    · exact hf before hclean
    · exact hclean
  · rcases hp.idle_or_live with hidle | ⟨j, live, hlive⟩
    · exact .inl ⟨hidle.cleanup, hidle.socket, hidle.dependency, hidle.onlineUsers,
        hidle.connectionStatus⟩
    · have hj : k ≠ j := fun hkj => hne (hkj ▸ hlive.socket)
      exact .inr ⟨j, live, (hlater j live hj).mpr hlive⟩
  · rintro ⟨j, other, hlive, hgiven⟩
    have hj : k ≠ j := fun hkj => hne (hkj ▸ hlive.socket)
    exact ⟨j, other, (hlater j other hj).mp hlive, hgiven⟩

/-- What an answer keeps, and whether it gives the socket up. -/
theorem oneSocket_sessionChecked (hp : p.OneSocket) {ok : Bool}
    (h : sessionChecked p k ok = some result) : result.1.OneSocket ∧
      result.1.rendered = p.rendered ∧ result.1.dependency = p.dependency ∧
      (result.1.GivenUp → result.2 = true ∨ p.GivenUp) := by
  obtain ⟨effect, hrun, hchecks, rfl⟩ := sessionChecked_eq_some h
  rw [handleSessionCheck]
  cases hactive : effect.active with
  | false =>
    obtain ⟨hone, hgiven⟩ := oneSocket_update (f := fun effect =>
      { effect with checks := effect.checks - 1 }) hp hrun hactive
        fun effect hclean => ⟨hclean.active, hclean.listening, hclean.closed⟩
    exact ⟨hone, rfl, rfl, fun h => .inr (hgiven h)⟩
  | true =>
    have hlive := hp.live hrun (.inr (.inl hactive))
    obtain ⟨hclosed, hone, hstatus⟩ := hlive.asked hchecks
    cases ok with
    | false =>
      have hshown : SocketEffect.Shown { effect with checks := effect.checks - 1 }
          p.connectionStatus := by
        rw [SocketEffect.Shown, hclosed, hone]
        exact .inl rfl
      exact ⟨hp.change (f := fun effect => { effect with checks := effect.checks - 1 }) hlive
        ⟨rfl, rfl, rfl⟩ hshown hp.offline, rfl, rfl, fun _ => .inl rfl⟩
    | true =>
      -- the answer is counted, and the socket connects again
      let f (effect : SocketEffect) : SocketEffect :=
        { effect with
          checks := effect.checks - 1
          suppressDisconnectState := false
          nextSocket := if effect.nextSocket = .connected then .connected else .connecting }
      have hconnecting : (f effect).nextSocket = .connecting := by
        simp only [f, hclosed]
        rfl
      have hnone : (f effect).checks = 0 := by
        simp only [f, hone]
      have hshown : (f effect).Shown p.connectionStatus := by
        rw [SocketEffect.Shown, hconnecting]
        exact ⟨.inl hstatus, rfl, hnone⟩
      have hopen : (f effect).nextSocket ≠ .closed := by
        rw [hconnecting]
        exact nofun
      have hchanged :
          (p.update k fun effect => { effect with checks := effect.checks - 1 }).update k
            (fun effect => { effect with
              suppressDisconnectState := false
              nextSocket := if effect.nextSocket = .connected then .connected else .connecting }) =
            p.change k f p.connectionStatus p.onlineUsers := by
        rw [update, update, List.modify_modify_eq]
        rfl
      simp only [Bool.not_true, Bool.false_eq_true, if_false, if_true, hchanged]
      exact hp.change_open (f := f) hlive ⟨rfl, rfl, rfl⟩ hshown hp.offline (.inl hopen)

/-! ## Runs of the effect -/

/-- A run that is cleaned up does not hear its socket being closed. -/
theorem cleanUpSocketEffect_live (hlive : p.Live k effect) : cleanUpSocketEffect p =
    { p with
      cleanup := none
      effects := p.effects.modify k fun effect =>
        { effect with active := false, listening := false, nextSocket := .closed }
      socket := none
      connectionStatus := .disconnected } := by
  have hrun : (p.effects.modify k fun effect =>
      { effect with active := false, listening := false })[k]? =
        some { effect with active := false, listening := false } := by
    rw [List.getElem?_modify_eq, hlive.run]
    rfl
  -- the handlers are off before the socket is closed
  have hoff : disconnectSocket (p.update k fun effect =>
      { effect with active := false, listening := false }) k =
      p.update k fun effect =>
        { effect with active := false, listening := false, nextSocket := .closed } := by
    refine (disconnectSocket_eq hrun (.inr rfl)).trans ?_
    rw [update, update, List.modify_modify_eq]
    rfl
  rw [cleanUpSocketEffect, hlive.cleanup]
  simp only [hoff]
  rw [update, if_pos hlive.socket]

/-- After the cleanup there is no socket that is not closed. -/
theorem cleanUpSocketEffect_spec (hp : p.OneSocket) :
    (∀ (k : ℕ) (effect : SocketEffect), (cleanUpSocketEffect p).effects[k]? = some effect →
      effect.CleanedUp) ∧ (cleanUpSocketEffect p).cleanup = none ∧
      (cleanUpSocketEffect p).socket = none ∧ (cleanUpSocketEffect p).rendered = p.rendered := by
  rcases hp.idle_or_live with hidle | ⟨k, effect, hlive⟩
  · have hsame : cleanUpSocketEffect p = p := by rw [cleanUpSocketEffect, hidle.cleanup]
    rw [hsame]
    refine ⟨fun k effect hrun => hp.cleanedUp k effect hrun ?_, hidle.cleanup, hidle.socket, rfl⟩
    rw [hidle.socket]
    exact nofun
  · rw [cleanUpSocketEffect_live hlive]
    refine ⟨fun j other hother => ?_, rfl, rfl, rfl⟩
    rw [List.getElem?_modify] at hother
    obtain ⟨before, hbefore, rfl⟩ := Option.map_eq_some_iff.mp hother
    split
    · exact ⟨rfl, rfl, rfl⟩
    · rename_i hne
      refine hp.cleanedUp j before hbefore ?_
      rw [hlive.socket]
      exact fun h => hne (Option.some.inj h)

theorem runSocketEffect_none (h : p.rendered = none) (hsocket : p.socket = none) :
    runSocketEffect p =
      { p with
        dependency := none
        socket := none
        onlineUsers := []
        connectionStatus := .disconnected } := by
  rw [runSocketEffect]
  split
  · rw [hsocket]
  · rename_i authUser hsome
    rw [h] at hsome
    cases hsome

theorem runSocketEffect_some {authUser : AuthObject} (h : p.rendered = some authUser) :
    runSocketEffect p =
      { p with
        dependency := some authUser
        cleanup := some p.effects.length
        effects := p.effects ++ [⟨authUser, true, false, .connecting, true, 0⟩]
        socket := some p.effects.length
        connectionStatus := .connecting } := by
  rw [runSocketEffect]
  split
  · rename_i hnone
    rw [h] at hnone
    cases hnone
  · rename_i user hsome
    rw [h] at hsome
    cases hsome
    rfl

/-- The effect is cleaned up and run: the last run is that with the user of the last render, and its
socket is connecting. -/
theorem oneSocket_rerun (hp : p.OneSocket) :
    (runSocketEffect (cleanUpSocketEffect p)).OneSocket ∧
      (runSocketEffect (cleanUpSocketEffect p)).rendered = p.rendered ∧
      (runSocketEffect (cleanUpSocketEffect p)).dependency = p.rendered ∧
      ¬(runSocketEffect (cleanUpSocketEffect p)).GivenUp := by
  obtain ⟨hclean, hcleanup, hsocket, hrendered⟩ := cleanUpSocketEffect_spec hp
  generalize cleanUpSocketEffect p = off at *
  rw [← hrendered]
  cases huser : off.rendered with
  | none =>
    rw [runSocketEffect_none huser hsocket]
    refine ⟨⟨fun k effect hrun _ => hclean k effect hrun, .inl ⟨hcleanup, rfl, rfl, rfl, rfl⟩,
      fun _ => rfl⟩, huser, rfl, ?_⟩
    rintro ⟨k, effect, hlive, -⟩
    exact nomatch hlive.socket
  | some authUser =>
    rw [runSocketEffect_some huser]
    have hlive : Live
        { off with
          dependency := some authUser
          cleanup := some off.effects.length
          effects := off.effects ++ [⟨authUser, true, false, .connecting, true, 0⟩]
          socket := some off.effects.length
          connectionStatus := .connecting } off.effects.length
        ⟨authUser, true, false, .connecting, true, 0⟩ :=
      ⟨List.getElem?_concat_length, rfl, rfl, rfl, rfl, rfl, .inl rfl, rfl, rfl⟩
    refine ⟨⟨fun k effect hrun hk => ?_, .inr ⟨_, _, hlive⟩, by simp⟩, huser, rfl,
      hlive.not_givenUp (.inl nofun)⟩
    -- all runs but the last one were cleaned up
    have hlt : k < (off.effects ++ [_]).length := (List.getElem?_eq_some_iff.mp hrun).1
    have hne : k ≠ off.effects.length := fun h => hk (congrArg some h.symm)
    rw [List.length_append, List.length_singleton] at hlt
    rw [List.getElem?_append_left (by omega)] at hrun
    exact hclean k effect hrun

/-! ## Both components -/

namespace Providers

/-- The invariant. A user that has been replaced does not come back, for every object is new. -/
structure Consistent (s : Providers) : Prop where
  auth : s.auth.Consistent
  sockets : s.sockets.OneSocket
  older : ∀ object, s.sockets.rendered = some object ∨ s.sockets.dependency = some object →
    object.ref < s.auth.objects
  /-- A socket is given up only with its user. -/
  givenUp : s.sockets.GivenUp → s.auth.authUser ≠ s.sockets.dependency

variable {s t : Providers}

theorem consistent_initial : initial.Consistent where
  auth := AuthProvider.consistent_initial
  sockets := oneSocket_initial
  older := by
    rintro object (h | h) <;> cases h
  givenUp := by
    rintro ⟨k, effect, hlive, -⟩
    exact nomatch hlive.socket

theorem Consistent.auth_step (hs : s.Consistent) {action : AuthProviderAction}
    {auth : AuthProvider} (h : AuthProviderStep s.auth action auth) :
    Consistent { s with auth := auth } where
  auth := hs.auth.step h
  sockets := hs.sockets
  older := fun object hobject => (hs.older object hobject).trans_le (authUser_step h).1
  givenUp := by
    rintro hgiven heq
    rcases (authUser_step h).2 with hsame | hnone | ⟨user, hnew⟩
    · exact hs.givenUp hgiven (hsame.symm.trans heq)
    · obtain ⟨k, effect, hlive, -⟩ := hgiven
      exact nomatch hnone.symm.trans (heq.trans hlive.dependency)
    -- the effect was run with an object that is older
    · have hlt := hs.older ⟨s.auth.objects, user⟩ (.inr (heq.symm.trans hnew))
      exact absurd hlt (Nat.lt_irrefl _)

/-- What a handler has done, when it gives the socket up only with the user. -/
theorem Consistent.handled (hs : s.Consistent) {result : SocketProvider × Bool}
    (h : result.1.OneSocket ∧ result.1.rendered = s.sockets.rendered ∧
      result.1.dependency = s.sockets.dependency ∧
      (result.1.GivenUp → result.2 = true ∨ s.sockets.GivenUp)) :
    (s.handled result).Consistent := by
  obtain ⟨hone, hrendered, hdependency, hgivenUp⟩ := h
  have hobjects : (s.handled result).auth.objects = s.auth.objects := by
    rw [Providers.handled, AuthProvider.handleAuthExpired]
    split
    · split <;> rfl
    · rfl
  refine ⟨?_, hone, fun object hobject => ?_, fun hgiven => ?_⟩
  · rw [Providers.handled]
    split
    · exact hs.auth.step .authExpired
    · exact hs.auth
  · rw [hobjects]
    rw [Providers.handled, hrendered, hdependency] at hobject
    exact hs.older object hobject
  · have hgiven' : result.1.GivenUp := hgiven
    obtain ⟨k, effect, hlive, -⟩ := id hgiven'
    have huser := hlive.dependency
    change (if result.2 then s.auth.handleAuthExpired else s.auth).authUser ≠ result.1.dependency
    rw [huser]
    -- the effect was run with a user, so the page has loaded, and a listener is there
    have hloaded : s.auth.authStatus ≠ .loading := fun hloading => by
      have hlt := hs.older _ (.inr (hdependency.symm.trans huser))
      rw [hs.auth.none_yet hloading] at hlt
      exact absurd hlt (Nat.not_lt_zero _)
    cases hdispatched : result.2 with
    | true =>
      rw [if_pos rfl, hs.auth.handleAuthExpired_eq (hs.auth.mounted hloaded)]
      exact (Option.some_ne_none _).symm
    | false =>
      have hbefore := (hgivenUp hgiven').resolve_left
        (by rw [hdispatched]; exact Bool.false_ne_true)
      rw [if_neg Bool.false_ne_true, ← huser, hdependency]
      exact hs.givenUp hbefore

/-- The effect of `SocketProvider` is cleaned up and run. -/
theorem Consistent.rerun (hs : s.Consistent) :
    Consistent { s with sockets := runSocketEffect (cleanUpSocketEffect s.sockets) } := by
  obtain ⟨hone, hrendered, hdependency, hgivenUp⟩ := oneSocket_rerun hs.sockets
  refine ⟨hs.auth, hone, fun object hobject => ?_, fun hgiven => absurd hgiven hgivenUp⟩
  rw [hrendered, hdependency, or_self] at hobject
  exact hs.older object (.inl hobject)

theorem Consistent.render (hs : s.Consistent) :
    Consistent { s with sockets := { s.sockets with rendered := s.auth.authUser } } := by
  have hlive (k : ℕ) (effect : SocketEffect) :
      Live { s.sockets with rendered := s.auth.authUser } k effect ↔ s.sockets.Live k effect :=
    ⟨fun h => ⟨h.run, h.cleanup, h.socket, h.dependency, h.active, h.listening, h.shown⟩,
      fun h => ⟨h.run, h.cleanup, h.socket, h.dependency, h.active, h.listening, h.shown⟩⟩
  refine ⟨hs.auth, ⟨hs.sockets.cleanedUp, ?_, hs.sockets.offline⟩, fun object hobject => ?_, ?_⟩
  · rcases hs.sockets.idle_or_live with hidle | ⟨k, effect, h⟩
    · exact .inl ⟨hidle.cleanup, hidle.socket, hidle.dependency, hidle.onlineUsers,
        hidle.connectionStatus⟩
    · exact .inr ⟨k, effect, (hlive k effect).mpr h⟩
  · rcases hobject with hobject | hobject
    · exact hs.auth.older object hobject
    · exact hs.older object (.inr hobject)
  · rintro ⟨k, effect, h, hgiven⟩
    exact hs.givenUp ⟨k, effect, (hlive k effect).mp h, hgiven⟩

theorem Consistent.step {a : ProvidersAction} (hs : s.Consistent)
    (h : providersStep s a = some t) : t.Consistent := by
  cases a with
  | auth action =>
    obtain ⟨auth, hauth, rfl⟩ := Option.map_eq_some_iff.mp h
    exact hs.auth_step (authProviderStep_cases hauth)
  | render =>
    rw [providersStep] at h
    split at h
    · cases h
      exact hs.render
    · cases h
  | runSocketEffect | remount =>
    rw [providersStep] at h
    split at h
    · cases h
      exact hs.rerun
    · cases h
  | socketEvent k event =>
    obtain ⟨result, hresult, rfl⟩ := Option.map_eq_some_iff.mp h
    obtain ⟨hone, hrendered, hdependency, hgivenUp⟩ := oneSocket_emitEvent hs.sockets hresult
    exact hs.handled ⟨hone, hrendered, hdependency, fun hgiven => .inl (hgivenUp hgiven)⟩
  | sessionChecked k ok =>
    obtain ⟨result, hresult, rfl⟩ := Option.map_eq_some_iff.mp h
    exact hs.handled (oneSocket_sessionChecked hs.sockets hresult)

theorem consistent_of_reachable (h : providersSystem.Reachable Guard.all s) : s.Consistent :=
  h.invariant (I := Consistent)
    (fun s hs => by
      obtain rfl : s = initial := hs
      exact consistent_initial)
    fun s a t hs _ hst => hs.step hst

end Providers

end MernChat
