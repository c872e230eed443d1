import MernChat.Frontend.SingleFlight
import MernChat.Frontend.StaysSignedIn

/-!
# The interceptor and the providers

One page has the axios instance and both providers. The interceptor dispatches `auth:expired` when a
refresh it awaits has failed, and `AuthProvider` listens. The two run side by side: answers and
callbacks of the instance, answers to the components, events of sockets, renders and effects come in
any order.

## Main definitions

* `Page`, `pageStep`, `pageSystem`: both at once
* `PageGuard`: what does not sign a user out

## Main results

* `pageProviders`, `pageClient`: a run of the page is one of each side
* `signed_out_with_cause`: a user who has not done anything is signed out by a refresh that failed
-/

namespace MernChat

open Library Library.TransitionSystem

/-! ## The page -/

structure Page where
  client : ApiClient
  providers : Providers

inductive PageAction
  | api (action : ApiAction)
  | providers (action : ProvidersAction)

/-- What the interceptor has dispatched since. -/
def Providers.hear (s : Providers) (before after : ApiClient) : Providers :=
  if before.expired.length < after.expired.length then
    { s with auth := s.auth.handleAuthExpired }
  else s

/-- No one else dispatches `auth:expired` but the handlers of the socket. -/
def pageStep (mergeConfig : RequestConfig → RequestConfig) (s : Page) : PageAction → Option Page
  | .api action => (apiStep mergeConfig s.client action).map fun client =>
      ⟨client, s.providers.hear s.client client⟩
  | .providers (.auth .authExpired) => none
  | .providers action => (providersStep s.providers action).map fun providers =>
      { s with providers := providers }

/-- All pages, from their loading on. -/
def pageSystem (mergeConfig : RequestConfig → RequestConfig) :
    TransitionSystem Page PageAction where
  init s := s = ⟨.initial, .initial⟩
  step := pageStep mergeConfig

variable {mergeConfig : RequestConfig → RequestConfig} {s t : Page}

theorem pageStep_providers {action : ProvidersAction}
    (h : pageStep mergeConfig s (.providers action) = some t) :
    ∃ providers, providersStep s.providers action = some providers ∧
      t = { s with providers := providers } := by
  have hmap (h : ((providersStep s.providers action).map fun providers =>
      { s with providers := providers }) = some t) : ∃ providers,
        providersStep s.providers action = some providers ∧
          t = { s with providers := providers } := by
    obtain ⟨providers, hstep, heq⟩ := Option.map_eq_some_iff.mp h
    exact ⟨providers, hstep, heq.symm⟩
  cases action with
  | auth action =>
    cases action with
    | authExpired => cases h
    | runEffect | restore | signedIn | signedOut => exact hmap h
  | render | runSocketEffect | remount | socketEvent | sessionChecked => exact hmap h

/-! ## Each side -/

/-- The providers take a step with every event of the interceptor, and with their own. -/
def pageProviders (mergeConfig : RequestConfig → RequestConfig) :
    Simulation (pageSystem mergeConfig) providersSystem where
  state := Page.providers
  action s
    | .providers action => some action
    | .api action => (apiStep mergeConfig s.client action).bind fun client =>
        if s.client.expired.length < client.expired.length then some (.auth .authExpired) else none
  init := by
    rintro s rfl
    rfl
  visible := by
    intro s a t b hst hb
    cases a with
    | providers action =>
      cases hb
      obtain ⟨providers, hstep, rfl⟩ := pageStep_providers hst
      exact hstep
    | api action =>
      obtain ⟨client, hclient, rfl⟩ := Option.map_eq_some_iff.mp hst
      simp only [hclient, Option.bind_some] at hb
      split at hb
      case isTrue hexpired =>
        cases hb
        rw [Providers.hear, if_pos hexpired]
        rfl
      case isFalse => cases hb
  silent := by
    intro s a t hst hnone
    cases a with
    | providers action => cases hnone
    | api action =>
      obtain ⟨client, hclient, rfl⟩ := Option.map_eq_some_iff.mp hst
      simp only [hclient, Option.bind_some] at hnone
      split at hnone
      case isTrue => cases hnone
      case isFalse hexpired =>
        rw [Providers.hear, if_neg hexpired]

/-- The instance does not notice the providers. -/
def pageClient (mergeConfig : RequestConfig → RequestConfig) :
    Simulation (pageSystem mergeConfig) (apiSystem mergeConfig) where
  state := Page.client
  action _
    | .api action => some action
    | .providers _ => none
  init := by
    rintro s rfl
    rfl
  visible := by
    intro s a t b hst hb
    cases a with
    | providers action => cases hb
    | api action =>
      cases hb
      obtain ⟨client, hclient, rfl⟩ := Option.map_eq_some_iff.mp hst
      exact hclient
  silent := by
    intro s a t hst hnone
    cases a with
    | providers action =>
      obtain ⟨providers, -, rfl⟩ := pageStep_providers hst
      rfl
    | api action => cases hnone

/-! ## What signs a user out -/

/-- The instance is used in any way, and the components do nothing that signs a user out. -/
def PageGuard : Guard Page PageAction
  | _, .api _ => True
  | s, .providers action => StayGuard s.providers action

/-- A step dispatches one event at most. -/
theorem expired_apiStep {client client' : ApiClient} {action : ApiAction}
    (h : ApiStep mergeConfig client action client') : client'.expired = client.expired ∨
      ∃ n, client'.expired = client.expired ++ [n] := by
  cases h with
  | request | answer | fulfil | reject | join | finish | again | adopt => exact .inl rfl
  | start hcall hphase hretry hauth hpromise =>
    refine .inl ?_
    rw [ApiClient.update, refreshSession, hpromise]
    rfl
  | expire => exact .inr ⟨_, rfl⟩

/-- What a run keeps while the interceptor dispatches nothing. -/
structure Page.KeepsUser (s t : Page) : Prop where
  consistent : t.providers.Consistent
  dispatched : s.client.expired <+: t.client.expired
  kept : t.client.expired = s.client.expired → t.providers.auth.Restored ∧
    t.providers.auth.authUser = s.providers.auth.authUser ∧
      t.providers.auth.authStatus = s.providers.auth.authStatus

theorem Page.KeepsUser.step {r : Page} {a : PageAction} (h : s.KeepsUser r)
    (hr : (pageSystem mergeConfig).Reachable Guard.all r) (hguard : PageGuard r a)
    (hst : pageStep mergeConfig r a = some t) : s.KeepsUser t := by
  have hconsistent : t.providers.Consistent := Providers.consistent_of_reachable
    ((pageProviders mergeConfig).reachable (hr.step trivial hst))
  cases a with
  | providers action =>
    obtain ⟨providers, hstep, rfl⟩ := pageStep_providers hst
    refine ⟨hconsistent, h.dispatched, fun hexpired => ?_⟩
    obtain ⟨hrestored, huser, hstatus⟩ := h.kept hexpired
    obtain ⟨hrestored', huser', hstatus'⟩ := stays_step h.consistent hrestored hguard hstep
    exact ⟨hrestored', huser'.trans huser, hstatus'.trans hstatus⟩
  | api action =>
    obtain ⟨client, hclient, rfl⟩ := Option.map_eq_some_iff.mp hst
    rcases expired_apiStep (apiStep_cases hclient) with hsame | ⟨n, hmore⟩
    · have hquiet : r.providers.hear r.client client = r.providers := by
        rw [Providers.hear, hsame, if_neg (Nat.lt_irrefl _)]
      refine ⟨hconsistent, hsame ▸ h.dispatched, fun hexpired => ?_⟩
      rw [hquiet]
      exact h.kept (hsame.symm.trans hexpired)
    -- an event more than before
    · refine ⟨hconsistent, h.dispatched.trans ⟨[n], hmore.symm⟩, fun hexpired => ?_⟩
      have hlength := h.dispatched.length_le
      rw [← hexpired, hmore, List.length_append, List.length_singleton] at hlength
      omega

/-- **A user is not signed out without a cause.** Once the session is restored, and in every order
of what the instance, the sockets and React do: if no one logs in or out, `AuthProvider` stays
mounted, the server refuses no socket for good, and finds the session when it is asked for, then the
page has the same user as before, or the interceptor has told since that a refresh request has
failed. -/
theorem signed_out_with_cause (hmerge : MergesConfig mergeConfig)
    (h : (pageSystem mergeConfig).Reachable Guard.all s)
    (hrestored : s.providers.auth.Restored)
    (hrun : ((pageSystem mergeConfig).startedAt s).Reachable PageGuard t) :
    (t.providers.auth.authUser = s.providers.auth.authUser ∧
      t.providers.auth.authStatus = s.providers.auth.authStatus) ∨
    ∃ (n : ℕ) (refresh : Refresh) (call : InstanceCall),
      n ∈ t.client.expired.drop s.client.expired.length ∧
      t.client.refreshes[n]? = some refresh ∧ t.client.calls[refresh.call]? = some call ∧
      call.origin = .refresh ∧ call.phase = .settled false := by
  have ht : (pageSystem mergeConfig).Reachable Guard.all t := h.trans hrun.all
  have hkeeps : s.KeepsUser t := by
    refine hrun.invariant_of (J := (pageSystem mergeConfig).Reachable Guard.all) (I := s.KeepsUser)
      (fun r hr => h.trans hr.all) ?_ ?_
    · rintro r rfl
      exact ⟨Providers.consistent_of_reachable ((pageProviders mergeConfig).reachable h),
        List.prefix_refl _, fun _ => ⟨hrestored, rfl, rfl⟩⟩
    · exact fun r a r' hr _ hkeeps hguard hst => hkeeps.step hr hguard hst
  obtain ⟨more, hmore⟩ := hkeeps.dispatched
  cases more with
  | nil =>
    rw [List.append_nil] at hmore
    exact .inl (hkeeps.kept hmore.symm).2
  | cons n more =>
    have hlinked := linked_of_reachable hmerge ((pageClient mergeConfig).reachable ht)
    have hmem : n ∈ t.client.expired := by
      rw [← hmore]
      exact List.mem_append_right _ List.mem_cons_self
    obtain ⟨refresh, hrefresh, houtcome⟩ := hlinked.expired n hmem
    obtain ⟨call, hcall, horigin, hsettled⟩ := (hlinked.refreshes n refresh hrefresh).call
    refine .inr ⟨n, refresh, call, ?_, hrefresh, hcall, horigin, hsettled false houtcome⟩
    rw [← hmore, List.drop_left]
    exact List.mem_cons_self

/-- A request is answered 401, and the refresh is refused. -/
def samplePageRun : List PageAction :=
  [ .api (.request ⟨some (js "/api/user/allusers"), false⟩),
    .api (.answer 0 (.error true (some 401))), .api (.job (.intercept 0)),
    .api (.answer 1 (.error true (some 401))), .api (.job (.intercept 1)),
    .api (.job (.finallyRefresh 0)), .api (.job (.resume 0)) ]

/-- The action is one of the instance. -/
def PageAction.ofApi : PageAction → Bool
  | .api _ => true
  | .providers _ => false

/-- The user is signed out by the refresh that has failed. -/
theorem signed_out_with_cause_sample : ∃ t,
    ((pageSystem id).startedAt ⟨.initial, connectedPage ⟨[], [], []⟩⟩).Reachable PageGuard t ∧
      t.providers.auth.authUser = none ∧ ∃ (n : ℕ) (refresh : Refresh) (call : InstanceCall),
        t.client.refreshes[n]? = some refresh ∧ t.client.calls[refresh.call]? = some call ∧
        call.origin = .refresh ∧ call.phase = .settled false := by
  have hstart : (pageSystem id).runFrom ⟨.initial, .initial⟩
      [.providers (.auth .runEffect), .providers (.auth (.restore 0 (.user ⟨[], [], []⟩))),
        .providers .render, .providers .runSocketEffect,
        .providers (.socketEvent 0 .connect)] =
      some ⟨.initial, connectedPage ⟨[], [], []⟩⟩ := rfl
  have hreachable : (pageSystem id).Reachable Guard.all ⟨.initial, connectedPage ⟨[], [], []⟩⟩ :=
    .of_runFrom (.init rfl) hstart
  obtain ⟨t, hrun, hnone⟩ := exists_of_any (fun t : Page => t.providers.auth.authUser = none)
    (by decide : (((pageSystem id).startedAt ⟨.initial, connectedPage ⟨[], [], []⟩⟩).runIf
      (fun _ a => a.ofApi) ⟨.initial, connectedPage ⟨[], [], []⟩⟩ samplePageRun).any _ = true)
  have hadmitted (s : Page) (a : PageAction) (ha : a.ofApi = true) : PageGuard s a := by
    cases a with
    | api => trivial
    | providers => cases ha
  have hguarded : ((pageSystem id).startedAt
      ⟨.initial, connectedPage ⟨[], [], []⟩⟩).Reachable PageGuard t :=
    .of_runIf (fun s a _ => hadmitted s a) (.init rfl) hrun
  have hmerge : MergesConfig id := ⟨fun _ => rfl, fun _ => rfl⟩
  rcases signed_out_with_cause hmerge hreachable (connectedPage_restored _) hguarded with
    ⟨hsame, -⟩ | ⟨n, refresh, call, -, hcause⟩
  · rw [hnone] at hsame
    cases hsame
  · exact ⟨t, hguarded, hnone, n, refresh, call, hcause⟩

end MernChat
