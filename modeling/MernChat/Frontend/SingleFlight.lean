import Mathlib.Algebra.Order.BigOperators.Group.List
import Mathlib.Algebra.BigOperators.Group.List.Basic
import Mathlib.Algebra.Order.Ring.Nat
import MernChat.Frontend.Interceptor

/-!
# One refresh at a time

What holds of the calls of the instance in every order of answers and callbacks.

## Main definitions

* `MergesConfig`: what is assumed of axios
* `ApiClient.Grows`: what a step keeps of calls and refreshes
* `ApiClient.Linked`: calls and refreshes belong together
* `ApiClient.Counted`: how often requests were sent
* `ApiClient.work`: the callbacks to come

## Main results

* `linked_of_reachable`, `counted_of_reachable`: the invariants of every run
* `length_le_work`: callbacks come to an end
* `single_flight`: one refresh at a time, and every request settled after at most two attempts
-/

namespace MernChat

open Library Library.TransitionSystem

/-- The config of a call keeps the url and the key `_retry` of the one given. -/
structure MergesConfig (mergeConfig : RequestConfig → RequestConfig) : Prop where
  url : ∀ config, (mergeConfig config).url = config.url
  _retry : ∀ config, (mergeConfig config)._retry = config._retry

variable {mergeConfig : RequestConfig → RequestConfig} {s t : ApiClient} {i n : ℕ}
  {call : InstanceCall} {f : InstanceCall → InstanceCall}

/-! ## What a step keeps -/

/-- The promise of the call is not settled. -/
def RequestPhase.pending : RequestPhase → Bool
  | .settled _ => false
  | _ => true

/-- Nothing is awaited. -/
def RequestPhase.plain : RequestPhase → Bool
  | .awaitsRefresh _ | .awaitsRetry _ => false
  | _ => true

/-- A call later on. -/
structure InstanceCall.Extends (call call' : InstanceCall) : Prop where
  origin : call'.origin = call.origin
  request : call'.request = call.request
  url : call'.config.url = call.config.url
  settled : ∀ ok, call.phase = .settled ok → call'.phase = .settled ok

/-- A refresh later on. -/
structure Refresh.Extends (refresh refresh' : Refresh) : Prop where
  call : refresh'.call = refresh.call
  startedBy : refresh'.startedBy = refresh.startedBy
  outcome : ∀ ok, refresh.outcome = some ok → refresh'.outcome = some ok

/-- No call and no refresh is forgotten. -/
structure ApiClient.Grows (s t : ApiClient) : Prop where
  calls : ∀ (i : ℕ) (call : InstanceCall), s.calls[i]? = some call →
    ∃ call', t.calls[i]? = some call' ∧ call.Extends call'
  refreshes : ∀ (n : ℕ) (refresh : Refresh), s.refreshes[n]? = some refresh →
    ∃ refresh', t.refreshes[n]? = some refresh' ∧ refresh.Extends refresh'

theorem InstanceCall.Extends.refl (call : InstanceCall) : call.Extends call :=
  ⟨rfl, rfl, rfl, fun _ h => h⟩

/-- A pending call whose phase and key are changed. -/
theorem InstanceCall.Extends.of_pending (h : call.phase.pending = true) (retry : Bool)
    (phase : RequestPhase) : call.Extends
      { call with config := { call.config with _retry := retry }, phase := phase } := by
  refine ⟨rfl, rfl, rfl, fun ok hok => ?_⟩
  rw [hok] at h
  cases h

theorem Refresh.Extends.refl (refresh : Refresh) : refresh.Extends refresh :=
  ⟨rfl, rfl, fun _ h => h⟩

/-! ## Lists that grow -/

theorem getElem?_concat {α : Type} {l : List α} {a b : α} {i : ℕ} :
    (l ++ [a])[i]? = some b ↔ l[i]? = some b ∨ i = l.length ∧ a = b := by
  rcases lt_trichotomy i l.length with h | h | h
  · rw [List.getElem?_append_left h, or_iff_left fun hlast => h.ne hlast.1]
  · subst h
    rw [List.getElem?_concat_length, List.getElem?_eq_none le_rfl]
    simp
  · rw [List.getElem?_eq_none (by rw [List.length_append, List.length_singleton]; omega),
      List.getElem?_eq_none h.le]
    simp only [reduceCtorEq, false_or, false_iff, not_and]
    omega

theorem getElem?_modify_eq_some {α : Type} {l : List α} {f : α → α} {i j : ℕ} {b : α} :
    (l.modify i f)[j]? = some b ↔
      (i ≠ j ∧ l[j]? = some b) ∨ (i = j ∧ ∃ a, l[j]? = some a ∧ f a = b) := by
  by_cases h : i = j
  · subst h
    rw [List.getElem?_modify_eq, Option.map_eq_map, Option.map_eq_some_iff]
    simp
  · rw [List.getElem?_modify_ne f l h]
    simp [h]

theorem modify_concat {α : Type} {l : List α} {f : α → α} {i : ℕ} (h : i < l.length) (a : α) :
    (l ++ [a]).modify i f = l.modify i f ++ [a] := by
  induction l generalizing i with
  | nil => exact absurd h (Nat.not_lt_zero i)
  | cons b l ih =>
    cases i with
    | zero => rfl
    | succ i =>
      rw [List.cons_append, List.modify_succ_cons, List.modify_succ_cons,
        ih (Nat.lt_of_succ_lt_succ h), List.cons_append]

/-- The sum of a list one entry of which is changed. -/
theorem sum_map_modify {α : Type} {l : List α} {f : α → α} {i : ℕ} {a : α} (g : α → ℕ)
    (h : l[i]? = some a) : ((l.modify i f).map g).sum + g a = (l.map g).sum + g (f a) := by
  induction l generalizing i with
  | nil => exact absurd h (by simp)
  | cons b l ih =>
    cases i with
    | zero =>
      obtain rfl := Option.some.inj (List.getElem?_cons_zero.symm.trans h)
      rw [List.modify_zero_cons, List.map_cons, List.map_cons, List.sum_cons, List.sum_cons]
      omega
    | succ i =>
      rw [List.getElem?_cons_succ] at h
      have hrest := ih h
      rw [List.modify_succ_cons, List.map_cons, List.map_cons, List.sum_cons, List.sum_cons]
      omega

theorem sum_map_concat {α : Type} (l : List α) (a : α) (g : α → ℕ) :
    ((l ++ [a]).map g).sum = (l.map g).sum + g a := by
  rw [List.map_append, List.sum_append, List.map_singleton, List.sum_singleton]

/-! ## Steps keep calls and refreshes -/

theorem grows_update (h : s.calls[i]? = some call) (hf : call.Extends (f call)) :
    s.Grows (s.update i f) where
  calls := by
    intro j call' hcall'
    by_cases hij : i = j
    · subst hij
      obtain rfl := Option.some.inj (h.symm.trans hcall')
      exact ⟨f call, getElem?_modify_eq_some.mpr (Or.inr ⟨rfl, call, h, rfl⟩), hf⟩
    · exact ⟨call', getElem?_modify_eq_some.mpr (Or.inl ⟨hij, hcall'⟩), .refl call'⟩
  refreshes := fun _ refresh hrefresh => ⟨refresh, hrefresh, .refl refresh⟩

theorem grows_setPhase {phase : RequestPhase} (h : s.calls[i]? = some call)
    (hphase : call.phase.pending = true) : s.Grows (s.setPhase i phase) :=
  grows_update h (.of_pending hphase call.config._retry phase)

theorem grows_instanceCall (config : RequestConfig) (origin : CallOrigin) (request : ℕ) :
    s.Grows (instanceCall mergeConfig s config origin request) where
  calls := fun _ call hcall => ⟨call, getElem?_concat.mpr (Or.inl hcall), .refl call⟩
  refreshes := fun _ refresh hrefresh => ⟨refresh, hrefresh, .refl refresh⟩

theorem getElem?_instanceCall {config : RequestConfig} {origin : CallOrigin} {request : ℕ}
    (hcall : s.calls[i]? = some call) :
    (instanceCall mergeConfig s config origin request).calls[i]? = some call :=
  getElem?_concat.mpr (Or.inl hcall)

/-- The refresh that is started where there is none. -/
theorem refreshSession_eq (h : s.refreshPromise = none) (i : ℕ) :
    (refreshSession mergeConfig s i).1 = { s with
      calls := s.calls ++ [⟨mergeConfig ⟨some (js "/api/user/refresh"), false⟩, .refresh,
        s.calls.length, .sent⟩]
      refreshes := s.refreshes ++ [⟨s.calls.length, i, none⟩]
      refreshPromise := some s.refreshes.length } := by
  rw [refreshSession, h]
  rfl

theorem getElem?_refreshSession (h : s.refreshPromise = none) (hcall : s.calls[i]? = some call)
    (j : ℕ) : (refreshSession mergeConfig s j).1.calls[i]? = some call := by
  rw [refreshSession_eq h]
  exact getElem?_concat.mpr (Or.inl hcall)

theorem getElem?_refreshes_refreshSession (h : s.refreshPromise = none) (j : ℕ) :
    ∃ refresh : Refresh,
      (refreshSession mergeConfig s j).1.refreshes[s.refreshes.length]? = some refresh := by
  rw [refreshSession_eq h]
  exact ⟨_, getElem?_concat.mpr (Or.inr ⟨rfl, rfl⟩)⟩

theorem grows_refreshSession (h : s.refreshPromise = none) (i : ℕ) :
    s.Grows (refreshSession mergeConfig s i).1 := by
  rw [refreshSession_eq h]
  refine ⟨fun _ call hcall => ?_, fun _ refresh hrefresh => ?_⟩
  · exact ⟨call, getElem?_concat.mpr (Or.inl hcall), .refl call⟩
  · exact ⟨refresh, getElem?_concat.mpr (Or.inl hrefresh), .refl refresh⟩

theorem grows_finish {refresh : Refresh} {ok : Bool} (hrefresh : s.refreshes[n]? = some refresh)
    (houtcome : refresh.outcome = none) : s.Grows { s with
      refreshes := s.refreshes.modify n fun refresh => { refresh with outcome := some ok }
      refreshPromise := none } where
  calls := fun _ call hcall => ⟨call, hcall, .refl call⟩
  refreshes := by
    intro m refresh' hrefresh'
    by_cases hnm : n = m
    · subst hnm
      obtain rfl := Option.some.inj (hrefresh.symm.trans hrefresh')
      refine ⟨_, getElem?_modify_eq_some.mpr (Or.inr ⟨rfl, refresh, hrefresh, rfl⟩), rfl, rfl, ?_⟩
      intro ok' hok'
      rw [houtcome] at hok'
      cases hok'
    · exact ⟨refresh', getElem?_modify_eq_some.mpr (Or.inl ⟨hnm, hrefresh'⟩), .refl refresh'⟩

/-! ## Calls and refreshes -/

def InstanceCall.url (call : InstanceCall) : JsString := requestUrl (some call.config)

theorem InstanceCall.Extends.url_eq {call call' : InstanceCall} (h : call.Extends call') :
    call'.url = call.url := by
  rw [InstanceCall.url, InstanceCall.url, requestUrl, requestUrl, Option.bind_some,
    Option.bind_some, h.url]

/-- A call of the instance: a refresh asks for a path of authentication and belongs to a promise, a
second attempt has the key `_retry`, and only calls of callers await anything. -/
structure InstanceCall.Ok (s : ApiClient) (i : ℕ) (call : InstanceCall) : Prop where
  auth : call.origin = .refresh → isAuthRequest call.url = true
  promise : call.origin = .refresh →
    ∃ (n : ℕ) (refresh : Refresh), s.refreshes[n]? = some refresh ∧ refresh.call = i
  retry : call.origin = .retry → call.config._retry = true
  waits : ∀ n, call.phase = .awaitsRefresh n →
    call.origin = .caller ∧ call.config._retry = true ∧
      ∃ refresh : Refresh, s.refreshes[n]? = some refresh
  returned : ∀ j, call.phase = .awaitsRetry j → call.origin = .caller ∧
    ∃ retry : InstanceCall, s.calls[j]? = some retry ∧ retry.origin = .retry ∧
      retry.request = call.request

/-- A promise of a refresh: it is settled as its call is, and was started for a call of a caller
that is no request of authentication. -/
structure Refresh.Ok (s : ApiClient) (refresh : Refresh) : Prop where
  call : ∃ call : InstanceCall, s.calls[refresh.call]? = some call ∧ call.origin = .refresh ∧
    ∀ ok, refresh.outcome = some ok → call.phase = .settled ok
  startedBy : ∃ call : InstanceCall, s.calls[refresh.startedBy]? = some call ∧
    call.origin = .caller ∧ isAuthRequest call.url = false

/-- Calls and refreshes belong together, and a promise that is not settled is `refreshPromise`. -/
structure ApiClient.Linked (s : ApiClient) : Prop where
  calls : ∀ (i : ℕ) (call : InstanceCall), s.calls[i]? = some call → call.Ok s i
  refreshes : ∀ (n : ℕ) (refresh : Refresh), s.refreshes[n]? = some refresh → refresh.Ok s
  pending : ∀ (n : ℕ) (refresh : Refresh), s.refreshes[n]? = some refresh →
    refresh.outcome = none → s.refreshPromise = some n
  promise : ∀ n, s.refreshPromise = some n → ∃ refresh : Refresh, s.refreshes[n]? = some refresh
  expired : ∀ n ∈ s.expired, ∃ refresh : Refresh, s.refreshes[n]? = some refresh ∧
    refresh.outcome = some false

theorem InstanceCall.Ok.mono (h : call.Ok s i) (hst : s.Grows t) : call.Ok t i where
  auth := h.auth
  promise := by
    intro horigin
    obtain ⟨n, refresh, hrefresh, hcall⟩ := h.promise horigin
    obtain ⟨refresh', hrefresh', hext⟩ := hst.refreshes n refresh hrefresh
    exact ⟨n, refresh', hrefresh', hext.call.trans hcall⟩
  retry := h.retry
  waits := by
    intro n hphase
    obtain ⟨horigin, hretry, refresh, hrefresh⟩ := h.waits n hphase
    obtain ⟨refresh', hrefresh', -⟩ := hst.refreshes n refresh hrefresh
    exact ⟨horigin, hretry, refresh', hrefresh'⟩
  returned := by
    intro j hphase
    obtain ⟨horigin, retry, hretry, hagain, hrequest⟩ := h.returned j hphase
    obtain ⟨retry', hretry', hext⟩ := hst.calls j retry hretry
    exact ⟨horigin, retry', hretry', hext.origin.trans hagain, hext.request.trans hrequest⟩

theorem Refresh.Ok.mono {refresh : Refresh} (h : refresh.Ok s) (hst : s.Grows t) :
    refresh.Ok t where
  call := by
    obtain ⟨call, hcall, horigin, hsettled⟩ := h.call
    obtain ⟨call', hcall', hext⟩ := hst.calls _ call hcall
    exact ⟨call', hcall', hext.origin.trans horigin,
      fun ok hok => hext.settled ok (hsettled ok hok)⟩
  startedBy := by
    obtain ⟨call, hcall, horigin, hauth⟩ := h.startedBy
    obtain ⟨call', hcall', hext⟩ := hst.calls _ call hcall
    exact ⟨call', hcall', hext.origin.trans horigin, hext.url_eq ▸ hauth⟩

/-- A state is linked if what is new in it is. -/
theorem ApiClient.Linked.of_grows (hs : s.Linked) (hst : s.Grows t)
    (hcalls : ∀ (j : ℕ) (call' : InstanceCall), t.calls[j]? = some call' →
      s.calls[j]? = some call' ∨ call'.Ok t j)
    (hrefreshes : t.refreshes = s.refreshes) (hpromise : t.refreshPromise = s.refreshPromise)
    (hexpired : t.expired = s.expired) : t.Linked where
  calls := fun j call' hcall' =>
    (hcalls j call' hcall').elim (fun hold => (hs.calls j call' hold).mono hst) id
  refreshes := fun n refresh hrefresh => by
    rw [hrefreshes] at hrefresh
    exact (hs.refreshes n refresh hrefresh).mono hst
  pending := by
    rw [hrefreshes, hpromise]
    exact hs.pending
  promise := by
    rw [hrefreshes, hpromise]
    exact hs.promise
  expired := by
    rw [hrefreshes, hexpired]
    exact hs.expired

theorem linked_update (hs : s.Linked) (hcall : s.calls[i]? = some call)
    (hext : call.Extends (f call)) (hok : (f call).Ok (s.update i f) i) :
    (s.update i f).Linked := by
  refine hs.of_grows (grows_update hcall hext) (fun j call' hcall' => ?_) rfl rfl rfl
  rcases getElem?_modify_eq_some.mp hcall' with ⟨-, hold⟩ | ⟨rfl, a, ha, rfl⟩
  · exact Or.inl hold
  · obtain rfl := Option.some.inj (hcall.symm.trans ha)
    exact Or.inr hok

theorem linked_setPhase {phase : RequestPhase} (hs : s.Linked) (hcall : s.calls[i]? = some call)
    (hphase : call.phase.pending = true) (hplain : phase.plain = true) :
    (s.setPhase i phase).Linked := by
  have hold : call.Ok (s.setPhase i phase) i :=
    (hs.calls i call hcall).mono (grows_setPhase hcall hphase)
  refine linked_update hs hcall (.of_pending hphase call.config._retry phase) ?_
  refine ⟨hold.auth, hold.promise, hold.retry, fun n hwaits => ?_, fun j hreturned => ?_⟩
  · rw [show phase = .awaitsRefresh n from hwaits] at hplain
    cases hplain
  · rw [show phase = .awaitsRetry j from hreturned] at hplain
    cases hplain

/-- A new call. -/
theorem linked_instanceCall {config : RequestConfig} {origin : CallOrigin} {request : ℕ}
    (hs : s.Linked) (horigin : origin ≠ .refresh)
    (hretry : origin = .retry → (mergeConfig config)._retry = true) :
    (instanceCall mergeConfig s config origin request).Linked := by
  refine hs.of_grows (grows_instanceCall _ _ _) (fun j call' hcall' => ?_) rfl rfl rfl
  rcases getElem?_concat.mp hcall' with hold | ⟨rfl, rfl⟩
  · exact Or.inl hold
  · refine Or.inr ⟨fun h => absurd h horigin, fun h => absurd h horigin, hretry, ?_, ?_⟩
    · intro n hphase
      cases hphase
    · intro j hphase
      cases hphase

/-- A new refresh. -/
theorem linked_refreshSession (hmerge : MergesConfig mergeConfig) (hs : s.Linked)
    (hpromise : s.refreshPromise = none) (hcall : s.calls[i]? = some call)
    (horigin : call.origin = .caller) (hauth : isAuthRequest call.url = false) :
    (refreshSession mergeConfig s i).1.Linked := by
  have hst : s.Grows (refreshSession mergeConfig s i).1 := grows_refreshSession hpromise i
  rw [refreshSession_eq hpromise] at hst ⊢
  refine ⟨fun j call' hcall' => ?_, fun n refresh hrefresh => ?_,
    fun n refresh hrefresh hnone => ?_, fun n hn => ?_, fun n hn => ?_⟩
  · rcases getElem?_concat.mp hcall' with hold | ⟨rfl, rfl⟩
    · exact (hs.calls j call' hold).mono hst
    · refine ⟨fun _ => ?_, fun _ => ?_, fun h => ?_, fun n h => ?_, fun j h => ?_⟩
      · rw [InstanceCall.url, requestUrl, Option.bind_some, hmerge.url]
        decide
      · exact ⟨_, _, getElem?_concat.mpr (Or.inr ⟨rfl, rfl⟩), rfl⟩
      · cases h
      · cases h
      · cases h
  · rcases getElem?_concat.mp hrefresh with hold | ⟨rfl, rfl⟩
    · exact (hs.refreshes n refresh hold).mono hst
    · refine ⟨⟨_, getElem?_concat.mpr (Or.inr ⟨rfl, rfl⟩), rfl, fun ok hok => ?_⟩, ?_⟩
      · cases hok
      · exact ⟨call, getElem?_concat.mpr (Or.inl hcall), horigin, hauth⟩
  · rcases getElem?_concat.mp hrefresh with hold | ⟨rfl, rfl⟩
    · -- no other refresh is pending
      have hpending := hs.pending n refresh hold hnone
      rw [hpromise] at hpending
      cases hpending
    · rfl
  · obtain rfl := Option.some.inj hn
    exact ⟨_, getElem?_concat.mpr (Or.inr ⟨rfl, rfl⟩)⟩
  · obtain ⟨refresh, hrefresh, houtcome⟩ := hs.expired n hn
    exact ⟨refresh, getElem?_concat.mpr (Or.inl hrefresh), houtcome⟩

theorem linked_finish {refresh : Refresh} {ok : Bool} (hs : s.Linked)
    (hrefresh : s.refreshes[n]? = some refresh) (houtcome : refresh.outcome = none)
    (hcall : s.calls[refresh.call]? = some call) (hphase : call.phase = .settled ok) :
    ApiClient.Linked { s with
      refreshes := s.refreshes.modify n fun refresh => { refresh with outcome := some ok }
      refreshPromise := none } := by
  have hst : s.Grows { s with
      refreshes := s.refreshes.modify n fun refresh => { refresh with outcome := some ok }
      refreshPromise := none } := grows_finish hrefresh houtcome
  refine ⟨fun j call' hcall' => (hs.calls j call' hcall').mono hst, fun m refresh' h => ?_,
    fun m refresh' h hnone => ?_, fun m hm => ?_, fun m hm => ?_⟩
  · rcases getElem?_modify_eq_some.mp h with ⟨-, hold⟩ | ⟨rfl, a, ha, rfl⟩
    · exact (hs.refreshes m refresh' hold).mono hst
    · obtain rfl := Option.some.inj (hrefresh.symm.trans ha)
      have hold := hs.refreshes n refresh hrefresh
      obtain ⟨call', hcall', horigin, -⟩ := hold.call
      obtain rfl := Option.some.inj (hcall.symm.trans hcall')
      refine ⟨⟨call, hcall, horigin, fun ok' hok' => ?_⟩, hold.startedBy⟩
      rw [hphase, Option.some.inj hok']
  · -- the one that was pending is settled
    exfalso
    rcases getElem?_modify_eq_some.mp h with ⟨hne, hold⟩ | ⟨rfl, a, ha, rfl⟩
    · have hpending := hs.pending n refresh hrefresh houtcome
      have hpending' := hs.pending m refresh' hold hnone
      exact hne (Option.some.inj (hpending.symm.trans hpending'))
    · cases hnone
  · cases hm
  · obtain ⟨refresh', hrefresh', houtcome'⟩ := hs.expired m hm
    obtain ⟨refresh'', hrefresh'', hext⟩ := hst.refreshes m refresh' hrefresh'
    exact ⟨refresh'', hrefresh'', hext.outcome _ houtcome'⟩

/-- A failed refresh was awaited. -/
theorem linked_expired {refresh : Refresh} (hs : s.Linked)
    (hrefresh : s.refreshes[n]? = some refresh) (houtcome : refresh.outcome = some false) :
    ApiClient.Linked { s with expired := s.expired ++ [n] } := by
  have hst : s.Grows { s with expired := s.expired ++ [n] } :=
    ⟨fun _ call h => ⟨call, h, .refl call⟩, fun _ refresh h => ⟨refresh, h, .refl refresh⟩⟩
  refine ⟨fun j call hcall => (hs.calls j call hcall).mono hst,
    fun m refresh' h => (hs.refreshes m refresh' h).mono hst, hs.pending, hs.promise,
    fun m hm => ?_⟩
  rcases List.mem_append.mp hm with hm | hm
  · exact hs.expired m hm
  · rw [List.mem_singleton.mp hm]
    exact ⟨refresh, hrefresh, houtcome⟩

/-- A call that awaits its second attempt. -/
theorem linked_again (hmerge : MergesConfig mergeConfig) (hs : s.Linked)
    (hcall : s.calls[i]? = some call) (hphase : call.phase = .awaitsRefresh n) :
    ((instanceCall mergeConfig s call.config .retry call.request).setPhase i
      (.awaitsRetry s.calls.length)).Linked := by
  obtain ⟨horigin, hretry, -⟩ := (hs.calls i call hcall).waits n hphase
  have hnew : (instanceCall mergeConfig s call.config .retry call.request).Linked :=
    linked_instanceCall hs (by decide) fun _ => (hmerge._retry _).trans hretry
  have hcall' : (instanceCall mergeConfig s call.config .retry call.request).calls[i]? =
      some call := getElem?_instanceCall hcall
  have hlast : (instanceCall mergeConfig s call.config .retry
      call.request).calls[s.calls.length]? =
        some ⟨mergeConfig call.config, .retry, call.request, .sent⟩ :=
    getElem?_concat.mpr (Or.inr ⟨rfl, rfl⟩)
  have hst : (instanceCall mergeConfig s call.config .retry call.request).Grows
      ((instanceCall mergeConfig s call.config .retry call.request).setPhase i
        (.awaitsRetry s.calls.length)) := grows_setPhase hcall' (hphase ▸ rfl)
  refine linked_update hnew hcall' (.of_pending (hphase ▸ rfl) call.config._retry _) ?_
  refine ⟨fun h => ?_, fun h => ?_, fun h => ?_, fun m h => ?_, fun j h => ?_⟩
  · rw [horigin] at h
    cases h
  · rw [horigin] at h
    cases h
  · rw [horigin] at h
    cases h
  · cases h
  · cases h
    obtain ⟨retry, hretry, hext⟩ := hst.calls _ _ hlast
    exact ⟨horigin, retry, hretry, hext.origin, hext.request⟩

/-- What a call that the interceptor lets through is. -/
theorem InstanceCall.Ok.origin_eq_caller (h : call.Ok s i) (hretry : call.config._retry = false)
    (hauth : isAuthRequest (requestUrl (some call.config)) = false) : call.origin = .caller := by
  cases horigin : call.origin with
  | caller => rfl
  | refresh =>
    have hauth' := h.auth horigin
    rw [InstanceCall.url, hauth] at hauth'
    cases hauth'
  | retry =>
    have hretry' := h.retry horigin
    rw [hretry] at hretry'
    cases hretry'

/-- A call that awaits a refresh. -/
theorem ok_awaitsRefresh {url : Option JsString} {request : ℕ}
    (hrefresh : ∃ refresh : Refresh, s.refreshes[n]? = some refresh) :
    InstanceCall.Ok s i ⟨⟨url, true⟩, .caller, request, .awaitsRefresh n⟩ where
  auth := fun h => by cases h
  promise := fun h => by cases h
  retry := fun h => by cases h
  waits := by
    intro m hm
    cases hm
    exact ⟨rfl, rfl, hrefresh⟩
  returned := fun j h => by cases h

/-- **A step keeps calls and refreshes together.** -/
theorem linked_apiStep (hmerge : MergesConfig mergeConfig) (hs : s.Linked) {action : ApiAction}
    (h : ApiStep mergeConfig s action t) : t.Linked := by
  cases h with
  | request config => exact linked_instanceCall hs (by decide) fun h => by cases h
  | answer outcome hcall hphase =>
    exact linked_setPhase hs hcall (hphase ▸ rfl) (by cases outcome <;> rfl)
  | fulfil hcall hphase => exact linked_setPhase hs hcall (hphase ▸ rfl) rfl
  | reject hcall hphase => exact linked_setPhase hs hcall (hphase ▸ rfl) rfl
  | join hcall hphase hretry hauth hpromise =>
    have horigin := (hs.calls _ _ hcall).origin_eq_caller hretry hauth
    refine linked_update hs hcall (.of_pending (hphase ▸ rfl) true _) ?_
    rw [horigin]
    exact ok_awaitsRefresh (hs.promise _ hpromise)
  | start hcall hphase hretry hauth hpromise =>
    have horigin := (hs.calls _ _ hcall).origin_eq_caller hretry hauth
    refine linked_update (linked_refreshSession hmerge hs hpromise hcall horigin hauth)
      (getElem?_refreshSession hpromise hcall _) (.of_pending (hphase ▸ rfl) true _) ?_
    rw [horigin]
    exact ok_awaitsRefresh (getElem?_refreshes_refreshSession hpromise _)
  | finish hrefresh houtcome hcall hphase => exact linked_finish hs hrefresh houtcome hcall hphase
  | again hcall hphase hrefresh houtcome => exact linked_again hmerge hs hcall hphase
  | expire hcall hphase hrefresh houtcome =>
    exact linked_setPhase (linked_expired hs hrefresh houtcome) hcall (hphase ▸ rfl) rfl
  | adopt hcall hphase hretry hok => exact linked_setPhase hs hcall (hphase ▸ rfl) rfl

theorem ApiClient.linked_initial : ApiClient.initial.Linked := by
  refine ⟨fun i call h => ?_, fun n refresh h => ?_, fun n refresh h => ?_, fun n h => ?_,
    fun n h => ?_⟩
  · cases h
  · cases h
  · cases h
  · cases h
  · cases h

/-- **Calls and refreshes belong together in every run.** -/
theorem linked_of_reachable (hmerge : MergesConfig mergeConfig)
    (h : (apiSystem mergeConfig).Reachable Guard.all s) : s.Linked := by
  refine h.invariant (I := ApiClient.Linked) ?_ fun _ _ _ hs _ hstep =>
    linked_apiStep hmerge hs (apiStep_cases hstep)
  rintro _ rfl
  exact ApiClient.linked_initial

/-! ## How often a request is sent -/

/-- The request was not sent again so far. -/
def RequestPhase.early : RequestPhase → Bool
  | .awaitsRetry _ | .settled _ => false
  | _ => true

/-- Every request is named by the call that sent it first. It was sent once until it is sent again,
and at most twice from then on. -/
structure ApiClient.Counted (s : ApiClient) : Prop where
  first : ∀ (i : ℕ) (call : InstanceCall), s.calls[i]? = some call →
    ∃ first : InstanceCall, s.calls[call.request]? = some first ∧ first.origin ≠ .retry
  named : ∀ (i : ℕ) (call : InstanceCall), s.calls[i]? = some call → call.origin ≠ .retry →
    call.request = i
  once : ∀ (i : ℕ) (call : InstanceCall), s.calls[i]? = some call → call.origin ≠ .retry →
    call.phase.early = true → s.sends i ≤ 1
  twice : ∀ r, s.sends r ≤ 2

theorem sends_instanceCall (config : RequestConfig) (origin : CallOrigin) (request r : ℕ) :
    (instanceCall mergeConfig s config origin request).sends r =
      s.sends r + if request = r then 1 else 0 := by
  rw [ApiClient.sends, instanceCall, List.countP_append, List.countP_singleton]
  simp only [beq_iff_eq]
  rfl

theorem countP_modify {α : Type} {p : α → Bool} {f : α → α} (h : ∀ a, p (f a) = p a) (l : List α)
    (i : ℕ) : (l.modify i f).countP p = l.countP p := by
  induction l generalizing i with
  | nil => rw [List.modify_nil]
  | cons a l ih =>
    cases i with
    | zero => rw [List.modify_zero_cons, List.countP_cons, List.countP_cons, h]
    | succ i => rw [List.modify_succ_cons, List.countP_cons, List.countP_cons, ih]

theorem sends_update (hf : ∀ call, (f call).request = call.request) (r : ℕ) :
    (s.update i f).sends r = s.sends r :=
  countP_modify (fun call => by rw [hf]) s.calls i

theorem sends_setPhase (phase : RequestPhase) (r : ℕ) : (s.setPhase i phase).sends r = s.sends r :=
  sends_update (f := fun call => { call with phase := phase }) (fun _ => rfl) r

/-- No call has sent a request that is still to come. -/
theorem ApiClient.Counted.sends_length (hs : s.Counted) : s.sends s.calls.length = 0 := by
  rw [ApiClient.sends, List.countP_eq_zero]
  intro call hcall hrequest
  obtain ⟨i, hi⟩ := List.mem_iff_getElem?.mp hcall
  obtain ⟨first, hfirst, -⟩ := hs.first i call hi
  rw [beq_iff_eq.mp hrequest, List.getElem?_eq_none le_rfl] at hfirst
  cases hfirst

/-- A request is sent for the first time. -/
theorem counted_instanceCall {config : RequestConfig} {origin : CallOrigin} (hs : s.Counted)
    (horigin : origin ≠ .retry) :
    (instanceCall mergeConfig s config origin s.calls.length).Counted := by
  have hlength := hs.sends_length
  have hold : ∀ (i : ℕ) (call : InstanceCall), s.calls[i]? = some call → i ≠ s.calls.length := by
    rintro i call hcall rfl
    rw [List.getElem?_eq_none le_rfl] at hcall
    cases hcall
  refine ⟨fun i call hcall => ?_, fun i call hcall hcaller => ?_,
    fun i call hcall hcaller hearly => ?_, fun r => ?_⟩
  · rcases getElem?_concat.mp hcall with hcall | ⟨rfl, rfl⟩
    · obtain ⟨first, hfirst, hnot⟩ := hs.first i call hcall
      exact ⟨first, getElem?_concat.mpr (Or.inl hfirst), hnot⟩
    · exact ⟨_, hcall, horigin⟩
  · rcases getElem?_concat.mp hcall with hcall | ⟨rfl, rfl⟩
    · exact hs.named i call hcall hcaller
    · rfl
  · rw [sends_instanceCall]
    rcases getElem?_concat.mp hcall with hcall | ⟨rfl, -⟩
    · rw [if_neg (hold i call hcall).symm]
      exact hs.once i call hcall hcaller hearly
    · rw [if_pos rfl, hlength]
  · rw [sends_instanceCall]
    split_ifs with hr
    · rw [← hr, hlength]
      decide
    · exact hs.twice r

/-- A call goes on. -/
theorem counted_update (hs : s.Counted) (hcall : s.calls[i]? = some call)
    (hrequest : ∀ call, (f call).request = call.request)
    (horigin : ∀ call, (f call).origin = call.origin)
    (hearly : (f call).phase.early = true → call.phase.early = true) : (s.update i f).Counted := by
  -- every call is one of before with the same request and origin
  have hbefore : ∀ (j : ℕ) (call' : InstanceCall), (s.update i f).calls[j]? = some call' →
      ∃ before, s.calls[j]? = some before ∧ call'.request = before.request ∧
        call'.origin = before.origin ∧ (call'.phase.early = true → before.phase.early = true) := by
    intro j call' hcall'
    rcases getElem?_modify_eq_some.mp hcall' with ⟨-, hold⟩ | ⟨rfl, a, ha, rfl⟩
    · exact ⟨call', hold, rfl, rfl, id⟩
    · obtain rfl := Option.some.inj (hcall.symm.trans ha)
      exact ⟨call, ha, hrequest call, horigin call, hearly⟩
  refine ⟨fun j call' hcall' => ?_, fun j call' hcall' hcaller => ?_,
    fun j call' hcall' hcaller hearly' => ?_, fun r => ?_⟩
  · obtain ⟨before, hb, hreq, -, -⟩ := hbefore j call' hcall'
    obtain ⟨first, hfirst, hnot⟩ := hs.first j before hb
    rw [hreq]
    by_cases hi : i = before.request
    · exact ⟨f first, getElem?_modify_eq_some.mpr (Or.inr ⟨hi, first, hfirst, rfl⟩),
        (horigin first).symm ▸ hnot⟩
    · exact ⟨first, getElem?_modify_eq_some.mpr (Or.inl ⟨hi, hfirst⟩), hnot⟩
  · obtain ⟨before, hb, hreq, horig, -⟩ := hbefore j call' hcall'
    rw [hreq]
    exact hs.named j before hb (horig ▸ hcaller)
  · obtain ⟨before, hb, -, horig, hearly''⟩ := hbefore j call' hcall'
    rw [sends_update hrequest]
    exact hs.once j before hb (horig ▸ hcaller) (hearly'' hearly')
  · rw [sends_update hrequest]
    exact hs.twice r

theorem counted_setPhase {phase : RequestPhase} (hs : s.Counted) (hcall : s.calls[i]? = some call)
    (hearly : phase.early = true → call.phase.early = true) : (s.setPhase i phase).Counted :=
  counted_update hs hcall (fun _ => rfl) (fun _ => rfl) hearly

/-- A request that was sent once is sent again. -/
theorem counted_retry (hs : s.Counted) (hcall : s.calls[i]? = some call)
    (horigin : call.origin ≠ .retry) (hearly : call.phase.early = false) (honce : s.sends i ≤ 1)
    (config : RequestConfig) : (instanceCall mergeConfig s config .retry i).Counted := by
  refine ⟨fun j call' hcall' => ?_, fun j call' hcall' hcaller => ?_,
    fun j call' hcall' hcaller hearly' => ?_, fun r => ?_⟩
  · rcases getElem?_concat.mp hcall' with hold | ⟨rfl, rfl⟩
    · obtain ⟨first, hfirst, hnot⟩ := hs.first j call' hold
      exact ⟨first, getElem?_concat.mpr (Or.inl hfirst), hnot⟩
    · exact ⟨call, getElem?_concat.mpr (Or.inl hcall), horigin⟩
  · rcases getElem?_concat.mp hcall' with hold | ⟨rfl, rfl⟩
    · exact hs.named j call' hold hcaller
    · exact absurd rfl hcaller
  · rcases getElem?_concat.mp hcall' with hold | ⟨rfl, rfl⟩
    · have hne : i ≠ j := by
        rintro rfl
        obtain rfl := Option.some.inj (hcall.symm.trans hold)
        rw [hearly] at hearly'
        cases hearly'
      rw [sends_instanceCall, if_neg hne]
      exact hs.once j call' hold hcaller hearly'
    · exact absurd rfl hcaller
  · rw [sends_instanceCall]
    split_ifs with hr
    · rw [← hr]
      omega
    · exact hs.twice r

theorem setPhase_instanceCall (hcall : s.calls[i]? = some call) (phase : RequestPhase)
    (config : RequestConfig) (origin : CallOrigin) (request : ℕ) :
    (instanceCall mergeConfig s config origin request).setPhase i phase =
      instanceCall mergeConfig (s.setPhase i phase) config origin request := by
  have hlt : i < s.calls.length := (List.getElem?_eq_some_iff.mp hcall).1
  rw [ApiClient.setPhase, ApiClient.update, instanceCall, modify_concat hlt]
  rfl

/-- A call that awaits its second attempt is counted twice. -/
theorem counted_again (hs : s.Counted) (hcall : s.calls[i]? = some call)
    (horigin : call.origin = .caller) (hearly : call.phase.early = true) (j : ℕ) :
    ((instanceCall mergeConfig s call.config .retry call.request).setPhase i
      (.awaitsRetry j)).Counted := by
  have hcaller : call.origin ≠ .retry := by
    rw [horigin]
    decide
  have honce := hs.once i call hcall hcaller hearly
  have hset : (s.setPhase i (.awaitsRetry j)).Counted :=
    counted_setPhase hs hcall fun h => absurd h Bool.false_ne_true
  rw [setPhase_instanceCall hcall, hs.named i call hcall hcaller]
  refine counted_retry hset
    (getElem?_modify_eq_some.mpr (Or.inr ⟨rfl, call, hcall, rfl⟩)) hcaller rfl ?_ call.config
  rw [sends_setPhase]
  exact honce

/-- **A step keeps the count.** -/
theorem counted_apiStep (hlinked : s.Linked) (hs : s.Counted) {action : ApiAction}
    (h : ApiStep mergeConfig s action t) : t.Counted := by
  cases h with
  | request config => exact counted_instanceCall hs (by decide)
  | answer outcome hcall hphase => exact counted_setPhase hs hcall fun _ => hphase ▸ rfl
  | fulfil hcall hphase => exact counted_setPhase hs hcall fun _ => hphase ▸ rfl
  | reject hcall hphase => exact counted_setPhase hs hcall fun _ => hphase ▸ rfl
  | join hcall hphase hretry hauth hpromise =>
    exact counted_update hs hcall (fun _ => rfl) (fun _ => rfl) fun _ => hphase ▸ rfl
  | start hcall hphase hretry hauth hpromise =>
    refine counted_update ?_ (getElem?_refreshSession hpromise hcall _) (fun _ => rfl)
      (fun _ => rfl) fun _ => hphase ▸ rfl
    have hnew : (instanceCall mergeConfig s ⟨some (js "/api/user/refresh"), false⟩ .refresh
        s.calls.length).Counted := counted_instanceCall hs (by decide)
    rw [refreshSession_eq hpromise]
    exact ⟨hnew.first, hnew.named, hnew.once, hnew.twice⟩
  | finish hrefresh houtcome hcall hphase => exact ⟨hs.first, hs.named, hs.once, hs.twice⟩
  | again hcall hphase hrefresh houtcome =>
    obtain ⟨horigin, -⟩ := (hlinked.calls _ _ hcall).waits _ hphase
    exact counted_again hs hcall horigin (hphase ▸ rfl) _
  | expire hcall hphase hrefresh houtcome =>
    have hcounted : (s.setPhase _ (.settled false)).Counted :=
      counted_setPhase hs hcall fun _ => hphase ▸ rfl
    exact ⟨hcounted.first, hcounted.named, hcounted.once, hcounted.twice⟩
  | adopt hcall hphase hretry hok =>
    exact counted_setPhase hs hcall fun h => absurd h Bool.false_ne_true

theorem ApiClient.counted_initial : ApiClient.initial.Counted := by
  refine ⟨fun i call h => ?_, fun i call h => ?_, fun i call h => ?_, fun r => ?_⟩
  · cases h
  · cases h
  · cases h
  · exact Nat.zero_le 2

/-- **Every request is sent at most twice, in every run.** -/
theorem counted_of_reachable (hmerge : MergesConfig mergeConfig)
    (h : (apiSystem mergeConfig).Reachable Guard.all s) : s.Counted := by
  refine h.invariant_of (I := ApiClient.Counted) (J := ApiClient.Linked)
    (fun _ => linked_of_reachable hmerge) ?_ fun _ _ _ hlinked _ hs _ hstep =>
      counted_apiStep hlinked hs (apiStep_cases hstep)
  rintro _ rfl
  exact ApiClient.counted_initial

/-! ## Callbacks come to an end -/

/-- The callbacks to come of a call, as long as nothing is answered. -/
def RequestPhase.work : RequestPhase → ℕ
  | .sent | .settled _ => 0
  | .fulfilled | .awaitsRetry _ => 1
  | .awaitsRefresh _ => 2
  | .rejected _ _ => 4

/-- The callback to come of a refresh. -/
def Refresh.work (refresh : Refresh) : ℕ := if refresh.outcome = none then 1 else 0

/-- The callbacks to come. -/
def ApiClient.work (s : ApiClient) : ℕ :=
  (s.calls.map fun call => call.phase.work).sum + (s.refreshes.map Refresh.work).sum

theorem work_update (hcall : s.calls[i]? = some call) :
    (s.update i f).work + call.phase.work = s.work + (f call).phase.work := by
  have hsum := sum_map_modify (f := f) (fun call => call.phase.work) hcall
  simp only [ApiClient.work, ApiClient.update]
  omega

theorem work_update_lt (hcall : s.calls[i]? = some call)
    (hlt : (f call).phase.work < call.phase.work) : (s.update i f).work < s.work := by
  have hwork := work_update (f := f) hcall
  omega

/-- The refresh that is started has its own callback. -/
theorem work_start_lt (ht : t.work = s.work + 1) (hcall : t.calls[i]? = some call)
    (hlt : (f call).phase.work + 1 < call.phase.work) : (t.update i f).work < s.work := by
  have hwork := work_update (f := f) hcall
  omega

theorem work_setPhase_lt {phase : RequestPhase} (hcall : s.calls[i]? = some call)
    (hlt : phase.work < call.phase.work) : (s.setPhase i phase).work < s.work :=
  work_update_lt hcall hlt

theorem work_instanceCall (config : RequestConfig) (origin : CallOrigin) (request : ℕ) :
    (instanceCall mergeConfig s config origin request).work = s.work := by
  rw [ApiClient.work, ApiClient.work, instanceCall, sum_map_concat]
  rfl

theorem work_refreshSession (h : s.refreshPromise = none) (j : ℕ) :
    (refreshSession mergeConfig s j).1.work = s.work + 1 := by
  rw [refreshSession_eq h, ApiClient.work, ApiClient.work, sum_map_concat, sum_map_concat]
  rfl

theorem work_finish_lt {refresh : Refresh} {ok : Bool} (hrefresh : s.refreshes[n]? = some refresh)
    (houtcome : refresh.outcome = none) :
    ApiClient.work { s with
      refreshes := s.refreshes.modify n fun refresh => { refresh with outcome := some ok }
      refreshPromise := none } < s.work := by
  have hsum := sum_map_modify (f := fun refresh : Refresh => { refresh with outcome := some ok })
    Refresh.work hrefresh
  have hone : refresh.work = 1 := if_pos houtcome
  have hzero : Refresh.work { refresh with outcome := some ok } = 0 := rfl
  rw [hone, hzero] at hsum
  simp only [ApiClient.work]
  omega

/-- **A callback leaves fewer to come.** -/
theorem work_apiStep {job : ApiJob} (h : ApiStep mergeConfig s (.job job) t) :
    t.work < s.work := by
  cases h with
  | fulfil hcall hphase =>
    refine work_setPhase_lt hcall ?_
    rw [hphase]
    exact Nat.zero_lt_one
  | reject hcall hphase =>
    refine work_setPhase_lt hcall ?_
    rw [hphase]
    exact Nat.zero_lt_succ 3
  | join hcall hphase hretry hauth hpromise =>
    refine work_update_lt hcall ?_
    rw [hphase]
    exact Nat.lt_add_of_pos_right Nat.two_pos
  | start hcall hphase hretry hauth hpromise =>
    refine work_start_lt (work_refreshSession hpromise _)
      (getElem?_refreshSession hpromise hcall _) ?_
    rw [hphase]
    exact Nat.lt_add_one 3
  | finish hrefresh houtcome hcall hphase => exact work_finish_lt hrefresh houtcome
  | again hcall hphase hrefresh houtcome =>
    refine lt_of_lt_of_eq (work_setPhase_lt (getElem?_instanceCall hcall) ?_)
      (work_instanceCall _ _ _)
    rw [hphase]
    exact Nat.lt_add_one 1
  | expire hcall hphase hrefresh houtcome =>
    refine work_setPhase_lt (s := { s with expired := _ }) hcall ?_
    rw [hphase]
    exact Nat.two_pos
  | adopt hcall hphase hretry hok =>
    refine work_setPhase_lt hcall ?_
    rw [hphase]
    exact Nat.zero_lt_one

/-- **Callbacks come to an end.** -/
theorem length_le_work {jobs : List ApiJob}
    (h : (apiSystem mergeConfig).runFrom s (jobs.map .job) = some t) :
    t.work + jobs.length ≤ s.work := by
  induction jobs generalizing s with
  | nil =>
    obtain rfl := Option.some.inj h
    exact le_rfl
  | cons job jobs ih =>
    rw [List.map_cons, runFrom_cons] at h
    obtain ⟨u, hstep, hrun⟩ := Option.bind_eq_some_iff.mp h
    have hlt := work_apiStep (apiStep_cases hstep)
    have hrest := ih hrun
    rw [List.length_cons]
    omega

/-! ## Settled promises -/

/-- No callback is to run. -/
def ApiClient.Quiet (mergeConfig : RequestConfig → RequestConfig) (s : ApiClient) : Prop :=
  ∀ job, runJob mergeConfig s job = none

/-- Callbacks that run until there is none. -/
theorem exists_quiet (mergeConfig : RequestConfig → RequestConfig) (s : ApiClient) :
    ∃ (jobs : List ApiJob) (t : ApiClient),
      (apiSystem mergeConfig).runFrom s (jobs.map .job) = some t ∧ t.Quiet mergeConfig := by
  induction hwork : s.work using Nat.strong_induction_on generalizing s with
  | _ work ih =>
    by_cases hquiet : s.Quiet mergeConfig
    · exact ⟨[], s, rfl, hquiet⟩
    · obtain ⟨job, hjob⟩ := not_forall.mp hquiet
      obtain ⟨u, hstep⟩ := Option.ne_none_iff_exists'.mp hjob
      have hlt : u.work < work := hwork ▸ work_apiStep (apiStep_cases hstep)
      obtain ⟨jobs, t, hrun, ht⟩ := ih u.work hlt u rfl
      refine ⟨job :: jobs, t, ?_, ht⟩
      rw [List.map_cons, runFrom_cons]
      exact Option.bind_eq_some_iff.mpr ⟨u, hstep, hrun⟩

/-- An attempt of the request is in flight. -/
def ApiClient.AttemptInFlight (s : ApiClient) (request : ℕ) : Prop :=
  ∃ call ∈ s.calls, call.request = request ∧ call.phase = .sent

/-- The call awaits a refresh that is in flight. -/
def ApiClient.RefreshInFlight (s : ApiClient) (call : InstanceCall) : Prop :=
  ∃ n refresh post, call.phase = .awaitsRefresh n ∧ s.refreshes[n]? = some refresh ∧
    s.calls[refresh.call]? = some post ∧ post.phase = .sent

/-- The interceptor has run on every answer. -/
theorem ApiClient.Quiet.not_answered (hquiet : s.Quiet mergeConfig)
    (hcall : s.calls[i]? = some call) :
    call.phase ≠ .fulfilled ∧ ∀ config status, call.phase ≠ .rejected config status := by
  have hnone : intercept mergeConfig s i = none := hquiet (.intercept i)
  rw [intercept, hcall] at hnone
  constructor
  · intro hphase
    simp only [hphase, reduceCtorEq] at hnone
  · intro config status hphase
    simp only [hphase] at hnone
    split_ifs at hnone

/-- A refresh whose call is settled is settled. -/
theorem ApiClient.Quiet.outcome {refresh : Refresh} {ok : Bool} (hquiet : s.Quiet mergeConfig)
    (hrefresh : s.refreshes[n]? = some refresh) (hcall : s.calls[refresh.call]? = some call)
    (hphase : call.phase = .settled ok) : ∃ ok, refresh.outcome = some ok := by
  have hnone : finallyRefresh s n = none := hquiet (.finallyRefresh n)
  cases houtcome : refresh.outcome with
  | some ok => exact ⟨ok, rfl⟩
  | none =>
    have hsettled : s.phase refresh.call = some (.settled ok) :=
      ApiClient.phase_eq_some.mpr ⟨call, hcall, hphase⟩
    simp only [finallyRefresh, hrefresh, houtcome, hsettled, reduceCtorEq] at hnone

/-- No call awaits a refresh that is settled. -/
theorem ApiClient.Quiet.not_awaitsRefresh {refresh : Refresh} {ok : Bool}
    (hquiet : s.Quiet mergeConfig) (hcall : s.calls[i]? = some call)
    (hrefresh : s.refreshes[n]? = some refresh) (houtcome : refresh.outcome = some ok) :
    call.phase ≠ .awaitsRefresh n := by
  intro hphase
  have hnone : resume mergeConfig s i = none := hquiet (.resume i)
  simp only [resume, hcall, hphase, hrefresh, Option.bind_some, houtcome] at hnone
  cases ok <;> cases hnone

/-- No call awaits a second attempt that is settled. -/
theorem ApiClient.Quiet.not_awaitsRetry {j : ℕ} {retry : InstanceCall} {ok : Bool}
    (hquiet : s.Quiet mergeConfig) (hcall : s.calls[i]? = some call)
    (hretry : s.calls[j]? = some retry) (hok : retry.phase = .settled ok) :
    call.phase ≠ .awaitsRetry j := by
  intro hphase
  have hnone : settleRetry s i = none := hquiet (.settleRetry i)
  have hsettled : s.phase j = some (.settled ok) :=
    ApiClient.phase_eq_some.mpr ⟨retry, hretry, hok⟩
  simp only [settleRetry, hcall, hphase, hsettled, reduceCtorEq] at hnone

/-- A call that is neither of a caller nor in flight is settled. -/
theorem ApiClient.Quiet.settled_of_not_caller (hquiet : s.Quiet mergeConfig) (hs : s.Linked)
    (hcall : s.calls[i]? = some call) (horigin : call.origin ≠ .caller)
    (hsent : call.phase ≠ .sent) : ∃ ok, call.phase = .settled ok := by
  obtain ⟨hfulfilled, hrejected⟩ := hquiet.not_answered hcall
  have hok := hs.calls i call hcall
  cases hphase : call.phase with
  | sent => exact absurd hphase hsent
  | fulfilled => exact absurd hphase hfulfilled
  | rejected config status => exact absurd hphase (hrejected config status)
  | awaitsRefresh n => exact absurd (hok.waits n hphase).1 horigin
  | awaitsRetry j => exact absurd (hok.returned j hphase).1 horigin
  | settled ok => exact ⟨ok, rfl⟩

/-- **A promise is settled once the attempts of its request and the refresh it awaits are.** -/
theorem ApiClient.Quiet.settled (hquiet : s.Quiet mergeConfig) (hs : s.Linked)
    (hcall : s.calls[i]? = some call) (hattempts : ¬s.AttemptInFlight call.request)
    (hrefresh : ¬s.RefreshInFlight call) : ∃ ok, call.phase = .settled ok := by
  obtain ⟨hfulfilled, hrejected⟩ := hquiet.not_answered hcall
  have hok := hs.calls i call hcall
  cases hphase : call.phase with
  | sent => exact absurd ⟨call, List.mem_of_getElem? hcall, rfl, hphase⟩ hattempts
  | fulfilled => exact absurd hphase hfulfilled
  | rejected config status => exact absurd hphase (hrejected config status)
  | awaitsRefresh n =>
    obtain ⟨-, -, refresh, hn⟩ := hok.waits n hphase
    obtain ⟨post, hpost, horigin, -⟩ := (hs.refreshes n refresh hn).call
    have hsent : post.phase ≠ .sent := fun h => hrefresh ⟨n, refresh, post, hphase, hn, hpost, h⟩
    obtain ⟨ok, hsettled⟩ := hquiet.settled_of_not_caller hs hpost
      (by rw [horigin]; decide) hsent
    obtain ⟨outcome, houtcome⟩ := hquiet.outcome hn hpost hsettled
    exact absurd hphase (hquiet.not_awaitsRefresh hcall hn houtcome)
  | awaitsRetry j =>
    obtain ⟨-, retry, hretry, horigin, hrequest⟩ := hok.returned j hphase
    have hsent : retry.phase ≠ .sent := fun h =>
      hattempts ⟨retry, List.mem_of_getElem? hretry, hrequest, h⟩
    obtain ⟨ok, hsettled⟩ := hquiet.settled_of_not_caller hs hretry
      (by rw [horigin]; decide) hsent
    exact absurd hphase (hquiet.not_awaitsRetry hcall hretry hsettled)
  | settled ok => exact ⟨ok, rfl⟩

/-! ## One refresh at a time -/

/-- A call of the instance for a refresh that is not settled. -/
def InstanceCall.PendingRefresh (call : InstanceCall) : Prop :=
  call.origin = .refresh ∧ call.phase.pending = true

/-- Its promise is `refreshPromise`. -/
theorem ApiClient.Linked.refreshPromise_of_pending (hs : s.Linked)
    (hcall : s.calls[i]? = some call) (hpending : call.PendingRefresh) :
    ∃ (n : ℕ) (refresh : Refresh), s.refreshes[n]? = some refresh ∧ refresh.call = i ∧
      s.refreshPromise = some n := by
  obtain ⟨n, refresh, hrefresh, rfl⟩ := (hs.calls i call hcall).promise hpending.1
  refine ⟨n, refresh, hrefresh, rfl, hs.pending n refresh hrefresh ?_⟩
  cases houtcome : refresh.outcome with
  | none => rfl
  | some ok =>
    obtain ⟨call', hcall', -, hsettled⟩ := (hs.refreshes n refresh hrefresh).call
    obtain rfl := Option.some.inj (hcall.symm.trans hcall')
    have hphase := hpending.2
    rw [hsettled ok houtcome] at hphase
    cases hphase

theorem ApiClient.Linked.pendingRefresh_unique {j : ℕ} {call' : InstanceCall} (hs : s.Linked)
    (hcall : s.calls[i]? = some call) (hpending : call.PendingRefresh)
    (hcall' : s.calls[j]? = some call') (hpending' : call'.PendingRefresh) : i = j := by
  obtain ⟨n, refresh, hrefresh, rfl, hpromise⟩ := hs.refreshPromise_of_pending hcall hpending
  obtain ⟨m, refresh', hrefresh', rfl, hpromise'⟩ :=
    hs.refreshPromise_of_pending hcall' hpending'
  obtain rfl := Option.some.inj (hpromise.symm.trans hpromise')
  rw [Option.some.inj (hrefresh.symm.trans hrefresh')]

/-- **One refresh at a time.** In every run, at most one refresh of the interceptor is pending, a
request is sent at most twice, only the first attempt of a request of a caller starts a refresh,
none of a path of authentication, `auth:expired` is dispatched for refreshes that have failed,
callbacks come to an end, and then a promise is settled unless an attempt of its request or the
refresh it awaits is in flight. -/
theorem single_flight (hmerge : MergesConfig mergeConfig)
    (h : (apiSystem mergeConfig).Reachable Guard.all s) :
    (∀ (i j : ℕ) (call call' : InstanceCall), s.calls[i]? = some call →
      s.calls[j]? = some call' → call.PendingRefresh → call'.PendingRefresh → i = j) ∧
    (∀ request, s.sends request ≤ 2) ∧
    (∀ refresh ∈ s.refreshes, ∃ call : InstanceCall, s.calls[refresh.startedBy]? = some call ∧
      call.origin = .caller ∧ ∀ path ∈ authPaths, ¬path <:+: call.url) ∧
    (∀ n ∈ s.expired, ∃ (refresh : Refresh) (call : InstanceCall),
      s.refreshes[n]? = some refresh ∧ s.calls[refresh.call]? = some call ∧
        call.origin = .refresh ∧ call.phase = .settled false) ∧
    (∀ (jobs : List ApiJob) (t : ApiClient),
      (apiSystem mergeConfig).runFrom s (jobs.map .job) = some t → jobs.length ≤ s.work) ∧
    (∃ (jobs : List ApiJob) (t : ApiClient),
      (apiSystem mergeConfig).runFrom s (jobs.map .job) = some t ∧ t.Quiet mergeConfig) ∧
    (s.Quiet mergeConfig → ∀ (i : ℕ) (call : InstanceCall), s.calls[i]? = some call →
      ¬s.AttemptInFlight call.request → ¬s.RefreshInFlight call →
        ∃ ok, call.phase = .settled ok) := by
  have hs := linked_of_reachable hmerge h
  refine ⟨fun i j call call' hcall hcall' hp hp' => hs.pendingRefresh_unique hcall hp hcall' hp',
    (counted_of_reachable hmerge h).twice, fun refresh hmem => ?_, fun n hn => ?_,
    fun jobs t hrun => ?_, exists_quiet mergeConfig s, fun hquiet i call => hquiet.settled hs⟩
  · obtain ⟨n, hrefresh⟩ := List.mem_iff_getElem?.mp hmem
    obtain ⟨call, hcall, horigin, hauth⟩ := (hs.refreshes n refresh hrefresh).startedBy
    refine ⟨call, hcall, horigin, fun path hpath hinfix => ?_⟩
    have hincludes : includes call.url path = true := decide_eq_true hinfix
    rw [isAuthRequest, List.any_eq_false] at hauth
    exact hauth path hpath hincludes
  · obtain ⟨refresh, hrefresh, houtcome⟩ := hs.expired n hn
    obtain ⟨call, hcall, horigin, hsettled⟩ := (hs.refreshes n refresh hrefresh).call
    exact ⟨refresh, call, hrefresh, hcall, horigin, hsettled false houtcome⟩
  · have hlength := length_le_work hrun
    omega

/-- Two requests share a refresh, the second attempt of one fails, and the refresh of a third
request fails. -/
def sampleApiRun : List ApiAction :=
  [ .request ⟨some (js "/api/message/get/1"), false⟩,
    .request ⟨some (js "/api/user/allusers"), false⟩,
    .answer 0 (.error true (some 401)), .answer 1 (.error true (some 401)),
    .job (.intercept 0), .job (.intercept 1),
    .answer 2 .response, .job (.intercept 2), .job (.finallyRefresh 0),
    .job (.resume 1), .job (.resume 0),
    .answer 3 (.error true (some 401)), .answer 4 .response,
    .job (.intercept 4), .job (.settleRetry 0), .job (.intercept 3), .job (.settleRetry 1),
    .request ⟨some (js "/api/user/me"), false⟩, .answer 5 (.error true (some 401)),
    .job (.intercept 5), .answer 6 (.error true (some 401)), .job (.intercept 6),
    .job (.finallyRefresh 1), .job (.resume 5) ]

/-- What they leave. -/
theorem single_flight_sample : ∃ s, (apiSystem id).runFrom .initial sampleApiRun = some s ∧
    s.phase 0 = some (.settled true) ∧ s.phase 1 = some (.settled false) ∧ s.expired = [1] ∧
    (∀ request, s.sends request ≤ 2) ∧
    ∃ (refresh : Refresh) (call : InstanceCall), s.refreshes[1]? = some refresh ∧
      s.calls[refresh.call]? = some call ∧ call.origin = .refresh ∧
        call.phase = .settled false := by
  obtain ⟨s, hrun, hfirst, hsecond, hexpired⟩ := exists_of_any
    (fun s : ApiClient => s.phase 0 = some (.settled true) ∧
      s.phase 1 = some (.settled false) ∧ s.expired = [1])
    (by decide : ((apiSystem id).runFrom .initial sampleApiRun).any _ = true)
  have hreachable : (apiSystem id).Reachable Guard.all s := .of_runFrom (.init rfl) hrun
  have hmerge : MergesConfig id := ⟨fun _ => rfl, fun _ => rfl⟩
  obtain ⟨-, hsends, -, hfailed, -⟩ := single_flight hmerge hreachable
  refine ⟨s, hrun, hfirst, hsecond, hexpired, hsends, hfailed 1 ?_⟩
  rw [hexpired]
  exact List.mem_singleton_self 1

end MernChat
