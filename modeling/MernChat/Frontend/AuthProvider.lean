import MernChat.Chat.Repositories
import MernChat.Library.Transition

/-!
# The user of the page

`AuthProvider` holds the user of the page. Its effect restores the session, with `/me` and, when
that answers 401, with `/refresh`, and listens to `auth:expired`. `Login`, `Signup` and `Logout` set
the user when their requests are answered. All of this comes in any order.

## Main definitions

* `AuthEffect`, `AuthProvider`: the runs of the effect, and the state
* `setAuthUser`, `handleAuthExpired`, `restoreSession`: the functions of the component
* `authProviderSystem`: answers, events and runs of the effect in any order
* `AuthProviderStep`: the steps, case by case
* `AuthProvider.Consistent`: the invariant

## Main results

* `authProviderStep_cases`: every step is one of the cases
* `AuthProvider.consistent_of_reachable`: the invariant of every run
* `session_restored`: the page does not load for ever
-/

namespace MernChat

open Library Library.TransitionSystem

/-! ## The component -/

/-- A value of `setAuthUser`. Every answer is an object of its own, and React compares objects by
identity. -/
structure AuthObject where
  ref : ℕ
  user : PublicUser
deriving DecidableEq

inductive AuthStatus
  | loading
  | authenticated
  | unauthenticated
deriving DecidableEq

/-- The request that `restoreSession` awaits. -/
inductive RestorePhase
  | me
  | refresh
  | settled
deriving DecidableEq

/-- A run of the effect. It listens to `auth:expired` while it is mounted. -/
structure AuthEffect where
  mounted : Bool
  restoreSession : RestorePhase

/-- The state, with the updates that wait for a render. -/
structure AuthProvider where
  authUser : Option AuthObject
  authStatus : AuthStatus
  effects : List AuthEffect
  /-- How many objects there have been. -/
  objects : ℕ

namespace AuthProvider

def initial : AuthProvider := ⟨none, .loading, [], 0⟩

def setAuthUser (user : Option AuthObject) (p : AuthProvider) : AuthProvider :=
  { p with
    authUser := user
    authStatus := if user.isSome then .authenticated else .unauthenticated }

/-- `setAuthUser(response.data.user)`. -/
def setResponseUser (user : PublicUser) (p : AuthProvider) : AuthProvider :=
  setAuthUser (some ⟨p.objects, user⟩) { p with objects := p.objects + 1 }

/-- The listener of every mounted effect is called. -/
def handleAuthExpired (p : AuthProvider) : AuthProvider :=
  if p.effects.any (·.mounted) then setAuthUser none p else p

/-- The effect is run, after the cleanup of the run before. -/
def runEffect (p : AuthProvider) : AuthProvider :=
  { p with
    effects := (p.effects.map fun effect => { effect with mounted := false }) ++ [⟨true, .me⟩] }

def setPhase (p : AuthProvider) (i : ℕ) (phase : RestorePhase) : AuthProvider :=
  { p with effects := p.effects.modify i fun effect => { effect with restoreSession := phase } }

end AuthProvider

/-- How a request of `restoreSession` ends. -/
inductive RestoreAnswer
  | user (user : PublicUser)
  | unauthorized
  | failed

/-- `restoreSession` goes on with the answer to the request it awaits. -/
def restoreSession (p : AuthProvider) (i : ℕ) (answer : RestoreAnswer) : Option AuthProvider :=
  match p.effects[i]? with
  | none => none
  | some effect =>
    let settled := p.setPhase i .settled
    match effect.restoreSession, answer with
    | .settled, _ => none
    | .me, .unauthorized => some (p.setPhase i .refresh)
    | _, .user user => some (if effect.mounted then settled.setResponseUser user else settled)
    | _, _ => some (if effect.mounted then settled.setAuthUser none else settled)

inductive AuthProviderAction
  /-- The effect is run: when the component is mounted, and again in strict mode. -/
  | runEffect
  /-- A request of `restoreSession` is answered. -/
  | restore (i : ℕ) (answer : RestoreAnswer)
  /-- The request of `Login` or `Signup` has succeeded. -/
  | signedIn (user : PublicUser)
  /-- The request of `Logout` has succeeded. -/
  | signedOut
  /-- `window.dispatchEvent(new Event("auth:expired"))`. -/
  | authExpired

/-- While the session is restored `App` shows neither the forms nor the button of `Logout`. -/
def authProviderStep (p : AuthProvider) : AuthProviderAction → Option AuthProvider
  | .runEffect => some p.runEffect
  | .restore i answer => restoreSession p i answer
  | .signedIn user => if p.authStatus = .loading then none else some (p.setResponseUser user)
  | .signedOut => if p.authStatus = .loading then none else some (p.setAuthUser none)
  | .authExpired => some p.handleAuthExpired

/-- All pages, from their loading on. -/
def authProviderSystem : TransitionSystem AuthProvider AuthProviderAction where
  init p := p = .initial
  step := authProviderStep

/-! ## Case by case -/

variable {p q : AuthProvider} {a : AuthProviderAction}

/-- The steps, case by case. -/
inductive AuthProviderStep (p : AuthProvider) : AuthProviderAction → AuthProvider → Prop
  | runEffect : AuthProviderStep p .runEffect p.runEffect
  /-- `/me` has answered 401. -/
  | refresh {i : ℕ} {effect : AuthEffect} (heffect : p.effects[i]? = some effect)
      (hphase : effect.restoreSession = .me) :
      AuthProviderStep p (.restore i .unauthorized) (p.setPhase i .refresh)
  /-- The run is not mounted any more. -/
  | ignored {i : ℕ} {effect : AuthEffect} (answer : RestoreAnswer)
      (heffect : p.effects[i]? = some effect) (hphase : effect.restoreSession ≠ .settled)
      (hmounted : effect.mounted = false) :
      AuthProviderStep p (.restore i answer) (p.setPhase i .settled)
  | restored {i : ℕ} {effect : AuthEffect} (user : PublicUser)
      (heffect : p.effects[i]? = some effect) (hphase : effect.restoreSession ≠ .settled)
      (hmounted : effect.mounted = true) :
      AuthProviderStep p (.restore i (.user user)) ((p.setPhase i .settled).setResponseUser user)
  | notRestored {i : ℕ} {effect : AuthEffect} (answer : RestoreAnswer)
      (heffect : p.effects[i]? = some effect) (hphase : effect.restoreSession ≠ .settled)
      (hmounted : effect.mounted = true) :
      AuthProviderStep p (.restore i answer) ((p.setPhase i .settled).setAuthUser none)
  | signedIn (user : PublicUser) (hstatus : p.authStatus ≠ .loading) :
      AuthProviderStep p (.signedIn user) (p.setResponseUser user)
  | signedOut (hstatus : p.authStatus ≠ .loading) :
      AuthProviderStep p .signedOut (p.setAuthUser none)
  | authExpired : AuthProviderStep p .authExpired p.handleAuthExpired

theorem restoreSession_cases {i : ℕ} {answer : RestoreAnswer}
    (h : restoreSession p i answer = some q) : AuthProviderStep p (.restore i answer) q := by
  simp only [restoreSession] at h
  cases heffect : p.effects[i]? with
  | none =>
    rw [heffect] at h
    cases h
  | some effect =>
    simp only [heffect] at h
    cases hphase : effect.restoreSession with
    | settled =>
      rw [hphase] at h
      cases h
    | me =>
      have hne : effect.restoreSession ≠ .settled := by rw [hphase]; exact nofun
      simp only [hphase] at h
      cases hmounted : effect.mounted <;> simp only [hmounted] at h
      · cases answer <;> cases h
        · exact .ignored _ heffect hne hmounted
        · exact .refresh heffect hphase
        · exact .ignored _ heffect hne hmounted
      · cases answer <;> cases h
        · exact .restored _ heffect hne hmounted
        · exact .refresh heffect hphase
        · exact .notRestored _ heffect hne hmounted
    | refresh =>
      have hne : effect.restoreSession ≠ .settled := by rw [hphase]; exact nofun
      simp only [hphase] at h
      cases hmounted : effect.mounted <;> simp only [hmounted] at h
      · cases answer <;> cases h <;> exact .ignored _ heffect hne hmounted
      · cases answer <;> cases h
        · exact .restored _ heffect hne hmounted
        · exact .notRestored _ heffect hne hmounted
        · exact .notRestored _ heffect hne hmounted

/-- Every step is one of the cases. -/
theorem authProviderStep_cases (h : authProviderStep p a = some q) : AuthProviderStep p a q := by
  cases a with
  | runEffect =>
    cases h
    exact .runEffect
  | restore i answer => exact restoreSession_cases h
  | signedIn user =>
    by_cases hstatus : p.authStatus = .loading
    · rw [authProviderStep, if_pos hstatus] at h
      cases h
    · rw [authProviderStep, if_neg hstatus] at h
      cases h
      exact .signedIn user hstatus
  | signedOut =>
    by_cases hstatus : p.authStatus = .loading
    · rw [authProviderStep, if_pos hstatus] at h
      cases h
    · rw [authProviderStep, if_neg hstatus] at h
      cases h
      exact .signedOut hstatus
  | authExpired =>
    cases h
    exact .authExpired

/-! ## The invariant -/

namespace AuthProvider

/-- One effect is mounted, the last one, and it awaits an answer while the page is loading. -/
structure Consistent (p : AuthProvider) : Prop where
  authenticated : p.authStatus = .authenticated ↔ p.authUser.isSome = true
  older : ∀ object, p.authUser = some object → object.ref < p.objects
  none_yet : p.authStatus = .loading → p.objects = 0
  last : ∀ (i : ℕ) (effect : AuthEffect), p.effects[i]? = some effect →
    (effect.mounted = true ↔ i + 1 = p.effects.length)
  mounted : p.authStatus ≠ .loading → p.effects ≠ []
  awaits : p.authStatus = .loading → ∀ (i : ℕ) (effect : AuthEffect),
    p.effects[i]? = some effect → effect.mounted = true → effect.restoreSession ≠ .settled

theorem consistent_initial : initial.Consistent where
  authenticated := by decide
  older := fun _ h => nomatch h
  none_yet := fun _ => rfl
  last := fun _ _ h => nomatch h
  mounted := fun h => absurd rfl h
  awaits := fun _ _ _ h => nomatch h

/-- `auth:expired` finds a listener where there is a run of the effect. -/
theorem Consistent.any_mounted (hp : p.Consistent) (h : p.effects ≠ []) :
    p.effects.any (·.mounted) = true := by
  have hlength : 0 < p.effects.length := List.length_pos_iff.mpr h
  have hlt : p.effects.length - 1 < p.effects.length := by omega
  rw [List.any_eq_true]
  refine ⟨p.effects[p.effects.length - 1], List.getElem_mem hlt, ?_⟩
  exact (hp.last _ _ (List.getElem?_eq_getElem hlt)).mpr (by omega)

theorem Consistent.handleAuthExpired_eq (hp : p.Consistent) (h : p.effects ≠ []) :
    p.handleAuthExpired = p.setAuthUser none := by
  rw [handleAuthExpired, if_pos (hp.any_mounted h)]

/-- After `setAuthUser` the page is not loading, whatever it was before. -/
theorem consistent_setAuthUser {user : Option AuthObject}
    (hlast : ∀ (i : ℕ) (effect : AuthEffect), p.effects[i]? = some effect →
      (effect.mounted = true ↔ i + 1 = p.effects.length))
    (hne : p.effects ≠ []) (holder : ∀ object, user = some object → object.ref < p.objects) :
    (p.setAuthUser user).Consistent where
  authenticated := by cases user <;> simp [setAuthUser]
  older := holder
  none_yet := by cases user <;> exact nofun
  last := hlast
  mounted := fun _ => hne
  awaits := by cases user <;> exact nofun

theorem consistent_setResponseUser (user : PublicUser)
    (hlast : ∀ (i : ℕ) (effect : AuthEffect), p.effects[i]? = some effect →
      (effect.mounted = true ↔ i + 1 = p.effects.length))
    (hne : p.effects ≠ []) : (p.setResponseUser user).Consistent := by
  refine consistent_setAuthUser hlast hne fun object hobject => ?_
  cases hobject
  exact Nat.lt_succ_self _

theorem ne_nil_of_getElem? {i : ℕ} {effect : AuthEffect} (h : p.effects[i]? = some effect) :
    p.effects ≠ [] := by
  intro hnil
  rw [hnil] at h
  cases h

theorem setPhase_ne_nil {i : ℕ} {phase : RestorePhase} (h : p.effects ≠ []) :
    (p.setPhase i phase).effects ≠ [] := by
  intro hnil
  exact h (List.modify_eq_nil_iff.mp hnil)

/-- A run of the effect after a change of phase. -/
theorem getElem?_setPhase {i j : ℕ} {phase : RestorePhase} {effect : AuthEffect}
    (h : (p.setPhase i phase).effects[j]? = some effect) : ∃ before, p.effects[j]? = some before ∧
      effect.mounted = before.mounted ∧
      effect.restoreSession = if i = j then phase else before.restoreSession := by
  rw [setPhase, List.getElem?_modify] at h
  obtain ⟨before, hbefore, rfl⟩ := Option.map_eq_some_iff.mp h
  refine ⟨before, hbefore, ?_⟩
  by_cases hij : i = j <;> simp [hij]

theorem Consistent.last_setPhase (hp : p.Consistent) (i : ℕ) (phase : RestorePhase) (j : ℕ)
    (effect : AuthEffect) (heffect : (p.setPhase i phase).effects[j]? = some effect) :
    effect.mounted = true ↔ j + 1 = (p.setPhase i phase).effects.length := by
  obtain ⟨before, hbefore, hmounted, -⟩ := getElem?_setPhase heffect
  rw [hmounted, hp.last j before hbefore, AuthProvider.setPhase, List.length_modify]

/-- A phase is changed to one that awaits an answer, or of a run that is not mounted, or once the
page is not loading. -/
theorem Consistent.setPhase (hp : p.Consistent) {i : ℕ} {phase : RestorePhase}
    (h : phase ≠ .settled ∨ p.authStatus ≠ .loading ∨
      ∀ effect, p.effects[i]? = some effect → effect.mounted = false) :
    (p.setPhase i phase).Consistent where
  authenticated := hp.authenticated
  older := hp.older
  none_yet := hp.none_yet
  last := hp.last_setPhase i phase
  mounted := fun hstatus => setPhase_ne_nil (hp.mounted hstatus)
  awaits := by
    intro hstatus j effect heffect hmounted
    obtain ⟨before, hbefore, hsame, hphase⟩ := getElem?_setPhase heffect
    rw [hsame] at hmounted
    rw [hphase]
    split
    case isFalse => exact hp.awaits hstatus j before hbefore hmounted
    case isTrue hij =>
      rcases h with h | h | h
      · exact h
      · exact absurd hstatus h
      · rw [h before (hij ▸ hbefore)] at hmounted
        cases hmounted

theorem Consistent.runEffect (hp : p.Consistent) : p.runEffect.Consistent where
  authenticated := hp.authenticated
  older := hp.older
  none_yet := hp.none_yet
  last := by
    intro i effect heffect
    have hlength : p.runEffect.effects.length = p.effects.length + 1 := by
      simp [AuthProvider.runEffect]
    rw [hlength, Nat.succ_inj]
    rw [AuthProvider.runEffect, List.getElem?_append] at heffect
    split at heffect
    -- the runs before are not mounted any more
    case isTrue hi =>
      rw [List.getElem?_map] at heffect
      obtain ⟨before, -, rfl⟩ := Option.map_eq_some_iff.mp heffect
      rw [List.length_map] at hi
      simp only [Bool.false_eq_true, false_iff]
      omega
    case isFalse hi =>
      rw [List.length_map] at hi heffect
      obtain ⟨hi', rfl⟩ := List.getElem?_eq_some_iff.mp heffect
      simp only [List.length_singleton] at hi'
      simp only [List.getElem_singleton, true_iff]
      omega
  mounted := fun _ h => nomatch (List.append_eq_nil_iff.mp h).2
  awaits := by
    intro _ i effect heffect hmounted
    rw [AuthProvider.runEffect, List.getElem?_append] at heffect
    split at heffect
    case isTrue =>
      rw [List.getElem?_map] at heffect
      obtain ⟨before, -, rfl⟩ := Option.map_eq_some_iff.mp heffect
      cases hmounted
    case isFalse =>
      obtain ⟨_, rfl⟩ := List.getElem?_eq_some_iff.mp heffect
      rw [List.getElem_singleton]
      exact nofun

theorem Consistent.step (hp : p.Consistent) (h : AuthProviderStep p a q) : q.Consistent := by
  cases h with
  | runEffect => exact hp.runEffect
  | refresh => exact hp.setPhase (.inl nofun)
  | ignored answer heffect hphase hmounted =>
    refine hp.setPhase (.inr (.inr fun effect h => ?_))
    rw [heffect] at h
    cases h
    exact hmounted
  | restored user heffect =>
    exact consistent_setResponseUser user (hp.last_setPhase _ _)
      (setPhase_ne_nil (ne_nil_of_getElem? heffect))
  | notRestored answer heffect =>
    exact consistent_setAuthUser (hp.last_setPhase _ _)
      (setPhase_ne_nil (ne_nil_of_getElem? heffect)) nofun
  | signedIn user hstatus => exact consistent_setResponseUser user hp.last (hp.mounted hstatus)
  | signedOut hstatus => exact consistent_setAuthUser hp.last (hp.mounted hstatus) nofun
  | authExpired =>
    by_cases h : p.effects = []
    · rw [handleAuthExpired, h]
      exact hp
    · rw [hp.handleAuthExpired_eq h]
      exact consistent_setAuthUser hp.last h nofun

end AuthProvider

theorem AuthProvider.consistent_of_reachable (h : authProviderSystem.Reachable Guard.all p) :
    p.Consistent :=
  h.invariant (I := AuthProvider.Consistent)
    (fun p hp => by
      obtain rfl : p = .initial := hp
      exact AuthProvider.consistent_initial)
    fun p a q hp _ hst => hp.step (authProviderStep_cases hst)

/-- A step keeps the user, or leaves none, or sets an object that is new. -/
theorem authUser_step (h : AuthProviderStep p a q) : p.objects ≤ q.objects ∧
    (q.authUser = p.authUser ∨ q.authUser = none ∨
      ∃ user, q.authUser = some ⟨p.objects, user⟩) := by
  cases h with
  | runEffect | refresh | ignored => exact ⟨le_rfl, .inl rfl⟩
  | restored user | signedIn user => exact ⟨Nat.le_succ _, .inr (.inr ⟨user, rfl⟩)⟩
  | notRestored | signedOut => exact ⟨le_rfl, .inr (.inl rfl)⟩
  | authExpired =>
    rw [AuthProvider.handleAuthExpired]
    split
    · exact ⟨le_rfl, .inr (.inl rfl)⟩
    · exact ⟨le_rfl, .inl rfl⟩

/-! ## Answers to come -/

/-- How many answers `restoreSession` takes at most. -/
def RestorePhase.remaining : RestorePhase → ℕ
  | .me => 2
  | .refresh => 1
  | .settled => 0

/-- A run of the effect that is still to come takes two answers. -/
def AuthProvider.remaining (p : AuthProvider) (i : ℕ) : ℕ :=
  ((p.effects[i]?).map fun effect => effect.restoreSession.remaining).getD 2

/-- The action is an answer to the request of a run. -/
def AuthProviderAction.answers (i : ℕ) : AuthProviderAction → Bool
  | .restore j _ => j == i
  | _ => false

theorem remaining_of_getElem? {i : ℕ} {effect : AuthEffect} (h : p.effects[i]? = some effect) :
    p.remaining i = effect.restoreSession.remaining := by
  rw [AuthProvider.remaining, h, Option.map_some, Option.getD_some]

/-- The run moves on to another phase. -/
theorem remaining_setPhase {i : ℕ} {effect : AuthEffect} (heffect : p.effects[i]? = some effect)
    (phase : RestorePhase) (j : ℕ) :
    (p.setPhase i phase).remaining j = if i = j then phase.remaining else p.remaining j := by
  rw [AuthProvider.remaining, AuthProvider.setPhase]
  by_cases hij : i = j
  · subst hij
    rw [if_pos rfl, List.getElem?_modify_eq, heffect]
    rfl
  · rw [if_neg hij, List.getElem?_modify_ne _ _ hij, AuthProvider.remaining]

theorem remaining_runEffect (i : ℕ) : p.runEffect.remaining i = p.remaining i := by
  rw [AuthProvider.remaining, AuthProvider.remaining, AuthProvider.runEffect, List.getElem?_append,
    List.length_map]
  rcases lt_trichotomy i p.effects.length with hi | rfl | hi
  · rw [if_pos hi, List.getElem?_map, Option.map_map]
    rfl
  · rw [if_neg (Nat.lt_irrefl _), Nat.sub_self, List.getElem?_eq_none le_rfl]
    rfl
  · rw [if_neg (by omega), List.getElem?_eq_none hi.le, List.getElem?_eq_none]
    rw [List.length_singleton]
    omega

theorem RestorePhase.remaining_pos {phase : RestorePhase} (h : phase ≠ .settled) :
    1 ≤ phase.remaining := by
  cases phase with
  | me => exact Nat.le_succ 1
  | refresh => exact le_rfl
  | settled => exact absurd rfl h

/-- A run that is settled by an answer takes none any more. -/
theorem remaining_settled {i : ℕ} {effect : AuthEffect} (heffect : p.effects[i]? = some effect)
    (hphase : effect.restoreSession ≠ .settled) (j : ℕ) :
    (if i == j then 1 else 0) + (p.setPhase i .settled).remaining j ≤ p.remaining j := by
  rw [remaining_setPhase heffect]
  by_cases hij : i = j
  · subst hij
    rw [if_pos rfl, if_pos (beq_self_eq_true i), remaining_of_getElem? heffect]
    exact RestorePhase.remaining_pos hphase
  · rw [if_neg hij, if_neg (by simpa using hij), Nat.zero_add]

/-- An answer leaves fewer to come, and nothing adds to them. -/
theorem remaining_step (h : AuthProviderStep p a q) (j : ℕ) :
    (if a.answers j then 1 else 0) + q.remaining j ≤ p.remaining j := by
  cases h with
  | runEffect =>
    rw [remaining_runEffect]
    exact (Nat.zero_add _).le
  | @refresh i effect heffect hphase =>
    rw [remaining_setPhase heffect]
    by_cases hij : i = j
    · subst hij
      rw [remaining_of_getElem? heffect, hphase]
      simp [AuthProviderAction.answers, RestorePhase.remaining]
    · simp [AuthProviderAction.answers, hij]
  | ignored answer heffect hphase => exact remaining_settled heffect hphase j
  | restored user heffect hphase => exact remaining_settled heffect hphase j
  | notRestored answer heffect hphase => exact remaining_settled heffect hphase j
  | signedIn | signedOut => exact (Nat.zero_add _).le
  | authExpired =>
    refine le_of_eq ((Nat.zero_add _).trans ?_)
    rw [AuthProvider.handleAuthExpired]
    by_cases hmounted : p.effects.any (·.mounted) = true
    · rw [if_pos hmounted]
      rfl
    · rw [if_neg hmounted]

/-- The answers of a run of the page. -/
theorem countP_answers_le {as : List AuthProviderAction}
    (h : authProviderSystem.runFrom p as = some q) (j : ℕ) :
    as.countP (·.answers j) + q.remaining j ≤ p.remaining j := by
  induction as generalizing p with
  | nil =>
    cases h
    exact (Nat.zero_add _).le
  | cons a as ih =>
    rw [runFrom_cons] at h
    obtain ⟨r, hr, hrest⟩ := Option.bind_eq_some_iff.mp h
    have hstep := remaining_step (authProviderStep_cases hr) j
    have hcount := ih hrest
    rw [List.countP_cons]
    omega

/-- A page that does not load any more does not load again. -/
theorem authStatus_ne_loading_step (h : AuthProviderStep p a q) (hp : p.authStatus ≠ .loading) :
    q.authStatus ≠ .loading := by
  cases h with
  | runEffect | refresh | ignored => exact hp
  | restored | notRestored | signedIn | signedOut => exact nofun
  | authExpired =>
    rw [AuthProvider.handleAuthExpired]
    split
    · exact nofun
    · exact hp

theorem authStatus_ne_loading_of_runFrom {as : List AuthProviderAction}
    (h : authProviderSystem.runFrom p as = some q) (hp : p.authStatus ≠ .loading) :
    q.authStatus ≠ .loading := by
  induction as generalizing p with
  | nil =>
    cases h
    exact hp
  | cons a as ih =>
    rw [runFrom_cons] at h
    obtain ⟨r, hr, hrest⟩ := Option.bind_eq_some_iff.mp h
    exact ih hrest (authStatus_ne_loading_step (authProviderStep_cases hr) hp)

/-- A run that is not settled takes any answer. -/
theorem restoreSession_isSome {i : ℕ} {effect : AuthEffect} (h : p.effects[i]? = some effect)
    (hphase : effect.restoreSession ≠ .settled) (answer : RestoreAnswer) :
    (restoreSession p i answer).isSome = true := by
  cases hrestore : effect.restoreSession with
  | settled => exact absurd hrestore hphase
  | me | refresh =>
    cases answer <;> simp only [restoreSession, h, hrestore, Option.isSome_some]

/-- **The session is restored.** The page shows a user exactly when it is authenticated. While it is
loading, the effect that is mounted awaits an answer. No run of the effect is answered more than
twice, and a page that has loaded does not load again. -/
theorem session_restored {as : List AuthProviderAction}
    (h : authProviderSystem.runFrom .initial as = some p) :
    (p.authStatus = .authenticated ↔ p.authUser.isSome = true) ∧
      (p.authStatus = .loading → p.effects ≠ [] → ∃ i effect, p.effects[i]? = some effect ∧
        effect.mounted = true ∧ ∀ answer, (restoreSession p i answer).isSome = true) ∧
      (∀ i, as.countP (·.answers i) ≤ 2) ∧
      (p.authStatus ≠ .loading → ∀ bs q, authProviderSystem.runFrom p bs = some q →
        q.authStatus ≠ .loading) := by
  have hp := AuthProvider.consistent_of_reachable (Reachable.of_runFrom (.init rfl) h)
  -- the mounted run is the one that awaits an answer
  refine ⟨hp.authenticated, fun hloading hne => ?_, fun i => ?_, fun hstatus bs q hq => ?_⟩
  · obtain ⟨effect, hmem, hmounted⟩ := List.any_eq_true.mp (hp.any_mounted hne)
    obtain ⟨i, hi⟩ := List.mem_iff_getElem?.mp hmem
    exact ⟨i, effect, hi, hmounted,
      restoreSession_isSome hi (hp.awaits hloading i effect hi hmounted)⟩
  · exact le_trans (Nat.le_add_right _ _) (countP_answers_le h i)
  · exact authStatus_ne_loading_of_runFrom hq hstatus

/-- In strict mode the effect is run twice. The first answer is that of the run that is not mounted
any more; the second run is answered 401, and then with a user. -/
theorem session_restored_sample : ∃ p, authProviderSystem.runFrom .initial [.runEffect, .runEffect,
    .restore 0 .failed, .restore 1 .unauthorized, .restore 1 (.user ⟨[], [], []⟩)] = some p ∧
      (p.authStatus = .authenticated ↔ p.authUser.isSome = true) := by
  have hrun : authProviderSystem.runFrom .initial [.runEffect, .runEffect, .restore 0 .failed,
      .restore 1 .unauthorized, .restore 1 (.user ⟨[], [], []⟩)] =
        some ⟨some ⟨0, ⟨[], [], []⟩⟩, .authenticated, [⟨false, .settled⟩, ⟨true, .settled⟩], 1⟩ :=
    rfl
  exact ⟨_, hrun, (session_restored hrun).1⟩

end MernChat
