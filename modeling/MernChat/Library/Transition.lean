import Mathlib.Logic.Relation

/-!
# Guarded transition systems

A system is given by its initial states and a partial step function: `step s a` is the state
after the action `a`, and `none` where `a` is not enabled. A guard restricts the actions a run
may take to those it admits in the state they are taken from. Safety of all runs is safety
under the guard that admits everything.

## Main definitions

* `TransitionSystem σ α`: initial states and a partial step function
* `Reachable S G`: the states of the runs of `S` whose actions the guard `G` admits
* `runIf S g s as`, `runFrom S s as`: the state after the actions `as`, when all of them are
  enabled, and pass the check `g`
* `startedAt S s`: the runs from a state on
* `Simulation S T`: a map of states under which every step of `S` is a step of `T` or none

## Main results

* `Reachable.invariant`, `Reachable.invariant_of`: the invariant rule, and the rule relative to
  an invariant already known
* `Reachable.of_runIf`, `Reachable.of_runFrom`: an executed run is a run
* `Simulation.reachable`: reachable states are mapped to reachable states
-/

namespace Library

/-- A system of states `σ` and actions `α`, with a step function defined where an action is
enabled. -/
structure TransitionSystem (σ α : Type) where
  init : σ → Prop
  step : σ → α → Option σ

variable {σ α τ β : Type}

/-- A guard admits an action in the state it is taken from. -/
abbrev Guard (σ α : Type) := σ → α → Prop

/-- The guard of all runs. -/
def Guard.all : Guard σ α := fun _ _ => True

namespace TransitionSystem

variable (S : TransitionSystem σ α)

/-- The states reached by runs whose every action is admitted by `G`. -/
inductive Reachable (G : Guard σ α) : σ → Prop
  | init {s} : S.init s → Reachable G s
  | step {s a t} : Reachable G s → G s a → S.step s a = some t → Reachable G t

/-- The state after a list of actions, when every one of them is enabled and passes the check
`g` in the state it is taken from. -/
def runIf (g : σ → α → Bool) : σ → List α → Option σ
  | s, [] => some s
  | s, a :: as => if g s a then (S.step s a).bind fun t => runIf g t as else none

/-- The state after a list of actions, when every one of them is enabled. -/
def runFrom : σ → List α → Option σ := S.runIf fun _ _ => true

theorem runFrom_cons (s : σ) (a : α) (as : List α) :
    S.runFrom s (a :: as) = (S.step s a).bind fun t => S.runFrom t as := by
  rw [runFrom, runIf, if_pos rfl]

theorem runFrom_append (s : σ) (as bs : List α) :
    S.runFrom s (as ++ bs) = (S.runFrom s as).bind fun t => S.runFrom t bs := by
  induction as generalizing s with
  | nil => rfl
  | cons a as ih =>
    rw [List.cons_append, runFrom_cons, runFrom_cons, Option.bind_assoc]
    exact Option.bind_congr fun t _ => ih t

/-- The state of an executed run, with a property decided in it. -/
theorem exists_of_any {o : Option σ} (P : σ → Prop) [DecidablePred P]
    (h : o.any (fun t => decide (P t)) = true) : ∃ t, o = some t ∧ P t := by
  obtain ⟨t, ht, hp⟩ := (Option.any_eq_true _ _).mp h
  exact ⟨t, ht, of_decide_eq_true hp⟩

variable {S} {G G' : Guard σ α}

/-- **The invariant rule.** What holds initially and is preserved by every admitted step holds
of every reachable state. -/
theorem Reachable.invariant {I : σ → Prop} (hi : ∀ s, S.init s → I s)
    (hs : ∀ s a t, I s → G s a → S.step s a = some t → I t) {s : σ} (h : S.Reachable G s) :
    I s := by
  induction h with
  | init h => exact hi _ h
  | step _ hg hst ih => exact hs _ _ _ ih hg hst

/-- The invariant rule relative to an invariant `J` of the same runs: steps start and end in
`J`. -/
theorem Reachable.invariant_of {I J : σ → Prop} (hJ : ∀ s, S.Reachable G s → J s)
    (hi : ∀ s, S.init s → I s)
    (hs : ∀ s a t, J s → J t → I s → G s a → S.step s a = some t → I t) {s : σ}
    (h : S.Reachable G s) : I s := by
  induction h with
  | init h => exact hi _ h
  | step hr hg hst ih => exact hs _ _ _ (hJ _ hr) (hJ _ (hr.step hg hst)) ih hg hst

theorem Reachable.mono (hG : ∀ s a, G s a → G' s a) {s : σ} (h : S.Reachable G s) :
    S.Reachable G' s := by
  induction h with
  | init h => exact .init h
  | step _ hg hst ih => exact ih.step (hG _ _ hg) hst

/-- A guarded run is a run. -/
theorem Reachable.all {s : σ} (h : S.Reachable G s) : S.Reachable Guard.all s :=
  h.mono fun _ _ _ => trivial

/-- Executing actions whose check implies the guard stays among the states of guarded runs. -/
theorem Reachable.of_runIf {g : σ → α → Bool}
    (hg : ∀ s a, S.Reachable G s → g s a = true → G s a) {s t : σ} {as : List α}
    (h : S.Reachable G s) (hr : S.runIf g s as = some t) : S.Reachable G t := by
  induction as generalizing s with
  | nil => exact Option.some.inj hr ▸ h
  | cons a as ih =>
    rw [runIf] at hr
    by_cases hga : g s a = true
    · rw [if_pos hga] at hr
      obtain ⟨u, hu, hut⟩ := Option.bind_eq_some_iff.mp hr
      exact ih (h.step (hg s a h hga) hu) hut
    · rw [if_neg hga] at hr
      cases hr

/-- Executing enabled actions from a reachable state stays among the states of all runs. -/
theorem Reachable.of_runFrom {s t : σ} {as : List α} (h : S.Reachable Guard.all s)
    (hr : S.runFrom s as = some t) : S.Reachable Guard.all t :=
  h.of_runIf (fun _ _ _ _ => trivial) hr

/-- The runs from a state on. -/
def startedAt (S : TransitionSystem σ α) (s : σ) : TransitionSystem σ α :=
  { S with init := (· = s) }

/-- A run that goes on is a run. -/
theorem Reachable.trans {s t : σ} (h : S.Reachable G s) (ht : (S.startedAt s).Reachable G t) :
    S.Reachable G t := by
  induction ht with
  | init heq =>
    obtain rfl : _ = s := heq
    exact h
  | step _ hg hst ih => exact ih.step hg hst

/-- A run has started somewhere. -/
theorem Reachable.exists_init {t : σ} (h : S.Reachable G t) :
    ∃ s, S.init s ∧ (S.startedAt s).Reachable G t := by
  induction h with
  | init h => exact ⟨_, h, .init rfl⟩
  | step _ hg hst ih =>
    obtain ⟨s, hs, hrun⟩ := ih
    exact ⟨s, hs, hrun.step hg hst⟩

end TransitionSystem

/-- A map of states, and of actions where they are visible, under which every step of `S` is a
step of `T` or leaves the state of `T` unchanged. -/
structure Simulation (S : TransitionSystem σ α) (T : TransitionSystem τ β) where
  state : σ → τ
  action : σ → α → Option β
  init : ∀ s, S.init s → T.init (state s)
  visible : ∀ s a t b, S.step s a = some t → action s a = some b →
    T.step (state s) b = some (state t)
  silent : ∀ s a t, S.step s a = some t → action s a = none → state t = state s

/-- Reachable states are mapped to reachable states. -/
theorem Simulation.reachable {S : TransitionSystem σ α} {T : TransitionSystem τ β}
    (f : Simulation S T) {G : Guard σ α} {s : σ} (h : S.Reachable G s) :
    T.Reachable Guard.all (f.state s) := by
  induction h with
  | init h => exact .init (f.init _ h)
  | @step s a t _ _ hst ih =>
    cases hb : f.action s a with
    | none => exact (f.silent s a t hst hb) ▸ ih
    | some b => exact ih.step trivial (f.visible s a t b hst hb)

end Library
