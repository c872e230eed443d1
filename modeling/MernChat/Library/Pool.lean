import MernChat.Library.Transition
import Mathlib.Data.List.Basic
import Mathlib.Data.Set.Insert

/-!
# Processes over a shared state

Processes are started one after the other, each with an input of its own, and take their steps in
any order over a state they share. What is known of a process must be established by its own steps
and survive those of the others; what the others may do to it is its rely.

## Main definitions

* `PoolProgram σ ι φ α`: how a process starts, and how it goes on
* `Pool σ ι φ`, `PoolProgram.system`: the shared state and the processes, and their runs
* `PoolGuard.lift g`: the guard of the runs whose every step `g` admits
* `PoolProof P g`: an invariant of the shared state, what is known of each process, and its rely
* `stepsOf n as`: the number of steps of a process in a run

## Main results

* `PoolProof.reachable`: the invariant holds, and so does what is known of each process
* `PoolProof.exists_process`: who has left an entry in the shared state is a process
* `PoolProgram.rank_runFrom`: a process whose steps lower a rank takes no more steps than that
-/

namespace Library

open TransitionSystem

/-- Processes by number: the input of each, and where it is. -/
structure Pool (σ ι φ : Type) where
  shared : σ
  processes : List (ι × φ)

/-- Processes with inputs `ι` and local states `φ` over a shared state `σ`. A process knows its
number. -/
structure PoolProgram (σ ι φ α : Type) where
  init : σ → Prop
  start : ℕ → ι → σ → Option (φ × σ)
  step : ℕ → ι → φ → α → σ → Option (φ × σ)

inductive PoolAction (ι α : Type)
  | start (input : ι)
  | step (n : ℕ) (a : α)

variable {σ ι φ α : Type}

/-- What is asked of a step, of the process that takes it. -/
abbrev PoolGuard (σ ι φ α : Type) := ℕ → ι → φ → α → σ → Prop

/-- Every step of a process is one that `g` admits. -/
def PoolGuard.lift (g : PoolGuard σ ι φ α) : Guard (Pool σ ι φ) (PoolAction ι α)
  | _, .start _ => True
  | s, .step n a => ∀ p, s.processes[n]? = some p → g n p.1 p.2 a s.shared

namespace PoolProgram

variable (P : PoolProgram σ ι φ α)

def poolStep (s : Pool σ ι φ) : PoolAction ι α → Option (Pool σ ι φ)
  | .start i => (P.start s.processes.length i s.shared).map fun r =>
    ⟨r.2, s.processes ++ [(i, r.1)]⟩
  | .step n a => s.processes[n]?.bind fun p =>
    (P.step n p.1 p.2 a s.shared).map fun r => ⟨r.2, s.processes.set n (p.1, r.1)⟩

/-- The runs from the initial shared states, without processes. -/
def system : TransitionSystem (Pool σ ι φ) (PoolAction ι α) where
  init s := P.init s.shared ∧ s.processes = []
  step := P.poolStep

variable {P} {s t : Pool σ ι φ} {n : ℕ} {i : ι} {ψ : φ} {a : α}

theorem poolStep_start (h : P.poolStep s (.start i) = some t) :
    ∃ ψ shared, P.start s.processes.length i s.shared = some (ψ, shared) ∧
      t = ⟨shared, s.processes ++ [(i, ψ)]⟩ := by
  obtain ⟨⟨ψ, shared⟩, hstart, rfl⟩ := Option.map_eq_some_iff.mp h
  exact ⟨ψ, shared, hstart, rfl⟩

theorem poolStep_step (h : P.poolStep s (.step n a) = some t) :
    ∃ i ψ ψ' shared, s.processes[n]? = some (i, ψ) ∧
      P.step n i ψ a s.shared = some (ψ', shared) ∧
        t = ⟨shared, s.processes.set n (i, ψ')⟩ := by
  obtain ⟨⟨i, ψ⟩, hn, h⟩ := Option.bind_eq_some_iff.mp h
  obtain ⟨⟨ψ', shared⟩, hstep, rfl⟩ := Option.map_eq_some_iff.mp h
  exact ⟨i, ψ, ψ', shared, hn, hstep, rfl⟩

/-- The process that has just started, and those before it. -/
theorem getElem?_concat_eq {l : List (ι × φ)} {p q : ι × φ} (h : (l ++ [p])[n]? = some q) :
    l[n]? = some q ∧ n ≠ l.length ∨ n = l.length ∧ q = p := by
  rcases Nat.lt_trichotomy n l.length with hlt | rfl | hgt
  · rw [List.getElem?_append_left hlt] at h
    exact Or.inl ⟨h, hlt.ne⟩
  · rw [List.getElem?_concat_length] at h
    exact Or.inr ⟨rfl, (Option.some.inj h).symm⟩
  · rw [List.getElem?_eq_none] at h
    · cases h
    · rw [List.length_append, List.length_singleton]
      exact hgt

/-- The process that has taken a step, and the others. -/
theorem getElem?_set_eq {l : List (ι × φ)} {m : ℕ} {p q : ι × φ}
    (h : (l.set m p)[n]? = some q) : l[n]? = some q ∧ n ≠ m ∨ n = m ∧ q = p := by
  by_cases hnm : n = m
  · subst hnm
    have hlt : n < l.length := by
      have := (List.getElem?_eq_some_iff.mp h).1
      rwa [List.length_set] at this
    rw [List.getElem?_set_self hlt] at h
    exact Or.inr ⟨rfl, (Option.some.inj h).symm⟩
  · rw [List.getElem?_set_ne (Ne.symm hnm)] at h
    exact Or.inl ⟨h, hnm⟩

/-- A process keeps its number and its input. -/
theorem getElem?_poolStep {b : PoolAction ι α} (h : P.poolStep s b = some t)
    (hn : s.processes[n]? = some (i, ψ)) : ∃ ψ', t.processes[n]? = some (i, ψ') := by
  have hlt := (List.getElem?_eq_some_iff.mp hn).1
  cases b with
  | start j =>
    obtain ⟨χ, shared, -, rfl⟩ := poolStep_start h
    exact ⟨ψ, by rw [List.getElem?_append_left hlt, hn]⟩
  | step m b =>
    obtain ⟨j, χ, χ', shared, hm, -, rfl⟩ := poolStep_step h
    by_cases hnm : n = m
    · subst hnm
      rw [hn] at hm
      obtain ⟨rfl, rfl⟩ := Prod.mk.inj (Option.some.inj hm)
      exact ⟨χ', List.getElem?_set_self hlt⟩
    · exact ⟨ψ, by rw [List.getElem?_set_ne (Ne.symm hnm), hn]⟩

end PoolProgram

/-! ## Relying on the others -/

/-- **A proof about processes**: an invariant of the shared state, what is known of a process, and
what a process relies on. A process that starts or takes a step keeps the invariant, establishes
what is known of it, and does to the others what they rely on. -/
structure PoolProof (P : PoolProgram σ ι φ α) (g : PoolGuard σ ι φ α) where
  Invariant : σ → Prop
  Known : ℕ → ι → φ → σ → Prop
  Rely : ℕ → σ → σ → Prop
  init : ∀ {s}, P.init s → Invariant s
  start : ∀ {n i ψ s t}, Invariant s → P.start n i s = some (ψ, t) →
    Invariant t ∧ Known n i ψ t ∧ ∀ m, m ≠ n → Rely m s t
  step : ∀ {n i ψ a ψ' s t}, Invariant s → Known n i ψ s → g n i ψ a s →
    P.step n i ψ a s = some (ψ', t) → Invariant t ∧ Known n i ψ' t ∧ ∀ m, m ≠ n → Rely m s t
  stable : ∀ {n i ψ s t}, Rely n s t → Known n i ψ s → Known n i ψ t

/-- **What is proved of processes holds in every run.** -/
theorem PoolProof.reachable {P : PoolProgram σ ι φ α} {g : PoolGuard σ ι φ α} (h : PoolProof P g)
    {s : Pool σ ι φ} (hs : P.system.Reachable g.lift s) :
    h.Invariant s.shared ∧ ∀ n i ψ, s.processes[n]? = some (i, ψ) → h.Known n i ψ s.shared := by
  refine hs.invariant (I := fun s => h.Invariant s.shared ∧
    ∀ n i ψ, s.processes[n]? = some (i, ψ) → h.Known n i ψ s.shared) ?_ ?_
  · rintro s ⟨hinit, hnone⟩
    refine ⟨h.init hinit, ?_⟩
    intro n i ψ hn
    rw [hnone] at hn
    cases hn
  · rintro s b t ⟨hI, hK⟩ hg hst
    cases b with
    | start i =>
      obtain ⟨ψ, shared, hstart, rfl⟩ := PoolProgram.poolStep_start hst
      obtain ⟨hI', hnew, hrely⟩ := h.start hI hstart
      refine ⟨hI', ?_⟩
      intro m j χ hm
      rcases PoolProgram.getElem?_concat_eq hm with ⟨hm, hne⟩ | ⟨rfl, heq⟩
      · exact h.stable (hrely m hne) (hK m j χ hm)
      · obtain ⟨rfl, rfl⟩ := Prod.mk.inj heq
        exact hnew
    | step n a =>
      obtain ⟨i, ψ, ψ', shared, hn, hstep, rfl⟩ := PoolProgram.poolStep_step hst
      obtain ⟨hI', hown, hrely⟩ := h.step hI (hK n i ψ hn) (hg _ hn) hstep
      refine ⟨hI', ?_⟩
      intro m j χ hm
      rcases PoolProgram.getElem?_set_eq hm with ⟨hm, hne⟩ | ⟨rfl, heq⟩
      · exact h.stable (hrely m hne) (hK m j χ hm)
      · obtain ⟨rfl, rfl⟩ := Prod.mk.inj heq
        exact hown

/-- **Who has left an entry is a process.** The entries `L` of the shared state name a process and
its input; where a process adds no entries but its own, every entry is of a process there is. -/
theorem PoolProof.exists_process {P : PoolProgram σ ι φ α} {g : PoolGuard σ ι φ α}
    (h : PoolProof P g) (L : σ → Set (ℕ × ι)) (hinit : ∀ s, P.init s → L s = ∅)
    (hstart : ∀ {n i ψ s t}, P.start n i s = some (ψ, t) → L t ⊆ insert (n, i) (L s))
    (hstep : ∀ {n i ψ a ψ' s t}, h.Invariant s → h.Known n i ψ s → g n i ψ a s →
      P.step n i ψ a s = some (ψ', t) → L t ⊆ insert (n, i) (L s))
    {s : Pool σ ι φ} (hs : P.system.Reachable g.lift s) :
    ∀ x ∈ L s.shared, ∃ ψ, s.processes[x.1]? = some (x.2, ψ) := by
  refine hs.invariant_of (I := fun s => ∀ x ∈ L s.shared, ∃ ψ, s.processes[x.1]? = some (x.2, ψ))
    (fun _ hs => h.reachable hs) ?_ ?_
  · rintro s ⟨hs, -⟩ x hx
    rw [hinit _ hs] at hx
    cases hx
  · rintro s b t ⟨hI, hK⟩ - ih hg hst x hx
    have hmono : x ∈ L s.shared → ∃ ψ, t.processes[x.1]? = some (x.2, ψ) := by
      intro hold
      obtain ⟨ψ, hψ⟩ := ih x hold
      exact PoolProgram.getElem?_poolStep hst hψ
    cases b with
    | start i =>
      obtain ⟨ψ, shared, hs, rfl⟩ := PoolProgram.poolStep_start hst
      rcases hstart hs hx with rfl | hold
      · exact ⟨ψ, List.getElem?_concat_length⟩
      · exact hmono hold
    | step n a =>
      obtain ⟨i, ψ, ψ', shared, hn, hs, rfl⟩ := PoolProgram.poolStep_step hst
      rcases hstep hI (hK n i ψ hn) (hg _ hn) hs hx with rfl | hold
      · exact ⟨ψ', List.getElem?_set_self (List.getElem?_eq_some_iff.mp hn).1⟩
      · exact hmono hold

/-! ## Coming to an end -/

/-- The steps of the process `n` in a run. -/
def stepsOf (n : ℕ) (as : List (PoolAction ι α)) : ℕ :=
  as.countP fun
    | .start _ => false
    | .step m _ => m == n

namespace PoolProgram

variable {P : PoolProgram σ ι φ α} {rank : φ → ℕ} {ok : φ → Prop} {n : ℕ} {i : ι} {ψ : φ}

theorem rank_poolStep (hrank : ∀ {ψ a ψ' s t}, ok ψ → P.step n i ψ a s = some (ψ', t) →
      ok ψ' ∧ rank ψ' < rank ψ) {s t : Pool σ ι φ} {b : PoolAction ι α}
    (h : P.poolStep s b = some t) (hn : s.processes[n]? = some (i, ψ)) (hψ : ok ψ) :
    ∃ ψ', t.processes[n]? = some (i, ψ') ∧ ok ψ' ∧ rank ψ' + stepsOf n [b] ≤ rank ψ := by
  have hlt := (List.getElem?_eq_some_iff.mp hn).1
  cases b with
  | start j =>
    obtain ⟨χ, shared, -, rfl⟩ := poolStep_start h
    exact ⟨ψ, by rw [List.getElem?_append_left hlt, hn], hψ, by simp [stepsOf]⟩
  | step m b =>
    obtain ⟨j, χ, χ', shared, hm, hstep, rfl⟩ := poolStep_step h
    by_cases hnm : n = m
    · subst hnm
      rw [hn] at hm
      obtain ⟨rfl, rfl⟩ := Prod.mk.inj (Option.some.inj hm)
      obtain ⟨hok, hless⟩ := hrank hψ hstep
      refine ⟨χ', List.getElem?_set_self hlt, hok, ?_⟩
      simp only [stepsOf, List.countP_cons, List.countP_nil, beq_self_eq_true, if_true]
      omega
    · refine ⟨ψ, by rw [List.getElem?_set_ne (Ne.symm hnm), hn], hψ, ?_⟩
      simp [stepsOf, Ne.symm hnm]

/-- **The steps of a process are bounded** by a rank that each of them lowers. -/
theorem rank_runFrom (hrank : ∀ {ψ a ψ' s t}, ok ψ → P.step n i ψ a s = some (ψ', t) →
      ok ψ' ∧ rank ψ' < rank ψ) {as : List (PoolAction ι α)} {s t : Pool σ ι φ}
    (h : P.system.runFrom s as = some t) (hn : s.processes[n]? = some (i, ψ)) (hψ : ok ψ) :
    ∃ ψ', t.processes[n]? = some (i, ψ') ∧ rank ψ' + stepsOf n as ≤ rank ψ := by
  induction as generalizing s ψ with
  | nil =>
    obtain rfl := Option.some.inj h
    exact ⟨ψ, hn, le_refl _⟩
  | cons b as ih =>
    rw [runFrom_cons] at h
    obtain ⟨u, hu, h⟩ := Option.bind_eq_some_iff.mp h
    obtain ⟨χ, hχ, hok, hle⟩ := rank_poolStep hrank hu hn hψ
    obtain ⟨ψ', hψ', hle'⟩ := ih h hχ hok
    refine ⟨ψ', hψ', ?_⟩
    have hsplit : stepsOf n (b :: as) = stepsOf n [b] + stepsOf n as := by
      rw [stepsOf, ← List.singleton_append, List.countP_append]
      rfl
    omega

end PoolProgram

end Library
