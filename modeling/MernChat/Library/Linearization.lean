import MernChat.Library.Pool
import Mathlib.Data.List.Nodup

/-!
# Linearization

Processes take their steps in any order over a shared state. Seen through a view of that state they
execute operations one after the other, each at once: a step is silent, or it executes an operation
whose result the process keeps to itself, or the one operation whose result the process replies. The
operations in the order of these steps are a sequential history of the run. It grows at its end as
the run goes on, so that an operation comes after all whose results had been replied before its
process started.

## Main definitions

* `HistoryEntry`, `Replays`: operations with their results, executed one after the other
* `Linearization P`: a view, the operations on it, and how far a process has come with its reply
* `Linearization.Linearizes`: a history of the state of a run
* `LinearizationProof`: what is to be shown of a start and of a step

## Main results

* `replays_append`: histories in parts
* `LinearizationProof.exists_append`: every history is continued as the run goes on
* `LinearizationProof.exists_history`: every run has a history
-/

namespace Library

open TransitionSystem

variable {τ ω ρ : Type}

/-! ## Sequential histories -/

/-- An operation with its result, the process that has executed it, and whether it is the one whose
result the process replies. -/
structure HistoryEntry (ω ρ : Type) where
  caller : ℕ
  operation : ω
  result : ρ
  replied : Bool

/-- **The operations, executed one after the other**, have these results, and lead from the first
state to the last. -/
def Replays (apply : ω → τ → ρ × τ) : τ → List (HistoryEntry ω ρ) → τ → Prop
  | s, [], t => t = s
  | s, e :: history, t =>
    (apply e.operation s).1 = e.result ∧ Replays apply (apply e.operation s).2 history t

section Replays

variable {apply : ω → τ → ρ × τ} {s t u : τ} {e : HistoryEntry ω ρ}
  {history history' : List (HistoryEntry ω ρ)}

theorem replays_append : Replays apply s (history ++ history') u ↔
    ∃ t, Replays apply s history t ∧ Replays apply t history' u := by
  induction history generalizing s with
  | nil => simp [Replays]
  | cons e history ih => simp only [List.cons_append, Replays, ih, exists_and_left, and_assoc]

theorem replays_singleton :
    Replays apply s [e] t ↔ apply e.operation s = (e.result, t) := by
  simp only [Replays, Prod.ext_iff]
  exact and_congr_right fun _ => eq_comm

/-- A history that is continued by one operation. -/
theorem Replays.concat (h : Replays apply s history t)
    (happly : apply e.operation t = (e.result, u)) : Replays apply s (history ++ [e]) u :=
  replays_append.mpr ⟨t, h, replays_singleton.mpr happly⟩

end Replays

/-! ## Histories of processes -/

/-- How far a process has come with its reply. -/
inductive Progress (ρ : Type)
  | pending
  | replied (result : ρ)
  /-- It will not reply. -/
  | over

variable {σ ι φ α : Type}

/-- **Operations on a view of the shared state.** `asks` tells which operations a process may
execute, and `progress` whether it has executed the one whose result it replies. -/
structure Linearization (P : PoolProgram σ ι φ α) (τ ω ρ : Type) where
  initial : τ
  apply : ω → τ → ρ × τ
  view : σ → τ
  progress : ι → φ → Progress ρ
  asks : σ → ℕ → ι → φ → ω → Prop

/-- **A history of the state of a run.** Executed from the initial state on, its operations have
their results and lead to what is seen of the state; they are what the processes ask for; a process
has one operation whose result it replies, at most, and what it has replied is that result. -/
structure Linearization.Linearizes {P : PoolProgram σ ι φ α} (L : Linearization P τ ω ρ)
    (s : Pool σ ι φ) (history : List (HistoryEntry ω ρ)) : Prop where
  replays : Replays L.apply L.initial history (L.view s.shared)
  asked : ∀ e ∈ history, ∃ i ψ, s.processes[e.caller]? = some (i, ψ) ∧
    L.asks s.shared e.caller i ψ e.operation ∧ (e.replied = true → L.progress i ψ ≠ .pending)
  once : ((history.filter HistoryEntry.replied).map HistoryEntry.caller).Nodup
  replies : ∀ n i ψ result, s.processes[n]? = some (i, ψ) → L.progress i ψ = .replied result →
    ∃ e ∈ history, e.caller = n ∧ e.replied = true ∧ e.result = result

/-- **What a step does to the view**: nothing, or it executes an operation of its process. -/
inductive Linearization.Executes {P : PoolProgram σ ι φ α} (L : Linearization P τ ω ρ) (n : ℕ)
    (i : ι) (ψ ψ' : φ) (s t : σ) : Prop
  | silent (view : L.view t = L.view s)
      (progress : L.progress i ψ' = L.progress i ψ ∨ L.progress i ψ' = .over)
  | keeps {o : ω} {result : ρ} (asks : L.asks t n i ψ' o)
      (apply : L.apply o (L.view s) = (result, L.view t))
      (progress : L.progress i ψ' = L.progress i ψ ∨ L.progress i ψ' = .over)
  | replies {o : ω} {result : ρ} (asks : L.asks t n i ψ' o)
      (apply : L.apply o (L.view s) = (result, L.view t)) (pending : L.progress i ψ = .pending)
      (progress : L.progress i ψ' = .replied result)

/-- **A proof that processes are linearizable**, with what is known of them. -/
structure LinearizationProof {P : PoolProgram σ ι φ α} {g : PoolGuard σ ι φ α} (h : PoolProof P g)
    (L : Linearization P τ ω ρ) : Prop where
  init : ∀ {s}, P.init s → L.view s = L.initial
  start : ∀ {n i ψ s t}, P.start n i s = some (ψ, t) →
    L.view t = L.view s ∧ ∀ result, L.progress i ψ ≠ .replied result
  step : ∀ {n i ψ a ψ' s t}, h.Invariant s → h.Known n i ψ s → g n i ψ a s →
    P.step n i ψ a s = some (ψ', t) → L.Executes n i ψ ψ' s t
  own : ∀ {n i ψ a ψ' s t o}, h.Invariant s → h.Known n i ψ s → g n i ψ a s →
    P.step n i ψ a s = some (ψ', t) → L.asks s n i ψ o → L.asks t n i ψ' o
  stable : ∀ {n i ψ s t o}, h.Rely n s t → L.asks s n i ψ o → L.asks t n i ψ o

namespace LinearizationProof

variable {P : PoolProgram σ ι φ α} {g : PoolGuard σ ι φ α} {h : PoolProof P g}
  {L : Linearization P τ ω ρ} {s t : Pool σ ι φ} {history : List (HistoryEntry ω ρ)}

/-- A run starts with the empty history. -/
theorem linearizes_init (p : LinearizationProof h L) (hs : P.system.init s) :
    L.Linearizes s [] where
  replays := p.init hs.1
  asked := fun e he => nomatch he
  once := List.nodup_nil
  replies n i ψ result hn _ := by
    rw [hs.2] at hn
    cases hn

/-- A process starts. -/
theorem linearizes_start (p : LinearizationProof h L) (hh : L.Linearizes s history)
    (hI : h.Invariant s.shared) {i : ι} {ψ : φ} {shared : σ}
    (hstart : P.start s.processes.length i s.shared = some (ψ, shared)) :
    L.Linearizes ⟨shared, s.processes ++ [(i, ψ)]⟩ history := by
  obtain ⟨hview, hprogress⟩ := p.start hstart
  obtain ⟨-, -, hrely⟩ := h.start hI hstart
  refine ⟨by rw [hview]; exact hh.replays, ?_, hh.once, ?_⟩
  · intro e he
    obtain ⟨j, χ, hlookup, hasks, hdone⟩ := hh.asked e he
    have hlt := (List.getElem?_eq_some_iff.mp hlookup).1
    exact ⟨j, χ, by rw [List.getElem?_append_left hlt, hlookup],
      p.stable (hrely _ hlt.ne) hasks, hdone⟩
  · intro n j χ result hn hreplied
    rcases PoolProgram.getElem?_concat_eq hn with ⟨hold, -⟩ | ⟨rfl, heq⟩
    · exact hh.replies n j χ result hold hreplied
    · obtain ⟨rfl, rfl⟩ := Prod.mk.inj heq
      exact absurd hreplied (hprogress result)

/-- A process takes a step. -/
theorem linearizes_step (p : LinearizationProof h L) (hh : L.Linearizes s history)
    (hI : h.Invariant s.shared) {n : ℕ} {i : ι} {ψ ψ' : φ} {a : α} {shared : σ}
    (hn : s.processes[n]? = some (i, ψ)) (hk : h.Known n i ψ s.shared) (hg : g n i ψ a s.shared)
    (hstep : P.step n i ψ a s.shared = some (ψ', shared)) :
    ∃ history', L.Linearizes ⟨shared, s.processes.set n (i, ψ')⟩ (history ++ history') := by
  obtain ⟨-, -, hrely⟩ := h.step hI hk hg hstep
  have hlt := (List.getElem?_eq_some_iff.mp hn).1
  have hexecutes := p.step hI hk hg hstep
  have hself : (s.processes.set n (i, ψ'))[n]? = some (i, ψ') := List.getElem?_set_self hlt
  -- a process that is not pending stays so
  have hdone : L.progress i ψ ≠ .pending → L.progress i ψ' ≠ .pending := by
    intro hne hpending
    cases hexecutes with
    | silent view progress | keeps asks apply progress =>
      rcases progress with heq | hover
      · exact hne (heq.symm.trans hpending)
      · cases hover.symm.trans hpending
    | replies asks apply pending progress => exact hne pending
  -- what was asked is still asked
  have hasked : ∀ e ∈ history, ∃ j χ, (s.processes.set n (i, ψ'))[e.caller]? = some (j, χ) ∧
      L.asks shared e.caller j χ e.operation ∧
        (e.replied = true → L.progress j χ ≠ .pending) := by
    intro e he
    obtain ⟨j, χ, hlookup, hasks, hprogress⟩ := hh.asked e he
    by_cases hne : e.caller = n
    · obtain ⟨rfl, rfl⟩ := Prod.mk.inj (Option.some.inj (hn.symm.trans (hne ▸ hlookup)))
      rw [hne] at hasks ⊢
      exact ⟨i, ψ', hself, p.own hI hk hg hstep hasks, fun hr => hdone (hprogress hr)⟩
    · exact ⟨j, χ, by rw [List.getElem?_set_ne (Ne.symm hne), hlookup],
        p.stable (hrely _ hne) hasks, hprogress⟩
  -- a process that has not stepped, or has not replied by this step, has replied before
  have hreplies : ∀ history', (∀ result, L.progress i ψ' = .replied result →
        ∃ e ∈ history ++ history', e.caller = n ∧ e.replied = true ∧ e.result = result) →
      ∀ m j χ result, (s.processes.set n (i, ψ'))[m]? = some (j, χ) →
        L.progress j χ = .replied result →
          ∃ e ∈ history ++ history', e.caller = m ∧ e.replied = true ∧ e.result = result := by
    intro history' hown m j χ result hm hreplied
    rcases PoolProgram.getElem?_set_eq hm with ⟨hold, -⟩ | ⟨rfl, heq⟩
    · obtain ⟨e, he, hentry⟩ := hh.replies m j χ result hold hreplied
      exact ⟨e, List.mem_append_left _ he, hentry⟩
    · obtain ⟨rfl, rfl⟩ := Prod.mk.inj heq
      exact hown result hreplied
  have hbefore : (L.progress i ψ' = L.progress i ψ ∨ L.progress i ψ' = .over) →
      ∀ history' result, L.progress i ψ' = .replied result →
        ∃ e ∈ history ++ history', e.caller = n ∧ e.replied = true ∧ e.result = result := by
    intro hprogress history' result hreplied
    rcases hprogress with heq | hover
    · obtain ⟨e, he, hentry⟩ := hh.replies n i ψ result hn (heq ▸ hreplied)
      exact ⟨e, List.mem_append_left _ he, hentry⟩
    · cases hover.symm.trans hreplied
  cases hexecutes with
  | silent view progress =>
    refine ⟨[], ?_, ?_, ?_, hreplies [] (hbefore progress [])⟩
    · rw [List.append_nil, view]
      exact hh.replays
    · rw [List.append_nil]
      exact hasked
    · rw [List.append_nil]
      exact hh.once
  | @keeps o result asks apply progress =>
    refine ⟨[⟨n, o, result, false⟩], hh.replays.concat apply, ?_, ?_,
      hreplies _ (hbefore progress _)⟩
    · intro e he
      rcases List.mem_append.mp he with he | he
      · exact hasked e he
      · obtain rfl := List.mem_singleton.mp he
        exact ⟨i, ψ', hself, asks, fun hr => nomatch hr⟩
    · rw [List.filter_append]
      simpa using hh.once
  | @replies o result asks apply pending progress =>
    refine ⟨[⟨n, o, result, true⟩], hh.replays.concat apply, ?_, ?_, hreplies _ ?_⟩
    · intro e he
      rcases List.mem_append.mp he with he | he
      · exact hasked e he
      · obtain rfl := List.mem_singleton.mp he
        exact ⟨i, ψ', hself, asks, fun _ hpending => nomatch progress.symm.trans hpending⟩
    · -- the process was pending, and so had not replied
      rw [List.filter_append, List.map_append]
      refine List.nodup_append.mpr ⟨hh.once, List.nodup_singleton _, ?_⟩
      rintro m hm _ hm' rfl
      obtain rfl : m = n := by simpa using hm'
      obtain ⟨e, he, rfl⟩ := List.mem_map.mp hm
      obtain ⟨hmem, hreplied⟩ := List.mem_filter.mp he
      obtain ⟨j, χ, hlookup, -, hprogress⟩ := hh.asked e hmem
      obtain ⟨rfl, rfl⟩ := Prod.mk.inj (Option.some.inj (hn.symm.trans hlookup))
      exact hprogress hreplied pending
    · intro result' hreplied
      obtain rfl := Progress.replied.inj (progress.symm.trans hreplied)
      exact ⟨_, List.mem_append_right _ (List.mem_singleton_self _), rfl, rfl, rfl⟩

/-- **Every history is continued** as the run goes on. -/
theorem exists_append (p : LinearizationProof h L) (hs : P.system.Reachable g.lift s)
    (hh : L.Linearizes s history) (ht : (P.system.startedAt s).Reachable g.lift t) :
    ∃ history', L.Linearizes t (history ++ history') := by
  induction ht with
  | init heq =>
    obtain rfl : _ = s := heq
    exact ⟨[], by rw [List.append_nil]; exact hh⟩
  | @step u b t hu hg hst ih =>
    obtain ⟨history', hlinearizes⟩ := ih
    obtain ⟨hI, hK⟩ := h.reachable (hs.trans hu)
    cases b with
    | start i =>
      obtain ⟨ψ, shared, hstart, rfl⟩ := PoolProgram.poolStep_start hst
      exact ⟨history', p.linearizes_start hlinearizes hI hstart⟩
    | step n a =>
      obtain ⟨i, ψ, ψ', shared, hn, hstep, rfl⟩ := PoolProgram.poolStep_step hst
      obtain ⟨history'', hnext⟩ :=
        p.linearizes_step hlinearizes hI hn (hK n i ψ hn) (hg _ hn) hstep
      exact ⟨history' ++ history'', by rw [← List.append_assoc]; exact hnext⟩

/-- **Every run has a history.** -/
theorem exists_history (p : LinearizationProof h L) (hs : P.system.Reachable g.lift s) :
    ∃ history, L.Linearizes s history := by
  obtain ⟨s₀, hinit, hrun⟩ := hs.exists_init
  obtain ⟨history, hh⟩ := p.exists_append (.init hinit) (p.linearizes_init hinit) hrun
  exact ⟨[] ++ history, hh⟩

end LinearizationProof

end Library
