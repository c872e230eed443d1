import Mathlib.Data.List.Nodup
import Mathlib.Logic.Function.Basic
import Mathlib.Order.Interval.Finset.Nat
import Mathlib.Tactic.Common

/-!
# Counters of fixed windows

Every key has a counter that its first hit creates, that goes away at the end of a window of fixed
length, and that counts the hits in between. What each hit found is kept beside.

## Main definitions

* `Windows κ ι`: the counters of the keys `κ`, and the hits `ι`
* `Windows.hit`, `Windows.tick`: a hit, and the passing of time
* `Windows.WellFormed`: the invariant

## Main results

* `Windows.WellFormed.length_le`: within a window at most `n` hits find a count up to `n`
* `Windows.WellFormed.exists_counted`: a hit with a count above `n` was preceded by `n` others of
  its window
* `Windows.WellFormed.deadline_le`: a counter goes away within the length of a window
-/

namespace Library

/-- A counter, and when it goes away. -/
structure WindowCounter where
  count : ℕ
  deadline : ℕ

/-- A hit: on which key and when, and the counter after it. -/
structure Hit (κ : Type) where
  key : κ
  time : ℕ
  count : ℕ
  deadline : ℕ

structure Windows (κ ι : Type) where
  clock : ℕ
  counters : κ → Option WindowCounter
  hits : ι → Option (Hit κ)

variable {κ ι : Type} {W : ℕ}

/-- The counter after a hit, in a window of length `W` if there is none. -/
def WindowCounter.next (W now : ℕ) : Option WindowCounter → WindowCounter
  | none => ⟨1, now + W⟩
  | some c => ⟨c.count + 1, c.deadline⟩

namespace Windows

def hit [DecidableEq κ] [DecidableEq ι] (W : ℕ) (s : Windows κ ι) (i : ι) (k : κ) : Windows κ ι :=
  let c := WindowCounter.next W s.clock (s.counters k)
  { s with
    counters := Function.update s.counters k (some c)
    hits := Function.update s.hits i (some ⟨k, s.clock, c.count, c.deadline⟩) }

def tick (s : Windows κ ι) (d : ℕ) : Windows κ ι :=
  { s with
    clock := s.clock + d
    counters := fun k => (s.counters k).filter fun c => s.clock + d ≤ c.deadline }

/-- Hit `i` creates the counter of a key, and hit `j` is counted there before it goes away. -/
def Counted (W : ℕ) (s : Windows κ ι) (i j : ι) : Prop :=
  ∃ x y, s.hits i = some x ∧ s.hits j = some y ∧ x.count = 1 ∧ y.key = x.key ∧
    x.time ≤ y.time ∧ y.time ≤ x.time + W

/-- The invariant. The hits of a key with one deadline are those of one window: their counts are
those up to that of the counter, each once, and no window begins before the one before it ends. -/
structure WellFormed (W : ℕ) (s : Windows κ ι) : Prop where
  bounds : ∀ i x, s.hits i = some x → x.time ≤ s.clock ∧ x.time ≤ x.deadline ∧
    x.deadline ≤ x.time + W ∧ 1 ≤ x.count ∧ (x.count = 1 → x.deadline = x.time + W)
  current : ∀ i x, s.hits i = some x → s.clock ≤ x.deadline →
    ∃ c, s.counters x.key = some c ∧ c.deadline = x.deadline ∧ x.count ≤ c.count
  below : ∀ i x n, s.hits i = some x → 1 ≤ n → n ≤ x.count → ∃ j y, s.hits j = some y ∧
    y.key = x.key ∧ y.deadline = x.deadline ∧ y.count = n
  unique : ∀ i j x y, s.hits i = some x → s.hits j = some y → x.key = y.key →
    x.deadline = y.deadline → x.count = y.count → i = j
  apart : ∀ i j x y, s.hits i = some x → s.hits j = some y → x.key = y.key →
    x.deadline < y.deadline → x.deadline < y.time
  live : ∀ k c, s.counters k = some c → s.clock ≤ c.deadline ∧ ∃ i x, s.hits i = some x ∧
    x.key = k ∧ x.count = c.count ∧ x.deadline = c.deadline

namespace WellFormed

variable {s : Windows κ ι}

/-- Before the first hit. -/
theorem initial (hc : ∀ k, s.counters k = none) (hh : ∀ i, s.hits i = none) : s.WellFormed W := by
  refine ⟨?_, ?_, ?_, ?_, ?_, ?_⟩ <;> intros <;> simp_all

/-- As time passes, counters past their deadline go away. -/
theorem tick (h : s.WellFormed W) (d : ℕ) : (s.tick d).WellFormed W := by
  refine ⟨?bounds, ?current, h.below, h.unique, h.apart, ?live⟩
  case bounds =>
    intro i x hx
    obtain ⟨htime, hrest⟩ := h.bounds i x hx
    exact ⟨htime.trans (Nat.le_add_right _ _), hrest⟩
  case current =>
    intro i x hx hd
    -- the counter of a window that has not ended is kept
    have hd' : s.clock + d ≤ x.deadline := hd
    obtain ⟨c, hc, hdeadline, hcount⟩ := h.current i x hx (by omega)
    refine ⟨c, ?_, hdeadline, hcount⟩
    show (s.counters x.key).filter _ = some c
    rw [hc, Option.filter_some, if_pos (by simpa [hdeadline] using hd')]
  case live =>
    intro k c hc
    obtain ⟨hc, hd⟩ := Option.filter_eq_some_iff.mp hc
    exact ⟨of_decide_eq_true hd, (h.live k c hc).2⟩

/-- The counter after a hit on a key, against the hits there were. -/
structure Next (W : ℕ) (s : Windows κ ι) (k : κ) (c : WindowCounter) : Prop where
  deadline : s.clock ≤ c.deadline ∧ c.deadline ≤ s.clock + W
  count : 1 ≤ c.count ∧ (c.count = 1 → c.deadline = s.clock + W)
  /-- It counts one more than any hit of its window, -/
  greatest : ∀ i x, s.hits i = some x → x.key = k → x.deadline = c.deadline → x.count < c.count
  /-- which have the counts below, -/
  below : ∀ n, 1 ≤ n → n < c.count → ∃ i x, s.hits i = some x ∧ x.key = k ∧
    x.deadline = c.deadline ∧ x.count = n
  /-- and all other windows have ended. -/
  past : ∀ i x, s.hits i = some x → x.key = k → x.deadline ≠ c.deadline → x.deadline < s.clock

theorem next (h : s.WellFormed W) (k : κ) :
    Next W s k (WindowCounter.next W s.clock (s.counters k)) := by
  cases hc : s.counters k with
  | none =>
    -- no window of the key is current
    have hpast : ∀ i x, s.hits i = some x → x.key = k → x.deadline < s.clock := by
      intro i x hx hk
      by_contra hle
      obtain ⟨c, hsome, -⟩ := h.current i x hx (not_lt.mp hle)
      rw [hk, hc] at hsome
      cases hsome
    refine ⟨⟨?_, le_rfl⟩, ⟨le_rfl, fun _ => rfl⟩, ?_, ?_, fun i x hx hk _ => hpast i x hx hk⟩
    · exact Nat.le_add_right _ _
    · intro i x hx hk hd
      have hlt := hpast i x hx hk
      simp only [WindowCounter.next] at hd
      omega
    · intro n h1 hn
      simp only [WindowCounter.next] at hn
      omega
  | some c =>
    obtain ⟨hclock, i₀, x₀, hx₀, hk₀, hcount₀, hdeadline₀⟩ := h.live k c hc
    obtain ⟨htime, -, hle, hpos, -⟩ := h.bounds i₀ x₀ hx₀
    -- the hits of the current window are those of this counter
    have hcurrent : ∀ i x, s.hits i = some x → x.key = k → s.clock ≤ x.deadline →
        c.deadline = x.deadline ∧ x.count ≤ c.count := by
      intro i x hx hk hle
      obtain ⟨c', hsome, hc'⟩ := h.current i x hx hle
      rw [hk, hc, Option.some.injEq] at hsome
      exact hsome ▸ hc'
    obtain ⟨c', hnext, hcount, hdeadline⟩ : ∃ c', WindowCounter.next W s.clock (some c) = c' ∧
        c'.count = c.count + 1 ∧ c'.deadline = c.deadline := ⟨_, rfl, rfl, rfl⟩
    rw [hnext]
    refine ⟨⟨by omega, by omega⟩, ⟨by omega, by omega⟩, ?_, ?_, ?_⟩
    · intro i x hx hk hd
      have hle := (hcurrent i x hx hk (by omega)).2
      omega
    · intro n h1 hn
      obtain ⟨j, y, hy, hky, hdy, hny⟩ := h.below i₀ x₀ n hx₀ h1 (by omega)
      exact ⟨j, y, hy, hky.trans hk₀, by omega, hny⟩
    · intro i x hx hk hd
      by_contra hlt
      have heq := (hcurrent i x hx hk (not_lt.mp hlt)).1
      omega

/-- **A hit.** -/
theorem hit [DecidableEq κ] [DecidableEq ι] (h : s.WellFormed W) {i : ι} (hi : s.hits i = none)
    (k : κ) : (s.hit W i k).WellFormed W := by
  have hnext := h.next k
  set c := WindowCounter.next W s.clock (s.counters k)
  have hupdate : (s.hit W i k).hits =
      Function.update s.hits i (some ⟨k, s.clock, c.count, c.deadline⟩) := rfl
  -- the hits after it are this one and those before, which it does not replace
  have hhits : ∀ j y, (s.hit W i k).hits j = some y →
      (j = i ∧ y = ⟨k, s.clock, c.count, c.deadline⟩) ∨ s.hits j = some y := by
    intro j y hy
    rw [hupdate] at hy
    by_cases hj : j = i
    · rw [hj, Function.update_self, Option.some.injEq] at hy
      exact Or.inl ⟨hj, hy.symm⟩
    · rw [Function.update_of_ne hj] at hy
      exact Or.inr hy
  have hself : (s.hit W i k).hits i = some ⟨k, s.clock, c.count, c.deadline⟩ :=
    Function.update_self ..
  have hold : ∀ {j y}, s.hits j = some y → (s.hit W i k).hits j = some y := by
    intro j y hy
    have hj : j ≠ i := by
      rintro rfl
      rw [hi] at hy
      cases hy
    exact (Function.update_of_ne hj ..).trans hy
  have hcself : (s.hit W i k).counters k = some c := Function.update_self ..
  refine ⟨?bounds, ?current, ?below, ?unique, ?apart, ?live⟩
  case bounds =>
    intro j y hy
    rcases hhits j y hy with ⟨-, rfl⟩ | hy
    · exact ⟨le_rfl, hnext.deadline.1, hnext.deadline.2, hnext.count⟩
    · exact h.bounds j y hy
  case current =>
    intro j y hy hle
    rcases hhits j y hy with ⟨-, rfl⟩ | hy
    · exact ⟨c, hcself, rfl, le_rfl⟩
    · by_cases hk : y.key = k
      · refine ⟨c, hk ▸ hcself, ?_⟩
        have hdeadline : y.deadline = c.deadline := by
          by_contra hne
          exact absurd (hnext.past j y hy hk hne) (not_lt.mpr hle)
        exact ⟨hdeadline.symm, (hnext.greatest j y hy hk hdeadline).le⟩
      · obtain ⟨c', hc', hrest⟩ := h.current j y hy hle
        exact ⟨c', (Function.update_of_ne hk ..).trans hc', hrest⟩
  case below =>
    intro j y n hy h1 hn
    rcases hhits j y hy with ⟨-, rfl⟩ | hy
    · -- the counts below are there, and this hit has the last one
      rcases Nat.lt_or_eq_of_le hn with hlt | rfl
      · obtain ⟨j', y', hy', hrest⟩ := hnext.below n h1 hlt
        exact ⟨j', y', hold hy', hrest⟩
      · exact ⟨i, _, hself, rfl, rfl, rfl⟩
    · obtain ⟨j', y', hy', hrest⟩ := h.below j y n hy h1 hn
      exact ⟨j', y', hold hy', hrest⟩
  case unique =>
    intro j j' y y' hy hy' hk hd hn
    rcases hhits j y hy with ⟨hj, rfl⟩ | hold₁ <;>
      rcases hhits j' y' hy' with ⟨hj', rfl⟩ | hold₂
    · exact hj.trans hj'.symm
    · exact absurd hn (hnext.greatest j' y' hold₂ hk.symm hd.symm).ne'
    · exact absurd hn (hnext.greatest j y hold₁ hk hd).ne
    · exact h.unique j j' y y' hold₁ hold₂ hk hd hn
  case apart =>
    intro j j' y y' hy hy' hk hd
    rcases hhits j y hy with ⟨-, rfl⟩ | hold₁ <;>
      rcases hhits j' y' hy' with ⟨-, rfl⟩ | hold₂
    · exact absurd hd (lt_irrefl _)
    · -- the window of this hit is the last one
      have hlt := hnext.past j' y' hold₂ hk.symm (Nat.ne_of_gt hd)
      exact absurd (hd.trans hlt) (not_lt.mpr hnext.deadline.1)
    · exact hnext.past j y hold₁ hk (Nat.ne_of_lt hd)
    · exact h.apart j j' y y' hold₁ hold₂ hk hd
  case live =>
    intro k' c' hc'
    by_cases hk : k' = k
    · subst hk
      obtain rfl := Option.some.inj (hcself.symm.trans hc')
      exact ⟨hnext.deadline.1, i, _, hself, rfl, rfl, rfl⟩
    · have hother := (Function.update_of_ne hk ..).symm.trans hc'
      obtain ⟨hclock, j, y, hy, hrest⟩ := h.live k' c' hother
      exact ⟨hclock, j, y, hold hy, hrest⟩

/-! ### What is counted -/

/-- The hits counted between the creation of a counter and its deadline are those of one window. -/
theorem counted_iff (h : s.WellFormed W) {i j : ι} {x y : Hit κ} (hx : s.hits i = some x)
    (hy : s.hits j = some y) (h1 : x.count = 1) :
    Counted W s i j ↔ y.key = x.key ∧ y.deadline = x.deadline := by
  obtain ⟨-, -, -, -, hfirst⟩ := h.bounds i x hx
  obtain ⟨-, hle, hwindow, -⟩ := h.bounds j y hy
  have hdeadline := hfirst h1
  constructor
  · rintro ⟨x', y', hx', hy', -, hk, hge, hlate⟩
    obtain rfl := Option.some.inj (hx.symm.trans hx')
    obtain rfl := Option.some.inj (hy.symm.trans hy')
    refine ⟨hk, ?_⟩
    -- two windows of one key do not overlap
    rcases lt_trichotomy y.deadline x.deadline with hlt | heq | hgt
    · have hbefore := h.apart j i y x hy hx hk hlt
      omega
    · exact heq
    · have hafter := h.apart i j x y hx hy hk.symm hgt
      omega
  · rintro ⟨hk, hd⟩
    refine ⟨x, y, hx, hy, h1, hk, ?_, ?_⟩ <;> omega

/-- **Within a window at most `n` hits find a count up to `n`.** -/
theorem length_le (h : s.WellFormed W) {i : ι} {js : List ι} {n : ℕ} (hjs : js.Nodup)
    (hcounted : ∀ j ∈ js, Counted W s i j ∧ ∀ y, s.hits j = some y → y.count ≤ n) :
    js.length ≤ n := by
  -- distinct hits of one window have distinct counts
  let count : ι → ℕ := fun j => (s.hits j).elim 0 Hit.count
  have hcount : ∀ j ∈ js, ∃ x y, s.hits i = some x ∧ s.hits j = some y ∧ count j = y.count ∧
      y.key = x.key ∧ y.deadline = x.deadline ∧ y.count ∈ Finset.Icc 1 n := by
    intro j hj
    obtain ⟨hin, hle⟩ := hcounted j hj
    obtain ⟨x, y, hx, hy, h1, -⟩ := id hin
    obtain ⟨hk, hd⟩ := (h.counted_iff hx hy h1).mp hin
    obtain ⟨-, -, -, hpos, -⟩ := h.bounds j y hy
    refine ⟨x, y, hx, hy, ?_, hk, hd, Finset.mem_Icc.mpr ⟨hpos, hle y hy⟩⟩
    simp [count, hy]
  have hnodup : (js.map count).Nodup := by
    refine List.Nodup.map_on ?_ hjs
    intro j hj j' hj' heq
    obtain ⟨x, y, hx, hy, hc, hk, hd, -⟩ := hcount j hj
    obtain ⟨x', y', hx', hy', hc', hk', hd', -⟩ := hcount j' hj'
    obtain rfl := Option.some.inj (hx.symm.trans hx')
    exact h.unique j j' y y' hy hy' (hk.trans hk'.symm) (hd.trans hd'.symm)
      (hc.symm.trans (heq.trans hc'))
  have hsub : (js.map count).toFinset ⊆ Finset.Icc 1 n := by
    intro m hm
    obtain ⟨j, hj, rfl⟩ := List.mem_map.mp (List.mem_toFinset.mp hm)
    obtain ⟨_, _, _, _, hc, _, _, hmem⟩ := hcount j hj
    exact hc ▸ hmem
  have hcard := Finset.card_le_card hsub
  rw [List.toFinset_card_of_nodup hnodup, List.length_map, Nat.card_Icc] at hcard
  omega

/-- **A hit with a count above `n`** comes after `n` others of its window. -/
theorem exists_counted (h : s.WellFormed W) {j : ι} {y : Hit κ} {n : ℕ} (hy : s.hits j = some y)
    (hn : n < y.count) : ∃ i, Counted W s i j ∧ ∃ js : List ι, js.Nodup ∧ js.length = n ∧
      j ∉ js ∧ ∀ j' ∈ js, Counted W s i j' := by
  obtain ⟨i, x, hx, hkx, hdx, h1⟩ := h.below j y 1 hy le_rfl (by omega)
  -- the hit with each count
  have hall : ∀ m : ℕ, ∃ j', m ∈ Finset.Icc 1 n → ∃ y', s.hits j' = some y' ∧ y'.key = y.key ∧
      y'.deadline = y.deadline ∧ y'.count = m := by
    intro m
    by_cases hm : m ∈ Finset.Icc 1 n
    · obtain ⟨hm1, hmn⟩ := Finset.mem_Icc.mp hm
      obtain ⟨j', y', hy'⟩ := h.below j y m hy hm1 (by omega)
      exact ⟨j', fun _ => ⟨y', hy'⟩⟩
    · exact ⟨j, fun hmem => absurd hmem hm⟩
  choose hitOf hhitOf using hall
  have hcounts : ∀ m ∈ List.range' 1 n, m ∈ Finset.Icc 1 n := by
    intro m hm
    rw [List.mem_range'_1] at hm
    exact Finset.mem_Icc.mpr ⟨hm.1, by omega⟩
  refine ⟨i, (h.counted_iff hx hy h1).mpr ⟨hkx.symm, hdx.symm⟩,
    (List.range' 1 n).map hitOf, ?_, ?_, ?_, ?_⟩
  · refine List.Nodup.map_on ?_ List.nodup_range'
    intro m hm m' hm' heq
    obtain ⟨y₁, hy₁, -, -, hc₁⟩ := hhitOf m (hcounts m hm)
    obtain ⟨y₂, hy₂, -, -, hc₂⟩ := hhitOf m' (hcounts m' hm')
    rw [heq] at hy₁
    obtain rfl := Option.some.inj (hy₁.symm.trans hy₂)
    exact hc₁.symm.trans hc₂
  · rw [List.length_map, List.length_range']
  · intro hmem
    obtain ⟨m, hm, hj⟩ := List.mem_map.mp hmem
    have hmn := hcounts m hm
    obtain ⟨y', hy', -, -, hc⟩ := hhitOf m hmn
    rw [hj] at hy'
    obtain rfl := Option.some.inj (hy.symm.trans hy')
    have hle := (Finset.mem_Icc.mp hmn).2
    omega
  · intro j' hj'
    obtain ⟨m, hm, rfl⟩ := List.mem_map.mp hj'
    obtain ⟨y', hy', hk', hd', -⟩ := hhitOf m (hcounts m hm)
    exact (h.counted_iff hx hy' h1).mpr ⟨hk'.trans hkx.symm, hd'.trans hdx.symm⟩

/-- A counter goes away within the length of a window. -/
theorem deadline_le (h : s.WellFormed W) {k : κ} {c : WindowCounter} (hc : s.counters k = some c) :
    s.clock ≤ c.deadline ∧ c.deadline ≤ s.clock + W := by
  obtain ⟨hclock, i, x, hx, -, -, hd⟩ := h.live k c hc
  obtain ⟨htime, -, hle, -⟩ := h.bounds i x hx
  exact ⟨hclock, by omega⟩

end WellFormed

end Windows

end Library
