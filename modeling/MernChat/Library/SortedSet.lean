import Mathlib.Data.List.AList
import Mathlib.Data.List.Lex
import Mathlib.Data.Prod.Lex
import MernChat.Library.Table

/-!
# Sorted sets

A sorted set gives each of its members a score. It is listed by score, and members of one score
by a rank of their own.

## Main definitions

* `SortedSet μ σ`: members and their scores
* `removeRange s lo hi`: the members with a score outside a range
* `range rank s`, `last? rank s`: the entries in order, and the last of them

## Main results

* `lookup_removeRange`, `mem_range`, `nodup_range`: what is left, and what is listed
* `lookup_last?`, `le_last?`, `last?_eq_none_iff`: the last entry has the greatest score
-/

namespace Library

/-- Members and their scores. -/
abbrev SortedSet (μ σ : Type) := AList fun _ : μ => σ

namespace SortedSet

variable {μ σ κ : Type} [DecidableEq μ] [LinearOrder σ] [LinearOrder κ]
  {s : SortedSet μ σ} {m : μ} {x lo hi : σ} {rank : μ → κ}

/-- The members with a score below `lo` or above `hi`. -/
def removeRange (s : SortedSet μ σ) (lo hi : σ) : SortedSet μ σ where
  entries := s.entries.filter fun e => !(decide (lo ≤ e.2) && decide (e.2 ≤ hi))
  nodupKeys := s.nodupKeys.sublist List.filter_sublist

theorem lookup_removeRange :
    (s.removeRange lo hi).lookup m = some x ↔ s.lookup m = some x ∧ ¬ (lo ≤ x ∧ x ≤ hi) := by
  rw [← Option.mem_def, ← Option.mem_def, AList.mem_lookup_iff, AList.mem_lookup_iff]
  simp only [removeRange, List.mem_filter, Bool.not_eq_true', Bool.and_eq_false_iff,
    decide_eq_false_iff_not, not_and_or]

/-- The entries in order. -/
def range (rank : μ → κ) (s : SortedSet μ σ) : List (Σ _ : μ, σ) :=
  sortBy (fun e => toLex (e.2, rank e.1)) s.entries

theorem mem_range {e : Σ _ : μ, σ} : e ∈ s.range rank ↔ s.lookup e.1 = some e.2 := by
  rw [range, mem_sortBy, ← Option.mem_def, AList.mem_lookup_iff]

omit [DecidableEq μ] in
/-- Every member is listed once. -/
theorem nodup_range (rank : μ → κ) (s : SortedSet μ σ) :
    ((s.range rank).map Sigma.fst).Nodup := by
  apply ((perm_sortBy _ s.entries).map Sigma.fst).nodup_iff.mpr
  exact s.nodupKeys

/-- The entry listed last. -/
def last? (rank : μ → κ) (s : SortedSet μ σ) : Option (Σ _ : μ, σ) := (s.range rank).getLast?

theorem lookup_last? {e : Σ _ : μ, σ} (h : s.last? rank = some e) : s.lookup e.1 = some e.2 :=
  mem_range.mp (List.mem_of_getLast? h)

/-- The last entry has the greatest score. -/
theorem le_last? {e : Σ _ : μ, σ} (h : s.last? rank = some e) (hm : s.lookup m = some x) :
    x ≤ e.2 := by
  have hmem : (⟨m, x⟩ : Σ _ : μ, σ) ∈ s.range rank := mem_range.mpr hm
  have hsorted := pairwise_sortBy (fun e : Σ _ : μ, σ => toLex (e.2, rank e.1)) s.entries
  obtain ⟨l, hl⟩ := List.getLast?_eq_some_iff.mp h
  rw [range] at hl hmem
  rw [hl, List.pairwise_append] at hsorted
  rw [hl, List.mem_append, List.mem_singleton] at hmem
  rcases hmem with hmem | rfl
  · have hle := hsorted.2.2 _ hmem e (List.mem_singleton_self e)
    rcases Prod.Lex.le_iff.mp hle with hlt | ⟨heq, -⟩
    · exact hlt.le
    · exact heq.le
  · exact le_rfl

omit [DecidableEq μ] in
theorem last?_eq_none_iff : s.last? rank = none ↔ s = ∅ := by
  rw [last?, List.getLast?_eq_none_iff]
  constructor
  · intro hnil
    apply AList.ext
    have hperm := perm_sortBy (fun e : Σ _ : μ, σ => toLex (e.2, rank e.1)) s.entries
    rw [← range, hnil] at hperm
    exact hperm.symm.eq_nil
  · rintro rfl
    rfl

end SortedSet

end Library
