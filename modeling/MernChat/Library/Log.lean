import Mathlib.Data.List.Basic

/-!
# First occurrences in a log

Entries of a log carry keys, and a key may occur again. A relation holds of first occurrences
when it relates every entry before the first occurrence of a key to that occurrence.

## Main definitions

* `FirstOccurrences key R l`: every entry before a first occurrence is related to it

## Main results

* `FirstOccurrences.append`: logs that grow at their end
-/

namespace Library

variable {α κ : Type} {key : α → κ} {R : α → α → Prop}

/-- Every entry before the first occurrence of a key is related to that occurrence. -/
def FirstOccurrences (key : α → κ) (R : α → α → Prop) (l : List α) : Prop :=
  ∀ before a after, l = before ++ a :: after → (∀ b ∈ before, key b ≠ key a) →
    ∀ b ∈ before, R b a

theorem firstOccurrences_nil : FirstOccurrences key R [] := by
  intro before a after h
  simp at h

/-- **A log grows** by entries related to each other, when those that are new are related to the
entries before. -/
theorem FirstOccurrences.append {l m : List α} (hl : FirstOccurrences key R l)
    (hm : m.Pairwise R) (hlm : ∀ a ∈ m, (∀ b ∈ l, key b ≠ key a) → ∀ b ∈ l, R b a) :
    FirstOccurrences key R (l ++ m) := by
  intro before a after h hfirst b hb
  rcases List.append_eq_append_iff.mp h with ⟨c, rfl, hc⟩ | ⟨c, rfl, hc⟩
  · -- `a` is one of the new entries
    have hfl : ∀ b ∈ l, key b ≠ key a := fun b hb => hfirst b (List.mem_append_left c hb)
    rcases List.mem_append.mp hb with hb | hb
    · exact hlm a (hc ▸ by simp) hfl b hb
    · rw [hc, List.pairwise_append] at hm
      exact hm.2.2 b hb a List.mem_cons_self
  · cases c with
    | nil =>
      simp only [List.nil_append] at hc
      subst hc
      refine hlm a List.mem_cons_self (fun b hb => hfirst b ?_) b ?_
      · simpa using hb
      · simpa using hb
    | cons a' c =>
      obtain ⟨rfl, rfl⟩ := List.cons.inj hc
      exact hl before a c rfl hfirst b hb

end Library
