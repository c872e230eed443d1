import Mathlib.Data.List.Sort
import Mathlib.Data.List.Nodup
import Mathlib.Order.Defs.LinearOrder

/-!
# Tables as lists of rows

A table is the list of its rows in no particular order. A query sorts the rows it selects by a
key and takes a first part of them; an update maps a function that keeps the key over all rows.

## Main definitions

* `sortBy f l`: the rows `l` in increasing order of the key `f`

## Main results

* `mem_sortBy`, `pairwise_sortBy`, `pairwise_lt_sortBy`: the rows sorted, and their order
* `eq_sortBy`, `sortBy_eq_of_perm`, `sortBy_filter`: there is one way to sort rows with distinct
  keys
* `mem_take_of_lt`, `exists_mem_take_iff`: a first part of a sorted list has every row below one of
  its rows, and reaches beyond a key if few rows are below it
* `map_key_map`, `eq_of_key`: updates that keep the key, and rows with one key
* `eq_of_map_key`, `filter_key_eq`: lists with the same keys, and selecting by a key
* `exists_mem_of_forall₂`, `map_eq_of_forall₂`, `mem_of_mapM`: tables related row by row
* `perm_flatMap_filter`: the rows with some keys, group by group
* `foldl_map`: a sequence of updates, row by row
-/

namespace Library

variable {α κ : Type} [LinearOrder κ]

/-- `ORDER BY f ASC`. -/
def sortBy (f : α → κ) (l : List α) : List α := l.insertionSort fun a b => f a ≤ f b

theorem perm_sortBy (f : α → κ) (l : List α) : (sortBy f l).Perm l :=
  List.perm_insertionSort _ l

@[simp] theorem mem_sortBy {f : α → κ} {l : List α} {a : α} : a ∈ sortBy f l ↔ a ∈ l :=
  (perm_sortBy f l).mem_iff

theorem pairwise_sortBy (f : α → κ) (l : List α) :
    (sortBy f l).Pairwise fun a b => f a ≤ f b := by
  have : Std.Total fun a b : α => f a ≤ f b := ⟨fun a b => le_total (f a) (f b)⟩
  have : IsTrans α fun a b : α => f a ≤ f b := ⟨fun _ _ _ => le_trans⟩
  exact List.pairwise_insertionSort _ l

/-- Rows with distinct keys are strictly sorted. -/
theorem pairwise_lt_sortBy {f : α → κ} {l : List α} (h : (l.map f).Nodup) :
    (sortBy f l).Pairwise fun a b => f a < f b := by
  have hn : ((sortBy f l).map f).Nodup := ((perm_sortBy f l).map f).nodup_iff.mpr h
  exact ((pairwise_sortBy f l).and (List.pairwise_map.mp hn)).imp
    fun ⟨hle, hne⟩ => lt_of_le_of_ne hle hne

/-- A strictly sorted list of the rows is the list of the rows sorted. -/
theorem eq_sortBy {f : α → κ} {l s : List α} (hs : s.Pairwise fun a b => f a < f b)
    (hperm : s.Perm l) : s = sortBy f l := by
  have hnodup : (l.map f).Nodup := by
    apply ((hperm.map f).nodup_iff).mp
    exact List.pairwise_map.mpr (hs.imp ne_of_lt)
  apply List.Perm.eq_of_pairwise (fun a b _ _ hab hba => absurd hab (lt_asymm hba)) hs
    (pairwise_lt_sortBy hnodup)
  exact hperm.trans (perm_sortBy f l).symm

/-- Rows with distinct keys are sorted the same in any order they come. -/
theorem sortBy_eq_of_perm {f : α → κ} {l s : List α} (h : (l.map f).Nodup) (hperm : s.Perm l) :
    sortBy f s = sortBy f l := by
  apply eq_sortBy
  · apply pairwise_lt_sortBy
    exact ((hperm.map f).nodup_iff).mpr h
  · exact (perm_sortBy f s).trans hperm

/-- Selecting rows and sorting them may be done in either order. -/
theorem sortBy_filter {f : α → κ} {l : List α} (h : (l.map f).Nodup) (p : α → Bool) :
    sortBy f (l.filter p) = (sortBy f l).filter p := by
  symm
  apply eq_sortBy
  · exact (pairwise_lt_sortBy h).filter p
  · exact (perm_sortBy f l).filter p

/-- A first part of a strictly sorted list has every row below one of its rows. -/
theorem mem_take_of_lt {f : α → κ} {l : List α} (hl : l.Pairwise fun a b => f a < f b) {n : ℕ}
    {a b : α} (ha : a ∈ l.take n) (hb : b ∈ l) (hlt : f b < f a) : b ∈ l.take n := by
  rw [← List.take_append_drop n l, List.mem_append] at hb
  refine hb.resolve_right fun hd => ?_
  rw [← List.take_append_drop n l, List.pairwise_append] at hl
  exact lt_asymm hlt (hl.2.2 a ha b hd)

/-- A first part of a strictly sorted list reaches beyond a key that is no row's when there is a row
beyond, and fewer rows than the part holds are below. -/
theorem exists_mem_take_iff {f : α → κ} {l : List α} (hl : l.Pairwise fun a b => f a < f b) {k : κ}
    (hk : ∀ a ∈ l, f a ≠ k) (n : ℕ) :
    (∃ a ∈ l.take n, k < f a) ↔
      (∃ a ∈ l, k < f a) ∧ (l.filter fun a => decide (f a < k)).length < n := by
  induction l generalizing n with
  | nil => simp
  | cons a l ih =>
    obtain ⟨hfirst, hl⟩ := List.pairwise_cons.mp hl
    have hk' : ∀ b ∈ l, f b ≠ k := fun b hb => hk b (List.mem_cons_of_mem a hb)
    cases n with
    | zero => simp
    | succ n =>
      rcases lt_or_gt_of_ne (hk a List.mem_cons_self) with hlt | hgt
      · -- the first row takes a place below the key
        have hnot : ¬ k < f a := lt_asymm hlt
        simp only [List.take_succ_cons, List.exists_mem_cons_iff, hnot, false_or,
          List.filter_cons, hlt, decide_true, if_true, List.length_cons, Nat.add_lt_add_iff_right]
        exact ih hl hk' n
      · -- all rows are beyond the key
        have hnone : ((a :: l).filter fun b => decide (f b < k)) = [] := by
          rw [List.filter_eq_nil_iff]
          intro b hb
          rw [decide_eq_true_eq]
          rcases List.mem_cons.mp hb with rfl | hb
          · exact lt_asymm hgt
          · exact lt_asymm (hgt.trans (hfirst b hb))
        rw [hnone]
        have hex : ∃ b ∈ a :: l, k < f b := ⟨a, List.mem_cons_self, hgt⟩
        exact iff_of_true ⟨a, List.mem_cons_self, hgt⟩ ⟨hex, Nat.succ_pos n⟩

theorem map_key_map {β : Type} {f : α → β} {g : α → α} (hg : ∀ a, f (g a) = f a) (l : List α) :
    (l.map g).map f = l.map f := by
  rw [List.map_map]
  exact List.map_congr_left fun a _ => hg a

/-- Rows with one key are one row, in a table whose keys are distinct. -/
theorem eq_of_key {β : Type} {f : α → β} {l : List α} (h : (l.map f).Nodup) {a b : α}
    (ha : a ∈ l) (hb : b ∈ l) (hab : f a = f b) : a = b :=
  List.inj_on_of_nodup_map h ha hb hab

/-- Lists of rows with the same keys are the same, where rows with one key are one row. -/
theorem eq_of_map_key {β : Type} {f : α → β} {l s : List α}
    (h : ∀ a ∈ l, ∀ b ∈ s, f a = f b → a = b) (hmap : l.map f = s.map f) : l = s := by
  induction l generalizing s with
  | nil => exact (List.map_eq_nil_iff.mp hmap.symm).symm
  | cons a l ih =>
    cases s with
    | nil => cases hmap
    | cons b s =>
      rw [List.map_cons, List.map_cons, List.cons.injEq] at hmap
      rw [h a List.mem_cons_self b List.mem_cons_self hmap.1, ih ?_ hmap.2]
      intro c hc d hd
      exact h c (List.mem_cons_of_mem a hc) d (List.mem_cons_of_mem b hd)

/-- Lists related row by row: each row of one has its row in the other. -/
theorem exists_mem_of_forall₂ {β : Type} {R : α → β → Prop} {l : List α} {s : List β}
    (h : List.Forall₂ R l s) :
    (∀ a ∈ l, ∃ b ∈ s, R a b) ∧ ∀ b ∈ s, ∃ a ∈ l, R a b := by
  induction h with
  | nil => exact ⟨by simp, by simp⟩
  | @cons a b l s hab _ ih =>
    constructor
    · intro c hc
      rcases List.mem_cons.mp hc with rfl | hc
      · exact ⟨b, List.mem_cons_self, hab⟩
      · obtain ⟨d, hd, hcd⟩ := ih.1 c hc
        exact ⟨d, List.mem_cons_of_mem b hd, hcd⟩
    · intro d hd
      rcases List.mem_cons.mp hd with rfl | hd
      · exact ⟨a, List.mem_cons_self, hab⟩
      · obtain ⟨c, hc, hcd⟩ := ih.2 d hd
        exact ⟨c, List.mem_cons_of_mem a hc, hcd⟩

/-- A list read row by row has only what its rows are read as. -/
theorem mem_of_mapM {β : Type} {f : α → Option β} {l : List α} {s : List β}
    (h : l.mapM f = some s) {b : β} (hb : b ∈ s) : ∃ a ∈ l, f a = some b := by
  induction l generalizing s with
  | nil =>
    obtain rfl := Option.some.inj h
    cases hb
  | cons a l ih =>
    simp only [List.mapM_cons, Option.bind_eq_bind, Option.bind_eq_some_iff] at h
    obtain ⟨c, hc, r, hr, hs⟩ := h
    obtain rfl := Option.some.inj hs
    rcases List.mem_cons.mp hb with rfl | hb
    · exact ⟨a, List.mem_cons_self, hc⟩
    · obtain ⟨d, hd, hdb⟩ := ih hr hb
      exact ⟨d, List.mem_cons_of_mem a hd, hdb⟩

/-- Lists related by the values of their rows have the same values. -/
theorem map_eq_of_forall₂ {β γ : Type} {f : α → γ} {g : β → γ} {l : List α} {s : List β}
    (h : List.Forall₂ (fun a b => f a = g b) l s) : l.map f = s.map g := by
  induction h with
  | nil => rfl
  | cons hab _ ih => rw [List.map_cons, List.map_cons, hab, ih]

/-- Selecting by the key of a row selects that row alone. -/
theorem filter_key_eq {β : Type} [BEq β] [LawfulBEq β] {f : α → β} {l : List α}
    (h : (l.map f).Nodup) {a : α} (ha : a ∈ l) : (l.filter fun b => f b == f a) = [a] := by
  induction l with
  | nil => cases ha
  | cons b l ih =>
    rw [List.map_cons, List.nodup_cons] at h
    rcases List.mem_cons.mp ha with rfl | ha
    · -- no later row has the key
      have hnone : (l.filter fun b => f b == f a) = [] := by
        rw [List.filter_eq_nil_iff]
        intro c hc hca
        exact h.1 (List.mem_map.mpr ⟨c, hc, by simpa using hca⟩)
      simp [hnone]
    · have hne : f b ≠ f a := by
        intro hba
        exact h.1 (hba ▸ List.mem_map_of_mem ha)
      simp [hne, ih h.2 ha]

/-! ## Groups -/

theorem nodup_eraseDups {β : Type} [BEq β] [LawfulBEq β] (l : List β) : l.eraseDups.Nodup := by
  -- on the length, as the rest is filtered first
  induction hn : l.length using Nat.strong_induction_on generalizing l with
  | _ n ih =>
    cases l with
    | nil => exact List.nodup_nil
    | cons a l =>
      rw [List.eraseDups_cons, List.nodup_cons]
      constructor
      · rw [List.mem_eraseDups, List.mem_filter]
        simp
      · apply ih _ _ _ rfl
        rw [← hn, List.length_cons]
        exact Nat.lt_succ_of_le (List.length_filter_le _ _)

/-- The first row of a key comes before every row of the keys after it. -/
theorem pairwise_eraseDups_map {β : Type} [BEq β] [LawfulBEq β] {f : α → β} {R : α → α → Prop}
    {l : List α} (h : l.Pairwise R) : (l.map f).eraseDups.Pairwise fun k k' =>
      ∃ first ∈ l, f first = k ∧ ∀ a ∈ l, f a = k' → R first a := by
  induction hn : l.length using Nat.strong_induction_on generalizing l with
  | _ n ih =>
    cases l with
    | nil => exact List.Pairwise.nil
    | cons a l =>
      rw [List.pairwise_cons] at h
      rw [List.map_cons, List.eraseDups_cons, List.filter_map, List.pairwise_cons]
      have hkeys : ∀ k ∈ ((l.filter ((fun b => !b == f a) ∘ f)).map f).eraseDups, k ≠ f a := by
        intro k hk
        rw [List.mem_eraseDups, List.mem_map] at hk
        obtain ⟨b, hb, rfl⟩ := hk
        simpa using (List.mem_filter.mp hb).2
      constructor
      · intro k hk
        refine ⟨a, List.mem_cons_self, rfl, ?_⟩
        intro b hb hbk
        rcases List.mem_cons.mp hb with rfl | hb
        · exact absurd hbk.symm (hkeys k hk)
        · exact h.1 b hb
      · have hlt : (l.filter ((fun b => !b == f a) ∘ f)).length < n := by
          rw [← hn, List.length_cons]
          exact Nat.lt_succ_of_le (List.length_filter_le _ _)
        apply (ih _ hlt (h.2.filter _) rfl).imp_of_mem
        rintro k k' hk hk' ⟨first, hfirst, hkey, hbefore⟩
        refine ⟨first, List.mem_cons_of_mem _ (List.mem_filter.mp hfirst).1, hkey, ?_⟩
        -- a row of a later key is among the rows that are left
        intro b hb hbk
        have hne := hkeys k' hk'
        rcases List.mem_cons.mp hb with rfl | hb
        · exact absurd hbk.symm hne
        · apply hbefore b _ hbk
          rw [List.mem_filter]
          exact ⟨hb, by simpa [hbk] using hne⟩

/-- **Groups by a key**, one after the other, are the rows with these keys. -/
theorem perm_flatMap_filter {β : Type} [BEq β] [LawfulBEq β] (f : α → β) {ks : List β}
    (h : ks.Nodup) (l : List α) :
    (ks.flatMap fun k => l.filter fun a => f a == k).Perm
      (l.filter fun a => ks.contains (f a)) := by
  induction ks with
  | nil => simp
  | cons k ks ih =>
    obtain ⟨hk, hks⟩ := List.nodup_cons.mp h
    rw [List.flatMap_cons]
    -- the rows with the first key, then those with the others
    have hsplit := List.filter_append_perm (fun a => f a == k)
      (l.filter fun a => (k :: ks).contains (f a))
    rw [List.filter_filter, List.filter_filter] at hsplit
    refine List.Perm.trans ?_ hsplit
    apply List.Perm.append
    · apply List.Perm.of_eq
      apply List.filter_congr
      intro a _
      by_cases ha : f a = k <;> simp [ha]
    · refine (ih hks).trans (List.Perm.of_eq ?_)
      apply List.filter_congr
      intro a _
      by_cases ha : f a = k
      · simp [ha, hk]
      · simp [ha]

/-- Updates one after the other update each row one after the other. -/
theorem foldl_map {β : Type} (f : β → α → α) (bs : List β) (l : List α) :
    bs.foldl (fun l b => l.map (f b)) l = l.map fun a => bs.foldl (fun a b => f b a) a := by
  induction bs generalizing l with
  | nil => simp
  | cons b bs ih =>
    rw [List.foldl_cons, ih, List.map_map]
    rfl

end Library
