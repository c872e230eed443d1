import Mathlib.Data.List.Basic
import Mathlib.Data.List.Perm.Subperm
import Mathlib.Order.Lattice
import Mathlib.Tactic.SplitIfs

/-!
# Paging by key

Rows are read newest first, page after page: a request gives a bound, and its page holds the
first rows below the bound. The bound of the next request is made of the last row of the page,
and need not be the row's own key. Between the requests rows above all others may be added.

## Main definitions

* `Paging`: the key of a row, which rows can be read, the bound made of a row, and the page size
* `Paging.follow`: the pages, from one request on
* `Paging.Separates`: the bound made of the last row of a page lies between it and the next row
* `Greatest`: a page holds the rows with the greatest keys

## Main results

* `Greatest.unique`, `greatest_reverse_take`: there is one such page, the first rows reversed

* `Paging.follow_flatten_iff`: the pages are the rows, each once and in their order, exactly when
  the rows can be read and every last row of a page is separated from the row after it
-/

namespace Library

variable {α κ : Type} [LinearOrder κ]

/-- How rows are paged. -/
structure Paging (α κ : Type) where
  key : α → κ
  readable : α → Bool
  cursor : α → Option κ
  limit : Nat

namespace Paging

variable (P : Paging α κ)

/-- The row is below the bound, if there is one. -/
def below (bound : Option κ) (a : α) : Bool := bound.all fun b => decide (P.key a < b)

/-- The pages from request `k` on, where `rows k` are the rows at that request, newest first. A
page that cannot be read, or whose last row makes no bound, ends the traversal without a
result, as does running out of fuel. -/
def follow (rows : Nat → List α) : Nat → Nat → Option κ → Option (List (List α))
  | 0, _, _ => none
  | fuel + 1, k, bound =>
    let found := (rows k).filter (P.below bound)
    let page := found.take P.limit
    if page.all P.readable then
      if P.limit < found.length then
        (page.getLast?.bind P.cursor).bind fun b =>
          (follow rows fuel (k + 1) (some b)).map fun pages => page :: pages
      else some [page]
    else none

/-- The bound made of `a` lies between `a` and the next row `b`. -/
def Separates (a b : α) : Prop := ∃ c, P.cursor a = some c ∧ P.key b < c ∧ c ≤ P.key a

/-- Every row can be read, and the last row of every page is separated from the next. -/
def Traversable (l : List α) : Prop :=
  (∀ a ∈ l, P.readable a = true) ∧
    ∀ j a b, 0 < j → l[j * P.limit - 1]? = some a → l[j * P.limit]? = some b → P.Separates a b

variable {P}

/-- Rows sorted newest first. -/
abbrev Newest (P : Paging α κ) (l : List α) : Prop := l.Pairwise fun a b => P.key b < P.key a

/-- A bound between two neighbours selects the rows from the second on. -/
theorem filter_below {pre post : List α} {b : κ} (hpre : ∀ a ∈ pre, b ≤ P.key a)
    (hpost : ∀ a ∈ post, P.key a < b) : (pre ++ post).filter (P.below (some b)) = post := by
  rw [List.filter_append, List.filter_eq_nil_iff.mpr, List.filter_eq_self.mpr, List.nil_append]
  · intro a ha
    simpa [below] using hpost a ha
  · intro a ha
    simpa [below] using hpre a ha

/-- A traversal begins with the first rows below its bound. -/
theorem follow_eq_some {rows : Nat → List α} {fuel k : Nat} {bound : Option κ}
    {pages : List (List α)} (h : P.follow rows fuel k bound = some pages) :
    ∃ rest, pages = ((rows k).filter (P.below bound)).take P.limit :: rest ∧
      ((rows k).filter (P.below bound) = [] → rest = []) := by
  cases fuel with
  | zero => cases h
  | succ fuel =>
    simp only [follow] at h
    split_ifs at h with hread hmore
    · obtain ⟨b, -, h⟩ := Option.bind_eq_some_iff.mp h
      obtain ⟨rest, -, rfl⟩ := Option.map_eq_some_iff.mp h
      refine ⟨rest, rfl, ?_⟩
      intro hnil
      simp [hnil] at hmore
    · obtain rfl := Option.some.inj h
      exact ⟨[], rfl, fun _ => rfl⟩

/-- A traversal reads rows of the requests. -/
theorem mem_of_follow {rows : Nat → List α} {fuel k : Nat} {bound : Option κ}
    {pages : List (List α)} (h : P.follow rows fuel k bound = some pages) :
    ∀ page ∈ pages, ∀ a ∈ page, ∃ i, a ∈ rows i := by
  induction fuel generalizing k bound pages with
  | zero => cases h
  | succ fuel ih =>
    have hfirst : ∀ a ∈ ((rows k).filter (P.below bound)).take P.limit, ∃ i, a ∈ rows i :=
      fun a ha => ⟨k, (List.mem_filter.mp (List.mem_of_mem_take ha)).1⟩
    simp only [follow] at h
    split_ifs at h with hread hmore
    · obtain ⟨b, -, h⟩ := Option.bind_eq_some_iff.mp h
      obtain ⟨rest, hrest, rfl⟩ := Option.map_eq_some_iff.mp h
      intro page hpage
      rcases List.mem_cons.mp hpage with rfl | hpage
      · exact hfirst
      · exact ih hrest page hpage
    · obtain rfl := Option.some.inj h
      intro page hpage
      obtain rfl := List.mem_singleton.mp hpage
      exact hfirst

/-- Rows that fit one page are the last page. -/
theorem follow_eq_some_of_length_le {rows : Nat → List α} {fuel k : Nat} {bound : Option κ}
    {rest : List α} {pages : List (List α)} (hfound : (rows k).filter (P.below bound) = rest)
    (hlen : rest.length ≤ P.limit) :
    P.follow rows (fuel + 1) k bound = some pages ↔
      (∀ a ∈ rest, P.readable a = true) ∧ pages = [rest] := by
  simp only [follow, hfound, List.take_of_length_le hlen, if_neg (Nat.not_lt.mpr hlen)]
  rw [← List.all_eq_true]
  by_cases hread : rest.all P.readable = true
  · rw [if_pos hread, Option.some.injEq, and_iff_right hread, eq_comm]
  · rw [if_neg hread]
    exact iff_of_false (by simp) fun h => hread h.1

/-- A page with rows after it is followed by the pages from the bound of its last row on. -/
theorem follow_eq_some_of_page {rows : Nat → List α} {fuel k : Nat} {bound : Option κ}
    {init tail : List α} {a b : α} {pages : List (List α)}
    (hfound : (rows k).filter (P.below bound) = init ++ [a] ++ b :: tail)
    (hpage : (init ++ [a]).length = P.limit) :
    P.follow rows (fuel + 1) k bound = some pages ↔
      (∀ r ∈ init ++ [a], P.readable r = true) ∧ ∃ c, P.cursor a = some c ∧
        ∃ more, P.follow rows fuel (k + 1) (some c) = some more ∧
          pages = (init ++ [a]) :: more := by
  have htake : (init ++ [a] ++ b :: tail).take P.limit = init ++ [a] := List.take_left' hpage
  have hmore : P.limit < (init ++ [a] ++ b :: tail).length := by
    rw [List.length_append, hpage, List.length_cons]
    omega
  have hlast : (init ++ [a]).getLast? = some a := by
    rw [List.getLast?_append, List.getLast?_singleton, Option.some_or]
  simp only [follow, hfound, htake, if_pos hmore, hlast, Option.bind_some]
  rw [← List.all_eq_true]
  by_cases hread : (init ++ [a]).all P.readable = true
  · rw [if_pos hread, Option.bind_eq_some_iff, and_iff_right hread]
    refine exists_congr fun c => and_congr_right fun _ => ?_
    rw [Option.map_eq_some_iff]
    exact exists_congr fun more => and_congr_right fun _ => eq_comm
  · rw [if_neg hread]
    exact iff_of_false (by simp) fun h => hread h.1

/-- More rows than a page holds are a page, with its last row, and the rows after it. -/
theorem exists_page {rest : List α} {limit : Nat} (hpos : 0 < limit) (hlt : limit < rest.length) :
    ∃ init a b tail, rest = init ++ [a] ++ b :: tail ∧ (init ++ [a]).length = limit := by
  have htake : (rest.take limit).length = limit := by
    rw [List.length_take]
    omega
  have hne : rest.take limit ≠ [] := by
    rw [← List.length_pos_iff, htake]
    exact hpos
  have hdrop : rest.drop limit ≠ [] := by
    rw [← List.length_pos_iff, List.length_drop]
    omega
  obtain ⟨b, tail, hbt⟩ := List.exists_cons_of_ne_nil hdrop
  refine ⟨(rest.take limit).dropLast, (rest.take limit).getLast hne, b, tail, ?_, ?_⟩
  · rw [List.dropLast_append_getLast, ← hbt, List.take_append_drop]
  · rw [List.dropLast_append_getLast, htake]

/-- The first row of a traversal is the first one found. -/
theorem exists_filter_eq_cons {rows : Nat → List α} {fuel k : Nat} {bound : Option κ}
    {pages : List (List α)} {b : α} {tail : List α} (hpos : 0 < P.limit)
    (h : P.follow rows fuel k bound = some pages) (hflat : pages.flatten = b :: tail) :
    ∃ found, (rows k).filter (P.below bound) = b :: found := by
  obtain ⟨others, rfl, hnil⟩ := follow_eq_some h
  rw [List.flatten_cons] at hflat
  cases hfound : (rows k).filter (P.below bound) with
  | nil =>
    rw [hnil hfound, hfound] at hflat
    simp at hflat
  | cons r found =>
    obtain ⟨m, hm⟩ : ∃ m, P.limit = m + 1 := ⟨P.limit - 1, by omega⟩
    rw [hfound, hm, List.take_succ_cons, List.cons_append] at hflat
    obtain rfl := (List.cons.inj hflat).1
    exact ⟨found, rfl⟩

/-- The boundaries after the first page are those of the rows after it. -/
theorem traversable_append {init tail : List α} {a b : α}
    (hlen : (init ++ [a]).length = P.limit) :
    P.Traversable (init ++ [a] ++ b :: tail) ↔
      (∀ r ∈ init ++ [a], P.readable r = true) ∧ P.Separates a b ∧ P.Traversable (b :: tail) := by
  have hpos : 0 < P.limit := by
    rw [← hlen, List.length_append, List.length_singleton]
    omega
  have hlast : (init ++ [a])[P.limit - 1]? = some a := by
    rw [← hlen, List.length_append, List.length_singleton, Nat.add_sub_cancel]
    simp
  have hshift : ∀ i, P.limit ≤ i → (init ++ [a] ++ b :: tail)[i]? = (b :: tail)[i - P.limit]? := by
    intro i hi
    rw [List.getElem?_append_right (by omega), hlen]
  constructor
  · rintro ⟨hread, hsep⟩
    refine ⟨fun r hr => hread r (List.mem_append_left _ hr), ?_, ?_, ?_⟩
    · apply hsep 1 a b Nat.one_pos
      · rw [Nat.one_mul, List.getElem?_append_left (by omega)]
        exact hlast
      · rw [Nat.one_mul, hshift _ (Nat.le_refl _), Nat.sub_self]
        rfl
    · exact fun r hr => hread r (List.mem_append_right _ hr)
    · intro j c d hj hc hd
      have hmul : (j + 1) * P.limit = j * P.limit + P.limit := by rw [Nat.add_mul, Nat.one_mul]
      have hle : P.limit ≤ j * P.limit := Nat.le_mul_of_pos_left _ hj
      apply hsep (j + 1) c d (Nat.succ_pos j)
      · rw [hmul, hshift _ (by omega), show j * P.limit + P.limit - 1 - P.limit =
          j * P.limit - 1 by omega]
        exact hc
      · rw [hmul, hshift _ (by omega), Nat.add_sub_cancel]
        exact hd
  · rintro ⟨hread, hab, hread', hsep⟩
    refine ⟨fun r hr => (List.mem_append.mp hr).elim (hread r) (hread' r), ?_⟩
    intro j c d hj hc hd
    obtain ⟨j, rfl⟩ : ∃ i, j = i + 1 := ⟨j - 1, by omega⟩
    have hmul : (j + 1) * P.limit = j * P.limit + P.limit := by rw [Nat.add_mul, Nat.one_mul]
    rw [hmul, hshift _ (by omega), Nat.add_sub_cancel] at hd
    cases j with
    | zero =>
      rw [Nat.zero_add, Nat.one_mul, List.getElem?_append_left (by omega), hlast] at hc
      rw [Nat.zero_mul] at hd
      obtain rfl := Option.some.inj hc
      obtain rfl := Option.some.inj hd
      exact hab
    | succ j =>
      have hle : P.limit ≤ (j + 1) * P.limit := Nat.le_mul_of_pos_left _ (Nat.succ_pos j)
      rw [hmul, hshift _ (by omega), show (j + 1) * P.limit + P.limit - 1 - P.limit =
        (j + 1) * P.limit - 1 by omega] at hc
      exact hsep (j + 1) c d (Nat.succ_pos j) hc hd

/-- Rows that fit one page have no boundary. -/
theorem traversable_of_length_le {l : List α} (hlen : l.length ≤ P.limit) :
    P.Traversable l ↔ ∀ a ∈ l, P.readable a = true := by
  constructor
  · exact fun h => h.1
  · intro h
    refine ⟨h, ?_⟩
    intro j a b hj _ hb
    have hle : P.limit ≤ j * P.limit := Nat.le_mul_of_pos_left _ hj
    rw [List.getElem?_eq_none (by omega)] at hb
    cases hb

section Traversal

variable {rows : Nat → List α} {all : List α}

/-- The rows at every request are the first ones, after newer ones. -/
structure Growing (P : Paging α κ) (rows : Nat → List α) (all : List α) : Prop where
  newest : ∀ k, P.Newest (rows k)
  suffix : ∀ k, ∃ newer, rows k = newer ++ all

/-- A bound that separates two neighbours selects the rows from the second on. -/
theorem Growing.filter_below (h : P.Growing rows all) {pre init tail : List α} {a b : α} {c : κ}
    (hall : all = pre ++ (init ++ [a] ++ b :: tail)) (hb : P.key b < c) (ha : c ≤ P.key a)
    (k : Nat) : (rows k).filter (P.below (some c)) = b :: tail := by
  obtain ⟨newer, hrows⟩ := h.suffix k
  have hsorted := h.newest k
  have hsplit : rows k = (newer ++ pre ++ init ++ [a]) ++ b :: tail := by
    rw [hrows, hall]
    simp
  rw [hsplit] at hsorted ⊢
  rw [Newest, List.pairwise_append, List.pairwise_append] at hsorted
  obtain ⟨⟨-, -, hbefore⟩, hafter, -⟩ := hsorted
  apply Paging.filter_below
  · intro r hr
    rcases List.mem_append.mp hr with hr | hr
    · exact ha.trans (hbefore r hr a List.mem_cons_self).le
    · obtain rfl := List.mem_singleton.mp hr
      exact ha
  · intro r hr
    rcases List.mem_cons.mp hr with rfl | hr
    · exact hb
    · exact ((List.pairwise_cons.mp hafter).1 r hr).trans hb

/-- When the row after a page is the first one found next, the bound separates the two. -/
theorem Growing.separates (h : P.Growing rows all) {pre init tail found : List α} {a b : α} {c : κ}
    {k : Nat} (hall : all = pre ++ (init ++ [a] ++ b :: tail)) (hc : P.cursor a = some c)
    (hfound : (rows k).filter (P.below (some c)) = b :: found) : P.Separates a b := by
  obtain ⟨newer, hrows⟩ := h.suffix k
  have hsorted := (h.newest k).filter (P.below (some c))
  rw [hfound] at hsorted
  have hb : b ∈ (rows k).filter (P.below (some c)) := by
    rw [hfound]
    exact List.mem_cons_self
  have hkey := (List.mem_filter.mp hb).2
  refine ⟨c, hc, by simpa [below] using hkey, ?_⟩
  by_contra hlt
  -- otherwise `a` itself is found again, before `b`
  have ha : a ∈ (rows k).filter (P.below (some c)) := by
    rw [List.mem_filter, hrows, hall]
    refine ⟨by simp, ?_⟩
    simpa [below] using hlt
  have hab : P.key b < P.key a := by
    have hsplit : rows k = (newer ++ pre ++ init ++ [a]) ++ b :: tail := by
      rw [hrows, hall]
      simp
    have hrk := h.newest k
    rw [hsplit, Newest, List.pairwise_append] at hrk
    exact hrk.2.2 a (by simp) b List.mem_cons_self
  rw [hfound] at ha
  rcases List.mem_cons.mp ha with rfl | ha
  · exact lt_irrefl _ hab
  · exact lt_asymm hab ((List.pairwise_cons.mp hsorted).1 a ha)

/-- The traversal from a request that finds the last rows `rest`. -/
theorem Growing.follow_flatten_iff (h : P.Growing rows all) (hpos : 0 < P.limit) (n : Nat) :
    ∀ rest pre k bound, rest.length = n → all = pre ++ rest →
      (rows k).filter (P.below bound) = rest →
        ((∃ fuel pages, P.follow rows fuel k bound = some pages ∧ pages.flatten = rest) ↔
          P.Traversable rest) := by
  induction n using Nat.strongRecOn with
  | ind n ih =>
    intro rest pre k bound hn hall hfound
    by_cases hlen : rest.length ≤ P.limit
    · -- one page
      rw [traversable_of_length_le hlen]
      constructor
      · rintro ⟨fuel, pages, hf, -⟩
        cases fuel with
        | zero => cases hf
        | succ fuel => exact ((follow_eq_some_of_length_le hfound hlen).mp hf).1
      · intro hread
        exact ⟨1, [rest], (follow_eq_some_of_length_le hfound hlen).mpr ⟨hread, rfl⟩, by simp⟩
    · -- a page, and rows after it
      obtain ⟨init, a, b, tail, rfl, hpage⟩ := exists_page hpos (Nat.not_le.mp hlen)
      have hlt : (b :: tail).length < n := by
        rw [← hn, List.length_append, hpage]
        omega
      have hall' : all = (pre ++ (init ++ [a])) ++ b :: tail := by
        rw [hall]
        simp
      rw [traversable_append hpage]
      constructor
      · rintro ⟨fuel, pages, hf, hflat⟩
        cases fuel with
        | zero => cases hf
        | succ fuel =>
          obtain ⟨hread, c, hc, more, hmore, rfl⟩ :=
            (follow_eq_some_of_page hfound hpage).mp hf
          rw [List.flatten_cons] at hflat
          have hrest := List.append_cancel_left hflat
          -- the next page begins with `b`, so its bound has passed `a`
          obtain ⟨found, hb⟩ := exists_filter_eq_cons hpos hmore hrest
          obtain ⟨c', hc', hbc, hca⟩ := h.separates hall hc hb
          obtain rfl := Option.some.inj (hc.symm.trans hc')
          refine ⟨hread, ⟨c, hc, hbc, hca⟩, ?_⟩
          exact (ih _ hlt _ _ (k + 1) (some c) rfl hall' (h.filter_below hall hbc hca (k + 1))).mp
            ⟨fuel, more, hmore, hrest⟩
      · rintro ⟨hread, ⟨c, hc, hbc, hca⟩, htail⟩
        obtain ⟨fuel, more, hmore, hrest⟩ := (ih _ hlt _ _ (k + 1) (some c) rfl hall'
          (h.filter_below hall hbc hca (k + 1))).mpr htail
        refine ⟨fuel + 1, (init ++ [a]) :: more, ?_, by rw [List.flatten_cons, hrest]⟩
        exact (follow_eq_some_of_page hfound hpage).mpr ⟨hread, c, hc, more, hmore, rfl⟩

/-- **Paging is complete** exactly when the rows are traversable. -/
theorem follow_flatten_iff (h : P.Growing rows all) (hpos : 0 < P.limit) (hall : rows 0 = all) :
    (∃ fuel pages, P.follow rows fuel 0 none = some pages ∧ pages.flatten = all) ↔
      P.Traversable all := by
  have hfound : (rows 0).filter (P.below none) = all := by
    rw [hall, List.filter_eq_self]
    intro a _
    rfl
  exact h.follow_flatten_iff hpos all.length all [] 0 none rfl rfl hfound

end Traversal

end Paging

/-! ## One page -/

/-- `page` is the `n` rows of `rows` with the greatest keys, all of them if there are fewer, in
increasing order. -/
structure Greatest (f : α → κ) (rows page : List α) (n : Nat) : Prop where
  sorted : page.Pairwise fun a b => f a < f b
  mem : ∀ a ∈ page, a ∈ rows
  length : page.length = min n rows.length
  greatest : ∀ a ∈ page, ∀ b ∈ rows, b ∉ page → f b < f a

variable {f : α → κ} {rows page : List α} {n : Nat}

/-- The first of the rows, newest first, are those with the greatest keys. -/
theorem greatest_reverse_take (h : rows.Pairwise fun a b => f b < f a) (n : Nat) :
    Greatest f rows (rows.take n).reverse n where
  sorted := List.pairwise_reverse.mpr (h.sublist (List.take_sublist n rows))
  mem a ha := List.mem_of_mem_take (List.mem_reverse.mp ha)
  length := by rw [List.length_reverse, List.length_take]
  greatest := by
    intro a ha b hb hnot
    rw [List.mem_reverse] at ha hnot
    -- `b` is among the rows after the page
    rw [← List.take_append_drop n rows, List.mem_append, or_iff_right hnot] at hb
    rw [← List.take_append_drop n rows, List.pairwise_append] at h
    exact h.2.2 a ha b hb

/-- Rows in any other order have the same greatest ones. -/
theorem Greatest.of_perm {rows' : List α} (h : Greatest f rows page n) (hperm : rows.Perm rows') :
    Greatest f rows' page n where
  sorted := h.sorted
  mem a ha := hperm.mem_iff.mp (h.mem a ha)
  length := by rw [h.length, hperm.length_eq]
  greatest a ha b hb hnot := h.greatest a ha b (hperm.mem_iff.mpr hb) hnot

theorem Greatest.nodup (h : Greatest f rows page n) : page.Nodup :=
  h.sorted.imp fun hlt => ne_of_apply_ne f (ne_of_lt hlt)

/-- Rows without repetition fill a list that is no longer. -/
theorem subset_of_length_le {l s : List α} (hl : l.Nodup) (hsub : l ⊆ s)
    (hlen : s.length ≤ l.length) : s ⊆ l := fun _ ha =>
  ((List.subperm_of_subset hl hsub).perm_of_length_le hlen).mem_iff.mpr ha

theorem Greatest.subset {page' : List α} (h : Greatest f rows page n)
    (h' : Greatest f rows page' n) : page ⊆ page' := by
  intro a ha
  by_contra hnot
  -- a row of the one page alone leaves room for a row of the other alone
  obtain ⟨b, hb, hbpage⟩ : ∃ b ∈ page', b ∉ page := by
    by_contra hall
    push Not at hall
    exact hnot (subset_of_length_le h'.nodup hall (by rw [h.length, h'.length]) ha)
  exact lt_asymm (h.greatest a ha b (h'.mem b hb) hbpage)
    (h'.greatest b hb a (h.mem a ha) hnot)

/-- **There is one such page.** -/
theorem Greatest.unique {page' : List α} (h : Greatest f rows page n)
    (h' : Greatest f rows page' n) : page = page' := by
  have hperm : page.Perm page' := (List.perm_ext_iff_of_nodup h.nodup h'.nodup).mpr fun _ =>
    ⟨fun ha => h.subset h' ha, fun ha => h'.subset h ha⟩
  exact hperm.eq_of_pairwise (fun a b _ _ hab hba => absurd hab (lt_asymm hba)) h.sorted h'.sorted

/-- There is a row below the whole page exactly when there are more rows than it holds. -/
theorem Greatest.exists_lt_iff (h : Greatest f rows page n) (hnodup : rows.Nodup) :
    (∃ b ∈ rows, ∀ a ∈ page, f b < f a) ↔ n < rows.length := by
  constructor
  · rintro ⟨b, hb, hlt⟩
    have hnot : b ∉ page := fun hmem => lt_irrefl _ (hlt b hmem)
    by_contra hle
    apply hnot
    apply subset_of_length_le h.nodup h.mem _ hb
    rw [h.length]
    omega
  · intro hlt
    obtain ⟨b, hb, hnot⟩ : ∃ b ∈ rows, b ∉ page := by
      by_contra hall
      push Not at hall
      have hle := (List.subperm_of_subset hnodup hall).length_le
      rw [h.length] at hle
      omega
    exact ⟨b, hb, fun a ha => h.greatest a ha b hb hnot⟩

end Library
