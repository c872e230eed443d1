import MernChat.Library.Table
import Mathlib.Data.List.DropRight

/-!
# Lists filled by arrivals

A list collects values that arrive one by one or in batches, each value once. A batch is
followed by a stable sort by rank, a single value goes to the end of the list. What a pair of
values ends up as depends on two things alone: which of them arrived first, and whether a batch
came when both were there.

## Main definitions

* `upsert`, `insertNew`: a value replaces the one with its key, or is dropped if there is one
* `display rank ds`: the list after the deliveries `ds`
* `arrivals ds`, `settled ds`: the values in the order of their arrival, and those that arrived
  up to the last batch
* `EndsBefore rank ds x y`: `x` ends before `y`, read off the deliveries

## Main results

* `map_key_upsert`, `map_key_insertNew`: both insertions act alike on the keys
* `pair_display_iff`: the order of two values in the list
* `display_eq_sortBy_iff`: when the list is in a given order
-/

namespace Library

variable {α κ : Type}

/-! ## Two insertions -/

section Insert

variable [DecidableEq κ] (key : α → κ)

/-- A value takes the place of the one with its key; a new key goes to the end. -/
def upsert : List α → α → List α
  | [], x => [x]
  | y :: l, x => if key y = key x then x :: l else y :: upsert l x

/-- A value whose key is there is dropped; a new key goes to the end. -/
def insertNew (l : List α) (x : α) : List α :=
  if l.any fun y => key y == key x then l else l ++ [x]

theorem any_key_iff {l : List α} {k : κ} : (l.any fun y => key y == k) = true ↔ k ∈ l.map key := by
  simp [List.any_eq_true]

theorem insertNew_of_mem {l : List α} {x : α} (h : key x ∈ l.map key) : insertNew key l x = l :=
  if_pos ((any_key_iff key).mpr h)

theorem insertNew_of_not_mem {l : List α} {x : α} (h : key x ∉ l.map key) :
    insertNew key l x = l ++ [x] :=
  if_neg fun hany => h ((any_key_iff key).mp hany)

theorem map_key_insertNew (l : List α) (x : α) :
    (insertNew key l x).map key = insertNew id (l.map key) (key x) := by
  by_cases h : key x ∈ l.map key
  · rw [insertNew_of_mem key h, insertNew_of_mem id (by simpa using h)]
  · rw [insertNew_of_not_mem key h, insertNew_of_not_mem id (by simpa using h), List.map_append]
    rfl

/-- **Replacing and dropping act alike on the keys.** -/
theorem map_key_upsert (l : List α) (x : α) :
    (upsert key l x).map key = insertNew id (l.map key) (key x) := by
  induction l with
  | nil => rfl
  | cons y l ih =>
    rw [upsert]
    split_ifs with hy
    · -- the key stands here, and does not change
      rw [insertNew_of_mem id (by simp [hy]), List.map_cons, List.map_cons, hy]
    · rw [List.map_cons, ih, List.map_cons]
      by_cases h : key x ∈ l.map key
      · rw [insertNew_of_mem id (by simpa using h), insertNew_of_mem id (by simpa using Or.inr h)]
      · have hx : key x ∉ key y :: l.map key := by simpa [Ne.symm hy] using h
        rw [insertNew_of_not_mem id (by simpa using h), insertNew_of_not_mem id (by simpa using hx)]
        rfl

theorem map_key_foldl_upsert (xs l : List α) :
    (xs.foldl (upsert key) l).map key = (xs.map key).foldl (insertNew id) (l.map key) := by
  induction xs generalizing l with
  | nil => rfl
  | cons x xs ih => rw [List.foldl_cons, ih, map_key_upsert, List.map_cons, List.foldl_cons]

theorem mem_of_mem_upsert {l : List α} {x y : α} (h : y ∈ upsert key l x) : y ∈ l ∨ y = x := by
  induction l with
  | nil => exact Or.inr (List.mem_singleton.mp h)
  | cons z l ih =>
    rw [upsert] at h
    split_ifs at h
    · rcases List.mem_cons.mp h with rfl | h
      · exact Or.inr rfl
      · exact Or.inl (List.mem_cons_of_mem z h)
    · rcases List.mem_cons.mp h with rfl | h
      · exact Or.inl List.mem_cons_self
      · exact (ih h).imp_left (List.mem_cons_of_mem z)

theorem mem_of_mem_foldl_upsert {xs l : List α} {y : α} (h : y ∈ xs.foldl (upsert key) l) :
    y ∈ l ∨ y ∈ xs := by
  induction xs generalizing l with
  | nil => exact Or.inl h
  | cons x xs ih =>
    rcases ih h with h | h
    · rcases mem_of_mem_upsert key h with h | rfl
      · exact Or.inl h
      · exact Or.inr List.mem_cons_self
    · exact Or.inr (List.mem_cons_of_mem x h)

end Insert

section Values

variable [DecidableEq α]

@[simp] theorem mem_insertNew {l : List α} {x y : α} : y ∈ insertNew id l x ↔ y ∈ l ∨ y = x := by
  by_cases h : x ∈ l
  · rw [insertNew_of_mem id (by simpa using h)]
    exact ⟨Or.inl, fun hy => hy.elim (fun hy => hy) fun hy => hy ▸ h⟩
  · rw [insertNew_of_not_mem id (by simpa using h)]
    simp

theorem nodup_insertNew {l : List α} (hl : l.Nodup) (x : α) : (insertNew id l x).Nodup := by
  by_cases h : x ∈ l
  · rwa [insertNew_of_mem id (by simpa using h)]
  · rw [insertNew_of_not_mem id (by simpa using h)]
    exact List.nodup_append.mpr ⟨hl, List.nodup_singleton x, fun a ha b hb hab =>
      h (List.mem_singleton.mp hb ▸ hab ▸ ha)⟩

@[simp] theorem mem_foldl_insertNew {xs l : List α} {y : α} :
    y ∈ xs.foldl (insertNew id) l ↔ y ∈ l ∨ y ∈ xs := by
  induction xs generalizing l with
  | nil => simp
  | cons x xs ih => rw [List.foldl_cons, ih, mem_insertNew, List.mem_cons, or_assoc]

theorem nodup_foldl_insertNew {l : List α} (hl : l.Nodup) (xs : List α) :
    (xs.foldl (insertNew id) l).Nodup := by
  induction xs generalizing l with
  | nil => exact hl
  | cons x xs ih => exact ih (nodup_insertNew hl x)

/-- Lists with the same values are extended by the same new ones. -/
theorem exists_foldl_insertNew {l m : List α} (h : ∀ y, y ∈ l ↔ y ∈ m) (xs : List α) :
    ∃ new, xs.foldl (insertNew id) l = l ++ new ∧ xs.foldl (insertNew id) m = m ++ new := by
  induction xs generalizing l m with
  | nil => exact ⟨[], by simp, by simp⟩
  | cons x xs ih =>
    by_cases hx : x ∈ l
    · obtain ⟨new, hl, hm⟩ := ih h
      refine ⟨new, ?_, ?_⟩
      · rwa [List.foldl_cons, insertNew_of_mem id (by simpa using hx)]
      · rwa [List.foldl_cons, insertNew_of_mem id (by simpa using (h x).mp hx)]
    · have hxm : x ∉ m := fun hm => hx ((h x).mpr hm)
      -- the value is new in both, and goes to the end of both
      obtain ⟨new, hl, hm⟩ := ih (l := l ++ [x]) (m := m ++ [x]) (by simp [h])
      refine ⟨x :: new, ?_, ?_⟩
      · rw [List.foldl_cons, insertNew_of_not_mem id (by simpa using hx), hl]
        simp
      · rw [List.foldl_cons, insertNew_of_not_mem id (by simpa using hxm), hm]
        simp

theorem insertNew_cons (y : α) (l : List α) (x : α) :
    insertNew id (y :: l) x = if y = x then y :: l else y :: insertNew id l x := by
  by_cases hy : y = x
  · rw [insertNew_of_mem id (by simp [hy]), if_pos hy]
  · rw [if_neg hy]
    by_cases hx : x ∈ l
    · rw [insertNew_of_mem id (by simp [hx]), insertNew_of_mem id (by simpa using hx)]
    · have hyx : x ∉ y :: l := by simpa [Ne.symm hy] using hx
      rw [insertNew_of_not_mem id (by simpa using hyx), insertNew_of_not_mem id (by simpa using hx)]
      rfl

/-- A list of distinct values arrives as it is. -/
theorem foldl_insertNew_self {l : List α} (hl : l.Nodup) : l.foldl (insertNew id) [] = l := by
  induction l using List.reverseRecOn with
  | nil => rfl
  | append_singleton l x ih =>
    rw [List.nodup_append] at hl
    have hx : x ∉ l := fun h => hl.2.2 x h x (List.mem_singleton_self x) rfl
    rw [List.foldl_append, ih hl.1, List.foldl_cons, List.foldl_nil,
      insertNew_of_not_mem id (by simpa using hx)]

section Images

variable {β : Type} [DecidableEq κ] {f : α → β} {key : β → κ} {s : List α}

/-- Images whose keys tell the values apart are dropped when the values are. -/
theorem insertNew_map (hinj : ∀ x ∈ s, ∀ y ∈ s, key (f x) = key (f y) → x = y) {l : List α}
    (hl : ∀ y ∈ l, y ∈ s) {x : α} (hx : x ∈ s) :
    insertNew key (l.map f) (f x) = (insertNew id l x).map f := by
  have hmem : key (f x) ∈ (l.map f).map key ↔ x ∈ l := by
    rw [List.map_map, List.mem_map]
    constructor
    · rintro ⟨y, hy, hyx⟩
      exact hinj y (hl y hy) x hx hyx ▸ hy
    · exact fun h => ⟨x, h, rfl⟩
  by_cases h : x ∈ l
  · rw [insertNew_of_mem key (hmem.mpr h), insertNew_of_mem id (by simpa using h)]
  · rw [insertNew_of_not_mem key (fun hk => h (hmem.mp hk)),
      insertNew_of_not_mem id (by simpa using h), List.map_append]
    rfl

/-- Such an image replaces only itself. -/
theorem upsert_map (hinj : ∀ x ∈ s, ∀ y ∈ s, key (f x) = key (f y) → x = y) {l : List α}
    (hl : ∀ y ∈ l, y ∈ s) {x : α} (hx : x ∈ s) :
    upsert key (l.map f) (f x) = (insertNew id l x).map f := by
  induction l with
  | nil => rfl
  | cons y l ih =>
    rw [List.forall_mem_cons] at hl
    rw [List.map_cons, upsert, insertNew_cons]
    by_cases hy : y = x
    · -- the image that stands here is the one that comes
      rw [if_pos (by rw [hy]), if_pos hy, hy]
      rfl
    · rw [if_neg (fun h => hy (hinj y hl.1 x hx h)), if_neg hy, ih hl.2]
      rfl

theorem foldl_upsert_map (hinj : ∀ x ∈ s, ∀ y ∈ s, key (f x) = key (f y) → x = y) {l xs : List α}
    (hl : ∀ y ∈ l, y ∈ s) (hxs : ∀ y ∈ xs, y ∈ s) :
    (xs.map f).foldl (upsert key) (l.map f) = (xs.foldl (insertNew id) l).map f := by
  induction xs generalizing l with
  | nil => rfl
  | cons x xs ih =>
    rw [List.forall_mem_cons] at hxs
    rw [List.map_cons, List.foldl_cons, List.foldl_cons, upsert_map hinj hl hxs.1]
    apply ih _ hxs.2
    intro y hy
    rcases mem_insertNew.mp hy with hy | rfl
    · exact hl y hy
    · exact hxs.1

end Images

end Values

/-! ## Pairs in a list without repetitions -/

section Pairs

theorem pair_sublist_append_iff {l m : List α} {x y : α} :
    [x, y].Sublist (l ++ m) ↔ [x, y].Sublist l ∨ (x ∈ l ∧ y ∈ m) ∨ [x, y].Sublist m := by
  constructor
  · intro h
    obtain ⟨a, b, hab, ha, hb⟩ := List.sublist_append_iff.mp h
    -- the part of the pair that lies in `l` is empty, `x`, or the pair
    rcases a with _ | ⟨a₁, _ | ⟨a₂, a⟩⟩
    · rw [List.nil_append] at hab
      exact Or.inr (Or.inr (hab ▸ hb))
    · obtain ⟨rfl, rfl⟩ := List.cons.inj hab
      exact Or.inr (Or.inl ⟨List.singleton_sublist.mp ha, List.singleton_sublist.mp hb⟩)
    · simp only [List.cons_append, List.cons.injEq] at hab
      obtain ⟨rfl, rfl, hab⟩ := hab
      obtain ⟨rfl, rfl⟩ := List.append_eq_nil_iff.mp hab.symm
      exact Or.inl ha
  · rintro (h | ⟨hx, hy⟩ | h)
    · exact h.trans (List.sublist_append_left l m)
    · exact (List.singleton_sublist.mpr hx).append (List.singleton_sublist.mpr hy)
    · exact h.trans (List.sublist_append_right l m)

/-- A value at the end comes after those that are there. -/
theorem pair_sublist_concat_iff {l : List α} {x y z : α} :
    [x, y].Sublist (l ++ [z]) ↔ [x, y].Sublist l ∨ x ∈ l ∧ y = z := by
  have hno : ¬ [x, y].Sublist [z] := fun h => by simpa using h.length_le
  rw [pair_sublist_append_iff, List.mem_singleton]
  simp only [hno, or_false]

theorem pair_sublist_or {l : List α} {x y : α} (hx : x ∈ l) (hy : y ∈ l) (hne : x ≠ y) :
    [x, y].Sublist l ∨ [y, x].Sublist l := by
  induction l with
  | nil => cases hx
  | cons a l ih =>
    rcases List.mem_cons.mp hx with rfl | hxl
    · have hyl : y ∈ l := (List.mem_cons.mp hy).resolve_left (Ne.symm hne)
      exact Or.inl ((List.singleton_sublist.mpr hyl).cons_cons x)
    · rcases List.mem_cons.mp hy with rfl | hyl
      · exact Or.inr ((List.singleton_sublist.mpr hxl).cons_cons y)
      · exact (ih hxl hyl).imp (List.Sublist.cons a) (List.Sublist.cons a)

theorem not_pair_sublist_self {l : List α} (hl : l.Nodup) (x : α) : ¬ [x, x].Sublist l :=
  fun h => by simpa using hl.sublist h

theorem pair_sublist_asymm {l : List α} (hl : l.Nodup) {x y : α} (h : [x, y].Sublist l) :
    ¬ [y, x].Sublist l := by
  induction l with
  | nil => cases h
  | cons a l ih =>
    intro h'
    rw [List.nodup_cons] at hl
    rcases List.cons_sublist_cons'.mp h with hxy | ⟨rfl, hy⟩
    · rcases List.cons_sublist_cons'.mp h' with hyx | ⟨rfl, -⟩
      · exact ih hl.2 hxy hyx
      · exact hl.1 (hxy.subset (by simp))
    · rcases List.cons_sublist_cons'.mp h' with hyx | ⟨rfl, hx⟩
      · exact hl.1 (hyx.subset (by simp))
      · exact hl.1 (List.singleton_sublist.mp hx)

/-- The strictly sorted lists are those that hold every pair in order. -/
theorem pairwise_iff_pairs [LinearOrder κ] {l : List α} (hl : l.Nodup) {key : α → κ}
    (hkey : ∀ x ∈ l, ∀ y ∈ l, key x = key y → x = y) :
    l.Pairwise (fun x y => key x < key y) ↔
      ∀ x ∈ l, ∀ y ∈ l, key x < key y → [x, y].Sublist l := by
  rw [List.pairwise_iff_forall_sublist]
  constructor
  · intro h x hx y hy hlt
    refine (pair_sublist_or hx hy (fun hxy => hlt.ne (by rw [hxy]))).resolve_right fun hyx => ?_
    exact lt_asymm hlt (h hyx)
  · intro h x y hxy
    have hx : x ∈ l := hxy.subset (by simp)
    have hy : y ∈ l := hxy.subset (by simp)
    rcases lt_trichotomy (key x) (key y) with hlt | heq | hgt
    · exact hlt
    · exact absurd (hkey x hx y hy heq ▸ hxy) (not_pair_sublist_self hl _)
    · exact absurd (h y hy x hx hgt) (pair_sublist_asymm hl hxy)

end Pairs

/-! ## Sorting by rank -/

section ByRank

variable [LinearOrder κ] (rank : α → κ)

/-- The stable sort by rank. -/
def sortByRank (l : List α) : List α := l.mergeSort fun x y => decide (rank x ≤ rank y)

variable {rank}

theorem perm_sortByRank (l : List α) : (sortByRank rank l).Perm l := List.mergeSort_perm l _

theorem pairwise_sortByRank (l : List α) :
    (sortByRank rank l).Pairwise fun x y => rank x ≤ rank y := by
  have h : (sortByRank rank l).Pairwise fun x y => decide (rank x ≤ rank y) = true :=
    List.pairwise_mergeSort (fun x y z => by simpa using le_trans)
      (fun x y => by simpa using le_total (rank x) (rank y)) l
  exact h.imp of_decide_eq_true

/-- **The sort is stable**, and orders the values of different ranks. -/
theorem pair_sortByRank_iff {l : List α} (hl : l.Nodup) {x y : α} (hx : x ∈ l) (hy : y ∈ l) :
    [x, y].Sublist (sortByRank rank l) ↔
      rank x < rank y ∨ rank x = rank y ∧ [x, y].Sublist l := by
  have hnodup : (sortByRank rank l).Nodup := (perm_sortByRank l).nodup_iff.mpr hl
  have hstable : ∀ {a b : α}, rank a ≤ rank b → [a, b].Sublist l →
      [a, b].Sublist (sortByRank rank l) := fun hab =>
    List.pair_sublist_mergeSort (fun x y z => by simpa using le_trans)
      (fun x y => by simpa using le_total (rank x) (rank y)) (by simpa using hab)
  have hle : ∀ {a b : α}, [a, b].Sublist (sortByRank rank l) → rank a ≤ rank b :=
    List.pairwise_iff_forall_sublist.mp (pairwise_sortByRank l)
  constructor
  · intro h
    rcases (hle h).lt_or_eq with hlt | heq
    · exact Or.inl hlt
    · have hne : x ≠ y := by
        rintro rfl
        exact not_pair_sublist_self hnodup x h
      refine Or.inr ⟨heq, (pair_sublist_or hx hy hne).resolve_right fun hyx => ?_⟩
      -- in the other order the sort would have kept them
      exact pair_sublist_asymm hnodup h (hstable heq.ge hyx)
  · rintro (hlt | ⟨heq, hxy⟩)
    · have hx' : x ∈ sortByRank rank l := (perm_sortByRank l).mem_iff.mpr hx
      have hy' : y ∈ sortByRank rank l := (perm_sortByRank l).mem_iff.mpr hy
      refine (pair_sublist_or hx' hy' (fun h => hlt.ne (by rw [h]))).resolve_right fun hyx => ?_
      exact (hle hyx).not_gt hlt
    · exact hstable heq.le hxy

end ByRank

/-! ## Deliveries -/

/-- What arrives: a batch, or one value. -/
inductive Delivery (α : Type) where
  | batch (xs : List α)
  | one (x : α)

namespace Delivery

def values : Delivery α → List α
  | batch xs => xs
  | one x => [x]

def isOne : Delivery α → Bool
  | batch _ => false
  | one _ => true

end Delivery

section Deliveries

variable [DecidableEq α] [LinearOrder κ] (rank : α → κ)

/-- A batch is followed by a sort; one value goes to the end. -/
def receive (l : List α) : Delivery α → List α
  | .batch xs => sortByRank rank (xs.foldl (insertNew id) l)
  | .one x => insertNew id l x

/-- The list after the deliveries. -/
def display (ds : List (Delivery α)) : List α := ds.foldl (receive rank) []

/-- The values, each where it first arrived. -/
def arrivals (ds : List (Delivery α)) : List α :=
  (ds.flatMap Delivery.values).foldl (insertNew id) []

/-- The values that arrived up to the last batch. -/
def settled (ds : List (Delivery α)) : List α :=
  (ds.rdropWhile Delivery.isOne).flatMap Delivery.values

/-- `x` ends before `y`: by rank where both were there at a batch, and as they arrived where
they were not, or have one rank. -/
def EndsBefore (ds : List (Delivery α)) (x y : α) : Prop :=
  if x ∈ settled ds ∧ y ∈ settled ds ∧ rank x ≠ rank y then rank x < rank y
  else [x, y].Sublist (arrivals ds)

instance (ds : List (Delivery α)) (x y : α) : Decidable (EndsBefore rank ds x y) := by
  unfold EndsBefore
  exact inferInstance

variable {rank}

theorem display_append_one (ds : List (Delivery α)) (x : α) :
    display rank (ds ++ [.one x]) = insertNew id (display rank ds) x := by
  simp [display, receive]

theorem display_append_batch (ds : List (Delivery α)) (xs : List α) :
    display rank (ds ++ [.batch xs]) =
      sortByRank rank (xs.foldl (insertNew id) (display rank ds)) := by
  simp [display, receive]

theorem arrivals_append (ds : List (Delivery α)) (d : Delivery α) :
    arrivals (ds ++ [d]) = d.values.foldl (insertNew id) (arrivals ds) := by
  simp [arrivals, List.foldl_append]

theorem mem_arrivals {ds : List (Delivery α)} {x : α} :
    x ∈ arrivals ds ↔ x ∈ ds.flatMap Delivery.values := by
  simp only [arrivals, mem_foldl_insertNew, List.not_mem_nil, false_or]

theorem nodup_arrivals (ds : List (Delivery α)) : (arrivals ds).Nodup :=
  nodup_foldl_insertNew List.nodup_nil _

omit [DecidableEq α] in
theorem settled_append_one (ds : List (Delivery α)) (x : α) :
    settled (ds ++ [.one x]) = settled ds := by
  rw [settled, List.rdropWhile_concat_pos _ _ _ rfl, settled]

theorem mem_settled_append_batch {ds : List (Delivery α)} {xs : List α} {x : α} :
    x ∈ settled (ds ++ [.batch xs]) ↔ x ∈ arrivals (ds ++ [.batch xs]) := by
  rw [settled, List.rdropWhile_concat_neg _ _ _ (by simp [Delivery.isOne]), mem_arrivals]

theorem arrivals_of_settled {ds : List (Delivery α)} {x : α} (h : x ∈ settled ds) :
    x ∈ arrivals ds := by
  obtain ⟨d, hd, hx⟩ := List.mem_flatMap.mp h
  exact mem_arrivals.mpr (List.mem_flatMap.mpr ⟨d, (List.rdropWhile_prefix _ _).subset hd, hx⟩)

/-- The list holds what arrived, each value once. -/
theorem perm_display (ds : List (Delivery α)) : (display rank ds).Perm (arrivals ds) := by
  induction ds using List.reverseRecOn with
  | nil => exact List.Perm.refl _
  | append_singleton ds d ih =>
    -- both hold the same values, and so get the same new ones
    obtain ⟨new, hl, hm⟩ := exists_foldl_insertNew (fun y => ih.mem_iff (a := y)) d.values
    have hins : (d.values.foldl (insertNew id) (display rank ds)).Perm (arrivals (ds ++ [d])) := by
      rw [arrivals_append, hl, hm]
      exact ih.append_right new
    cases d with
    | one x =>
      rw [display_append_one]
      exact hins
    | batch xs =>
      rw [display_append_batch]
      exact (perm_sortByRank _).trans hins

theorem nodup_display (ds : List (Delivery α)) : (display rank ds).Nodup :=
  (perm_display ds).nodup_iff.mpr (nodup_arrivals ds)

theorem EndsBefore.mem {ds : List (Delivery α)} {x y : α} (h : EndsBefore rank ds x y) :
    x ∈ arrivals ds ∧ y ∈ arrivals ds := by
  unfold EndsBefore at h
  split_ifs at h with hs
  · exact ⟨arrivals_of_settled hs.1, arrivals_of_settled hs.2.1⟩
  · exact ⟨h.subset (by simp), h.subset (by simp)⟩

/-- One value more changes the pairs it is part of: it comes last. -/
theorem endsBefore_append_one {ds : List (Delivery α)} {x y z : α} (hz : z ∉ arrivals ds) :
    EndsBefore rank (ds ++ [.one z]) x y ↔
      EndsBefore rank ds x y ∨ x ∈ arrivals ds ∧ y = z := by
  have harr : arrivals (ds ++ [.one z]) = arrivals ds ++ [z] := by
    rw [arrivals_append]
    exact insertNew_of_not_mem id (by simpa using hz)
  unfold EndsBefore
  rw [settled_append_one, harr, pair_sublist_concat_iff]
  split_ifs with hs
  · -- the new value is not of those that a batch has sorted
    refine (or_iff_left ?_).symm
    rintro ⟨-, rfl⟩
    exact hz (arrivals_of_settled hs.2.1)
  · exact Iff.rfl

/-- A value that is there changes nothing. -/
theorem endsBefore_append_one_of_mem {ds : List (Delivery α)} {x y z : α} (hz : z ∈ arrivals ds) :
    EndsBefore rank (ds ++ [.one z]) x y ↔ EndsBefore rank ds x y := by
  have harr : arrivals (ds ++ [.one z]) = arrivals ds := by
    rw [arrivals_append]
    exact insertNew_of_mem id (by simpa using hz)
  unfold EndsBefore
  rw [settled_append_one, harr]

/-- **The order of two values in the list**, read off the deliveries. -/
theorem pair_display_iff (ds : List (Delivery α)) (x y : α) :
    [x, y].Sublist (display rank ds) ↔ EndsBefore rank ds x y := by
  induction ds using List.reverseRecOn with
  | nil =>
    have hno : ∀ l : List α, l = [] → ¬ [x, y].Sublist l := by
      rintro l rfl h
      cases h
    exact iff_of_false (hno _ rfl) fun h => by simpa [arrivals] using h.mem.1
  -- induction on the deliveries, from the last one back
  | append_singleton ds d ih =>
    have hmem : ∀ z, z ∈ display rank ds ↔ z ∈ arrivals ds := fun z => (perm_display ds).mem_iff
    cases d with
    | one z =>
      rw [display_append_one]
      by_cases hz : z ∈ arrivals ds
      · rw [insertNew_of_mem id (by simpa [hmem] using hz), ih, endsBefore_append_one_of_mem hz]
      · rw [insertNew_of_not_mem id (by simpa [hmem] using hz), pair_sublist_concat_iff, ih,
          endsBefore_append_one hz, hmem]
    | batch zs =>
      rw [display_append_batch]
      -- the list and the arrivals get the same new values
      obtain ⟨new, hl, hm⟩ := exists_foldl_insertNew hmem zs
      have hnodup : (zs.foldl (insertNew id) (display rank ds)).Nodup :=
        nodup_foldl_insertNew (nodup_display ds) zs
      have hperm : ∀ z, z ∈ zs.foldl (insertNew id) (display rank ds) ↔
          z ∈ arrivals (ds ++ [.batch zs]) := by
        intro z
        rw [arrivals_append, mem_foldl_insertNew, hmem]
        exact mem_foldl_insertNew.symm
      by_cases hxy : x ∈ arrivals (ds ++ [.batch zs]) ∧ y ∈ arrivals (ds ++ [.batch zs])
      · rw [pair_sortByRank_iff hnodup ((hperm x).mpr hxy.1) ((hperm y).mpr hxy.2)]
        simp only [EndsBefore, mem_settled_append_batch]
        by_cases hr : rank x = rank y
        · -- among equal ranks the list keeps the order of arrival
          have hold : [x, y].Sublist (display rank ds) ↔ [x, y].Sublist (arrivals ds) := by
            rw [ih, EndsBefore, if_neg (fun h => h.2.2 hr)]
          rw [if_neg (fun h => h.2.2 hr), hl, arrivals_append]
          simp only [hr, lt_irrefl, false_or, true_and]
          show _ ↔ [x, y].Sublist (zs.foldl (insertNew id) (arrivals ds))
          rw [hm, pair_sublist_append_iff, pair_sublist_append_iff, hold, hmem]
        · rw [if_pos ⟨hxy.1, hxy.2, hr⟩]
          simp only [hr, false_and, or_false]
      · -- a value that has not arrived is nowhere
        refine iff_of_false (fun h => hxy ?_) fun h => hxy h.mem
        have hmem' : ∀ z, z ∈ sortByRank rank (zs.foldl (insertNew id) (display rank ds)) →
            z ∈ arrivals (ds ++ [.batch zs]) := fun z hz =>
          (hperm z).mp ((perm_sortByRank _).mem_iff.mp hz)
        exact ⟨hmem' x (h.subset (by simp)), hmem' y (h.subset (by simp))⟩

/-- **When the list is in the order of a key**: every pair in that order ends in it. -/
theorem display_eq_sortBy_iff {ι : Type} [LinearOrder ι] {key : α → ι} {ds : List (Delivery α)}
    (hkey : ∀ x ∈ arrivals ds, ∀ y ∈ arrivals ds, key x = key y → x = y) :
    display rank ds = sortBy key (arrivals ds) ↔
      ∀ x ∈ arrivals ds, ∀ y ∈ arrivals ds, key x < key y → EndsBefore rank ds x y := by
  have hmem : ∀ z, z ∈ display rank ds ↔ z ∈ arrivals ds := fun z => (perm_display ds).mem_iff
  have hpairs : (display rank ds).Pairwise (fun x y => key x < key y) ↔
      ∀ x ∈ display rank ds, ∀ y ∈ display rank ds, key x < key y →
        [x, y].Sublist (display rank ds) := by
    apply pairwise_iff_pairs (nodup_display ds)
    simpa only [hmem] using hkey
  simp only [hmem, pair_display_iff] at hpairs
  rw [← hpairs]
  constructor
  · intro h
    rw [h]
    apply pairwise_lt_sortBy
    exact List.Nodup.map_on hkey (nodup_arrivals ds)
  · intro h
    exact eq_sortBy h (perm_display ds)

end Deliveries

end Library
