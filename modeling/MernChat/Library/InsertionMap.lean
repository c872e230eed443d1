import Mathlib.Data.List.Sort
import Mathlib.Data.List.Nodup
import Mathlib.Tactic.SplitIfs

/-!
# Maps in the order of insertion

A map is the list of its entries in the order in which their keys were first set; no key stands in
it twice. Its entries can be sorted by a comparison of keys that need be an order only on keys of a
kind.

## Main definitions

* `InsertionMap`, `get`, `set`, `map`: maps, and what is done with them
* `sortEntries`: the entries in the order of their keys

## Main results

* `get_set`, `get_map`: what is found after an update
* `sortEntries_eq_iff`: sorted entries are the same exactly when the entries are
-/

namespace Library

/-- The entries, in the order in which their keys were first set. -/
structure InsertionMap (κ β : Type) where
  entries : List (κ × β)
  nodup : (entries.map Prod.fst).Nodup

namespace InsertionMap

variable {κ β γ : Type}

def empty : InsertionMap κ β := ⟨[], List.nodup_nil⟩

def keys (m : InsertionMap κ β) : List κ := m.entries.map Prod.fst

def values (m : InsertionMap κ β) : List β := m.entries.map Prod.snd

/-- The same keys with other values. -/
def map (m : InsertionMap κ β) (f : β → γ) : InsertionMap κ γ where
  entries := m.entries.map fun e => (e.1, f e.2)
  nodup := by
    rw [List.map_map]
    exact m.nodup

theorem mem_values {m : InsertionMap κ β} {b : β} : b ∈ m.values ↔ ∃ k, (k, b) ∈ m.entries := by
  rw [values, List.mem_map]
  constructor
  · rintro ⟨⟨k, b⟩, he, rfl⟩
    exact ⟨k, he⟩
  · rintro ⟨k, he⟩
    exact ⟨(k, b), he, rfl⟩

/-! ## The entries in the order of their keys -/

section Sorting

variable (le : κ → κ → Prop) [DecidableRel le]

/-- The entries sorted by a comparison of keys. -/
def sortEntries (m : InsertionMap κ β) : List (κ × β) :=
  m.entries.insertionSort fun e f => le e.1 f.1

/-- The comparison is a total order on the keys of a kind. -/
structure OrderOn (P : κ → Prop) : Prop where
  total : ∀ {a b}, P a → P b → le a b ∨ le b a
  trans : ∀ {a b c}, P a → P b → P c → le a b → le b c → le a c
  antisymm : ∀ {a b}, P a → P b → le a b → le b a → a = b

variable {le} {P : κ → Prop} {m m' : InsertionMap κ β}

theorem perm_sortEntries (m : InsertionMap κ β) : (m.sortEntries le).Perm m.entries :=
  List.perm_insertionSort _ _

theorem mem_sortEntries {e : κ × β} : e ∈ m.sortEntries le ↔ e ∈ m.entries :=
  (perm_sortEntries m).mem_iff

theorem pairwise_sortEntries (h : OrderOn le P) (hm : ∀ k ∈ m.keys, P k) :
    (m.sortEntries le).Pairwise fun e f => le e.1 f.1 := by
  -- the sort of the entries as members of the kind
  let s : {e : κ × β // P e.1} → {e : κ × β // P e.1} → Prop := fun e f => le e.1.1 f.1.1
  have : Std.Total s := ⟨fun e f => h.total e.2 f.2⟩
  have : IsTrans _ s := ⟨fun e f g => h.trans e.2 f.2 g.2⟩
  have hmem : ∀ e ∈ m.entries, P e.1 := fun e he => hm _ (List.mem_map_of_mem he)
  have hsorted := List.pairwise_insertionSort s (m.entries.attachWith _ hmem)
  have hmap := List.map_insertionSort (r := s) (s := fun e f : κ × β => le e.1 f.1) Subtype.val
    (m.entries.attachWith _ hmem) fun _ _ _ _ => Iff.rfl
  have hval : (m.entries.attachWith _ hmem).map Subtype.val = m.entries :=
    List.attachWith_map_subtype_val _
  rw [hval] at hmap
  rw [sortEntries, ← hmap]
  exact List.pairwise_map.mpr hsorted

/-- **Sorted entries are the same exactly when the entries are.** -/
theorem sortEntries_eq_iff (h : OrderOn le P) (hm : ∀ k ∈ m.keys, P k)
    (hm' : ∀ k ∈ m'.keys, P k) :
    m.sortEntries le = m'.sortEntries le ↔ m.entries.Perm m'.entries := by
  constructor
  · intro heq
    exact (perm_sortEntries m).symm.trans (heq ▸ perm_sortEntries m')
  · intro hperm
    refine List.Perm.eq_of_pairwise (fun e f he hf hef hfe => ?_) (pairwise_sortEntries h hm)
      (pairwise_sortEntries h hm') ((perm_sortEntries m).trans (hperm.trans
        (perm_sortEntries m').symm))
    rw [mem_sortEntries] at he hf
    have hf' := hperm.mem_iff.mpr hf
    have hkey := h.antisymm (hm _ (List.mem_map_of_mem he)) (hm _ (List.mem_map_of_mem hf')) hef hfe
    exact List.inj_on_of_nodup_map m.nodup he hf' hkey

end Sorting

/-! ## What is done with a map -/

variable [DecidableEq κ]

def get (m : InsertionMap κ β) (k : κ) : Option β :=
  (m.entries.find? fun e => decide (e.1 = k)).map Prod.snd

theorem map_fst_replace (entries : List (κ × β)) (k : κ) (b : β) :
    (entries.map fun e => if e.1 = k then (k, b) else e).map Prod.fst = entries.map Prod.fst := by
  rw [List.map_map]
  apply List.map_congr_left
  rintro ⟨k', b'⟩ -
  rw [Function.comp_apply]
  split_ifs with h
  · exact h.symm
  · rfl

/-- The value in the place of the one under its key, or at the end. -/
def set (m : InsertionMap κ β) (k : κ) (b : β) : InsertionMap κ β where
  entries :=
    if k ∈ m.keys then m.entries.map fun e => if e.1 = k then (k, b) else e
    else m.entries ++ [(k, b)]
  nodup := by
    split_ifs with hk
    · rw [map_fst_replace]
      exact m.nodup
    · rw [List.map_append, List.map_singleton, List.nodup_append]
      refine ⟨m.nodup, List.nodup_singleton _, ?_⟩
      rintro a ha b' hb' rfl
      rw [List.mem_singleton.mp hb'] at ha
      exact hk ha

@[simp] theorem get_empty (k : κ) : (empty : InsertionMap κ β).get k = none := rfl

/-- A key has one value. -/
theorem get_eq_some {m : InsertionMap κ β} {k : κ} {b : β} :
    m.get k = some b ↔ (k, b) ∈ m.entries := by
  rw [get, Option.map_eq_some_iff]
  constructor
  · rintro ⟨⟨k', b'⟩, hfind, rfl⟩
    obtain rfl : k' = k := of_decide_eq_true (List.find?_some hfind :)
    exact List.mem_of_find?_eq_some hfind
  · intro hmem
    cases hfind : m.entries.find? fun e => decide (e.1 = k) with
    | none => exact absurd (List.find?_eq_none.mp hfind _ hmem) (by simp)
    | some e =>
      have hkey : e.1 = k := of_decide_eq_true (List.find?_some hfind :)
      have hsame := List.inj_on_of_nodup_map m.nodup (List.mem_of_find?_eq_some hfind) hmem hkey
      exact ⟨e, rfl, by rw [hsame]⟩

theorem get_eq_none {m : InsertionMap κ β} {k : κ} : m.get k = none ↔ k ∉ m.keys := by
  rw [Option.eq_none_iff_forall_ne_some, keys, List.mem_map]
  constructor
  · rintro h ⟨⟨k', b⟩, he, rfl⟩
    exact h b (get_eq_some.mpr he)
  · intro h b hb
    exact h ⟨(k, b), get_eq_some.mp hb, rfl⟩

theorem isSome_get {m : InsertionMap κ β} {k : κ} : (m.get k).isSome = true ↔ k ∈ m.keys := by
  rw [← not_iff_not, Option.not_isSome_iff_eq_none, get_eq_none]

theorem mem_entries_set {m : InsertionMap κ β} {k : κ} {b : β} {e : κ × β} :
    e ∈ (m.set k b).entries ↔ e = (k, b) ∨ e ∈ m.entries ∧ e.1 ≠ k := by
  rw [set]
  split_ifs with hk
  · rw [List.mem_map]
    constructor
    · rintro ⟨e', he', rfl⟩
      split_ifs with h
      · exact Or.inl rfl
      · exact Or.inr ⟨he', h⟩
    · rintro (rfl | ⟨he, hne⟩)
      · obtain ⟨e', he', hkey⟩ := List.mem_map.mp hk
        exact ⟨e', he', if_pos hkey⟩
      · exact ⟨e, he, if_neg hne⟩
  · rw [List.mem_append, List.mem_singleton]
    constructor
    · rintro (he | rfl)
      · refine Or.inr ⟨he, ?_⟩
        rintro rfl
        exact hk (List.mem_map_of_mem he)
      · exact Or.inl rfl
    · rintro (rfl | ⟨he, -⟩)
      · exact Or.inr rfl
      · exact Or.inl he

/-- **What is found after an update.** -/
theorem get_set (m : InsertionMap κ β) (k k' : κ) (b : β) :
    (m.set k b).get k' = if k' = k then some b else m.get k' := by
  ext b'
  rw [get_eq_some, mem_entries_set]
  split_ifs with h
  · subst h
    simp [eq_comm]
  · simp [h, get_eq_some]

@[simp] theorem get_set_self (m : InsertionMap κ β) (k : κ) (b : β) :
    (m.set k b).get k = some b := by
  rw [get_set, if_pos rfl]

theorem get_set_eq_some {m : InsertionMap κ β} {k k' : κ} {b b' : β} :
    (m.set k b).get k' = some b' ↔ k' = k ∧ b = b' ∨ k' ≠ k ∧ m.get k' = some b' := by
  rw [get_set]
  split_ifs with h
  · simp [h]
  · simp [h]

/-- An update under a key that is there adds no key. -/
theorem isSome_get_set {m : InsertionMap κ β} {k : κ} (h : (m.get k).isSome = true) (b : β)
    (k' : κ) : ((m.set k b).get k').isSome = (m.get k').isSome := by
  rw [get_set]
  split_ifs with hk
  · rw [hk, h]
    rfl
  · rfl

@[simp] theorem get_map (m : InsertionMap κ β) (f : β → γ) (k : κ) :
    (m.map f).get k = (m.get k).map f := by
  ext c
  rw [get_eq_some, Option.map_eq_some_iff, map, List.mem_map]
  constructor
  · rintro ⟨⟨k', b⟩, he, heq⟩
    obtain ⟨rfl, rfl⟩ := Prod.mk.inj heq
    exact ⟨b, get_eq_some.mpr he, rfl⟩
  · rintro ⟨b, hb, rfl⟩
    exact ⟨(k, b), get_eq_some.mp hb, rfl⟩

theorem keys_set (m : InsertionMap κ β) (k : κ) (b : β) :
    (m.set k b).keys = if k ∈ m.keys then m.keys else m.keys ++ [k] := by
  rw [set, keys]
  split_ifs with hk
  · exact map_fst_replace m.entries k b
  · rw [List.map_append]
    rfl

theorem keys_set_of_isSome {m : InsertionMap κ β} {k : κ} (h : (m.get k).isSome = true) (b : β) :
    (m.set k b).keys = m.keys := by
  rw [keys_set, if_pos (isSome_get.mp h)]

theorem keys_set_of_none {m : InsertionMap κ β} {k : κ} (h : m.get k = none) (b : β) :
    (m.set k b).keys = m.keys ++ [k] := by
  rw [keys_set, if_neg (get_eq_none.mp h)]

omit [DecidableEq κ] in
@[simp] theorem keys_map (m : InsertionMap κ β) (f : β → γ) : (m.map f).keys = m.keys := by
  rw [map, keys, List.map_map]
  rfl

theorem entries_set_of_none {m : InsertionMap κ β} {k : κ} (h : m.get k = none) (b : β) :
    (m.set k b).entries = m.entries ++ [(k, b)] := by
  rw [set]
  exact if_neg (get_eq_none.mp h)

omit [DecidableEq κ] in
/-- An entry under a key of one map, in another with the same keys. -/
theorem exists_mem_entries {m : InsertionMap κ β} {m' : InsertionMap κ γ} (h : m.keys = m'.keys)
    {k : κ} {b : β} (hmem : (k, b) ∈ m.entries) : ∃ c, (k, c) ∈ m'.entries := by
  have hkey : k ∈ m'.keys := h ▸ List.mem_map_of_mem hmem
  obtain ⟨⟨k', c⟩, hc, rfl⟩ := List.mem_map.mp hkey
  exact ⟨c, hc⟩

/-- A loop over the entries is one over the keys. -/
theorem flatMap_entries {δ : Type} (m : InsertionMap κ β) (f : κ → Option β → List δ) :
    (m.entries.flatMap fun e => f e.1 (some e.2)) = m.keys.flatMap fun k => f k (m.get k) := by
  rw [keys, List.flatMap_map]
  refine List.flatMap_congr fun e he => ?_
  rw [get_eq_some.mpr he]

end InsertionMap

end Library
