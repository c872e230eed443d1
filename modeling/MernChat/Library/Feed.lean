import Mathlib.Data.Set.Insert
import Mathlib.Data.List.Perm.Lattice

/-!
# Views that are fed by events and by snapshots

A view shows what is published for it. Every item is emitted once, after it was published, and
arrives over a channel; an item is lost when it is emitted while the channel is closed, or when the
channel is closed before it arrives. Snapshots bring items as well, whatever has become of their
events. From time to time the view is opened anew.

## Main definitions

* `Feed α`: a view with the items on their way to it
* `Feed.Step`: the steps of a feed
* `Feed.Followed`: the invariant

## Main results

* `Feed.Followed.step`: every step keeps the invariant
* `Feed.Followed.shown_iff`: with nothing on its way, what is missing is what was lost and not
  brought by a snapshot
-/

namespace Library

variable {α : Type}

/-- A view with the items on their way to it. -/
@[ext] structure Feed (α : Type) where
  /-- Published, and not emitted yet. -/
  waiting : List α
  /-- Emitted, and not arrived yet, in order. -/
  channel : List α
  lost : List α
  /-- Published for the view since it was opened. -/
  since : List α
  /-- Brought by snapshots since the view was opened. -/
  brought : List α
  shown : Set α

namespace Feed

/-- The items whose events have not arrived. -/
def outstanding (f : Feed α) : List α := f.waiting ++ f.channel ++ f.lost

/-- The steps of a feed. -/
inductive Step (f : Feed α) : Feed α → Prop
  /-- An item is published, and not for the view. -/
  | publish {x} (hnew : x ∉ f.outstanding) (hsince : x ∉ f.since) :
    Step f { f with waiting := f.waiting ++ [x] }
  | publishForView {x} (hnew : x ∉ f.outstanding) (hshown : x ∉ f.shown) :
    Step f { f with
      waiting := f.waiting ++ [x]
      since := f.since ++ [x] }
  | emit {x waiting} (h : f.waiting.Perm (x :: waiting)) :
    Step f { f with
      waiting
      channel := f.channel ++ [x] }
  /-- The channel is closed. -/
  | emitLost {x waiting} (h : f.waiting.Perm (x :: waiting)) :
    Step f { f with
      waiting
      lost := f.lost ++ [x] }
  /-- The channel closes. -/
  | close : Step f { f with
      channel := []
      lost := f.lost ++ f.channel }
  | arrive {x channel} (h : f.channel = x :: channel) :
    Step f { f with
      channel
      shown := insert x f.shown }
  /-- The view has no use for the item. -/
  | ignore {x channel} (h : f.channel = x :: channel) (hsince : x ∉ f.since) :
    Step f { f with channel }
  /-- A snapshot. -/
  | bring (items : List α) : Step f { f with
      brought := f.brought ++ items
      shown := f.shown ∪ {x | x ∈ items} }
  /-- An item of the view's own. -/
  | add {x} (hsince : x ∉ f.since) : Step f { f with shown := insert x f.shown }
  /-- The view is opened anew. -/
  | reopen (shown : Set α) : Step f { f with
      since := []
      brought := []
      shown }

/-- **The invariant**: no event is emitted twice, the items published for the view are outstanding
or shown, and those that are both were brought by a snapshot. -/
structure Followed (f : Feed α) : Prop where
  nodup : f.outstanding.Nodup
  arrived : ∀ x ∈ f.since, x ∈ f.outstanding ∨ x ∈ f.shown
  brought : ∀ x ∈ f.brought, x ∈ f.shown
  early : ∀ x ∈ f.since, x ∈ f.outstanding → x ∈ f.shown → x ∈ f.brought

variable {f g : Feed α}

/-- Events move, and nothing else changes. -/
theorem Followed.move (h : f.Followed) (hperm : g.outstanding.Perm f.outstanding)
    (hsince : g.since = f.since) (hbrought : g.brought = f.brought) (hshown : g.shown = f.shown) :
    g.Followed := by
  constructor
  · exact hperm.nodup_iff.mpr h.nodup
  · intro x hx
    rw [hperm.mem_iff, hshown]
    exact h.arrived x (hsince ▸ hx)
  · rw [hbrought, hshown]
    exact h.brought
  · intro x hx hout hs
    rw [hbrought]
    exact h.early x (hsince ▸ hx) (hperm.mem_iff.mp hout) (hshown ▸ hs)

/-- A published item is outstanding. -/
theorem perm_outstanding_publish (f : Feed α) (x : α) :
    (f.waiting ++ [x] ++ f.channel ++ f.lost).Perm (x :: f.outstanding) := by
  rw [outstanding, List.append_assoc f.waiting, List.append_assoc, List.append_assoc f.waiting]
  exact List.perm_middle

/-- An event that arrives is outstanding no more. -/
theorem Followed.arrive (h : f.Followed) {x : α} {channel : List α}
    (hc : f.channel = x :: channel) :
    x ∉ f.waiting ++ channel ++ f.lost ∧ (f.waiting ++ channel ++ f.lost).Nodup ∧
      ∀ y, y ∈ f.outstanding ↔ y = x ∨ y ∈ f.waiting ++ channel ++ f.lost := by
  -- the event is taken out of the middle
  have hperm : f.outstanding.Perm (x :: (f.waiting ++ channel ++ f.lost)) := by
    rw [outstanding, hc, List.append_assoc, List.append_assoc]
    exact List.perm_middle
  have hnodup := hperm.nodup_iff.mp h.nodup
  refine ⟨(List.nodup_cons.mp hnodup).1, (List.nodup_cons.mp hnodup).2, fun y => ?_⟩
  rw [hperm.mem_iff, List.mem_cons]

/-- **Every step keeps the invariant.** -/
theorem Followed.step (h : f.Followed) (hstep : f.Step g) : g.Followed := by
  cases hstep with
  | @publish x hnew hsince =>
    -- the view does not wait for the new item
    have hperm := perm_outstanding_publish f x
    constructor
    · exact hperm.nodup_iff.mpr (List.nodup_cons.mpr ⟨hnew, h.nodup⟩)
    · intro y hy
      refine (h.arrived y hy).imp_left fun hout => ?_
      exact hperm.mem_iff.mpr (List.mem_cons_of_mem _ hout)
    · exact h.brought
    · intro y hy hout hs
      rcases List.mem_cons.mp (hperm.mem_iff.mp hout) with rfl | hout
      · exact absurd hy hsince
      · exact h.early y hy hout hs
  | @publishForView x hnew hshown =>
    have hperm := perm_outstanding_publish f x
    constructor
    · exact hperm.nodup_iff.mpr (List.nodup_cons.mpr ⟨hnew, h.nodup⟩)
    · intro y hy
      rcases List.mem_append.mp hy with hy | hy
      · refine (h.arrived y hy).imp_left fun hout => ?_
        exact hperm.mem_iff.mpr (List.mem_cons_of_mem _ hout)
      · rw [List.mem_singleton.mp hy]
        exact Or.inl (hperm.mem_iff.mpr List.mem_cons_self)
    · exact h.brought
    · -- the new item is not shown
      intro y hy hout hs
      rcases List.mem_append.mp hy with hy | hy
      · rcases List.mem_cons.mp (hperm.mem_iff.mp hout) with rfl | hout
        · exact absurd hs hshown
        · exact h.early y hy hout hs
      · rw [List.mem_singleton.mp hy] at hs
        exact absurd hs hshown
  | @emit x waiting hw =>
    -- the event goes from one list of outstanding items to another, as in the next two cases
    refine h.move ?_ rfl rfl rfl
    show (waiting ++ (f.channel ++ [x]) ++ f.lost).Perm (f.waiting ++ f.channel ++ f.lost)
    have hperm := hw.append_right f.channel
    refine List.Perm.append_right _ (List.Perm.trans ?_ hperm.symm)
    rw [← List.append_assoc]
    exact List.perm_append_singleton x _
  | @emitLost x waiting hw =>
    refine h.move ?_ rfl rfl rfl
    show (waiting ++ f.channel ++ (f.lost ++ [x])).Perm (f.waiting ++ f.channel ++ f.lost)
    have hperm := (hw.append_right f.channel).append_right f.lost
    refine List.Perm.trans ?_ hperm.symm
    rw [← List.append_assoc]
    exact List.perm_append_singleton x _
  | close =>
    refine h.move ?_ rfl rfl rfl
    show (f.waiting ++ [] ++ (f.lost ++ f.channel)).Perm (f.waiting ++ f.channel ++ f.lost)
    rw [List.append_nil, List.append_assoc]
    exact List.perm_append_comm.append_left _
  | @arrive x channel hc =>
    -- the one item that is outstanding no more is the one that is shown now
    obtain ⟨hx, hnodup, hmem⟩ := h.arrive hc
    constructor
    · exact hnodup
    · intro y hy
      rcases h.arrived y hy with hout | hs
      · rcases (hmem y).mp hout with rfl | hout
        · exact Or.inr (Set.mem_insert _ _)
        · exact Or.inl hout
      · exact Or.inr (Set.mem_insert_of_mem _ hs)
    · intro y hy
      exact Set.mem_insert_of_mem _ (h.brought y hy)
    · intro y hy hout hs
      rcases Set.mem_insert_iff.mp hs with rfl | hs
      · exact absurd hout hx
      · exact h.early y hy ((hmem y).mpr (Or.inr hout)) hs
  | @ignore x channel hc hsince =>
    -- the one item that is outstanding no more is none the view waits for
    obtain ⟨hx, hnodup, hmem⟩ := h.arrive hc
    constructor
    · exact hnodup
    · intro y hy
      refine (h.arrived y hy).imp_left fun hout => ?_
      rcases (hmem y).mp hout with rfl | hout
      · exact absurd hy hsince
      · exact hout
    · exact h.brought
    · intro y hy hout hs
      exact h.early y hy ((hmem y).mpr (Or.inr hout)) hs
  | bring items =>
    -- an item that is shown early was shown before, or comes with the snapshot
    constructor
    · exact h.nodup
    · intro y hy
      exact (h.arrived y hy).imp_right fun hs => Set.mem_union_left _ hs
    · intro y hy
      rcases List.mem_append.mp hy with hy | hy
      · exact Set.mem_union_left _ (h.brought y hy)
      · exact Set.mem_union_right _ hy
    · intro y hy hout hs
      rcases hs with hs | hs
      · exact List.mem_append_left _ (h.early y hy hout hs)
      · exact List.mem_append_right _ hs
  | @add x hsince =>
    constructor
    · exact h.nodup
    · intro y hy
      exact (h.arrived y hy).imp_right fun hs => Set.mem_insert_of_mem _ hs
    · intro y hy
      exact Set.mem_insert_of_mem _ (h.brought y hy)
    · intro y hy hout hs
      rcases Set.mem_insert_iff.mp hs with rfl | hs
      · exact absurd hy hsince
      · exact h.early y hy hout hs
  | reopen shown =>
    -- nothing was published since, and nothing brought
    constructor
    · exact h.nodup
    · intro y hy
      cases hy
    · intro y hy
      cases hy
    · intro y hy
      cases hy

/-- **What is missing** when nothing is on its way: what was lost, unless a snapshot has brought
it. -/
theorem Followed.shown_iff (h : f.Followed) (hwaiting : f.waiting = []) (hchannel : f.channel = [])
    {x : α} (hx : x ∈ f.since) : x ∈ f.shown ↔ x ∉ f.lost ∨ x ∈ f.brought := by
  -- what is still outstanding is what was lost
  have hlost : f.outstanding = f.lost := by
    rw [outstanding, hwaiting, hchannel]
    rfl
  constructor
  · intro hs
    by_cases hl : x ∈ f.lost
    · exact Or.inr (h.early x hx (hlost ▸ hl) hs)
    · exact Or.inl hl
  · rintro (hl | hb)
    · exact (h.arrived x hx).resolve_left (hlost ▸ hl)
    · exact h.brought x hb

end Feed

end Library
