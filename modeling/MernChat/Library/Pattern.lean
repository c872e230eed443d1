import Mathlib.Data.List.DropRight
import Mathlib.Data.List.TakeWhile
import Mathlib.Tactic.SplitIfs

/-!
# Patterns and the rewriting of their matches

A pattern is a sequence of pieces: one unit of a class, a greedy repetition of a class, the
boundary of a word. It is matched with backtracking, a repetition giving back units when the
rest of the pattern fails. Where the class after a repetition has nothing in common with it,
backtracking never helps, and a match takes all it can.

## Main definitions

* `Piece`, `matchHere`: patterns, and the texts their pieces match from a place on
* `munch`: the match in which every repetition takes all it can
* `replaceFrom`, `replaceAll`: all matches replaced from the left, none overlapping

## Main results

* `matchHere_eq_munch`: backtracking never helps a deterministic pattern
* `munch_append`: a match does not look beyond a unit that no piece takes
* `replaceFrom_append_cons`: such a unit cuts the rewriting in two
* `rtakeWhile_replaceFrom`: what the rewriting leaves of the last word
-/

namespace Library

variable {α : Type}

/-- A piece of a pattern. -/
inductive Piece (α : Type)
  | one (p : α → Bool)
  | star (p : α → Bool)
  | plus (p : α → Bool)
  | boundary (word : α → Bool)

/-! ## Matching -/

/-- A repetition followed by `rest`: as many units as possible first, fewer when `rest` fails. -/
def greedy (p : α → Bool) (rest : Option α → List α → Option (List (List α))) :
    Option α → List α → Option (List (List α))
  | before, [] => (rest before []).map ([] :: ·)
  | before, c :: s =>
    if p c then
      match greedy p rest (some c) s with
      | some texts => some (texts.modifyHead (c :: ·))
      | none => (rest before (c :: s)).map ([] :: ·)
    else (rest before (c :: s)).map ([] :: ·)

/-- The texts that the pieces match from a place on, the unit before the place given. -/
def matchHere : List (Piece α) → Option α → List α → Option (List (List α))
  | [], _, _ => some []
  | .one p :: ps, _, c :: s => if p c then (matchHere ps (some c) s).map ([c] :: ·) else none
  | .one _ :: _, _, [] => none
  | .star p :: ps, before, s => greedy p (matchHere ps) before s
  | .plus p :: ps, _, c :: s =>
    if p c then (greedy p (matchHere ps) (some c) s).map (List.modifyHead (c :: ·)) else none
  | .plus _ :: _, _, [] => none
  | .boundary word :: ps, before, s =>
    if before.any word != s.head?.any word then (matchHere ps before s).map ([] :: ·) else none

/-- The match in which every repetition takes all it can. -/
def munch : List (Piece α) → Option α → List α → Option (List (List α))
  | [], _, _ => some []
  | .one p :: ps, _, c :: s => if p c then (munch ps (some c) s).map ([c] :: ·) else none
  | .one _ :: _, _, [] => none
  | .star p :: ps, before, s =>
    (munch ps ((s.takeWhile p).getLast?.or before) (s.dropWhile p)).map (s.takeWhile p :: ·)
  | .plus p :: ps, before, s =>
    if s.takeWhile p = [] then none
    else (munch ps ((s.takeWhile p).getLast?.or before) (s.dropWhile p)).map (s.takeWhile p :: ·)
  | .boundary word :: ps, before, s =>
    if before.any word != s.head?.any word then (munch ps before s).map ([] :: ·) else none

/-- The rest of a pattern fails wherever a unit of the class stands. -/
def Refuses (p : α → Bool) : List (Piece α) → Prop
  | .one q :: _ | .plus q :: _ => ∀ c, p c = true → q c = false
  | _ => False

/-- Every repetition stands at the end, or before a class with which it has nothing in common. -/
def Deterministic : List (Piece α) → Prop
  | [] => True
  | .star p :: ps | .plus p :: ps => (ps = [] ∨ Refuses p ps) ∧ Deterministic ps
  | _ :: ps => Deterministic ps

theorem Refuses.matchHere_eq_none {p : α → Bool} {ps : List (Piece α)} (h : Refuses p ps)
    {c : α} (hc : p c = true) (before : Option α) (s : List α) :
    matchHere ps before (c :: s) = none := by
  rcases ps with _ | ⟨⟨q⟩ | ⟨q⟩ | ⟨q⟩ | ⟨word⟩, ps⟩
  · exact h.elim
  · simp [matchHere, h c hc]
  · exact h.elim
  · simp [matchHere, h c hc]
  · exact h.elim

/-- A repetition takes all it can when the rest never fails, or fails at every unit of the class. -/
theorem greedy_eq {p : α → Bool} {rest : Option α → List α → Option (List (List α))}
    (h : (∀ before s, (rest before s).isSome = true) ∨
      ∀ before c s, p c = true → rest before (c :: s) = none) (before : Option α) (s : List α) :
    greedy p rest before s =
      (rest ((s.takeWhile p).getLast?.or before) (s.dropWhile p)).map (s.takeWhile p :: ·) := by
  induction s generalizing before with
  | nil => rfl
  | cons c s ih =>
    rw [greedy]
    by_cases hc : p c = true
    · have hlast : ((c :: s).takeWhile p).getLast?.or before =
          (s.takeWhile p).getLast?.or (some c) := by
        rw [List.takeWhile_cons_of_pos hc, List.getLast?_cons]
        cases (s.takeWhile p).getLast? <;> rfl
      rw [if_pos hc, ih, hlast, List.dropWhile_cons_of_pos hc, List.takeWhile_cons_of_pos hc]
      cases hrest : rest ((s.takeWhile p).getLast?.or (some c)) (s.dropWhile p) with
      | some texts => rfl
      | none =>
        rcases h with h | h
        · exact absurd (h _ _) (by rw [hrest]; exact Bool.false_ne_true)
        · simp only [Option.map_none, h _ _ _ hc]
    · rw [if_neg hc, List.takeWhile_cons_of_neg hc, List.dropWhile_cons_of_neg hc]
      rfl

theorem greedy_matchHere {p : α → Bool} {ps : List (Piece α)} (h : ps = [] ∨ Refuses p ps)
    (before : Option α) (s : List α) :
    greedy p (matchHere ps) before s =
      (matchHere ps ((s.takeWhile p).getLast?.or before) (s.dropWhile p)).map
        (s.takeWhile p :: ·) := by
  apply greedy_eq
  rcases h with rfl | h
  · exact Or.inl fun before s => rfl
  · exact Or.inr fun before c s hc => h.matchHere_eq_none hc before s

/-- **Backtracking never helps a deterministic pattern.** -/
theorem matchHere_eq_munch {ps : List (Piece α)} (h : Deterministic ps) :
    matchHere ps = munch ps := by
  funext before s
  induction ps generalizing before s with
  | nil => rfl
  | cons piece ps ih =>
    cases piece with
    | one p =>
      cases s with
      | nil => rfl
      | cons c s => rw [matchHere, munch, ih h]
    | star p => rw [matchHere, munch, greedy_matchHere h.1, ih h.2]
    | plus p =>
      cases s with
      | nil => rfl
      | cons c s =>
        rw [matchHere, munch]
        by_cases hc : p c = true
        · have hlast : ((c :: s).takeWhile p).getLast?.or before =
              (s.takeWhile p).getLast?.or (some c) := by
            rw [List.takeWhile_cons_of_pos hc, List.getLast?_cons]
            cases (s.takeWhile p).getLast? <;> rfl
          have hne : (c :: s).takeWhile p ≠ [] := by
            rw [List.takeWhile_cons_of_pos hc]
            exact List.cons_ne_nil _ _
          rw [if_pos hc, if_neg hne, hlast, greedy_matchHere h.1, ih h.2,
            List.takeWhile_cons_of_pos hc, List.dropWhile_cons_of_pos hc, Option.map_map]
          rfl
        · rw [if_neg hc, List.takeWhile_cons_of_neg hc, if_pos rfl]
    | boundary word => rw [matchHere, munch, ih h]

/-- A match is a prefix of the text. -/
theorem isPrefix_munch {ps : List (Piece α)} {before : Option α} {s : List α}
    {texts : List (List α)} (h : munch ps before s = some texts) : texts.flatten <+: s := by
  induction ps generalizing before s texts with
  | nil =>
    obtain rfl := Option.some.inj h
    exact List.nil_prefix
  | cons piece ps ih =>
    have hrest : ∀ (p : α → Bool) (b : Option α),
        (munch ps b (s.dropWhile p)).map (s.takeWhile p :: ·) = some texts →
        texts.flatten <+: s := by
      intro p b h
      obtain ⟨more, hmore, rfl⟩ := Option.map_eq_some_iff.mp h
      rw [List.flatten_cons]
      conv_rhs => rw [← List.takeWhile_append_dropWhile (p := p) (l := s)]
      exact (List.prefix_append_right_inj _).mpr (ih hmore)
    cases piece with
    | one p =>
      cases s with
      | nil => cases h
      | cons c s =>
        rw [munch] at h
        split_ifs at h
        obtain ⟨more, hmore, rfl⟩ := Option.map_eq_some_iff.mp h
        rw [List.flatten_cons, List.singleton_append]
        exact List.cons_prefix_cons.mpr ⟨rfl, ih hmore⟩
    | star p => exact hrest p _ h
    | plus p =>
      rw [munch] at h
      split_ifs at h
      exact hrest p _ h
    | boundary word =>
      rw [munch] at h
      split_ifs at h
      obtain ⟨more, hmore, rfl⟩ := Option.map_eq_some_iff.mp h
      rw [List.flatten_cons, List.nil_append]
      exact ih hmore

/-- A match of a pattern that ends with one unit ends with a unit of its class. -/
theorem flatten_munch_concat {ps : List (Piece α)} {p : α → Bool} {before : Option α} {s : List α}
    {texts : List (List α)} (h : munch (ps ++ [.one p]) before s = some texts) :
    ∃ t c, texts.flatten = t ++ [c] ∧ p c = true := by
  induction ps generalizing before s texts with
  | nil =>
    cases s with
    | nil => cases h
    | cons c s =>
      rw [List.nil_append, munch] at h
      split_ifs at h with hc
      obtain rfl := Option.some.inj h
      exact ⟨[], c, rfl, hc⟩
  | cons piece ps ih =>
    have hrest : ∀ (t : List α) (b : Option α) (s' : List α),
        (munch (ps ++ [.one p]) b s').map (t :: ·) = some texts →
        ∃ t c, texts.flatten = t ++ [c] ∧ p c = true := by
      intro t b s' h
      obtain ⟨more, hmore, rfl⟩ := Option.map_eq_some_iff.mp h
      obtain ⟨t', c, hflatten, hc⟩ := ih hmore
      exact ⟨t ++ t', c, by rw [List.flatten_cons, hflatten, List.append_assoc], hc⟩
    rw [List.cons_append] at h
    cases piece with
    | one q =>
      cases s with
      | nil => cases h
      | cons c s =>
        rw [munch] at h
        split_ifs at h
        exact hrest _ _ _ h
    | star q => exact hrest _ _ _ h
    | plus q =>
      rw [munch] at h
      split_ifs at h
      exact hrest _ _ _ h
    | boundary word =>
      rw [munch] at h
      split_ifs at h
      exact hrest _ _ _ h

/-! ## A unit that no piece takes -/

/-- No piece takes the unit, and none looks at the unit before it. -/
def Avoids (d : α) : List (Piece α) → Prop
  | [] => True
  | .one p :: ps | .star p :: ps | .plus p :: ps => p d = false ∧ Avoids d ps
  | .boundary _ :: _ => False

theorem takeWhile_append_cons {p : α → Bool} {d : α} (h : p d = false) (s t : List α) :
    (s ++ d :: t).takeWhile p = s.takeWhile p := by
  induction s with
  | nil => rw [List.nil_append, List.takeWhile_cons_of_neg (by simp [h]), List.takeWhile_nil]
  | cons c s ih =>
    by_cases hc : p c = true
    · rw [List.cons_append, List.takeWhile_cons_of_pos hc, List.takeWhile_cons_of_pos hc, ih]
    · rw [List.cons_append, List.takeWhile_cons_of_neg hc, List.takeWhile_cons_of_neg hc]

theorem dropWhile_append_cons {p : α → Bool} {d : α} (h : p d = false) (s t : List α) :
    (s ++ d :: t).dropWhile p = s.dropWhile p ++ d :: t := by
  induction s with
  | nil => rw [List.nil_append, List.dropWhile_cons_of_neg (by simp [h]), List.dropWhile_nil,
      List.nil_append]
  | cons c s ih =>
    by_cases hc : p c = true
    · rw [List.cons_append, List.dropWhile_cons_of_pos hc, List.dropWhile_cons_of_pos hc, ih]
    · rw [List.cons_append, List.dropWhile_cons_of_neg hc, List.dropWhile_cons_of_neg hc,
        List.cons_append]

/-- **A match ends before a unit that no piece takes**, and does not look beyond it. -/
theorem munch_append {ps : List (Piece α)} {d : α} (h : Avoids d ps) (before before' : Option α)
    (s t : List α) : munch ps before (s ++ d :: t) = munch ps before' s := by
  induction ps generalizing before before' s with
  | nil => rfl
  | cons piece ps ih =>
    cases piece with
    | one p =>
      cases s with
      | nil => simp [munch, h.1]
      | cons c s => rw [List.cons_append, munch, munch, ih h.2 (some c) (some c)]
    | star p =>
      rw [munch, munch, takeWhile_append_cons h.1, dropWhile_append_cons h.1, ih h.2]
    | plus p =>
      rw [munch, munch, takeWhile_append_cons h.1, dropWhile_append_cons h.1, ih h.2]
    | boundary word => exact h.elim

/-! ## Rewriting -/

/-- The text from a place on with its matches replaced, where the next `skip` units belong to a
match that was replaced. A match of no units leaves the unit after it. -/
def replaceFrom (find : Option α → List α → Option (List (List α)))
    (replacement : List (List α) → List α) : Option α → Nat → List α → List α
  | before, _, [] => ((find before []).map replacement).getD []
  | _, skip + 1, c :: s => replaceFrom find replacement (some c) skip s
  | before, 0, c :: s =>
    match find before (c :: s) with
    | none => c :: replaceFrom find replacement (some c) 0 s
    | some texts =>
      match texts.flatten.length with
      | 0 => replacement texts ++ c :: replaceFrom find replacement (some c) 0 s
      | skip + 1 => replacement texts ++ replaceFrom find replacement (some c) skip s

/-- All matches of the pattern replaced. -/
def replaceAll (ps : List (Piece α)) (replacement : List (List α) → List α) (s : List α) :
    List α :=
  replaceFrom (matchHere ps) replacement none 0 s

section Rewriting

variable {find : Option α → List α → Option (List (List α))}
  {replacement : List (List α) → List α} {before : Option α}

/-- The units of a match are passed over. -/
theorem replaceFrom_skip (before : Option α) (t s : List α) :
    replaceFrom find replacement before t.length (t ++ s) =
      replaceFrom find replacement (t.getLast?.or before) 0 s := by
  induction t generalizing before with
  | nil => rfl
  | cons c t ih =>
    rw [List.length_cons, List.cons_append, replaceFrom, ih, List.getLast?_cons]
    cases t.getLast? <;> rfl

theorem replaceFrom_of_none {c : α} {s : List α} (h : find before (c :: s) = none) :
    replaceFrom find replacement before 0 (c :: s) =
      c :: replaceFrom find replacement (some c) 0 s := by
  rw [replaceFrom, h]

/-- A match is replaced, and the text goes on after it. -/
theorem replaceFrom_of_some {texts : List (List α)} {t s : List α}
    (h : find before (t ++ s) = some texts) (htexts : texts.flatten = t) (ht : t ≠ []) :
    replaceFrom find replacement before 0 (t ++ s) =
      replacement texts ++ replaceFrom find replacement t.getLast? 0 s := by
  cases t with
  | nil => exact absurd rfl ht
  | cons c t =>
    rw [List.cons_append] at h ⊢
    rw [replaceFrom, h]
    simp only [htexts, List.length_cons]
    rw [replaceFrom_skip, List.getLast?_cons]
    cases t.getLast? <;> rfl

/-- A part of the text where no match begins stays as it is. -/
theorem replaceFrom_append_of_none {t : List α} (s : List α)
    (h : ∀ t₁ t₂ b, t = t₁ ++ t₂ → t₂ ≠ [] → b = t₁.getLast?.or before →
      find b (t₂ ++ s) = none) :
    replaceFrom find replacement before 0 (t ++ s) =
      t ++ replaceFrom find replacement (t.getLast?.or before) 0 s := by
  induction t generalizing before with
  | nil => rfl
  | cons c t ih =>
    have hhere := h [] (c :: t) before rfl (List.cons_ne_nil _ _) rfl
    rw [List.cons_append] at hhere ⊢
    rw [replaceFrom_of_none hhere, ih, List.getLast?_cons, List.cons_append]
    · cases t.getLast? <;> rfl
    · intro t₁ t₂ b ht ht₂ hb
      refine h (c :: t₁) t₂ b (by rw [ht, List.cons_append]) ht₂ ?_
      rw [hb, List.getLast?_cons]
      cases t₁.getLast? <;> rfl

/-- Whatever holds of the units of the text and of the replacements holds of the result. -/
theorem forall_mem_replaceFrom {P : α → Prop}
    (hreplacement : ∀ b t texts, (∀ c ∈ t, P c) → find b t = some texts →
      ∀ c ∈ replacement texts, P c) (skip : Nat) {s : List α} (h : ∀ c ∈ s, P c) :
    ∀ c ∈ replaceFrom find replacement before skip s, P c := by
  induction s generalizing before skip with
  | nil =>
    intro c hc
    rw [replaceFrom] at hc
    cases hfind : find before [] with
    | none => rw [hfind] at hc; cases hc
    | some texts =>
      rw [hfind] at hc
      exact hreplacement before [] texts h hfind c hc
  | cons d s ih =>
    have hs : ∀ c ∈ s, P c := fun c hc => h c (List.mem_cons_of_mem _ hc)
    intro c hc
    cases skip with
    | succ skip => exact ih skip hs c hc
    | zero =>
      rw [replaceFrom] at hc
      cases hfind : find before (d :: s) with
      | none =>
        rw [hfind] at hc
        rcases List.mem_cons.mp hc with rfl | hc
        · exact h c List.mem_cons_self
        · exact ih 0 hs c hc
      | some texts =>
        rw [hfind] at hc
        have htexts := hreplacement before _ texts h hfind
        cases hlength : texts.flatten.length with
        | zero =>
          simp only [hlength] at hc
          rcases List.mem_append.mp hc with hc | hc
          · exact htexts c hc
          · rcases List.mem_cons.mp hc with rfl | hc
            · exact h c List.mem_cons_self
            · exact ih 0 hs c hc
        | succ skip =>
          simp only [hlength] at hc
          rcases List.mem_append.mp hc with hc | hc
          · exact htexts c hc
          · exact ih skip hs c hc

end Rewriting

section Avoiding

variable {ps : List (Piece α)} {d : α} {replacement : List (List α) → List α}

theorem munch_before (h : Avoids d ps) (before before' : Option α) (s : List α) :
    munch ps before s = munch ps before' s := by
  rw [← munch_append h none before s [], munch_append h none before' s []]

theorem replaceFrom_before (h : Avoids d ps) (before before' : Option α) (skip : Nat)
    (s : List α) :
    replaceFrom (munch ps) replacement before skip s =
      replaceFrom (munch ps) replacement before' skip s := by
  cases s with
  | nil => rw [replaceFrom, replaceFrom, munch_before h]
  | cons c s =>
    cases skip with
    | zero => rw [replaceFrom, replaceFrom, munch_before h]
    | succ skip => rw [replaceFrom, replaceFrom]

/-- **A unit that no piece takes cuts the rewriting in two.** -/
theorem replaceFrom_append_cons (h : Avoids d ps) (before before' : Option α) {skip : Nat}
    {s : List α} (hskip : skip ≤ s.length) (t : List α) :
    replaceFrom (munch ps) replacement before skip (s ++ d :: t) =
      replaceFrom (munch ps) replacement before' skip s ++
        d :: replaceFrom (munch ps) replacement (some d) 0 t := by
  induction s generalizing before before' skip with
  | nil =>
    obtain rfl : skip = 0 := Nat.le_zero.mp hskip
    have hfind : munch ps before (d :: t) = munch ps before' [] := munch_append h _ _ [] t
    rw [List.nil_append, replaceFrom, replaceFrom, hfind]
    cases hmatch : munch ps before' [] with
    | none => rfl
    | some texts =>
      -- only a match of no units is possible here
      have hlength : texts.flatten.length = 0 :=
        Nat.le_zero.mp (isPrefix_munch hmatch).length_le
      simp only [hlength]
      rfl
  | cons c s ih =>
    cases skip with
    | succ skip =>
      rw [List.cons_append, replaceFrom, replaceFrom]
      exact ih _ _ (Nat.le_of_succ_le_succ hskip)
    | zero =>
      have hfind : munch ps before (c :: (s ++ d :: t)) = munch ps before' (c :: s) :=
        munch_append h _ _ (c :: s) t
      rw [List.cons_append, replaceFrom, replaceFrom, hfind]
      cases hmatch : munch ps before' (c :: s) with
      | none => rw [ih (some c) (some c) (Nat.zero_le _), List.cons_append]
      | some texts =>
        have hle := (isPrefix_munch hmatch).length_le
        cases hlength : texts.flatten.length with
        | zero =>
          simp only [hlength]
          rw [ih (some c) (some c) (Nat.zero_le _), List.append_assoc, List.cons_append]
        | succ skip =>
          rw [hlength, List.length_cons] at hle
          simp only [hlength]
          rw [ih (some c) (some c) (Nat.le_of_succ_le_succ hle), List.append_assoc]

end Avoiding

/-! ## The last word -/

theorem rtakeWhile_append_cons {p : α → Bool} {d : α} (h : p d = false) (s t : List α) :
    (s ++ d :: t).rtakeWhile p = t.rtakeWhile p := by
  rw [List.rtakeWhile, List.rtakeWhile, List.reverse_append, List.reverse_cons, List.append_assoc,
    List.singleton_append, takeWhile_append_cons h]

/-- Where every match and its replacement end with a unit outside the class, the rewriting leaves
the longest end of the text within the class. -/
theorem rtakeWhile_replaceFrom {ps : List (Piece α)} {replacement : List (List α) → List α}
    {p : α → Bool} {d : α} (hd : p d = false)
    (h : ∀ before s texts, munch ps before s = some texts →
      (∃ t, texts.flatten = t ++ [d]) ∧ ∃ t, replacement texts = t ++ [d])
    (before : Option α) (skip : Nat) (s t : List α) :
    (t ++ replaceFrom (munch ps) replacement before skip s).rtakeWhile p =
      (t ++ s.drop skip).rtakeWhile p := by
  induction s generalizing before skip t with
  | nil =>
    cases hmatch : munch ps before [] with
    | none => simp [replaceFrom, hmatch]
    | some texts =>
      -- a match is not empty
      obtain ⟨⟨u, hu⟩, -⟩ := h _ _ _ hmatch
      have hnil := List.prefix_nil.mp (isPrefix_munch hmatch)
      rw [hu] at hnil
      exact absurd hnil (List.append_ne_nil_of_right_ne_nil _ (List.cons_ne_nil _ _))
  | cons c s ih =>
    cases skip with
    | succ skip => rw [replaceFrom, List.drop_succ_cons, ih]
    | zero =>
      rw [replaceFrom, List.drop_zero]
      cases hmatch : munch ps before (c :: s) with
      | none =>
        have hrest := ih (some c) 0 (t ++ [c])
        rwa [List.append_assoc, List.append_assoc, List.drop_zero] at hrest
      | some texts =>
        obtain ⟨⟨u, hu⟩, v, hv⟩ := h _ _ _ hmatch
        obtain ⟨rest, hrest⟩ := isPrefix_munch hmatch
        have hlength : texts.flatten.length = u.length + 1 := by
          rw [hu, List.length_append, List.length_singleton]
        have hdrop : s.drop u.length = rest := by
          have hcons := congrArg (List.drop (u.length + 1)) hrest
          rwa [List.drop_succ_cons, ← hlength, List.drop_left, eq_comm] at hcons
        simp only [hlength, hv]
        have htail := ih (some c) u.length (t ++ (v ++ [d]))
        rw [List.append_assoc, hdrop] at htail
        rw [htail, ← hrest, hu]
        simp only [List.append_assoc, List.singleton_append]
        rw [← List.append_assoc, rtakeWhile_append_cons hd, ← List.append_assoc,
          rtakeWhile_append_cons hd]

end Library
