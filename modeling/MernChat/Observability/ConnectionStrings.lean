import Mathlib.Algebra.Ring.Parity
import MernChat.Observability.ConnectionUrls

/-!
# Passwords of connection URLs in the log

When the log does not depend on the password of a connection URL: behind a user the first
rewriting replaces it, and without a user only the second one can, which takes the word after a
`Bearer` away, whatever it is.

## Main definitions

* `ConnectionUrl`: the parts of a URL
* `bearersBefore`: the words before a place that directly precede it and end in `Bearer`

## Main results

* `password_hidden_iff`: when no password shows in the log
-/

namespace MernChat

open Library

/-! ## The second rewriting -/

/-- The second rewriting, from a place on. -/
def swallowFrom (before : Option UInt16) (skip : Nat) (s : JsString) : JsString :=
  replaceFrom (munch bearerPattern) (fun _ => js "Bearer [REDACTED]") before skip s

/-- A unit of white space. -/
abbrev Space (c : UInt16) : Prop := isWhiteSpace c = true

/-- A text without white space. -/
def SpaceFree (s : JsString) : Prop := ∀ c ∈ s, isWhiteSpace c = false

/-- A word ends in `Bearer` at the boundary of a word. -/
def EndsInBearer (w : JsString) : Prop := (w.rtakeWhile wordUnit).map asciiLower = js "bearer"

instance (w : JsString) : Decidable (EndsInBearer w) :=
  inferInstanceAs (Decidable (_ = js "bearer"))

theorem deterministic_bearerPattern : Deterministic bearerPattern :=
  ⟨Or.inr fun c hc => by simp [hc], Or.inl rfl, trivial⟩

theorem replaceAll_bearerPattern (s : JsString) :
    replaceAll bearerPattern (fun _ => js "Bearer [REDACTED]") s = swallowFrom none 0 s := by
  rw [replaceAll, matchHere_eq_munch deterministic_bearerPattern, swallowFrom]

theorem sanitizeString_eq (s : JsString) :
    sanitizeString s = swallowFrom none 0 (redactFrom none 0 s) := by
  rw [sanitizeString, replaceAll_bearerPattern, replaceAll_connectionPattern]

section Bearer

variable {before : Option UInt16} {b : JsString} {c : UInt16}

/-- The letters of a word in any case. -/
theorem munch_letters (w : JsString) (ps : List (Piece UInt16)) (hb : b.map asciiLower = w)
    (s : JsString) :
    munch (w.map (fun x => .one fun c => asciiLower c == x) ++ ps) before (b ++ s) =
      (munch ps (b.getLast?.or before) s).map fun texts => b.map ([·]) ++ texts := by
  induction b generalizing w before with
  | nil =>
    obtain rfl := hb
    simp
  | cons c b ih =>
    obtain rfl := hb
    have hlast : (c :: b).getLast?.or before = b.getLast?.or (some c) := by
      rw [List.getLast?_cons]
      cases b.getLast? <;> rfl
    rw [List.map_cons, List.map_cons, List.cons_append, List.cons_append, munch,
      if_pos (beq_self_eq_true _), ih _ rfl, hlast, Option.map_map]
    rfl

theorem exists_of_munch_letters {w : JsString} {ps : List (Piece UInt16)} {s : JsString}
    {texts : List JsString}
    (h : munch (w.map (fun x => .one fun c => asciiLower c == x) ++ ps) before s = some texts) :
    ∃ b rest more, s = b ++ rest ∧ b.map asciiLower = w ∧
      munch ps (b.getLast?.or before) rest = some more := by
  induction w generalizing before s texts with
  | nil => exact ⟨[], s, texts, rfl, rfl, h⟩
  | cons x w ih =>
    cases s with
    | nil => cases h
    | cons c s =>
      rw [List.map_cons, List.cons_append, munch] at h
      split_ifs at h with hc
      obtain ⟨more, hmore, -⟩ := Option.map_eq_some_iff.mp h
      obtain ⟨b, rest, more', rfl, rfl, hrest⟩ := ih hmore
      refine ⟨c :: b, rest, more', rfl, by rw [List.map_cons, beq_iff_eq.mp hc], ?_⟩
      rw [← hrest, List.getLast?_cons]
      cases b.getLast? <;> rfl

theorem ne_nil_of_bearer (hb : b.map asciiLower = js "bearer") : b ≠ [] := by
  rintro rfl
  exact absurd hb (by decide)

/-- The letters of `Bearer`. -/
theorem isLetter_of_bearer (hb : b.map asciiLower = js "bearer") :
    ∀ x ∈ b, isLetter x = true := by
  intro x hx
  have hlower : asciiLower x ∈ js "bearer" := hb ▸ List.mem_map_of_mem hx
  have hletters : ∀ y ∈ js "bearer", 0x61 ≤ y.toNat ∧ y.toNat ≤ 0x7A := by decide +kernel
  simpa [isLetter] using hletters _ hlower

theorem wordUnit_of_bearer (hb : b.map asciiLower = js "bearer") :
    ∀ x ∈ b, wordUnit x = true :=
  fun x hx => by simp [wordUnit, isLetter_of_bearer hb x hx]

theorem spaceFree_of_bearer (hb : b.map asciiLower = js "bearer") : SpaceFree b := by
  intro x hx
  have hletter := toNat_of_isLetter (isLetter_of_bearer hb x hx)
  exact isWhiteSpace_of_letter (by omega)

theorem head_of_bearer (hb : b.map asciiLower = js "bearer") (rest : JsString) :
    (b ++ rest).head?.any wordUnit = true := by
  cases b with
  | nil => exact absurd rfl (ne_nil_of_bearer hb)
  | cons x b => exact wordUnit_of_bearer hb x List.mem_cons_self

/-- What a bearer token begins with. -/
theorem of_munch_bearer {s : JsString} {texts : List JsString}
    (h : munch bearerPattern before s = some texts) :
    before.any wordUnit = false ∧ ∃ b c rest, s = b ++ c :: rest ∧
      b.map asciiLower = js "bearer" ∧ Space c := by
  rw [bearerPattern, List.cons_append, munch] at h
  split_ifs at h with hboundary
  obtain ⟨more, hmore, -⟩ := Option.map_eq_some_iff.mp h
  obtain ⟨b, rest, more', rfl, hb, hrest⟩ := exists_of_munch_letters hmore
  constructor
  · -- the text begins with a unit of a word
    rw [head_of_bearer hb] at hboundary
    simpa using hboundary
  · cases rest with
    | nil => simp [munch] at hrest
    | cons c rest =>
      refine ⟨b, c, rest, rfl, hb, ?_⟩
      by_contra hc
      simp [munch, hc] at hrest

theorem munch_bearer_eq_none {s : JsString} (h : before.any wordUnit = false →
    ∀ b c rest, s = b ++ c :: rest → b.map asciiLower = js "bearer" → ¬ Space c) :
    munch bearerPattern before s = none := by
  cases hmatch : munch bearerPattern before s with
  | none => rfl
  | some texts =>
    obtain ⟨hbefore, b, c, rest, hsplit, hb, hc⟩ := of_munch_bearer hmatch
    exact absurd hc (h hbefore b c rest hsplit hb)

theorem takeWhile_dropWhile_ne_nil {p : UInt16 → Bool} {s : JsString} (h : s.dropWhile p ≠ []) :
    ((s.dropWhile p).takeWhile fun c => !p c) ≠ [] := by
  intro hnil
  obtain ⟨c, t, hct⟩ := List.exists_cons_of_ne_nil h
  have hc : p c = false := by
    have hhead := List.head?_dropWhile_not p s
    rw [hct] at hhead
    simpa using hhead
  rw [hct, List.takeWhile_cons_of_pos (by simp [hc])] at hnil
  cases hnil

/-- A bearer token takes the word after it. -/
theorem munch_bearer (hbefore : before.any wordUnit = false) (hb : b.map asciiLower = js "bearer")
    (hc : Space c) {rest : JsString} (hrest : rest.dropWhile isWhiteSpace ≠ []) :
    ∃ texts, munch bearerPattern before (b ++ c :: rest) = some texts ∧
      texts.flatten = b ++ ((c :: rest).takeWhile isWhiteSpace ++
        (rest.dropWhile isWhiteSpace).takeWhile fun c => !isWhiteSpace c) := by
  have hspaces : (c :: rest).takeWhile isWhiteSpace ≠ [] := by
    rw [List.takeWhile_cons_of_pos hc]
    exact List.cons_ne_nil _ _
  rw [bearerPattern, List.cons_append, munch, hbefore, head_of_bearer hb, if_pos (by decide),
    munch_letters _ _ hb, munch, if_neg hspaces, List.dropWhile_cons_of_pos hc, munch,
    if_neg (takeWhile_dropWhile_ne_nil hrest), munch]
  refine ⟨_, rfl, ?_⟩
  have hletters : ∀ b : JsString, (b.map ([·])).flatten = b := fun b => by
    induction b with
    | nil => rfl
    | cons x b ih => rw [List.map_cons, List.flatten_cons, ih, List.singleton_append]
  rw [List.flatten_cons, List.nil_append, List.flatten_append, hletters, List.flatten_cons,
    List.flatten_cons, List.flatten_nil, List.append_nil]

end Bearer

/-! ## Words -/

section Words

variable {before : Option UInt16} {w : JsString} {s : UInt16}

/-- Only a text that begins with a letter begins a token. -/
theorem munch_bearer_space (hs : Space s) (rest : JsString) :
    munch bearerPattern before (s :: rest) = none := by
  refine munch_bearer_eq_none fun _ b c rest' hsplit hb _ => ?_
  cases b with
  | nil => exact ne_nil_of_bearer hb rfl
  | cons x b =>
    obtain ⟨rfl, -⟩ := List.cons.inj hsplit
    exact absurd hs (by simp [spaceFree_of_bearer hb s List.mem_cons_self])

theorem swallowFrom_space (hs : Space s) (rest : JsString) :
    swallowFrom before 0 (s :: rest) = s :: swallowFrom (some s) 0 rest :=
  replaceFrom_of_none (munch_bearer_space hs rest)

/-- The first word of a text. -/
theorem append_space_inj {w' : JsString} {s' : UInt16} {rest rest' : JsString} (hw : SpaceFree w)
    (hs : Space s) (hw' : SpaceFree w') (hs' : Space s') (h : w ++ s :: rest = w' ++ s' :: rest') :
    w = w' := by
  have htake := congrArg (List.takeWhile fun c => !isWhiteSpace c) h
  rwa [(takeWhile_token (fun c hc => by simp [hw c hc]) (by simpa using hs) rest).1,
    (takeWhile_token (fun c hc => by simp [hw' c hc]) (by simpa using hs') rest').1] at htake

theorem rtakeWhile_append_of {p : UInt16 → Bool} {t u : JsString} (hu : ∀ x ∈ u, p x = true)
    (ht : t.getLast?.any p = false) : (t ++ u).rtakeWhile p = u := by
  have hnil : t.reverse.takeWhile p = [] := by
    cases hreverse : t.reverse with
    | nil => rfl
    | cons x r =>
      rw [← List.head?_reverse, hreverse] at ht
      exact List.takeWhile_cons_of_neg (by simpa using ht)
  rw [List.rtakeWhile, List.reverse_append,
    List.takeWhile_append_of_pos fun x hx => hu x (List.mem_reverse.mp hx), hnil, List.append_nil,
    List.reverse_reverse]

/-- Where white space or the end comes next, the unit before does not matter. -/
theorem swallowFrom_before (before' : Option UInt16) {rest : JsString}
    (h : ∀ c, rest.head? = some c → Space c) :
    swallowFrom before 0 rest = swallowFrom before' 0 rest := by
  cases rest with
  | nil =>
    have hnone : ∀ b, munch bearerPattern b [] = none := fun b =>
      munch_bearer_eq_none fun _ bearer c rest hsplit =>
        absurd hsplit.symm (List.append_ne_nil_of_right_ne_nil _ (List.cons_ne_nil _ _))
    rw [swallowFrom, swallowFrom, replaceFrom, replaceFrom, hnone, hnone]
  | cons c rest => rw [swallowFrom_space (h c rfl), swallowFrom_space (h c rfl)]

/-- A word before white space that does not end in `Bearer` stays as it is. -/
theorem swallowFrom_word (hw : SpaceFree w) (hend : ¬ EndsInBearer w) (hs : Space s)
    (rest : JsString) :
    swallowFrom before 0 (w ++ s :: rest) = w ++ s :: swallowFrom (some s) 0 rest := by
  rw [swallowFrom, replaceFrom_append_of_none, replaceFrom_of_none (munch_bearer_space hs rest)]
  · rfl
  · intro t₁ t₂ b ht ht₂ hb
    refine munch_bearer_eq_none fun hboundary bearer c rest' hsplit hbearer hc => ?_
    -- the word ends in the token's letters
    have hfree : SpaceFree t₂ := fun x hx => hw x (ht ▸ List.mem_append_right _ hx)
    obtain rfl := append_space_inj hfree hs (spaceFree_of_bearer hbearer) hc hsplit
    have hlast : t₁.getLast?.any wordUnit = false := by
      cases hlast : t₁.getLast? with
      | none => rfl
      | some x =>
        rw [hb, hlast] at hboundary
        exact hboundary
    rw [EndsInBearer, ht, rtakeWhile_append_of (wordUnit_of_bearer hbearer) hlast] at hend
    exact hend hbearer

/-- A word that ends in `Bearer` ends in the letters of a token that may begin there. -/
theorem exists_of_endsInBearer (hend : EndsInBearer w) (hbefore : before.any wordUnit = false) :
    ∃ a bearer, w = a ++ bearer ∧ bearer.map asciiLower = js "bearer" ∧
      (a.getLast?.or before).any wordUnit = false := by
  refine ⟨w.rdropWhile wordUnit, w.rtakeWhile wordUnit, by simp, hend, ?_⟩
  cases hlast : (w.rdropWhile wordUnit).getLast? with
  | none => exact hbefore
  | some x =>
    have hne : w.rdropWhile wordUnit ≠ [] := by
      intro hnil
      rw [hnil] at hlast
      cases hlast
    have hnot := List.rdropWhile_last_not wordUnit w hne
    rw [List.getLast?_eq_getLast_of_ne_nil hne, Option.some.injEq] at hlast
    rw [hlast] at hnot
    simpa using hnot

theorem swallowFrom_token {bearer : JsString} (hbefore : before.any wordUnit = false)
    (hbearer : bearer.map asciiLower = js "bearer") (hs : Space s) {rest : JsString}
    (hrest : rest.dropWhile isWhiteSpace ≠ []) :
    swallowFrom before 0 (bearer ++ s :: rest) = js "Bearer [REDACTED]" ++
      swallowFrom none 0 ((rest.dropWhile isWhiteSpace).dropWhile fun c => !isWhiteSpace c) := by
  obtain ⟨texts, hmatch, hflatten⟩ := munch_bearer hbefore hbearer hs hrest
  have hsplit : bearer ++ s :: rest = bearer ++ ((s :: rest).takeWhile isWhiteSpace ++
      (rest.dropWhile isWhiteSpace).takeWhile fun c => !isWhiteSpace c) ++
        (rest.dropWhile isWhiteSpace).dropWhile fun c => !isWhiteSpace c := by
    rw [List.append_assoc, List.append_assoc, List.takeWhile_append_dropWhile,
      ← List.dropWhile_cons_of_pos hs, List.takeWhile_append_dropWhile]
  rw [hsplit] at hmatch ⊢
  rw [swallowFrom, replaceFrom_of_some hmatch hflatten
    (List.append_ne_nil_of_left_ne_nil (ne_nil_of_bearer hbearer) _)]
  refine congrArg (js "Bearer [REDACTED]" ++ ·) (swallowFrom_before none fun c hc => ?_)
  -- the token ends before white space
  have hhead := List.head?_dropWhile_not (fun c => !isWhiteSpace c) (rest.dropWhile isWhiteSpace)
  rw [hc] at hhead
  simpa using hhead

/-- A word that ends in `Bearer` takes the next word away. -/
theorem swallowFrom_bearer (hw : SpaceFree w) (hend : EndsInBearer w)
    (hbefore : before.any wordUnit = false) (hs : Space s) :
    ∃ out, ∀ rest, rest.dropWhile isWhiteSpace ≠ [] →
      swallowFrom before 0 (w ++ s :: rest) =
        out ++ swallowFrom none 0 ((rest.dropWhile isWhiteSpace).dropWhile
          fun c => !isWhiteSpace c) := by
  obtain ⟨a, bearer, rfl, hbearer, hlast⟩ := exists_of_endsInBearer hend hbefore
  refine ⟨a ++ js "Bearer [REDACTED]", fun rest hrest => ?_⟩
  rw [List.append_assoc, List.append_assoc, swallowFrom, replaceFrom_append_of_none]
  · exact congrArg (a ++ ·) (swallowFrom_token hlast hbearer hs hrest)
  · intro t₁ t₂ b ht ht₂ hb
    refine munch_bearer_eq_none fun _ bearer' c rest' hsplit hbearer' hc => ?_
    rw [← List.append_assoc] at hsplit
    have hfree : SpaceFree (t₂ ++ bearer) := fun x hx => hw x (by
      rw [ht, List.append_assoc]
      exact List.mem_append_right _ hx)
    -- another token would have more than six letters
    have hsame := append_space_inj hfree hs (spaceFree_of_bearer hbearer') hc hsplit
    have hlength := congrArg List.length hsame
    have hlength' := congrArg List.length (hbearer.trans hbearer'.symm)
    rw [List.length_append] at hlength
    rw [List.length_map, List.length_map] at hlength'
    exact ht₂ (List.eq_nil_of_length_eq_zero (by omega))

theorem at_before_space {y b rest rest' : JsString} {c : UInt16} (hy : SpaceFree y)
    (hb : ∀ x ∈ b, isLetter x = true) (hc : Space c) : y ++ 0x40 :: rest ≠ b ++ c :: rest' := by
  induction b generalizing y with
  | nil =>
    intro h
    cases y with
    | nil =>
      obtain rfl := (List.cons.inj h).1
      exact absurd hc (by decide)
    | cons x y =>
      obtain rfl := (List.cons.inj h).1
      exact absurd hc (by simp [hy x List.mem_cons_self])
  | cons z b ih =>
    intro h
    cases y with
    | nil =>
      obtain rfl := (List.cons.inj h).1
      exact absurd (hb _ List.mem_cons_self) (by decide)
    | cons x y =>
      exact ih (fun v hv => hy v (List.mem_cons_of_mem _ hv))
        (fun v hv => hb v (List.mem_cons_of_mem _ hv)) (List.cons.inj h).2

/-- A text up to an at sign, without white space, stays as it is. -/
theorem swallowFrom_at (hw : SpaceFree w) (rest : JsString) :
    swallowFrom before 0 (w ++ 0x40 :: rest) = w ++ 0x40 :: swallowFrom (some 0x40) 0 rest := by
  have hat : w ++ 0x40 :: rest = (w ++ [0x40]) ++ rest := by simp
  rw [hat, swallowFrom, replaceFrom_append_of_none]
  · simp [swallowFrom]
  · intro t₁ t₂ b ht ht₂ hb
    refine munch_bearer_eq_none fun _ bearer c rest' hsplit hbearer hc => ?_
    rcases List.eq_nil_or_concat t₂ with hnil | ⟨y, x, rfl⟩
    · exact ht₂ hnil
    · rw [List.concat_eq_append, ← List.append_assoc] at ht
      obtain ⟨hwy, hx⟩ := List.append_inj' ht rfl
      obtain rfl := (List.cons.inj hx).1
      rw [List.concat_eq_append, List.append_assoc] at hsplit
      exact at_before_space (fun z hz => hw z (hwy ▸ List.mem_append_right _ hz))
        (isLetter_of_bearer hbearer) hc hsplit

end Words

/-! ## The words before a URL -/

/-- The words before a place: what white space follows. -/
def wordsBefore (s : JsString) : List JsString :=
  (s.splitOnP isWhiteSpace).dropLast.filter (· ≠ [])

/-- How many words directly before a place, one after the other, end in `Bearer`. -/
def bearersBefore (s : JsString) : Nat :=
  ((wordsBefore s).reverse.takeWhile fun w => EndsInBearer w).length

/-- After the words the next one is taken away, if the first of them is or is not. -/
def takesNext (taken : Bool) (words : List JsString) : Bool :=
  words.foldl (fun taken w => !taken && decide (EndsInBearer w)) taken

theorem wordsBefore_of_spaceFree {w : JsString} (hw : SpaceFree w) : wordsBefore w = [] := by
  rw [wordsBefore, List.splitOnP_eq_singleton hw]
  rfl

theorem wordsBefore_append_cons {w : JsString} {s : UInt16} (hw : SpaceFree w) (hs : Space s)
    (rest : JsString) :
    wordsBefore (w ++ s :: rest) = if w = [] then wordsBefore rest else w :: wordsBefore rest := by
  rw [wordsBefore, List.splitOnP_append_cons_of_forall_mem hw s hs,
    List.dropLast_cons_of_ne_nil (List.splitOnP_ne_nil _ _), List.filter_cons, wordsBefore]
  split_ifs <;> simp_all

/-- Every second one of the words that end in `Bearer` takes the next word away. -/
theorem takesNext_false (words : List JsString) :
    takesNext false words = true ↔
      Odd (words.reverse.takeWhile fun w => EndsInBearer w).length := by
  induction words using List.reverseRecOn with
  | nil => simp [takesNext]
  | append_singleton words w ih =>
    rw [takesNext, List.foldl_append, List.foldl_cons, List.foldl_nil, List.reverse_append,
      List.reverse_singleton, List.singleton_append]
    by_cases hw : EndsInBearer w
    · rw [List.takeWhile_cons_of_pos (by simpa using hw), List.length_cons, Nat.odd_add_one, ← ih]
      simp [takesNext, hw]
    · rw [List.takeWhile_cons_of_neg (by simpa using hw)]
      simp [hw]

/-- Texts are made of words. -/
theorem wordInduction {P : JsString → Prop} (last : ∀ w, SpaceFree w → P w)
    (more : ∀ w s rest, SpaceFree w → Space s → P rest → P (w ++ s :: rest)) (s : JsString) :
    P s := by
  induction hn : s.length using Nat.strong_induction_on generalizing s with
  | _ n ih =>
    by_cases hs : SpaceFree s
    · exact last s hs
    · have hsome : ¬ ∀ x ∈ s, (!isWhiteSpace x) = true := fun h => hs fun x hx => by
        simpa using h x hx
      obtain ⟨w, d, rest, hw, hd, rfl⟩ := exists_split_of_not_forall hsome
      refine more w d rest (fun x hx => by simpa using hw x hx) (by simpa using hd)
        (ih rest.length ?_ rest rfl)
      rw [← hn, List.length_append, List.length_cons]
      omega

/-! ## When a password shows -/

/-- A password. -/
def Password (pw : JsString) : Prop := pw ≠ [] ∧ ∀ x ∈ pw, passwordUnit x = true

instance (pw : JsString) : Decidable (Password pw) :=
  inferInstanceAs (Decidable (pw ≠ [] ∧ ∀ x ∈ pw, passwordUnit x = true))

/-- The scheme and the user of a URL. -/
structure ConnectionUrl where
  scheme : JsString
  user : JsString
  scheme_syntax : ∃ c t, scheme = c :: t ∧ isLetter c = true ∧ ∀ x ∈ t, schemeUnit x = true
  user_syntax : ∀ x ∈ user, userUnit x = true

/-- `scheme://user:password@`. -/
def ConnectionUrl.text (url : ConnectionUrl) (pw : JsString) : JsString :=
  url.scheme ++ js "://" ++ url.user ++ 0x3A :: (pw ++ [0x40])

/-- A text is the same for all passwords, or each stands in it at the same place. -/
def Verdict (hidden : Bool) (text : JsString → JsString) : Prop :=
  if hidden then ∃ out, ∀ pw, Password pw → text pw = out
  else ∃ out rest, ∀ pw, Password pw → text pw = out ++ (pw ++ 0x40 :: rest)

theorem Verdict.append {hidden : Bool} {text text' : JsString → JsString} {out : JsString}
    (h : Verdict hidden text) (htext : ∀ pw, Password pw → text' pw = out ++ text pw) :
    Verdict hidden text' := by
  unfold Verdict at h ⊢
  split_ifs at h ⊢
  · obtain ⟨out', hout⟩ := h
    exact ⟨out ++ out', fun pw hpw => by rw [htext pw hpw, hout pw hpw]⟩
  · obtain ⟨out', rest, hout⟩ := h
    exact ⟨out ++ out', rest, fun pw hpw => by rw [htext pw hpw, hout pw hpw, List.append_assoc]⟩

theorem spaceFree_of_passwordUnit {pw : JsString} (h : ∀ x ∈ pw, passwordUnit x = true) :
    SpaceFree pw := by
  intro x hx
  have hunit := h x hx
  simp only [passwordUnit, Bool.not_eq_true', Bool.or_eq_false_iff] at hunit
  exact hunit.1.1

theorem not_wordUnit_of_space {s : UInt16} (hs : Space s) : (some s).any wordUnit = false := by
  rw [Option.any_some, wordUnit, Bool.or_eq_false_iff, Bool.or_eq_false_iff]
  refine ⟨⟨?_, ?_⟩, ?_⟩
  · exact not_of_isWhiteSpace (fun c hc => by have := toNat_of_isLetter hc; omega) hs
  · refine not_of_isWhiteSpace (fun c hc => ?_) hs
    simp only [isDigitUnit, Bool.and_eq_true, decide_eq_true_eq, UInt16.le_iff_toNat_le,
      UInt16.reduceToNat] at hc
    omega
  · refine not_of_isWhiteSpace (p := (· == 0x5F)) (fun c hc => ?_) hs
    rw [beq_iff_eq.mp hc]
    decide

section NoUser

variable {c₀ : UInt16} {t₀ : JsString}

/-- The log of the URL and its surroundings after the first rewriting. -/
def redactedUrl (c₀ : UInt16) (t₀ rest before pw : JsString) : JsString :=
  redactFrom none 0 (before ++ c₀ :: (t₀ ++ 0x3A :: 0x2F :: 0x2F :: (0x3A :: (pw ++ 0x40 :: rest))))

/-- The word of the URL begins without white space. -/
theorem exists_redactedUrl_of_spaceFree (hc₀ : isLetter c₀ = true)
    (ht₀ : ∀ x ∈ t₀, schemeUnit x = true) {w : JsString} (hw : SpaceFree w) :
    ∃ out, SpaceFree out ∧ ∀ pw rest, Password pw →
      redactedUrl c₀ t₀ rest w pw = out ++ 0x3A :: (pw ++ 0x40 :: redactFrom none 0 rest) := by
  obtain ⟨out, hout⟩ := exists_redactFrom_no_user hc₀ ht₀ w
  refine ⟨out, ?_, fun pw rest hpw => hout pw rest hpw.2⟩
  -- the first rewriting of the word alone
  have hurl : SpaceFree (w ++ c₀ :: (t₀ ++ 0x3A :: 0x2F :: 0x2F :: (0x3A :: [0x61, 0x40]))) := by
    intro x hx
    rcases List.mem_append.mp hx with hx | hx
    · exact hw x hx
    · rcases List.mem_cons.mp hx with rfl | hx
      · have := toNat_of_isLetter hc₀
        exact isWhiteSpace_of_letter (by omega)
      · rcases List.mem_append.mp hx with hx | hx
        · by_contra hspace
          rw [Bool.not_eq_false] at hspace
          have hnot := not_of_isWhiteSpace (p := schemeUnit)
            (fun c hc => by have := toNat_of_schemeUnit hc; omega) hspace
          exact absurd (ht₀ x hx) (by simp [hnot])
        · have htail : ∀ x ∈ ([0x3A, 0x2F, 0x2F, 0x3A, 0x61, 0x40] : JsString),
              isWhiteSpace x = false := by decide +kernel
          exact htail x hx
  have hfree := not_space_redactFrom hurl
  have halone := hout [0x61] [] (by decide +kernel)
  rw [List.singleton_append] at halone
  rw [halone] at hfree
  exact fun x hx => hfree x (List.mem_append_left _ hx)

theorem redactedUrl_append_cons {s : UInt16} (hs : Space s) (w rest before pw : JsString) :
    redactedUrl c₀ t₀ rest (w ++ s :: before) pw =
      redactFrom none 0 w ++ s :: redactedUrl c₀ t₀ rest before pw := by
  rw [redactedUrl, List.append_assoc, List.cons_append, redactFrom_append_cons hs, redactedUrl]

theorem dropWhile_redactedUrl_ne_nil (hc₀ : isLetter c₀ = true)
    (ht₀ : ∀ x ∈ t₀, schemeUnit x = true) (rest before : JsString) {pw : JsString}
    (hpw : Password pw) : (redactedUrl c₀ t₀ rest before pw).dropWhile isWhiteSpace ≠ [] := by
  obtain ⟨out, hout⟩ := exists_redactFrom_no_user hc₀ ht₀ before
  rw [redactedUrl, hout pw rest hpw.2, ne_eq, List.dropWhile_eq_nil_iff]
  intro hall
  exact absurd (hall 0x3A (by simp)) (by decide)

/-- What is left behind the first word. -/
theorem dropWhile_word {w : JsString} (hw : SpaceFree w) (hne : w ≠ []) (rest : JsString) :
    ((w ++ rest).dropWhile isWhiteSpace).dropWhile (fun c => !isWhiteSpace c) =
      rest.dropWhile fun c => !isWhiteSpace c := by
  have hspaces : (w ++ rest).dropWhile isWhiteSpace = w ++ rest := by
    cases w with
    | nil => exact absurd rfl hne
    | cons x w => exact List.dropWhile_cons_of_neg (by simp [hw x List.mem_cons_self])
  rw [hspaces, List.dropWhile_append_of_pos fun c hc => by simp [hw c hc]]

theorem endsInBearer_redactFrom {w : JsString} :
    EndsInBearer (redactFrom none 0 w) ↔ EndsInBearer w := by
  rw [EndsInBearer, EndsInBearer, rtakeWhile_redactFrom]

/-- What the log shows of a URL without a user, by the words before it, when its text is reached
between tokens, and when a token takes the next word away. -/
structure Verdicts (c₀ : UInt16) (t₀ rest before : JsString) : Prop where
  free : ∀ b : Option UInt16, b.any wordUnit = false →
    Verdict (takesNext false (wordsBefore before)) fun pw =>
      swallowFrom b 0 (redactedUrl c₀ t₀ rest before pw)
  taken : Verdict (takesNext true (wordsBefore before)) fun pw =>
    swallowFrom none 0 (((redactedUrl c₀ t₀ rest before pw).dropWhile isWhiteSpace).dropWhile
      fun c => !isWhiteSpace c)

/-- The word of the URL stays, or is taken away. -/
theorem verdicts_of_spaceFree (hc₀ : isLetter c₀ = true) (ht₀ : ∀ x ∈ t₀, schemeUnit x = true)
    (rest : JsString) {w : JsString} (hw : SpaceFree w) : Verdicts c₀ t₀ rest w := by
  obtain ⟨out, hout, htext⟩ := exists_redactedUrl_of_spaceFree hc₀ ht₀ hw
  have hword : ∀ pw, Password pw → SpaceFree (out ++ 0x3A :: (pw ++ [0x40])) := by
    intro pw hpw x hx
    rcases List.mem_append.mp hx with hx | hx
    · exact hout x hx
    · rcases List.mem_cons.mp hx with rfl | hx
      · decide
      · rcases List.mem_append.mp hx with hx | hx
        · exact spaceFree_of_passwordUnit hpw.2 x hx
        · rw [List.mem_singleton.mp hx]
          decide
  constructor
  · rw [wordsBefore_of_spaceFree hw]
    intro b hb
    refine ⟨out ++ [0x3A], swallowFrom (some 0x40) 0 (redactFrom none 0 rest), fun pw hpw => ?_⟩
    have hfree : SpaceFree (out ++ 0x3A :: pw) := fun x hx => hword pw hpw x (by
      rw [← List.cons_append, ← List.append_assoc]
      exact List.mem_append_left _ hx)
    have hkept : swallowFrom b 0 (_ ++ 0x40 :: redactFrom none 0 rest) = _ :=
      swallowFrom_at hfree (redactFrom none 0 rest)
    simp only [List.append_assoc, List.cons_append, List.nil_append] at hkept ⊢
    rw [htext pw rest hpw, hkept]
  · rw [wordsBefore_of_spaceFree hw]
    refine ⟨swallowFrom none 0 ((redactFrom none 0 rest).dropWhile fun c => !isWhiteSpace c),
      fun pw hpw => ?_⟩
    have hsplit : out ++ 0x3A :: (pw ++ 0x40 :: redactFrom none 0 rest) =
        (out ++ 0x3A :: (pw ++ [0x40])) ++ redactFrom none 0 rest := by simp
    simp only [htext pw rest hpw]
    rw [hsplit, dropWhile_word (hword pw hpw)]
    exact List.append_ne_nil_of_right_ne_nil _ (List.cons_ne_nil _ _)

/-- One more word before the URL. -/
theorem Verdicts.append_cons (hc₀ : isLetter c₀ = true) (ht₀ : ∀ x ∈ t₀, schemeUnit x = true)
    {rest before w : JsString} {s : UInt16} (h : Verdicts c₀ t₀ rest before) (hw : SpaceFree w)
    (hs : Space s) : Verdicts c₀ t₀ rest (w ++ s :: before) := by
  have hword := not_space_redactFrom hw
  have hfree : ∀ b : Option UInt16, Verdict (takesNext false (wordsBefore before)) fun pw =>
      swallowFrom b 0 (s :: redactedUrl c₀ t₀ rest before pw) := fun b =>
    (h.free (some s) (not_wordUnit_of_space hs)).append fun pw hpw =>
      (swallowFrom_space hs _).trans (List.singleton_append ..).symm
  by_cases hnil : w = []
  · -- no word, only white space
    subst hnil
    constructor
    · rw [wordsBefore_append_cons hw hs, if_pos rfl]
      simp only [redactedUrl_append_cons hs]
      exact fun b hb => hfree b
    · rw [wordsBefore_append_cons hw hs, if_pos rfl]
      have hspaces : ∀ pw, (redactedUrl c₀ t₀ rest ([] ++ s :: before) pw).dropWhile isWhiteSpace =
          (redactedUrl c₀ t₀ rest before pw).dropWhile isWhiteSpace := fun pw => by
        rw [redactedUrl_append_cons hs, redactFrom_eq_nil.mpr rfl, List.nil_append,
          List.dropWhile_cons_of_pos hs]
      simp only [hspaces]
      exact h.taken
  have hne : redactFrom none 0 w ≠ [] := fun h => hnil (redactFrom_eq_nil.mp h)
  constructor
  · intro b hb
    rw [wordsBefore_append_cons hw hs, if_neg hnil]
    simp only [redactedUrl_append_cons hs]
    by_cases hend : EndsInBearer w
    · have hnext : takesNext false (w :: wordsBefore before) =
          takesNext true (wordsBefore before) := by simp [takesNext, hend]
      obtain ⟨out, hout⟩ := swallowFrom_bearer hword (endsInBearer_redactFrom.mpr hend) hb hs
      rw [hnext]
      exact h.taken.append fun pw hpw =>
        hout _ (dropWhile_redactedUrl_ne_nil hc₀ ht₀ rest before hpw)
    · have hnext : takesNext false (w :: wordsBefore before) =
          takesNext false (wordsBefore before) := by simp [takesNext, hend]
      have hkept : ∀ rest : JsString, swallowFrom b 0 (redactFrom none 0 w ++ s :: rest) =
          (redactFrom none 0 w ++ [s]) ++ swallowFrom (some s) 0 rest := fun rest => by
        rw [swallowFrom_word hword (mt endsInBearer_redactFrom.mp hend) hs, List.append_assoc,
          List.singleton_append]
      rw [hnext]
      exact (h.free (some s) (not_wordUnit_of_space hs)).append fun pw hpw => hkept _
  · rw [wordsBefore_append_cons hw hs, if_neg hnil]
    have hnext : takesNext true (w :: wordsBefore before) =
        takesNext false (wordsBefore before) := by simp [takesNext]
    have hspaceCons : ∀ r : JsString, (s :: r).dropWhile (fun c => !isWhiteSpace c) = s :: r :=
      fun r => List.dropWhile_cons_of_neg (by simpa using hs)
    simp only [redactedUrl_append_cons hs, dropWhile_word hword hne, hspaceCons]
    rw [hnext]
    exact hfree none

theorem verdicts (hc₀ : isLetter c₀ = true) (ht₀ : ∀ x ∈ t₀, schemeUnit x = true)
    (rest before : JsString) : Verdicts c₀ t₀ rest before := by
  induction before using wordInduction with
  | last w hw => exact verdicts_of_spaceFree hc₀ ht₀ rest hw
  | more w s before hw hs ih => exact ih.append_cons hc₀ ht₀ hw hs

end NoUser

/-- **When a password never shows in the log**: exactly when the URL has a user, or an odd number
of words that end in `Bearer` stands directly before it. -/
theorem password_hidden_iff (url : ConnectionUrl) (before rest : JsString) :
    (∀ pw pw', Password pw → Password pw' →
      sanitizeString (before ++ url.text pw ++ rest) =
        sanitizeString (before ++ url.text pw' ++ rest)) ↔
      url.user ≠ [] ∨ Odd (bearersBefore before) := by
  obtain ⟨scheme, user, ⟨c₀, t₀, rfl, hc₀, ht₀⟩, huser⟩ := url
  have htext : ∀ pw, before ++ ConnectionUrl.text ⟨c₀ :: t₀, user, ⟨c₀, t₀, rfl, hc₀, ht₀⟩, huser⟩
      pw ++ rest = before ++ c₀ :: (t₀ ++ 0x3A :: 0x2F :: 0x2F ::
        (user ++ 0x3A :: (pw ++ 0x40 :: rest))) := fun pw => by
    have hslashes : js "://" = [0x3A, 0x2F, 0x2F] := rfl
    simp [ConnectionUrl.text, hslashes]
  simp only [htext, sanitizeString_eq]
  by_cases hne : user = []
  · subst hne
    have hverdict := (verdicts hc₀ ht₀ rest before).free none rfl
    rw [bearersBefore, ← takesNext_false]
    cases htakes : takesNext false (wordsBefore before) with
    | true =>
      rw [htakes] at hverdict
      obtain ⟨out, hout⟩ := hverdict
      refine iff_of_true (fun pw pw' hpw hpw' => ?_) (Or.inr rfl)
      exact (hout pw hpw).trans (hout pw' hpw').symm
    | false =>
      rw [htakes] at hverdict
      obtain ⟨out, rest', hout⟩ := hverdict
      refine iff_of_false (fun hhidden => ?_) (by simp)
      -- two passwords of one character give two logs
      have hsame := hhidden [0x61] [0x62] (by decide +kernel) (by decide +kernel)
      have ha := hout [0x61] (by decide +kernel)
      have hb := hout [0x62] (by decide +kernel)
      have hlogs := (ha.symm.trans hsame).trans hb
      rw [List.append_cancel_left_eq] at hlogs
      exact absurd (List.cons.inj hlogs).1 (by decide)
  · refine iff_of_true (fun pw pw' hpw hpw' => ?_) (Or.inl hne)
    obtain ⟨out, hout⟩ := exists_redactFrom_user hc₀ ht₀ hne huser before rest
    rw [hout pw hpw.1 hpw.2, hout pw' hpw'.1 hpw'.2]

/-- A URL of a server of Redis, which has no users. -/
def sampleRedisUrl : ConnectionUrl where
  scheme := js "redis"
  user := []
  scheme_syntax := ⟨0x72, js "edis", rfl, by decide +kernel, by decide +kernel⟩
  user_syntax := by simp

/-- **A password that shows in the log.** -/
theorem password_not_hidden :
    Password (js "secret") ∧ Password (js "hidden") ∧
      sanitizeString (js "connect " ++ sampleRedisUrl.text (js "secret") ++ js "localhost:6379") =
        js "connect redis://:secret@localhost:6379" ∧
      sanitizeString (js "connect " ++ sampleRedisUrl.text (js "secret") ++ js "localhost:6379") ≠
        sanitizeString
          (js "connect " ++ sampleRedisUrl.text (js "hidden") ++ js "localhost:6379") := by
  refine ⟨?_, ?_, ?_, ?_⟩ <;> decide +kernel

end MernChat
