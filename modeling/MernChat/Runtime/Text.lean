import Mathlib.Data.List.DropRight
import Mathlib.Data.List.Basic
import Mathlib.Tactic.SplitIfs

/-!
# JavaScript strings

A JavaScript string is the list of its UTF-16 code units; its `length` is the length of that
list and `<` compares code units lexicographically. Regular expressions that only list one
character class per position are lists of classes.

## Main definitions

* `JsString`, `js`: strings, and the string of a literal
* `trim`: `String.prototype.trim`
* `Ascii`, `Plain`: texts of ASCII characters, and of those a quoted string holds as they are
* `asciiLower`, `asciiUpper`, `CaseVariant`: two spellings that differ in the case of ASCII letters
  only
* `matchesClasses`: a fixed-length pattern matched from the first to the last character
-/

namespace MernChat

/-- A JavaScript string, by its UTF-16 code units. -/
abbrev JsString := List UInt16

/-- What is asked of the code units of a text is asked unit by unit, not of every code unit there
is. -/
instance (p : UInt16 → Prop) [DecidablePred p] (s : JsString) : Decidable (∀ c ∈ s, p c) :=
  List.decidableBAll p s

/-- The code units of one character. -/
def utf16 (c : Char) : JsString :=
  if c.toNat < 0x10000 then [UInt16.ofNat c.toNat]
  else [UInt16.ofNat (0xD800 + (c.toNat - 0x10000) / 0x400),
    UInt16.ofNat (0xDC00 + (c.toNat - 0x10000) % 0x400)]

/-- The JavaScript string of a literal. -/
def js (s : String) : JsString := s.toList.flatMap utf16

/-- The white space and line terminators `trim` removes. -/
def isWhiteSpace (c : UInt16) : Bool :=
  (0x09 ≤ c && c ≤ 0x0D) || c == 0x20 || c == 0xA0 || c == 0x1680 ||
    (0x2000 ≤ c && c ≤ 0x200A) || c == 0x2028 || c == 0x2029 || c == 0x202F || c == 0x205F ||
    c == 0x3000 || c == 0xFEFF

/-- `String.prototype.trim`. -/
def trim (s : JsString) : JsString :=
  ((s.dropWhile isWhiteSpace).reverse.dropWhile isWhiteSpace).reverse

/-- A token ends where its class does. -/
theorem takeWhile_token {p : UInt16 → Bool} {token : JsString} (h : ∀ c ∈ token, p c = true)
    {d : UInt16} (hd : p d = false) (s : JsString) :
    (token ++ d :: s).takeWhile p = token ∧ (token ++ d :: s).dropWhile p = d :: s := by
  have hd' : ¬p d = true := by rw [hd]; exact Bool.false_ne_true
  rw [List.takeWhile_append_of_pos h, List.dropWhile_append_of_pos h,
    List.takeWhile_cons_of_neg hd', List.dropWhile_cons_of_neg hd', List.append_nil]
  exact ⟨rfl, rfl⟩

/-! ## Letter case -/

/-- The lower-case form of an ASCII letter; other code units are kept. -/
def asciiLower (c : UInt16) : UInt16 := if 0x41 ≤ c && c ≤ 0x5A then c + 0x20 else c

/-- Two spellings of one text: equal up to the case of ASCII letters. -/
def CaseVariant (s t : JsString) : Prop := s.map asciiLower = t.map asciiLower

instance (s t : JsString) : Decidable (CaseVariant s t) :=
  inferInstanceAs (Decidable (s.map asciiLower = t.map asciiLower))

theorem CaseVariant.refl (s : JsString) : CaseVariant s s := rfl

theorem CaseVariant.symm {s t : JsString} (h : CaseVariant s t) : CaseVariant t s := Eq.symm h

theorem CaseVariant.trans {s t u : JsString} (h : CaseVariant s t) (h' : CaseVariant t u) :
    CaseVariant s u := Eq.trans h h'

/-- The upper-case form of an ASCII letter; other code units are kept. -/
def asciiUpper (c : UInt16) : UInt16 := if 0x61 ≤ c && c ≤ 0x7A then c - 0x20 else c

/-- An ASCII letter, in either case. -/
def isLetter (c : UInt16) : Bool := 0x61 ≤ (asciiLower c).toNat && (asciiLower c).toNat ≤ 0x7A

def hasLetter (s : JsString) : Bool := s.any isLetter

theorem toNat_asciiLower (c : UInt16) :
    (asciiLower c).toNat = if 65 ≤ c.toNat ∧ c.toNat ≤ 90 then c.toNat + 32 else c.toNat := by
  have h₁ : (0x41 : UInt16).toNat = 65 := rfl
  have h₂ : (0x5A : UInt16).toNat = 90 := rfl
  have h₃ : (c + 0x20).toNat = (c.toNat + 32) % 65536 := UInt16.toNat_add _ _
  unfold asciiLower
  by_cases h : 65 ≤ c.toNat ∧ c.toNat ≤ 90
  · rw [if_pos h, if_pos]
    · omega
    · simp only [Bool.and_eq_true, decide_eq_true_eq, UInt16.le_iff_toNat_le]
      omega
  · rw [if_neg h, if_neg]
    simp only [Bool.and_eq_true, decide_eq_true_eq, UInt16.le_iff_toNat_le]
    omega

theorem asciiLower_asciiLower (c : UInt16) : asciiLower (asciiLower c) = asciiLower c := by
  apply UInt16.toNat_inj.mp
  rw [toNat_asciiLower, toNat_asciiLower]
  split_ifs <;> omega

theorem isWhiteSpace_of_letter {c : UInt16} (h : 0x41 ≤ c.toNat ∧ c.toNat ≤ 0x7A) :
    isWhiteSpace c = false := by
  simp only [isWhiteSpace, Bool.or_eq_false_iff, Bool.and_eq_false_iff, beq_eq_false_iff_ne, ne_eq,
    ← UInt16.toNat_inj, decide_eq_false_iff_not, UInt16.le_iff_toNat_le, UInt16.reduceToNat]
  omega

theorem isWhiteSpace_asciiLower (c : UInt16) :
    isWhiteSpace (asciiLower c) = isWhiteSpace c := by
  have hval := toNat_asciiLower c
  by_cases h : 0x41 ≤ c.toNat ∧ c.toNat ≤ 0x5A
  · have hlower := isWhiteSpace_of_letter (c := asciiLower c) (by rw [hval, if_pos h]; omega)
    rw [isWhiteSpace_of_letter (c := c) (by omega), hlower]
  · have hsame : asciiLower c = c := by
      apply UInt16.toNat_inj.mp
      rw [hval, if_neg h]
    rw [hsame]

theorem trim_map_asciiLower (s : JsString) :
    trim (s.map asciiLower) = (trim s).map asciiLower := by
  have hcomp : isWhiteSpace ∘ asciiLower = isWhiteSpace := funext isWhiteSpace_asciiLower
  simp only [trim, List.dropWhile_map, hcomp, ← List.map_reverse]

theorem trim_eq (s : JsString) :
    trim s = (s.dropWhile isWhiteSpace).rdropWhile isWhiteSpace := rfl

theorem trim_trim (s : JsString) : trim (trim s) = trim s := by
  rw [trim_eq, trim_eq]
  set t := s.dropWhile isWhiteSpace with ht
  have hhead : (t.rdropWhile isWhiteSpace).dropWhile isWhiteSpace =
      t.rdropWhile isWhiteSpace := by
    obtain ⟨v, hv⟩ := List.rdropWhile_prefix isWhiteSpace t
    rw [List.dropWhile_eq_self_iff]
    intro hpos
    -- the first code unit of what is left is that of `t`
    have hfirst := List.dropWhile_get_zero_not isWhiteSpace s
      (by rw [← ht, ← hv, List.length_append]; omega)
    rwa [List.get_eq_getElem, List.getElem_of_eq ht.symm, List.getElem_of_eq hv.symm,
      List.getElem_append_left hpos] at hfirst
  rw [hhead, List.rdropWhile_idempotent]

theorem toNat_asciiUpper (c : UInt16) :
    (asciiUpper c).toNat = if 97 ≤ c.toNat ∧ c.toNat ≤ 122 then c.toNat - 32 else c.toNat := by
  have h₁ : (0x61 : UInt16).toNat = 97 := rfl
  have h₂ : (0x7A : UInt16).toNat = 122 := rfl
  unfold asciiUpper
  by_cases h : 97 ≤ c.toNat ∧ c.toNat ≤ 122
  · rw [if_pos h, if_pos]
    · rw [UInt16.toNat_sub_of_le]
      · rfl
      · rw [UInt16.le_iff_toNat_le]
        show 32 ≤ c.toNat
        omega
    · simp only [Bool.and_eq_true, decide_eq_true_eq, UInt16.le_iff_toNat_le]
      omega
  · rw [if_neg h, if_neg]
    simp only [Bool.and_eq_true, decide_eq_true_eq, UInt16.le_iff_toNat_le]
    omega

/-- A text without letters has one spelling. -/
theorem CaseVariant.eq_of_not_hasLetter {s t : JsString} (h : CaseVariant s t)
    (hs : hasLetter s = false) : t = s := by
  induction s generalizing t with
  | nil =>
    cases t with
    | nil => rfl
    | cons => cases h
  | cons c s ih =>
    cases t with
    | nil => cases h
    | cons d t =>
      simp only [CaseVariant, List.map_cons, List.cons.injEq] at h
      simp only [hasLetter, List.any_cons, Bool.or_eq_false_iff] at hs
      rw [ih h.2 hs.2]
      congr 1
      have hlower := congrArg UInt16.toNat h.1
      have hletter := hs.1
      simp only [isLetter, Bool.and_eq_false_iff, decide_eq_false_iff_not, toNat_asciiLower]
        at hletter
      rw [toNat_asciiLower, toNat_asciiLower] at hlower
      apply UInt16.toNat_inj.mp
      split_ifs at hlower hletter <;> omega

/-- A text with a letter has a spelling that is not all lower case. -/
theorem exists_caseVariant_not_lower {s : JsString} (hs : hasLetter s = true) :
    ∃ t, CaseVariant s t ∧ t.map asciiLower ≠ t := by
  refine ⟨s.map asciiUpper, ?_, ?_⟩
  · rw [CaseVariant, List.map_map]
    apply List.map_congr_left
    intro c _
    apply UInt16.toNat_inj.mp
    simp only [Function.comp_apply, toNat_asciiLower, toNat_asciiUpper]
    split_ifs <;> omega
  · intro heq
    obtain ⟨c, hc, hletter⟩ := List.any_eq_true.mp hs
    rw [List.map_map, List.map_inj_left] at heq
    have hunit := congrArg UInt16.toNat (heq c hc)
    simp only [isLetter, Bool.and_eq_true, decide_eq_true_eq, toNat_asciiLower] at hletter
    simp only [Function.comp_apply, toNat_asciiLower, toNat_asciiUpper] at hunit
    split_ifs at hunit hletter <;> omega

/-! ## ASCII texts -/

/-- Every code unit is an ASCII character other than U+0000. -/
def Ascii (s : JsString) : Prop := ∀ c ∈ s, 0 < c.toNat ∧ c.toNat < 128

instance (s : JsString) : Decidable (Ascii s) := List.decidableBAll _ s

theorem ascii_nil : Ascii [] := by
  intro c hc
  cases hc

theorem ascii_cons {c : UInt16} {s : JsString} :
    Ascii (c :: s) ↔ (0 < c.toNat ∧ c.toNat < 128) ∧ Ascii s := List.forall_mem_cons

theorem ascii_append {s t : JsString} : Ascii (s ++ t) ↔ Ascii s ∧ Ascii t :=
  List.forall_mem_append

/-- A printable ASCII character that a quoted string holds as it is. -/
def plainUnit (c : UInt16) : Bool :=
  0x20 ≤ c.toNat && c.toNat < 0x80 && c != 0x22 && c != 0x5C

/-- Every code unit stands in a quoted string as it is. -/
def Plain (s : JsString) : Prop := ∀ c ∈ s, plainUnit c = true

instance (s : JsString) : Decidable (Plain s) := List.decidableBAll _ s

theorem plain_nil : Plain [] := by
  intro c hc
  cases hc

theorem plain_cons {c : UInt16} {s : JsString} :
    Plain (c :: s) ↔ plainUnit c = true ∧ Plain s := List.forall_mem_cons

theorem plain_append {s t : JsString} : Plain (s ++ t) ↔ Plain s ∧ Plain t :=
  List.forall_mem_append

theorem Plain.ascii {s : JsString} (h : Plain s) : Ascii s := by
  intro c hc
  have hp := h c hc
  simp only [plainUnit, Bool.and_eq_true, decide_eq_true_eq] at hp
  omega

/-! ## Fixed-length patterns -/

/-- A pattern of one character class per position, anchored at both ends. -/
def matchesClasses : List (UInt16 → Bool) → JsString → Bool
  | [], [] => true
  | p :: ps, c :: cs => p c && matchesClasses ps cs
  | _, _ => false

/-- A pattern whose classes do not look at the case of letters accepts every spelling of what it
accepts. -/
theorem matchesClasses_map_asciiLower {ps : List (UInt16 → Bool)}
    (hp : ∀ p ∈ ps, ∀ c, p (asciiLower c) = p c) (s : JsString) :
    matchesClasses ps (s.map asciiLower) = matchesClasses ps s := by
  induction ps generalizing s with
  | nil => cases s <;> rfl
  | cons p ps ih =>
    cases s with
    | nil => rfl
    | cons c cs =>
      simp only [List.map_cons, matchesClasses, hp p List.mem_cons_self c,
        ih (fun q hq => hp q (List.mem_cons_of_mem _ hq)) cs]

theorem length_of_matchesClasses {ps : List (UInt16 → Bool)} {s : JsString}
    (h : matchesClasses ps s = true) : s.length = ps.length := by
  induction ps generalizing s with
  | nil =>
    cases s with
    | nil => rfl
    | cons => cases h
  | cons p ps ih =>
    cases s with
    | nil => cases h
    | cons c cs =>
      simp only [matchesClasses, Bool.and_eq_true] at h
      rw [List.length_cons, List.length_cons, ih h.2]

/-- Every code unit of an accepted text is in a class of the pattern. -/
theorem exists_class_of_matchesClasses {ps : List (UInt16 → Bool)} {s : JsString}
    (h : matchesClasses ps s = true) : ∀ c ∈ s, ∃ p ∈ ps, p c = true := by
  induction ps generalizing s with
  | nil =>
    cases s with
    | nil => simp
    | cons => cases h
  | cons p ps ih =>
    cases s with
    | nil => cases h
    | cons c cs =>
      simp only [matchesClasses, Bool.and_eq_true] at h
      intro d hd
      rcases List.mem_cons.mp hd with rfl | hd
      · exact ⟨p, List.mem_cons_self, h.1⟩
      · obtain ⟨q, hq, hqd⟩ := ih h.2 d hd
        exact ⟨q, List.mem_cons_of_mem p hq, hqd⟩

end MernChat
