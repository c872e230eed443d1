import Mathlib.Data.List.TakeWhile
import MernChat.Runtime.Postgres

/-!
# Bytes and their texts

UTF-8 and base64url as `Buffer` writes and reads them. Reading is lenient: malformed UTF-8 gives
U+FFFD for every maximal part of a sequence, and a base64 text ends at the first `=`, its code
units taken modulo 256 and those that are no digits passed over.

## Main definitions

* `utf8Encode`, `utf8Decode`
* `base64urlEncode`, `base64urlDecode`

## Main results

* `utf8Decode_utf8Encode`: a text is read back, as a well-formed one
* `base64urlDecode_base64urlEncode`: bytes are read back
-/

namespace MernChat

/-! ## UTF-8 -/

/-- The code points of a text, U+FFFD for an unpaired surrogate. -/
def textCodePoints : JsString → List Nat
  | [] => []
  | [c] => [if isHighSurrogate c || isLowSurrogate c then 0xFFFD else c.toNat]
  | c :: d :: s =>
    if isHighSurrogate c && isLowSurrogate d then
      (0x10000 + (c.toNat - 0xD800) * 0x400 + (d.toNat - 0xDC00)) :: textCodePoints s
    else (if isHighSurrogate c || isLowSurrogate c then 0xFFFD else c.toNat) ::
      textCodePoints (d :: s)

/-- The bytes of a code point. -/
def utf8Bytes (n : Nat) : List UInt8 :=
  if n < 0x80 then [UInt8.ofNat n]
  else if n < 0x800 then [UInt8.ofNat (0xC0 + n / 0x40), UInt8.ofNat (0x80 + n % 0x40)]
  else if n < 0x10000 then
    [UInt8.ofNat (0xE0 + n / 0x1000), UInt8.ofNat (0x80 + n / 0x40 % 0x40),
      UInt8.ofNat (0x80 + n % 0x40)]
  else
    [UInt8.ofNat (0xF0 + n / 0x40000), UInt8.ofNat (0x80 + n / 0x1000 % 0x40),
      UInt8.ofNat (0x80 + n / 0x40 % 0x40), UInt8.ofNat (0x80 + n % 0x40)]

/-- `Buffer.from(s, "utf8")`. -/
def utf8Encode (s : JsString) : List UInt8 := (textCodePoints s).flatMap utf8Bytes

/-- The code units of a code point. -/
def codeUnits (n : Nat) : JsString :=
  if n < 0x10000 then [UInt16.ofNat n]
  else [UInt16.ofNat (0xD800 + (n - 0x10000) / 0x400),
    UInt16.ofNat (0xDC00 + (n - 0x10000) % 0x400)]

/-- What a leading byte announces: the number of bytes to follow, the bits it contributes, and
the range of the next byte. -/
def utf8Lead (b : Nat) : Option (Nat × Nat × Nat × Nat) :=
  if 0xC2 ≤ b ∧ b ≤ 0xDF then some (1, b - 0xC0, 0x80, 0xBF)
  else if b = 0xE0 then some (2, 0, 0xA0, 0xBF)
  else if b = 0xED then some (2, 0xD, 0x80, 0x9F)
  else if 0xE1 ≤ b ∧ b ≤ 0xEF then some (2, b - 0xE0, 0x80, 0xBF)
  else if b = 0xF0 then some (3, 0, 0x90, 0xBF)
  else if b = 0xF4 then some (3, 4, 0x80, 0x8F)
  else if 0xF1 ≤ b ∧ b ≤ 0xF3 then some (3, b - 0xF0, 0x80, 0xBF)
  else none

/-- A decoder within a sequence: the bytes to follow, the bits so far, and the range of the next
byte. Without bytes to follow it is between sequences. -/
structure Utf8State where
  needed : Nat
  value : Nat
  lower : Nat
  upper : Nat

def Utf8State.start : Utf8State := ⟨0, 0, 0x80, 0xBF⟩

/-- One byte between sequences. -/
def utf8Start (b : Nat) : JsString × Utf8State :=
  if b < 0x80 then ([UInt16.ofNat b], .start)
  else
    match utf8Lead b with
    | some (needed, value, lower, upper) => ([], ⟨needed, value, lower, upper⟩)
    | none => ([0xFFFD], .start)

/-- One byte of the input: the code units it completes, and the state after it. -/
def utf8Step (st : Utf8State) (b : Nat) : JsString × Utf8State :=
  if st.needed = 0 then utf8Start b
  else if st.lower ≤ b ∧ b ≤ st.upper then
    let value := st.value * 0x40 + (b - 0x80)
    if st.needed = 1 then (codeUnits value, .start)
    else ([], ⟨st.needed - 1, value, 0x80, 0xBF⟩)
  else
    -- the sequence is cut short, and the byte begins anew
    let next := utf8Start b
    (0xFFFD :: next.1, next.2)

def utf8DecodeFrom : Utf8State → List UInt8 → JsString
  | st, [] => if st.needed = 0 then [] else [0xFFFD]
  | st, b :: bs =>
    let next := utf8Step st b.toNat
    next.1 ++ utf8DecodeFrom next.2 bs

/-- `buffer.toString("utf8")`. -/
def utf8Decode (bytes : List UInt8) : JsString := utf8DecodeFrom .start bytes

theorem utf8Encode_of_ascii {s : JsString} (h : Ascii s) :
    utf8Encode s = s.map fun c => UInt8.ofNat c.toNat := by
  unfold utf8Encode
  induction s using textCodePoints.induct with
  | case1 => rfl
  | case2 c =>
    obtain ⟨hh, hl⟩ := not_surrogate (ascii_cons.mp h).1.2
    simp [textCodePoints, hh, hl, utf8Bytes, (ascii_cons.mp h).1.2]
  | case3 c d s hc ih =>
    rw [(not_surrogate (ascii_cons.mp h).1.2).1] at hc
    simp at hc
  | case4 c d s hc ih =>
    obtain ⟨hh, hl⟩ := not_surrogate (ascii_cons.mp h).1.2
    rw [textCodePoints, if_neg hc, List.flatMap_cons, ih (ascii_cons.mp h).2]
    simp [hh, hl, utf8Bytes, (ascii_cons.mp h).1.2]

/-- A code point of a text is no surrogate. -/
def Scalar (n : Nat) : Prop := n < 0xD800 ∨ 0xE000 ≤ n ∧ n < 0x110000

theorem toNat_byte {n : Nat} (h : n < 256) : (UInt8.ofNat n).toNat = n := by
  rw [UInt8.toNat_ofNat', Nat.mod_eq_of_lt h]

/-- A byte that goes on a well-formed sequence, or begins one. -/
def utf8Accepts (st : Utf8State) (b : Nat) : Bool :=
  if st.needed = 0 then b < 0x80 || (utf8Lead b).isSome else st.lower ≤ b && b ≤ st.upper

/-- A well-formed part of the input, with the code units it gives and the state after it. -/
inductive Utf8Reads : Utf8State → List UInt8 → JsString → Utf8State → Prop
  | nil (st) : Utf8Reads st [] [] st
  | cons {st st' b bytes units} : utf8Accepts st b.toNat = true →
      Utf8Reads (utf8Step st b.toNat).2 bytes units st' →
      Utf8Reads st (b :: bytes) ((utf8Step st b.toNat).1 ++ units) st'

theorem Utf8Reads.step {st st₁ st' : Utf8State} {b : Nat} {bytes : List UInt8}
    {units units' : JsString} (hb : b < 256) (haccepts : utf8Accepts st b = true)
    (hstep : utf8Step st b = (units, st₁)) (h : Utf8Reads st₁ bytes units' st') :
    Utf8Reads st (UInt8.ofNat b :: bytes) (units ++ units') st' := by
  have hbyte := toNat_byte hb
  have hunits : (utf8Step st (UInt8.ofNat b).toNat).1 = units := by rw [hbyte, hstep]
  rw [← hunits]
  refine .cons ?_ ?_
  · rw [hbyte]
    exact haccepts
  · rw [hbyte, hstep]
    exact h

/-- The lenient decoder reads a well-formed part as it is. -/
theorem Utf8Reads.utf8DecodeFrom_append {st st' : Utf8State} {bytes : List UInt8}
    {units : JsString} (h : Utf8Reads st bytes units st') (rest : List UInt8) :
    utf8DecodeFrom st (bytes ++ rest) = units ++ utf8DecodeFrom st' rest := by
  induction h with
  | nil st => rfl
  | cons haccepts h ih => rw [List.cons_append, utf8DecodeFrom, ih, List.append_assoc]

theorem utf8Step_start {b needed value lower upper : Nat} (h : 0x80 ≤ b)
    (hlead : utf8Lead b = some (needed, value, lower, upper)) :
    utf8Step .start b = ([], ⟨needed, value, lower, upper⟩) := by
  have hb : ¬ b < 0x80 := by omega
  simp [utf8Step, Utf8State.start, utf8Start, hb, hlead]

theorem utf8Step_last {value lower upper b n : Nat} (h : lower ≤ b ∧ b ≤ upper)
    (hn : value * 0x40 + (b - 0x80) = n) :
    utf8Step ⟨1, value, lower, upper⟩ b = (codeUnits n, .start) := by
  simp [utf8Step, h, hn]

theorem utf8Step_next {needed value lower upper b : Nat} (h : lower ≤ b ∧ b ≤ upper)
    (hneeded : 1 < needed) :
    utf8Step ⟨needed, value, lower, upper⟩ b =
      ([], ⟨needed - 1, value * 0x40 + (b - 0x80), 0x80, 0xBF⟩) := by
  have h0 : needed ≠ 0 := by omega
  have h1 : needed ≠ 1 := by omega
  simp [utf8Step, h, h0, h1]

theorem utf8Lead_two {b : Nat} (h : 0xC2 ≤ b ∧ b ≤ 0xDF) :
    utf8Lead b = some (1, b - 0xC0, 0x80, 0xBF) := if_pos h

theorem utf8Lead_three {b : Nat} (h : 0xE0 ≤ b ∧ b ≤ 0xEF) :
    ∃ lower upper, utf8Lead b = some (2, b - 0xE0, lower, upper) ∧
      (b = 0xE0 → lower = 0xA0) ∧ (b ≠ 0xE0 → lower = 0x80) ∧
      (b = 0xED → upper = 0x9F) ∧ (b ≠ 0xED → upper = 0xBF) := by
  have htwo : ¬ (0xC2 ≤ b ∧ b ≤ 0xDF) := by omega
  -- the second byte is bounded after E0, which would be too long, and ED, which has surrogates
  by_cases hE0 : b = 0xE0
  · exact ⟨0xA0, 0xBF, by simp [utf8Lead, hE0], by omega, by omega, by omega, by omega⟩
  · by_cases hED : b = 0xED
    · exact ⟨0x80, 0x9F, by simp [utf8Lead, hED], by omega, by omega, by omega, by omega⟩
    · have hmid : 0xE1 ≤ b ∧ b ≤ 0xEF := by omega
      exact ⟨0x80, 0xBF, by rw [utf8Lead, if_neg htwo, if_neg hE0, if_neg hED, if_pos hmid],
        by omega, by omega, by omega, by omega⟩

theorem utf8Lead_four {b : Nat} (h : 0xF0 ≤ b ∧ b ≤ 0xF4) :
    ∃ lower upper, utf8Lead b = some (3, b - 0xF0, lower, upper) ∧
      (b = 0xF0 → lower = 0x90) ∧ (b ≠ 0xF0 → lower = 0x80) ∧
      (b = 0xF4 → upper = 0x8F) ∧ (b ≠ 0xF4 → upper = 0xBF) := by
  -- and after F0, which would be too long, and F4, beyond which there are no code points
  by_cases hF0 : b = 0xF0
  · exact ⟨0x90, 0xBF, by simp [utf8Lead, hF0], by omega, by omega, by omega, by omega⟩
  · by_cases hF4 : b = 0xF4
    · exact ⟨0x80, 0x8F, by simp [utf8Lead, hF4], by omega, by omega, by omega, by omega⟩
    · have htwo : ¬ (0xC2 ≤ b ∧ b ≤ 0xDF) := by omega
      have hthree : ¬ (0xE1 ≤ b ∧ b ≤ 0xEF) := by omega
      have hmid : 0xF1 ≤ b ∧ b ≤ 0xF3 := by omega
      exact ⟨0x80, 0xBF, by rw [utf8Lead, if_neg htwo, if_neg (by omega), if_neg (by omega),
        if_neg hthree, if_neg hF0, if_neg hF4, if_pos hmid], by omega, by omega, by omega, by omega⟩

theorem utf8Accepts_lead {b : Nat} {lead : Nat × Nat × Nat × Nat} (h : utf8Lead b = some lead) :
    utf8Accepts .start b = true := by
  simp [utf8Accepts, Utf8State.start, h]

theorem utf8Accepts_next {needed value lower upper b : Nat} (hneeded : 0 < needed)
    (h : lower ≤ b ∧ b ≤ upper) : utf8Accepts ⟨needed, value, lower, upper⟩ b = true := by
  have h0 : needed ≠ 0 := by omega
  simp [utf8Accepts, h0, h]

theorem Utf8Reads.last {value lower upper b n : Nat} (hb : b < 256) (h : lower ≤ b ∧ b ≤ upper)
    (hn : value * 0x40 + (b - 0x80) = n) :
    Utf8Reads ⟨1, value, lower, upper⟩ [UInt8.ofNat b] (codeUnits n) .start := by
  have hstep := Utf8Reads.step hb (utf8Accepts_next (by decide) h) (utf8Step_last h hn)
    (.nil .start)
  rwa [List.append_nil] at hstep

theorem Utf8Reads.next {needed value lower upper b : Nat} {bytes : List UInt8} {units : JsString}
    (hb : b < 256) (h : lower ≤ b ∧ b ≤ upper) (hneeded : 1 < needed)
    (hrest : Utf8Reads ⟨needed - 1, value * 0x40 + (b - 0x80), 0x80, 0xBF⟩ bytes units .start) :
    Utf8Reads ⟨needed, value, lower, upper⟩ (UInt8.ofNat b :: bytes) units .start :=
  .step hb (utf8Accepts_next (by omega) h) (utf8Step_next h hneeded) hrest

theorem Utf8Reads.lead {b needed value lower upper : Nat} {bytes : List UInt8} {units : JsString}
    (hb : 0x80 ≤ b ∧ b < 256) (hlead : utf8Lead b = some (needed, value, lower, upper))
    (hrest : Utf8Reads ⟨needed, value, lower, upper⟩ bytes units .start) :
    Utf8Reads .start (UInt8.ofNat b :: bytes) units .start :=
  .step hb.2 (utf8Accepts_lead hlead) (utf8Step_start hb.1 hlead) hrest

/-- **The bytes of a code point are well-formed**, and give its code units. -/
theorem utf8Reads_utf8Bytes {n : Nat} (h : Scalar n) :
    Utf8Reads .start (utf8Bytes n) (codeUnits n) .start := by
  -- a code point has one to four bytes
  unfold utf8Bytes
  split_ifs with h1 h2 h3
  · have hstep : utf8Step .start n = ([UInt16.ofNat n], .start) := by
      simp [utf8Step, Utf8State.start, utf8Start, h1]
    have hunits : codeUnits n = [UInt16.ofNat n] := if_pos (by omega)
    have haccepts : utf8Accepts .start n = true := by
      simp [utf8Accepts, Utf8State.start, h1]
    rw [hunits]
    exact .step (by omega) haccepts hstep (.nil _)
  · exact .lead (by omega) (utf8Lead_two (by omega)) (.last (by omega) (by omega) (by omega))
  · obtain ⟨lower, upper, hlead, hl, hl', hu, hu'⟩ :=
      utf8Lead_three (b := 0xE0 + n / 0x1000) (by omega)
    -- the second byte is in the range that the first one allows
    have hsecond : lower ≤ 0x80 + n / 0x40 % 0x40 ∧ 0x80 + n / 0x40 % 0x40 ≤ upper := by
      unfold Scalar at h
      by_cases hE0 : 0xE0 + n / 0x1000 = 0xE0 <;> by_cases hED : 0xE0 + n / 0x1000 = 0xED <;>
        omega
    refine .lead (by omega) hlead (.next (by omega) hsecond (by omega) ?_)
    exact .last (by omega) (by omega) (by omega)
  · obtain ⟨lower, upper, hlead, hl, hl', hu, hu'⟩ :=
      utf8Lead_four (b := 0xF0 + n / 0x40000) (by unfold Scalar at h; omega)
    -- and here too, as there are no code points beyond 10FFFF
    have hsecond : lower ≤ 0x80 + n / 0x1000 % 0x40 ∧ 0x80 + n / 0x1000 % 0x40 ≤ upper := by
      unfold Scalar at h
      by_cases hF0 : 0xF0 + n / 0x40000 = 0xF0 <;> by_cases hF4 : 0xF0 + n / 0x40000 = 0xF4 <;>
        omega
    refine .lead (by unfold Scalar at h; omega) hlead (.next (by omega) hsecond (by omega) ?_)
    refine .next (by omega) (by omega) (by omega) ?_
    exact .last (by omega) (by omega) (by omega)

/-- **The bytes of a code point are read back.** -/
theorem utf8DecodeFrom_utf8Bytes {n : Nat} (h : Scalar n) (bytes : List UInt8) :
    utf8DecodeFrom .start (utf8Bytes n ++ bytes) = codeUnits n ++ utf8DecodeFrom .start bytes :=
  (utf8Reads_utf8Bytes h).utf8DecodeFrom_append bytes

/-- A text with U+FFFD for its unpaired surrogates is that of its code points. -/
theorem flatMap_codeUnits (s : JsString) :
    (textCodePoints s).flatMap codeUnits = toWellFormed s := by
  have hunit : ∀ c : UInt16, codeUnits c.toNat = [c] := by
    intro c
    rw [codeUnits, if_pos c.toNat_lt, UInt16.ofNat_toNat]
  have hreplacement : codeUnits 0xFFFD = [0xFFFD] := rfl
  induction s using textCodePoints.induct with
  | case1 => rfl
  | case2 c =>
    rw [textCodePoints, toWellFormed]
    by_cases hc : (isHighSurrogate c || isLowSurrogate c) = true
    · rw [if_pos hc, if_pos hc]
      rfl
    · rw [if_neg hc, if_neg hc, List.flatMap_singleton, hunit]
  | case3 c d s hc ih =>
    obtain ⟨hhigh, hlow⟩ := Bool.and_eq_true_iff.mp hc
    simp only [isHighSurrogate, isLowSurrogate, Bool.and_eq_true, decide_eq_true_eq,
      UInt16.le_iff_toNat_le, UInt16.reduceToNat] at hhigh hlow
    -- the code point of a pair has these two surrogates
    have hpair : codeUnits (0x10000 + (c.toNat - 0xD800) * 0x400 + (d.toNat - 0xDC00)) =
        [c, d] := by
      rw [codeUnits, if_neg (by omega)]
      have hc' : 0xD800 + (0x10000 + (c.toNat - 0xD800) * 0x400 + (d.toNat - 0xDC00) - 0x10000) /
          0x400 = c.toNat := by omega
      have hd' : 0xDC00 + (0x10000 + (c.toNat - 0xD800) * 0x400 + (d.toNat - 0xDC00) - 0x10000) %
          0x400 = d.toNat := by omega
      rw [hc', hd', UInt16.ofNat_toNat, UInt16.ofNat_toNat]
    rw [textCodePoints, toWellFormed, if_pos hc, if_pos hc, List.flatMap_cons, hpair, ih]
    rfl
  | case4 c d s hc ih =>
    rw [textCodePoints, toWellFormed, if_neg hc, if_neg hc, List.flatMap_cons, ih]
    by_cases hc' : (isHighSurrogate c || isLowSurrogate c) = true
    · rw [if_pos hc', if_pos hc', hreplacement]
      rfl
    · rw [if_neg hc', if_neg hc', hunit]
      rfl

theorem scalar_of_mem_textCodePoints {s : JsString} {n : Nat} (h : n ∈ textCodePoints s) :
    Scalar n := by
  -- an unpaired surrogate has the replacement character in its place
  have hunit : ∀ c : UInt16,
      Scalar (if isHighSurrogate c || isLowSurrogate c then 0xFFFD else c.toNat) := by
    intro c
    have hlt := c.toNat_lt
    split_ifs with hc
    · exact Or.inr (by omega)
    · simp only [isHighSurrogate, isLowSurrogate, Bool.or_eq_true, Bool.and_eq_true,
        decide_eq_true_eq, UInt16.le_iff_toNat_le, UInt16.reduceToNat] at hc
      unfold Scalar
      omega
  induction s using textCodePoints.induct with
  | case1 => cases h
  | case2 c =>
    rw [textCodePoints, List.mem_singleton] at h
    exact h ▸ hunit c
  | case3 c d s hc ih =>
    rw [textCodePoints, if_pos hc, List.mem_cons] at h
    rcases h with h | h
    · simp only [isHighSurrogate, isLowSurrogate, Bool.and_eq_true, decide_eq_true_eq,
        UInt16.le_iff_toNat_le, UInt16.reduceToNat] at hc
      unfold Scalar
      omega
    · exact ih h
  | case4 c d s hc ih =>
    rw [textCodePoints, if_neg hc, List.mem_cons] at h
    rcases h with rfl | h
    · exact hunit c
    · exact ih h

/-- **A text is read back**, with U+FFFD for its unpaired surrogates. -/
theorem utf8Decode_utf8Encode (s : JsString) : utf8Decode (utf8Encode s) = toWellFormed s := by
  rw [← flatMap_codeUnits, utf8Encode]
  have hscalar : ∀ n ∈ textCodePoints s, Scalar n := fun _ => scalar_of_mem_textCodePoints
  generalize textCodePoints s = ns at hscalar
  induction ns with
  | nil => rfl
  | cons n ns ih =>
    obtain ⟨hn, hns⟩ := List.forall_mem_cons.mp hscalar
    have hrest := ih hns
    rw [utf8Decode] at hrest ⊢
    rw [List.flatMap_cons, utf8DecodeFrom_utf8Bytes hn, hrest, List.flatMap_cons]

theorem textCodePoints_cons {c : UInt16} (h : (isHighSurrogate c || isLowSurrogate c) = false)
    (s : JsString) : textCodePoints (c :: s) = c.toNat :: textCodePoints s := by
  obtain ⟨hhigh, hlow⟩ := Bool.or_eq_false_iff.mp h
  cases s with
  | nil => simp [textCodePoints, hhigh, hlow]
  | cons d s => simp [textCodePoints, hhigh, hlow]

/-- Replacing unpaired surrogates leaves the code points. -/
theorem textCodePoints_toWellFormed (s : JsString) :
    textCodePoints (toWellFormed s) = textCodePoints s := by
  induction s using toWellFormed.induct with
  | case1 => rfl
  | case2 c hc =>
    rw [toWellFormed, if_pos hc, textCodePoints, textCodePoints, if_pos hc]
    rfl
  | case3 c hc => rw [toWellFormed, if_neg hc]
  | case4 c d s hc ih =>
    rw [toWellFormed, if_pos hc, textCodePoints, if_pos hc, ih, textCodePoints, if_pos hc]
  | case5 c d s hc hc' ih =>
    -- the replacement character is a code point of its own
    rw [toWellFormed, if_neg hc, if_pos hc', textCodePoints_cons (by decide), ih,
      textCodePoints, if_neg hc, if_pos hc']
    rfl
  | case6 c d s hc hc' ih =>
    rw [toWellFormed, if_neg hc, if_neg hc', textCodePoints_cons (Bool.eq_false_iff.mpr hc'), ih,
      textCodePoints, if_neg hc, if_neg hc']

/-- The bytes of two texts are the same when the texts are, as well-formed ones. -/
theorem utf8Encode_eq_iff {s t : JsString} :
    utf8Encode s = utf8Encode t ↔ toWellFormed s = toWellFormed t := by
  constructor
  · intro h
    rw [← utf8Decode_utf8Encode, h, utf8Decode_utf8Encode]
  · intro h
    rw [utf8Encode, ← textCodePoints_toWellFormed, h, textCodePoints_toWellFormed, utf8Encode]

/-- Bytes come back from their text exactly when they are those of one. -/
theorem utf8Encode_utf8Decode_eq_iff {bytes : List UInt8} :
    utf8Encode (utf8Decode bytes) = bytes ↔ ∃ text, bytes = utf8Encode text := by
  constructor
  · intro h
    exact ⟨_, h.symm⟩
  · rintro ⟨text, rfl⟩
    rw [utf8Decode_utf8Encode, utf8Encode_eq_iff, toWellFormed_toWellFormed]

theorem utf8Start_eq_nil {b : Nat} (h : (utf8Start b).1 = []) : (utf8Start b).2.needed ≠ 0 := by
  unfold utf8Start at h ⊢
  split_ifs at h ⊢
  unfold utf8Lead at h ⊢
  split_ifs at h ⊢ <;> simp at h ⊢

theorem codeUnits_ne_nil (n : Nat) : codeUnits n ≠ [] := by
  unfold codeUnits
  split_ifs <;> exact List.cons_ne_nil _ _

/-- A sequence that has begun leaves something, whatever follows. -/
theorem utf8DecodeFrom_ne_nil {st : Utf8State} (h : st.needed ≠ 0) (bytes : List UInt8) :
    utf8DecodeFrom st bytes ≠ [] := by
  induction bytes generalizing st with
  | nil =>
    -- a sequence that ends too early is replaced
    rw [utf8DecodeFrom, if_neg h]
    exact List.cons_ne_nil _ _
  | cons b bytes ih =>
    rw [utf8DecodeFrom, utf8Step, if_neg h]
    split_ifs with hrange hone
    · simp only [ne_eq, List.append_eq_nil_iff, codeUnits_ne_nil, false_and, not_false_eq_true]
    · have hneeded : st.needed - 1 ≠ 0 := by omega
      rw [List.nil_append]
      apply ih
      exact hneeded
    · exact List.cons_ne_nil _ _

/-- Only no bytes are the empty text. -/
theorem utf8Decode_eq_nil {bytes : List UInt8} : utf8Decode bytes = [] ↔ bytes = [] := by
  constructor
  · intro h
    cases bytes with
    | nil => rfl
    | cons b bytes =>
      -- a byte leaves something at once, or begins a sequence
      have hzero : Utf8State.start.needed = 0 := rfl
      rw [utf8Decode, utf8DecodeFrom, utf8Step, if_pos hzero] at h
      obtain ⟨hstart, hrest⟩ := List.append_eq_nil_iff.mp h
      exact absurd hrest (utf8DecodeFrom_ne_nil (utf8Start_eq_nil hstart) bytes)
  · rintro rfl
    rfl

/-! ## base64url -/

/-- The code unit of a digit. -/
def base64Char (n : Nat) : UInt16 :=
  UInt16.ofNat (if n < 26 then 0x41 + n else if n < 52 then 0x61 + (n - 26)
    else if n < 62 then 0x30 + (n - 52) else if n = 62 then 0x2D else 0x5F)

/-- The digit of a code unit, in either alphabet. -/
def base64Value (c : UInt16) : Option Nat :=
  let b := c.toNat % 256
  if 0x41 ≤ b ∧ b ≤ 0x5A then some (b - 0x41)
  else if 0x61 ≤ b ∧ b ≤ 0x7A then some (b - 0x61 + 26)
  else if 0x30 ≤ b ∧ b ≤ 0x39 then some (b - 0x30 + 52)
  else if b = 0x2B ∨ b = 0x2D then some 62
  else if b = 0x2F ∨ b = 0x5F then some 63
  else none

/-- The digits of a text of bytes, three bytes to four digits. -/
def base64Digits : List UInt8 → List Nat
  | [] => []
  | [a] => [a.toNat / 4, a.toNat % 4 * 16]
  | [a, b] => [a.toNat / 4, a.toNat % 4 * 16 + b.toNat / 16, b.toNat % 16 * 4]
  | a :: b :: c :: s =>
    a.toNat / 4 :: (a.toNat % 4 * 16 + b.toNat / 16) :: (b.toNat % 16 * 4 + c.toNat / 64) ::
      c.toNat % 64 :: base64Digits s

/-- The bytes of digits; a single digit at the end has none. -/
def base64Bytes : List Nat → List UInt8
  | p :: q :: r :: t :: s =>
    UInt8.ofNat (p * 4 + q / 16) :: UInt8.ofNat (q % 16 * 16 + r / 4) ::
      UInt8.ofNat (r % 4 * 64 + t) :: base64Bytes s
  | [p, q, r] => [UInt8.ofNat (p * 4 + q / 16), UInt8.ofNat (q % 16 * 16 + r / 4)]
  | [p, q] => [UInt8.ofNat (p * 4 + q / 16)]
  | _ => []

/-- `buffer.toString("base64url")`. -/
def base64urlEncode (bytes : List UInt8) : JsString := (base64Digits bytes).map base64Char

/-- `Buffer.from(s, "base64url")`. -/
def base64urlDecode (s : JsString) : List UInt8 :=
  base64Bytes ((s.takeWhile fun c => c.toNat % 256 != 0x3D).filterMap base64Value)

theorem base64Char_value : ∀ n < 64, base64Value (base64Char n) = some n ∧
    ((base64Char n).toNat % 256 != 0x3D) = true := by decide

theorem base64Digits_lt (bytes : List UInt8) : ∀ n ∈ base64Digits bytes, n < 64 := by
  induction bytes using base64Digits.induct with
  | case1 => simp [base64Digits]
  | case2 a =>
    have ha := a.toNat_lt
    simp only [base64Digits, List.mem_cons, List.not_mem_nil, or_false]
    omega
  | case3 a b =>
    have ha := a.toNat_lt
    have hb := b.toNat_lt
    simp only [base64Digits, List.mem_cons, List.not_mem_nil, or_false]
    omega
  | case4 a b c s ih =>
    have ha := a.toNat_lt
    have hb := b.toNat_lt
    have hc := c.toNat_lt
    simp only [base64Digits, List.forall_mem_cons]
    exact ⟨by omega, by omega, by omega, by omega, ih⟩

theorem base64Bytes_base64Digits (bytes : List UInt8) :
    base64Bytes (base64Digits bytes) = bytes := by
  have hbyte : ∀ (x : UInt8) (n : Nat), n = x.toNat → UInt8.ofNat n = x := by
    rintro x n rfl
    exact UInt8.ofNat_toNat
  induction bytes using base64Digits.induct with
  | case1 => rfl
  | case2 a =>
    have ha := a.toNat_lt
    simp only [base64Digits, base64Bytes]
    rw [hbyte a _ (by omega)]
  | case3 a b =>
    have ha := a.toNat_lt
    have hb := b.toNat_lt
    simp only [base64Digits, base64Bytes]
    rw [hbyte a _ (by omega), hbyte b _ (by omega)]
  | case4 a b c s ih =>
    have ha := a.toNat_lt
    have hb := b.toNat_lt
    have hc := c.toNat_lt
    simp only [base64Digits, base64Bytes, ih]
    rw [hbyte a _ (by omega), hbyte b _ (by omega), hbyte c _ (by omega)]

/-- **Bytes are read back.** -/
theorem base64urlDecode_base64urlEncode (bytes : List UInt8) :
    base64urlDecode (base64urlEncode bytes) = bytes := by
  have hlt := base64Digits_lt bytes
  -- no digit is a `=`
  have htake : (base64urlEncode bytes).takeWhile (fun c => c.toNat % 256 != 0x3D) =
      base64urlEncode bytes := by
    rw [List.takeWhile_eq_self_iff]
    intro c hc
    obtain ⟨n, hn, rfl⟩ := List.mem_map.mp hc
    exact (base64Char_value n (hlt n hn)).2
  have hvalue : (base64urlEncode bytes).filterMap base64Value = base64Digits bytes := by
    rw [base64urlEncode, List.filterMap_map]
    have hsome : ∀ n ∈ base64Digits bytes, (base64Value ∘ base64Char) n = some n := by
      intro n hn
      exact (base64Char_value n (hlt n hn)).1
    rw [List.filterMap_congr hsome, List.filterMap_some]
  rw [base64urlDecode, htake, hvalue, base64Bytes_base64Digits]

/-- Three bytes take four digits. -/
theorem length_base64urlEncode (bytes : List UInt8) :
    (base64urlEncode bytes).length ≤ (bytes.length + 2) / 3 * 4 := by
  rw [base64urlEncode, List.length_map]
  induction bytes using base64Digits.induct with
  | case1 => simp [base64Digits]
  | case2 a => simp [base64Digits]
  | case3 a b => simp [base64Digits]
  | case4 a b c s ih =>
    simp only [base64Digits, List.length_cons]
    omega

end MernChat
