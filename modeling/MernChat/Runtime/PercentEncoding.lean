import MernChat.Runtime.Encoding

/-!
# Percent encoding

`encodeURIComponent` and `decodeURIComponent`. A text with an unpaired surrogate is not encoded,
and an escape that is not hexadecimal, or bytes that are not well-formed UTF-8, are not decoded.

## Main definitions

* `encodeURIComponent`, `decodeURIComponent`

## Main results

* `decodeURIComponent_encodeURIComponent`: a text is read back
* `unreserved_or_percent`: the code units of an encoded text
-/

namespace MernChat

/-- What the two functions throw. -/
inductive URIError
  | malformed
deriving DecidableEq

/-- The code points that stay as they are: letters, digits and `-_.!~*'()`. -/
def isUnreserved (n : Nat) : Bool :=
  (0x41 ≤ n && n ≤ 0x5A) || (0x61 ≤ n && n ≤ 0x7A) || (0x30 ≤ n && n ≤ 0x39) ||
    [0x2D, 0x5F, 0x2E, 0x21, 0x7E, 0x2A, 0x27, 0x28, 0x29].contains n

/-- The upper-case hexadecimal digit. -/
def upperHexDigit (d : Fin 16) : UInt16 := asciiUpper (hexDigit d)

/-- `%XX`. -/
def percentByte (b : UInt8) : JsString :=
  [0x25, upperHexDigit ⟨b.toNat / 16, by have := b.toNat_lt; omega⟩,
    upperHexDigit ⟨b.toNat % 16, by omega⟩]

/-- One code point of an encoded text. -/
def encodeCodePoint (n : Nat) : JsString :=
  if isUnreserved n then [UInt16.ofNat n] else (utf8Bytes n).flatMap percentByte

def encodeURIComponent (s : JsString) : Except URIError JsString :=
  if toWellFormed s = s then .ok ((textCodePoints s).flatMap encodeCodePoint)
  else .error .malformed

/-- The byte of an escape's two digits. -/
def escapedByte (high low : UInt16) : Option Nat :=
  (hexValue high).bind fun h => (hexValue low).map fun l => h.val * 16 + l.val

/-- The text from a state of the decoder on. -/
def decodeURIFrom : Utf8State → JsString → Except URIError JsString
  | st, [] => if st.needed = 0 then .ok [] else .error .malformed
  | st, c :: s =>
    if c = 0x25 then
      match s with
      | high :: low :: rest =>
        match escapedByte high low with
        | some b =>
          if utf8Accepts st b then
            (decodeURIFrom (utf8Step st b).2 rest).map fun decoded => (utf8Step st b).1 ++ decoded
          else .error .malformed
        | none => .error .malformed
      | _ => .error .malformed
    -- only another escape goes on a sequence
    else if st.needed = 0 then (decodeURIFrom st s).map fun decoded => c :: decoded
    else .error .malformed

def decodeURIComponent (s : JsString) : Except URIError JsString := decodeURIFrom .start s

/-! ## Reading back -/

theorem hexValue_upperHexDigit : ∀ d, hexValue (upperHexDigit d) = some d := by decide

theorem escapedByte_percentByte (b : UInt8) :
    escapedByte (upperHexDigit ⟨b.toNat / 16, by have := b.toNat_lt; omega⟩)
      (upperHexDigit ⟨b.toNat % 16, by omega⟩) = some b.toNat := by
  rw [escapedByte, hexValue_upperHexDigit, hexValue_upperHexDigit, Option.bind_some,
    Option.map_some, Option.some.injEq]
  exact Nat.div_add_mod' _ _

theorem decodeURIFrom_percentByte {st : Utf8State} {b : UInt8}
    (h : utf8Accepts st b.toNat = true) (rest : JsString) :
    decodeURIFrom st (percentByte b ++ rest) =
      (decodeURIFrom (utf8Step st b.toNat).2 rest).map
        fun decoded => (utf8Step st b.toNat).1 ++ decoded := by
  rw [percentByte, List.cons_append, List.cons_append, List.cons_append, List.nil_append,
    decodeURIFrom.eq_def]
  simp only [if_true, escapedByte_percentByte, if_pos h]

/-- The escapes of a well-formed part are read as it is. -/
theorem Utf8Reads.decodeURIFrom_append {st st' : Utf8State} {bytes : List UInt8}
    {units : JsString} (h : Utf8Reads st bytes units st') (rest : JsString) :
    decodeURIFrom st (bytes.flatMap percentByte ++ rest) =
      (decodeURIFrom st' rest).map fun decoded => units ++ decoded := by
  induction h with
  | nil st =>
    cases hrest : decodeURIFrom st rest <;> simp [hrest, Except.map]
  | @cons st st' b bytes units haccepts h ih =>
    rw [List.flatMap_cons, List.append_assoc, decodeURIFrom_percentByte haccepts, ih]
    cases decodeURIFrom st' rest <;> simp [Except.map]

theorem codeUnits_of_lt {n : Nat} (h : n < 0x10000) : codeUnits n = [UInt16.ofNat n] := if_pos h

theorem lt_of_isUnreserved {n : Nat} (h : isUnreserved n = true) : n < 0x80 ∧ n ≠ 0x25 := by
  simp only [isUnreserved, Bool.or_eq_true, Bool.and_eq_true, decide_eq_true_eq,
    List.contains_iff_mem, List.mem_cons, List.not_mem_nil, or_false] at h
  omega

/-- One code point is read back. -/
theorem decodeURIFrom_encodeCodePoint {n : Nat} (h : Scalar n) (rest : JsString) :
    decodeURIFrom .start (encodeCodePoint n ++ rest) =
      (decodeURIFrom .start rest).map fun decoded => codeUnits n ++ decoded := by
  unfold encodeCodePoint
  split_ifs with hn
  · obtain ⟨hlt, hne⟩ := lt_of_isUnreserved hn
    -- it is no percent sign
    have hunit : UInt16.ofNat n ≠ 0x25 := by
      intro heq
      have := congrArg UInt16.toNat heq
      rw [UInt16.toNat_ofNat', Nat.mod_eq_of_lt (by omega)] at this
      exact hne this
    have hzero : Utf8State.start.needed = 0 := rfl
    rw [codeUnits_of_lt (by omega), List.singleton_append, decodeURIFrom.eq_def]
    simp only [if_neg hunit, if_pos hzero, List.singleton_append]
  · exact (utf8Reads_utf8Bytes h).decodeURIFrom_append rest

/-- A well-formed text is encoded. -/
theorem encodeURIComponent_of_wellFormed {s : JsString} (h : toWellFormed s = s) :
    encodeURIComponent s = .ok ((textCodePoints s).flatMap encodeCodePoint) := if_pos h

/-- **A text is read back.** -/
theorem decodeURIComponent_encodeURIComponent {s encoded : JsString}
    (h : encodeURIComponent s = .ok encoded) : decodeURIComponent encoded = .ok s := by
  unfold encodeURIComponent at h
  split_ifs at h with hs
  obtain rfl := Except.ok.inj h
  conv_rhs => rw [← hs, ← flatMap_codeUnits]
  have hscalar : ∀ n ∈ textCodePoints s, Scalar n := fun _ => scalar_of_mem_textCodePoints
  rw [decodeURIComponent]
  generalize textCodePoints s = ns at hscalar
  induction ns with
  | nil => rfl
  | cons n ns ih =>
    obtain ⟨hn, hns⟩ := List.forall_mem_cons.mp hscalar
    rw [List.flatMap_cons, decodeURIFrom_encodeCodePoint hn, ih hns, List.flatMap_cons]
    rfl

/-! ## The code units of an encoded text -/

/-- An encoded text holds unreserved characters, percent signs and digits. -/
theorem unreserved_or_percent {s encoded : JsString} (h : encodeURIComponent s = .ok encoded) :
    ∀ c ∈ encoded, isUnreserved c.toNat = true ∨ c = 0x25 := by
  unfold encodeURIComponent at h
  split_ifs at h
  obtain rfl := Except.ok.inj h
  have hdigit : ∀ d, isUnreserved (upperHexDigit d).toNat = true := by decide
  intro c hc
  obtain ⟨n, -, hc⟩ := List.mem_flatMap.mp hc
  unfold encodeCodePoint at hc
  split_ifs at hc with hn
  · rw [List.mem_singleton] at hc
    have hlt := (lt_of_isUnreserved hn).1
    rw [hc, UInt16.toNat_ofNat', Nat.mod_eq_of_lt (by omega)]
    exact Or.inl hn
  · obtain ⟨b, -, hc⟩ := List.mem_flatMap.mp hc
    rw [percentByte, List.mem_cons, List.mem_cons, List.mem_singleton] at hc
    rcases hc with rfl | rfl | rfl
    · exact Or.inr rfl
    · exact Or.inl (hdigit _)
    · exact Or.inl (hdigit _)

/-- The encoded text of a text that is not empty is not empty. -/
theorem ne_nil_of_encodeURIComponent {s encoded : JsString}
    (h : encodeURIComponent s = .ok encoded) (hs : s ≠ []) : encoded ≠ [] := by
  rintro rfl
  have hback := decodeURIComponent_encodeURIComponent h
  exact hs (Except.ok.inj hback).symm

end MernChat
