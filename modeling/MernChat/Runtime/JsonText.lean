import MernChat.Runtime.Encoding
import MernChat.Runtime.Json
import Mathlib.Data.List.Nodup

/-!
# JSON texts and back

`JSON.stringify` of a value, and what `JSON.parse` makes of it. Numbers are printed by the runtime;
a text is read back when each of its numbers is. Two objects are the same up to the order of their
fields.

## Main definitions

* `stringify`: `JSON.stringify`
* `Json.WithNumbers`, `Json.Readable`: values without two fields of one name, and with numbers of a
  kind, such as those that are read back
* `Json.Equiv`: values that are the same up to the order of fields

## Main results

* `parseJson_stringify`: a text is read back
* `wellFormed_stringify`: a text has no unpaired surrogates
* `Json.Equiv.field`: equivalent objects have the same fields
-/

namespace MernChat

section Text

variable (numberText : JsonNumber → JsString)

mutual

/-- `JSON.stringify(value)`, for objects none of whose names is an array index, which would come
first. -/
def stringify : Json → JsString
  | .null => js "null"
  | .bool true => js "true"
  | .bool false => js "false"
  | .num n => numberText n
  | .str s => jsonQuote s
  | .arr elements => 0x5B :: stringifyElements elements
  | .obj fields => 0x7B :: stringifyMembers fields

/-- The elements of an array, and its closing bracket. -/
def stringifyElements : List Json → JsString
  | [] => [0x5D]
  | [value] => stringify value ++ [0x5D]
  | value :: next :: elements => stringify value ++ 0x2C :: stringifyElements (next :: elements)

/-- The members of an object, and its closing brace. -/
def stringifyMembers : List (JsString × Json) → JsString
  | [] => [0x7D]
  | [(name, value)] => jsonQuote name ++ 0x3A :: (stringify value ++ [0x7D])
  | (name, value) :: next :: fields =>
    jsonQuote name ++ 0x3A :: (stringify value ++ 0x2C :: stringifyMembers (next :: fields))

end

end Text

/-! ## Strings -/

theorem parseStringFrom_unit {c : UInt16} (h₁ : c ≠ 0x22) (h₂ : c ≠ 0x5C) (h₃ : 0x20 ≤ c.toNat)
    (t : JsString) :
    parseStringFrom .plain (c :: t) = consUnit c (parseStringFrom .plain t) := by
  rw [parseStringFrom, if_neg h₁, if_neg h₂, if_neg (by omega)]

/-- The escape of a code unit is read back. -/
theorem parseStringFrom_unicodeEscape (c : UInt16) (t : JsString) :
    parseStringFrom .plain (unicodeEscape c ++ t) = consUnit c (parseStringFrom .plain t) := by
  have hlt := c.toNat_lt
  have hdigit : ∀ n, hexValue (hexText n) = some ⟨n % 16, Nat.mod_lt n (by decide)⟩ :=
    fun n => hexValue_hexDigit _
  have hplain : ∀ s, parseStringFrom .plain (0x5C :: 0x75 :: s) =
      parseStringFrom (.unicode 3 0) s := fun s => rfl
  -- the four digits are those of the code unit
  have hvalue : (((0 * 0x10 + c.toNat / 0x1000 % 16) * 0x10 + c.toNat / 0x100 % 16) * 0x10 +
      c.toNat / 0x10 % 16) * 0x10 + c.toNat % 16 = c.toNat := by omega
  simp only [unicodeEscape, List.cons_append, List.nil_append, hplain, parseStringFrom, hdigit,
    Option.bind_some]
  rw [hvalue, UInt16.ofNat_toNat]

/-- A quoted code unit is read back. -/
theorem parseStringFrom_quoteUnit (c : UInt16) (t : JsString) :
    parseStringFrom .plain (quoteUnit c ++ t) = consUnit c (parseStringFrom .plain t) := by
  -- seven code units have escapes of their own
  unfold quoteUnit
  split_ifs with h₁ h₂ h₃ h₄ h₅ h₆ h₇ h₈
  · rw [h₁]
    rfl
  · rw [h₂]
    rfl
  · rw [h₃]
    rfl
  · rw [h₄]
    rfl
  · rw [h₅]
    rfl
  · rw [h₆]
    rfl
  · rw [h₇]
    rfl
  · exact parseStringFrom_unicodeEscape c t
  · simp only [Bool.or_eq_true, decide_eq_true_eq, not_or, not_lt] at h₈
    exact parseStringFrom_unit h₁ h₂ h₈.1.1 t

/-- A surrogate is an ordinary code unit to a reader. -/
theorem parseStringFrom_surrogate {c : UInt16} (h : 0xD800 ≤ c.toNat) (t : JsString) :
    parseStringFrom .plain (c :: t) = consUnit c (parseStringFrom .plain t) := by
  refine parseStringFrom_unit ?_ ?_ (by omega) t
  · rintro rfl
    exact absurd h (by decide)
  · rintro rfl
    exact absurd h (by decide)

/-- **A quoted text is read back** up to its closing quote. -/
theorem parseStringBody_quoteBody (s t : JsString) :
    parseStringBody (quoteBody s ++ 0x22 :: t) = some (s, t) := by
  unfold parseStringBody
  induction s using quoteBody.induct with
  | case1 => rfl
  | case2 c =>
    rw [quoteBody, parseStringFrom_quoteUnit]
    rfl
  | case3 c d s hc ih =>
    -- a pair of surrogates is not escaped
    obtain ⟨hhigh, hlow⟩ := Bool.and_eq_true_iff.mp hc
    simp only [isHighSurrogate, isLowSurrogate, Bool.and_eq_true, decide_eq_true_eq,
      UInt16.le_iff_toNat_le, UInt16.reduceToNat] at hhigh hlow
    rw [quoteBody, if_pos hc, List.cons_append, List.cons_append,
      parseStringFrom_surrogate hhigh.1, parseStringFrom_surrogate (by omega), ih]
    rfl
  | case4 c d s hc ih =>
    rw [quoteBody, if_neg hc, List.append_assoc, parseStringFrom_quoteUnit, ih]
    rfl

/-! ## Values -/

/-- What may follow a value. -/
def Delimited (t : JsString) : Prop :=
  t = [] ∨ ∃ c s, t = c :: s ∧ (c = 0x2C ∨ c = 0x5D ∨ c = 0x7D)

/-- The text of a number is read back as that number. -/
structure ReadsBack (numberText : JsonNumber → JsString) (n : JsonNumber) : Prop where
  ascii : Ascii (numberText n)
  start : ∃ c s, numberText n = c :: s ∧ isDigit c = true
  read : ∀ t, Delimited t → parseNumber (numberText n ++ t) = some (n, t)

/-- A value without two fields of one name, whose numbers satisfy `P`. -/
inductive Json.WithNumbers (P : JsonNumber → Prop) : Json → Prop
  | null : WithNumbers P .null
  | bool (b : Bool) : WithNumbers P (.bool b)
  | num {n : JsonNumber} : P n → WithNumbers P (.num n)
  | str (s : JsString) : WithNumbers P (.str s)
  | arr {elements : List Json} : (∀ value ∈ elements, WithNumbers P value) →
      WithNumbers P (.arr elements)
  | obj {fields : List (JsString × Json)} : (fields.map Prod.fst).Nodup →
      (∀ field ∈ fields, WithNumbers P field.2) → WithNumbers P (.obj fields)

/-- A value whose numbers are read back. -/
abbrev Json.Readable (numberText : JsonNumber → JsString) : Json → Prop :=
  Json.WithNumbers (ReadsBack numberText)

section RoundTrip

variable {numberText : JsonNumber → JsString}

/-- A value is read back, with enough fuel, up to what follows it. -/
def ReadValue (numberText : JsonNumber → JsString) (value : Json) : Prop :=
  ∀ fuel t, (stringify numberText value).length ≤ fuel → Delimited t →
    parseValue fuel (stringify numberText value ++ t) = some (value, t)

theorem readValue_num {n : JsonNumber} (h : ReadsBack numberText n) :
    ReadValue numberText (.num n) := by
  intro fuel t hfuel ht
  obtain ⟨c, s, htext, hdigit⟩ := h.start
  have hread := h.read t ht
  simp only [stringify] at hfuel ⊢
  rw [htext] at hfuel hread ⊢
  obtain ⟨fuel, rfl⟩ : ∃ k, fuel = k + 1 := ⟨fuel - 1, by rw [List.length_cons] at hfuel; omega⟩
  simp only [isDigit, Bool.and_eq_true, decide_eq_true_eq] at hdigit
  -- a digit begins none of the other values
  have hne : ∀ d : UInt16, d.toNat < 0x30 ∨ 0x39 < d.toNat → c ≠ d := by
    rintro d hd rfl
    omega
  have hspace : skipSpace (c :: (s ++ t)) = c :: (s ++ t) := by
    rw [skipSpace, List.dropWhile_cons, if_neg]
    simp [hne 0x20 (by decide), hne 0x09 (by decide), hne 0x0A (by decide), hne 0x0D (by decide)]
  rw [List.cons_append, parseValue, hspace]
  simp only [if_neg (hne 0x7B (by decide)), if_neg (hne 0x5B (by decide)),
    if_neg (hne 0x22 (by decide)), if_neg (hne 0x74 (by decide)), if_neg (hne 0x66 (by decide)),
    if_neg (hne 0x6E (by decide))]
  rw [← List.cons_append, hread]
  rfl

theorem readValue_str (s : JsString) : ReadValue numberText (.str s) := by
  intro fuel t hfuel _
  simp only [stringify, jsonQuote, List.length_cons] at hfuel ⊢
  obtain ⟨fuel, rfl⟩ : ∃ k, fuel = k + 1 := ⟨fuel - 1, by omega⟩
  rw [List.cons_append, List.append_assoc]
  show (parseStringBody (quoteBody s ++ 0x22 :: t)).map (fun r => (Json.str r.1, r.2)) = _
  rw [parseStringBody_quoteBody]
  rfl

/-- A key and its value are read, up to what follows them. -/
theorem parseMembers_cons {name : JsString} {value : Json} (h : ReadValue numberText value)
    {fuel : Nat} {t : JsString} (hfuel : (stringify numberText value).length ≤ fuel)
    (ht : Delimited t) :
    parseMembers (fuel + 1) (jsonQuote name ++ 0x3A :: (stringify numberText value ++ t)) =
      match skipSpace t with
      | 0x2C :: s => (parseMembers fuel s).map fun r => ((name, value) :: r.1, r.2)
      | 0x7D :: s => some ([(name, value)], s)
      | _ => none := by
  rw [jsonQuote, List.cons_append, List.append_assoc, List.singleton_append]
  show ((parseStringBody (quoteBody name ++ 0x22 :: 0x3A ::
    (stringify numberText value ++ t))).bind fun key => _) = _
  rw [parseStringBody_quoteBody]
  show ((parseValue fuel (stringify numberText value ++ t)).bind fun r => _) = _
  rw [h fuel t hfuel ht]
  rfl

/-- The members of an object are read back. -/
theorem parseMembers_stringifyMembers {fields : List (JsString × Json)} (hne : fields ≠ [])
    (h : ∀ field ∈ fields, ReadValue numberText field.2) (fuel : Nat) (t : JsString)
    (hfuel : (stringifyMembers numberText fields).length ≤ fuel) :
    parseMembers fuel (stringifyMembers numberText fields ++ t) = some (fields, t) := by
  induction fields generalizing fuel with
  | nil => exact absurd rfl hne
  | cons field fields ih =>
    obtain ⟨name, value⟩ := field
    have hvalue : ReadValue numberText value := h _ List.mem_cons_self
    -- the last value is followed by the brace, the others by a comma
    cases fields with
    | nil =>
      simp only [stringifyMembers, List.append_assoc, List.cons_append, List.length_append,
        List.length_cons, List.length_nil] at hfuel ⊢
      obtain ⟨fuel, rfl⟩ : ∃ k, fuel = k + 1 := ⟨fuel - 1, by omega⟩
      rw [parseMembers_cons hvalue (by omega) (Or.inr ⟨_, _, rfl, by decide⟩)]
      rfl
    | cons next fields =>
      have hrest : stringifyMembers numberText ((name, value) :: next :: fields) =
          jsonQuote name ++ 0x3A :: (stringify numberText value ++
            0x2C :: stringifyMembers numberText (next :: fields)) := by
        rw [stringifyMembers]
      rw [hrest] at hfuel ⊢
      simp only [List.append_assoc, List.cons_append, List.length_append,
        List.length_cons] at hfuel ⊢
      obtain ⟨fuel, rfl⟩ : ∃ k, fuel = k + 1 := ⟨fuel - 1, by omega⟩
      rw [parseMembers_cons hvalue (by omega) (Or.inr ⟨_, _, rfl, by decide⟩)]
      show (parseMembers fuel (stringifyMembers numberText (next :: fields) ++ t)).map _ = _
      rw [ih (List.cons_ne_nil _ _) (fun f hf => h f (List.mem_cons_of_mem _ hf)) fuel (by omega)]
      rfl

/-- The elements of an array are read back. -/
theorem parseElements_stringifyElements {elements : List Json} (hne : elements ≠ [])
    (h : ∀ value ∈ elements, ReadValue numberText value) (fuel : Nat) (t : JsString)
    (hfuel : (stringifyElements numberText elements).length ≤ fuel) :
    parseElements fuel (stringifyElements numberText elements ++ t) = some (elements, t) := by
  induction elements generalizing fuel with
  | nil => exact absurd rfl hne
  | cons value elements ih =>
    have hvalue := h _ List.mem_cons_self
    -- the last value is followed by the bracket, the others by a comma
    cases elements with
    | nil =>
      simp only [stringifyElements, List.append_assoc, List.singleton_append, List.length_append,
        List.length_cons, List.length_nil] at hfuel ⊢
      obtain ⟨fuel, rfl⟩ : ∃ k, fuel = k + 1 := ⟨fuel - 1, by omega⟩
      rw [parseElements, hvalue fuel _ (by omega) (Or.inr ⟨_, _, rfl, by decide⟩)]
      rfl
    | cons next elements =>
      have hrest : stringifyElements numberText (value :: next :: elements) =
          stringify numberText value ++
            0x2C :: stringifyElements numberText (next :: elements) := by
        rw [stringifyElements]
      rw [hrest] at hfuel ⊢
      simp only [List.append_assoc, List.cons_append, List.length_append,
        List.length_cons] at hfuel ⊢
      obtain ⟨fuel, rfl⟩ : ∃ k, fuel = k + 1 := ⟨fuel - 1, by omega⟩
      rw [parseElements, hvalue fuel _ (by omega) (Or.inr ⟨_, _, rfl, by decide⟩)]
      show (parseElements fuel (stringifyElements numberText (next :: elements) ++ t)).map _ = _
      rw [ih (List.cons_ne_nil _ _) (fun f hf => h f (List.mem_cons_of_mem _ hf)) fuel (by omega)]
      rfl

/-- The first code unit of a value is no white space, and no closing bracket. -/
theorem exists_stringify_eq_cons {value : Json} (h : value.Readable numberText) :
    ∃ c s, stringify numberText value = c :: s ∧
      (c ≠ 0x20 ∧ c ≠ 0x09 ∧ c ≠ 0x0A ∧ c ≠ 0x0D) ∧ c ≠ 0x5D := by
  cases h with
  | null => exact ⟨_, _, rfl, by decide⟩
  | bool b => cases b <;> exact ⟨_, _, rfl, by decide⟩
  | num h =>
    obtain ⟨c, s, htext, hdigit⟩ := h.start
    refine ⟨c, s, by rw [stringify, htext], ?_⟩
    refine ⟨⟨?_, ?_, ?_, ?_⟩, ?_⟩ <;>
      · rintro rfl
        cases hdigit
  | str s => exact ⟨_, _, rfl, by decide⟩
  | arr _ => exact ⟨_, _, rfl, by decide⟩
  | obj _ _ => exact ⟨_, _, rfl, by decide⟩

/-- An array that has elements. -/
theorem parseValue_arr {c : UInt16} (hspace : c ≠ 0x20 ∧ c ≠ 0x09 ∧ c ≠ 0x0A ∧ c ≠ 0x0D)
    (hc : c ≠ 0x5D) (s : JsString) (fuel : Nat) :
    parseValue (fuel + 1) (0x5B :: c :: s) =
      (parseElements fuel (c :: s)).map fun r => (Json.arr r.1, r.2) := by
  have hskip : skipSpace (c :: s) = c :: s := by
    rw [skipSpace, List.dropWhile_cons, if_neg]
    simp [hspace]
  have hopen : skipSpace (0x5B :: c :: s) = 0x5B :: c :: s := rfl
  rw [parseValue, hopen]
  simp only [hskip]
  rw [if_neg (by decide), if_pos trivial]
  split
  · rename_i heq
    exact absurd (List.cons.inj heq).1 hc
  · rfl

/-- **A value is read back.** -/
theorem readValue_of_readable {value : Json} (h : value.Readable numberText) :
    ReadValue numberText value := by
  induction h with
  | null =>
    intro fuel t hfuel _
    cases fuel with
    | zero => exact absurd hfuel (by simp [stringify]; decide)
    | succ fuel => rfl
  | bool b =>
    intro fuel t hfuel _
    cases fuel with
    | zero => exact absurd hfuel (by cases b <;> simp [stringify] <;> decide)
    | succ fuel => cases b <;> rfl
  | num h => exact readValue_num h
  | str s => exact readValue_str s
  | @arr elements hreadable ih =>
    intro fuel t hfuel _
    simp only [stringify, List.length_cons] at hfuel ⊢
    obtain ⟨fuel, rfl⟩ : ∃ k, fuel = k + 1 := ⟨fuel - 1, by omega⟩
    cases elements with
    | nil => rfl
    | cons value elements =>
      have hparse := parseElements_stringifyElements (List.cons_ne_nil value elements) ih fuel t
        (by omega)
      -- the first element does not begin with the closing bracket
      obtain ⟨c, s, hs, hc⟩ := exists_stringify_eq_cons (hreadable value List.mem_cons_self)
      have hstart : ∃ s, stringifyElements numberText (value :: elements) = c :: s := by
        cases elements with
        | nil => exact ⟨s ++ [0x5D], by rw [stringifyElements, hs]; rfl⟩
        | cons next elements =>
          exact ⟨s ++ 0x2C :: stringifyElements numberText (next :: elements),
            by rw [stringifyElements, hs]; rfl⟩
      obtain ⟨s', hs'⟩ := hstart
      rw [hs'] at hparse ⊢
      rw [List.cons_append] at hparse
      rw [List.cons_append, List.cons_append, parseValue_arr hc.1 hc.2, hparse]
      rfl
  | @obj fields _ _ ih =>
    intro fuel t hfuel _
    simp only [stringify, List.length_cons] at hfuel ⊢
    obtain ⟨fuel, rfl⟩ : ∃ k, fuel = k + 1 := ⟨fuel - 1, by omega⟩
    cases fields with
    | nil => rfl
    | cons field fields =>
      have hparse := parseMembers_stringifyMembers (List.cons_ne_nil field fields) ih fuel t
        (by omega)
      -- the first key begins with a quote
      have hquote : ∃ s, stringifyMembers numberText (field :: fields) = 0x22 :: s := by
        cases fields <;> exact ⟨_, rfl⟩
      obtain ⟨s, hs⟩ := hquote
      rw [hs] at hparse ⊢
      show (parseMembers fuel (0x22 :: s ++ t)).map _ = _
      rw [hparse]
      rfl

/-- **A text is read back.** -/
theorem parseJson_stringify {value : Json} (h : value.Readable numberText) :
    parseJson (stringify numberText value) = some value := by
  -- nothing follows the value
  have hread := readValue_of_readable h ((stringify numberText value).length + 1) []
    (Nat.le_succ _) (Or.inl rfl)
  rw [List.append_nil] at hread
  rw [parseJson, hread]
  rfl

/-! ## Texts are well-formed -/

theorem wellFormed_append {s t : JsString} (hs : toWellFormed s = s) (ht : toWellFormed t = t) :
    toWellFormed (s ++ t) = s ++ t := by
  -- a replaced surrogate is not itself
  have hreplaced : ∀ c : UInt16, (isHighSurrogate c || isLowSurrogate c) = true → 0xFFFD ≠ c := by
    rintro _ hc rfl
    exact absurd hc (by decide)
  induction s using toWellFormed.induct with
  | case1 => exact ht
  | case2 c hc =>
    rw [toWellFormed, if_pos hc] at hs
    exact absurd (List.cons.inj hs).1 (hreplaced c hc)
  | case3 c hc =>
    rw [List.singleton_append, toWellFormed_cons (Bool.eq_false_iff.mpr hc), ht]
  | case4 c d s hc ih =>
    -- a pair stays a pair
    rw [toWellFormed, if_pos hc] at hs
    have hrest := (List.cons.inj (List.cons.inj hs).2).2
    rw [List.cons_append, List.cons_append, toWellFormed, if_pos hc, ih hrest]
  | case5 c d s hc hc' ih =>
    rw [toWellFormed, if_neg hc, if_pos hc'] at hs
    exact absurd (List.cons.inj hs).1 (hreplaced c hc')
  | case6 c d s hc hc' ih =>
    rw [toWellFormed, if_neg hc, if_neg hc'] at hs
    have hrest := (List.cons.inj hs).2
    rw [List.cons_append, toWellFormed_cons (Bool.eq_false_iff.mpr hc'), ih hrest]

/-- A code unit is quoted without an unpaired surrogate. -/
theorem wellFormed_quoteUnit (c : UInt16) : toWellFormed (quoteUnit c) = quoteUnit c := by
  have hdigit : ∀ d, 0 < (hexDigit d).toNat ∧ (hexDigit d).toNat < 128 := by decide
  unfold quoteUnit
  split_ifs with h₁ h₂ h₃ h₄ h₅ h₆ h₇ h₈
  iterate 7 rfl
  · -- the surrogates are among what is escaped
    apply toWellFormed_of_ascii
    simp only [unicodeEscape, hexText, ascii_cons, hdigit, ascii_nil]
    decide
  · simp only [Bool.or_eq_true, not_or, Bool.not_eq_true] at h₈
    rw [toWellFormed, if_neg]
    simp [h₈.1.2, h₈.2]

theorem wellFormed_quoteBody (s : JsString) : toWellFormed (quoteBody s) = quoteBody s := by
  induction s using quoteBody.induct with
  | case1 => rfl
  | case2 c => exact wellFormed_quoteUnit c
  | case3 c d s hc ih => rw [quoteBody, if_pos hc, toWellFormed, if_pos hc, ih]
  | case4 c d s hc ih =>
    rw [quoteBody, if_neg hc]
    exact wellFormed_append (wellFormed_quoteUnit c) ih

theorem wellFormed_jsonQuote (s : JsString) : toWellFormed (jsonQuote s) = jsonQuote s := by
  rw [jsonQuote, toWellFormed_cons (by decide)]
  exact congrArg _ (wellFormed_append (wellFormed_quoteBody s) rfl)

theorem wellFormed_stringifyElements {elements : List Json}
    (h : ∀ value ∈ elements, toWellFormed (stringify numberText value) =
      stringify numberText value) :
    toWellFormed (stringifyElements numberText elements) =
      stringifyElements numberText elements := by
  induction elements with
  | nil => rfl
  | cons value elements ih =>
    obtain ⟨hvalue, hrest⟩ := List.forall_mem_cons.mp h
    cases elements with
    | nil =>
      rw [stringifyElements]
      exact wellFormed_append hvalue rfl
    | cons next elements =>
      rw [stringifyElements]
      refine wellFormed_append hvalue ?_
      rw [toWellFormed_cons (by decide), ih hrest]

theorem wellFormed_stringifyMembers {fields : List (JsString × Json)}
    (h : ∀ field ∈ fields, toWellFormed (stringify numberText field.2) =
      stringify numberText field.2) :
    toWellFormed (stringifyMembers numberText fields) = stringifyMembers numberText fields := by
  induction fields with
  | nil => rfl
  | cons field fields ih =>
    obtain ⟨name, value⟩ := field
    obtain ⟨hvalue, hrest⟩ := List.forall_mem_cons.mp h
    cases fields with
    | nil =>
      rw [stringifyMembers]
      refine wellFormed_append (wellFormed_jsonQuote name) ?_
      rw [toWellFormed_cons (by decide)]
      exact congrArg _ (wellFormed_append hvalue rfl)
    | cons next fields =>
      rw [stringifyMembers]
      refine wellFormed_append (wellFormed_jsonQuote name) ?_
      rw [toWellFormed_cons (by decide)]
      refine congrArg _ (wellFormed_append hvalue ?_)
      rw [toWellFormed_cons (by decide), ih hrest]

/-- **A text has no unpaired surrogates.** -/
theorem wellFormed_stringify {value : Json} (h : value.Readable numberText) :
    toWellFormed (stringify numberText value) = stringify numberText value := by
  induction h with
  | null => rfl
  | bool b => cases b <;> rfl
  | num h =>
    -- the text of a number is ASCII
    rw [stringify]
    exact toWellFormed_of_ascii h.ascii
  | str s =>
    rw [stringify]
    exact wellFormed_jsonQuote s
  | arr _ ih =>
    rw [stringify, toWellFormed_cons (by decide), wellFormed_stringifyElements ih]
  | obj _ _ ih =>
    rw [stringify, toWellFormed_cons (by decide), wellFormed_stringifyMembers ih]

end RoundTrip

/-! ## Up to the order of fields -/

/-- Two values are the same up to the order of the fields of their objects. -/
inductive Json.Equiv : Json → Json → Prop
  | null : Equiv .null .null
  | bool (b : Bool) : Equiv (.bool b) (.bool b)
  | num (n : JsonNumber) : Equiv (.num n) (.num n)
  | str (s : JsString) : Equiv (.str s) (.str s)
  | arr {xs ys : List Json} : xs.length = ys.length →
      (∀ i (hx : i < xs.length) (hy : i < ys.length), Equiv xs[i] ys[i]) → Equiv (.arr xs) (.arr ys)
  | obj {fs gs : List (JsString × Json)} : (fs.map Prod.fst).Perm (gs.map Prod.fst) →
      (∀ f ∈ fs, ∀ g ∈ gs, f.1 = g.1 → Equiv f.2 g.2) → Equiv (.obj fs) (.obj gs)

namespace Json

/-- A field of an object without two fields of one name. -/
theorem field_obj {fields : List (JsString × Json)} (h : (fields.map Prod.fst).Nodup)
    {name : JsString} {value : Json} (hmem : (name, value) ∈ fields) :
    (Json.obj fields).field name = some value := by
  -- the last field of the name is the only one
  have hfind : fields.reverse.find? (fun f => f.1 == name) = some (name, value) := by
    have hsome : (fields.reverse.find? fun f => f.1 == name).isSome = true :=
      List.find?_isSome.mpr ⟨(name, value), List.mem_reverse.mpr hmem, beq_self_eq_true name⟩
    obtain ⟨g, hg⟩ := Option.isSome_iff_exists.mp hsome
    have hfound := List.find?_some hg
    have hname : g.1 = name := by simpa using hfound
    have hgmem : g ∈ fields := List.mem_reverse.mp (List.mem_of_find?_eq_some hg)
    rw [hg, List.inj_on_of_nodup_map h hgmem hmem hname]
  rw [field, hfind]
  rfl

/-- **Equivalent objects have the same fields.** -/
theorem Equiv.field {fs gs : List (JsString × Json)} (h : Equiv (.obj fs) (.obj gs))
    (hnodup : (gs.map Prod.fst).Nodup) {name : JsString} {value : Json}
    (hmem : (name, value) ∈ gs) :
    ∃ value', (Json.obj fs).field name = some value' ∧ Equiv value' value := by
  cases h with
  | obj hperm hfields =>
    have hname : name ∈ fs.map Prod.fst := by
      rw [hperm.mem_iff]
      exact List.mem_map_of_mem (f := Prod.fst) hmem
    obtain ⟨⟨_, value'⟩, hmem', rfl⟩ := List.mem_map.mp hname
    exact ⟨value', field_obj (hperm.nodup_iff.mpr hnodup) hmem', hfields _ hmem' _ hmem rfl⟩

/-- Equivalent values have the same numbers. -/
theorem Equiv.withNumbers {P : JsonNumber → Prop} {value value' : Json} (h : Equiv value' value)
    (hr : value.WithNumbers P) : value'.WithNumbers P := by
  induction h with
  | null => exact .null
  | bool b => exact .bool b
  | num n => exact hr
  | str s => exact .str s
  | @arr xs ys hlength _ ih =>
    cases hr with
    | arr hys =>
      refine .arr fun x hx => ?_
      obtain ⟨i, hi, rfl⟩ := List.getElem_of_mem hx
      exact ih i hi (hlength ▸ hi) (hys _ (List.getElem_mem _))
  | @obj fs gs hperm _ ih =>
    cases hr with
    | obj hnodup hgs =>
      refine .obj (hperm.nodup_iff.mpr hnodup) fun f hf => ?_
      have hname : f.1 ∈ gs.map Prod.fst := by
        rw [← hperm.mem_iff]
        exact List.mem_map_of_mem hf
      obtain ⟨g, hg, hfg⟩ := List.mem_map.mp hname
      exact ih f hf g hg hfg.symm (hgs g hg)

end Json

end MernChat
