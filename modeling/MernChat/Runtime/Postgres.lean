import MernChat.Runtime.Uuid

/-!
# Text parameters of the database

The driver sends JavaScript strings as UTF-8, an unpaired surrogate as U+FFFD. Text columns
reject U+0000; `VARCHAR(n)` counts code points and rejects longer values; `JSONB` rejects
U+0000 and the escape of an unpaired surrogate.

## Main definitions

* `toWellFormed`, `codePoints`: the text sent, and its length in code points
* `SqlState`: the errors of the statements
* `uuidParam`, `pgText`, `pgVarchar`: the values a `UUID`, a `TEXT` and a `VARCHAR(n)` column
  store
* `jsonbString`: the strings a `JSONB` value may hold
-/

namespace MernChat

/-- The conditions a statement of the application can fail with, by their names. -/
inductive SqlState
  /-- 22001 -/
  | string_data_right_truncation
  /-- 22P02 -/
  | invalid_text_representation
  /-- 22021 -/
  | character_not_in_repertoire
  /-- 22P05 -/
  | untranslatable_character
  /-- 22007 -/
  | invalid_datetime_format
  /-- 22008 -/
  | datetime_field_overflow
  /-- 23503 -/
  | foreign_key_violation
  /-- 23505 -/
  | unique_violation
  /-- 23514 -/
  | check_violation
deriving DecidableEq

def isHighSurrogate (c : UInt16) : Bool := 0xD800 ≤ c && c ≤ 0xDBFF

def isLowSurrogate (c : UInt16) : Bool := 0xDC00 ≤ c && c ≤ 0xDFFF

/-- The text with every unpaired surrogate replaced by U+FFFD. -/
def toWellFormed : JsString → JsString
  | [] => []
  | [c] => if isHighSurrogate c || isLowSurrogate c then [0xFFFD] else [c]
  | c :: d :: s =>
    if isHighSurrogate c && isLowSurrogate d then c :: d :: toWellFormed s
    else if isHighSurrogate c || isLowSurrogate c then 0xFFFD :: toWellFormed (d :: s)
    else c :: toWellFormed (d :: s)

/-- The number of code points of a text. -/
def codePoints : JsString → Nat
  | [] => 0
  | [_] => 1
  | c :: d :: s =>
    if isHighSurrogate c && isLowSurrogate d then codePoints s + 1
    else codePoints (d :: s) + 1

/-- The value a `TEXT` column stores for a parameter. -/
def pgText (s : JsString) : Option JsString :=
  if s.contains 0 then none else some (toWellFormed s)

/-- The value a `VARCHAR(n)` column stores for a parameter. -/
def pgVarchar (n : Nat) (s : JsString) : Option JsString :=
  (pgText s).bind fun t => if codePoints t ≤ n then some t else none

/-- The value of a text sent for a `UUID` column. -/
def uuidParam (s : JsString) : Except SqlState Uuid :=
  match Uuid.parse s with
  | some u => .ok u
  | none =>
    .error (if s.contains 0 then .character_not_in_repertoire else .invalid_text_representation)

theorem uuidParam_eq_ok {s : JsString} {u : Uuid} :
    uuidParam s = .ok u ↔ Uuid.parse s = some u := by
  unfold uuidParam
  cases Uuid.parse s <;> simp

@[simp] theorem uuidParam_toText (u : Uuid) : uuidParam u.toText = .ok u := by
  rw [uuidParam_eq_ok, Uuid.parse_toText]

/-- A string that may stand in a `JSONB` value. -/
def jsonbString (s : JsString) : Bool := !s.contains 0 && toWellFormed s == s

/-- The error of a string that may not stand in a `JSONB` value, by its first code unit that may
not. -/
def jsonbError : JsString → SqlState
  | [] => .invalid_text_representation
  | [c] => if c = 0 then .untranslatable_character else .invalid_text_representation
  | c :: d :: s =>
    if c = 0 then .untranslatable_character
    else if isHighSurrogate c && isLowSurrogate d then jsonbError s
    else if isHighSurrogate c || isLowSurrogate c then .invalid_text_representation
    else jsonbError (d :: s)

/-! ## A stored text is stored as it is -/

theorem toWellFormed_cons {c : UInt16} (h : (isHighSurrogate c || isLowSurrogate c) = false)
    (s : JsString) : toWellFormed (c :: s) = c :: toWellFormed s := by
  obtain ⟨hhigh, hlow⟩ := Bool.or_eq_false_iff.mp h
  cases s with
  | nil => simp [toWellFormed, hhigh, hlow]
  | cons d s => simp [toWellFormed, hhigh, hlow]

theorem toWellFormed_toWellFormed (s : JsString) :
    toWellFormed (toWellFormed s) = toWellFormed s := by
  induction s using toWellFormed.induct with
  | case1 => rfl
  | case2 c hc =>
    rw [toWellFormed, if_pos hc]
    rfl
  | case3 c hc => rw [toWellFormed, if_neg hc, toWellFormed, if_neg hc]
  | case4 c d s hc ih => rw [toWellFormed, if_pos hc, toWellFormed, if_pos hc, ih]
  | case5 c d s hc hc' ih =>
    rw [toWellFormed, if_neg hc, if_pos hc', toWellFormed_cons (by decide), ih]
  | case6 c d s hc hc' ih =>
    rw [toWellFormed, if_neg hc, if_neg hc', toWellFormed_cons (Bool.eq_false_iff.mpr hc'), ih]

theorem mem_of_mem_toWellFormed {s : JsString} {c : UInt16} (h : c ∈ toWellFormed s) :
    c ∈ s ∨ c = 0xFFFD := by
  induction s using toWellFormed.induct with
  | case1 => cases h
  | case2 d hd =>
    rw [toWellFormed, if_pos hd] at h
    exact Or.inr (List.mem_singleton.mp h)
  | case3 d hd =>
    rw [toWellFormed, if_neg hd] at h
    exact Or.inl h
  | case4 d e s hd ih =>
    rw [toWellFormed, if_pos hd, List.mem_cons, List.mem_cons] at h
    rcases h with rfl | rfl | h
    · exact Or.inl List.mem_cons_self
    · exact Or.inl (List.mem_cons_of_mem d List.mem_cons_self)
    · rcases ih h with h | h
      · exact Or.inl (List.mem_cons_of_mem d (List.mem_cons_of_mem e h))
      · exact Or.inr h
  | case5 d e s hd hd' ih =>
    rw [toWellFormed, if_neg hd, if_pos hd', List.mem_cons] at h
    rcases h with rfl | h
    · exact Or.inr rfl
    · rcases ih h with h | h
      · exact Or.inl (List.mem_cons_of_mem d h)
      · exact Or.inr h
  | case6 d e s hd hd' ih =>
    rw [toWellFormed, if_neg hd, if_neg hd', List.mem_cons] at h
    rcases h with rfl | h
    · exact Or.inl List.mem_cons_self
    · rcases ih h with h | h
      · exact Or.inl (List.mem_cons_of_mem d h)
      · exact Or.inr h

theorem pgText_eq_some {s t : JsString} :
    pgText s = some t ↔ s.contains 0 = false ∧ toWellFormed s = t := by
  unfold pgText
  cases s.contains 0 <;> simp

/-- What a `TEXT` column stores is a parameter it stores as it is. -/
theorem pgText_of_pgText {s t : JsString} (h : pgText s = some t) : pgText t = some t := by
  unfold pgText at h
  split_ifs at h with hzero
  obtain rfl := Option.some.inj h
  -- replacing lone surrogates puts no U+0000 in
  have hzero' : (toWellFormed s).contains 0 = false := by
    rw [List.contains_eq_mem, decide_eq_false_iff_not]
    intro hmem
    rcases mem_of_mem_toWellFormed hmem with hmem | hmem
    · exact hzero (List.contains_iff_mem.mpr hmem)
    · exact absurd hmem (by decide)
  rw [pgText, hzero', toWellFormed_toWellFormed]
  rfl

/-! ## ASCII texts are stored as they are -/

theorem not_surrogate {c : UInt16} (h : c.toNat < 128) :
    isHighSurrogate c = false ∧ isLowSurrogate c = false := by
  have hD800 : (0xD800 : UInt16).toNat = 55296 := rfl
  have hDC00 : (0xDC00 : UInt16).toNat = 56320 := rfl
  simp only [isHighSurrogate, isLowSurrogate, Bool.and_eq_false_iff, decide_eq_false_iff_not,
    UInt16.le_iff_toNat_le]
  omega

theorem toWellFormed_of_ascii {s : JsString} (h : Ascii s) : toWellFormed s = s := by
  induction s using toWellFormed.induct with
  | case1 => rfl
  | case2 c hc =>
    obtain ⟨hh, hl⟩ := not_surrogate (ascii_cons.mp h).1.2
    simp [hh, hl] at hc
  | case3 c hc => rw [toWellFormed, if_neg hc]
  | case4 c d s hc ih =>
    rw [(not_surrogate (ascii_cons.mp h).1.2).1] at hc
    simp at hc
  | case5 c d s hc hc' ih =>
    obtain ⟨hh, hl⟩ := not_surrogate (ascii_cons.mp h).1.2
    simp [hh, hl] at hc'
  | case6 c d s hc hc' ih =>
    rw [toWellFormed, if_neg hc, if_neg hc', ih (ascii_cons.mp h).2]

theorem contains_zero_of_ascii {s : JsString} (h : Ascii s) : s.contains 0 = false := by
  rw [List.contains_eq_mem, decide_eq_false_iff_not]
  intro hz
  exact absurd (h 0 hz).1 (by decide)

theorem codePoints_le_length (s : JsString) : codePoints s ≤ s.length := by
  induction s using codePoints.induct with
  | case1 => simp [codePoints]
  | case2 c => simp [codePoints]
  | case3 c d s h ih =>
    rw [codePoints, if_pos h]
    simp only [List.length_cons]
    omega
  | case4 c d s h ih =>
    rw [codePoints, if_neg h]
    simp only [List.length_cons] at ih ⊢
    omega

theorem pgText_of_ascii {s : JsString} (h : Ascii s) : pgText s = some s := by
  simp only [pgText, contains_zero_of_ascii h, toWellFormed_of_ascii h, Bool.false_eq_true,
    if_false]

theorem pgVarchar_of_ascii {s : JsString} (h : Ascii s) {n : Nat} (hn : s.length ≤ n) :
    pgVarchar n s = some s := by
  rw [pgVarchar, pgText_of_ascii h, Option.bind_some,
    if_pos ((codePoints_le_length s).trans hn)]

theorem jsonbString_of_ascii {s : JsString} (h : Ascii s) : jsonbString s = true := by
  rw [jsonbString, contains_zero_of_ascii h, toWellFormed_of_ascii h]
  simp

/-- A printed id is a value of every text column. -/
theorem pgVarchar_toText (u : Uuid) {n : Nat} (hn : 48 ≤ n) :
    pgVarchar n u.toText = some u.toText :=
  pgVarchar_of_ascii u.ascii_toText (u.length_toText_le.trans hn)

end MernChat
