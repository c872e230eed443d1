import MernChat.Runtime.Text
import Mathlib.Algebra.Group.Nat.Defs
import Mathlib.Data.List.Forall2
import Mathlib.Data.List.Lex
import Mathlib.Order.Fin.Basic

/-!
# UUIDs

A `UUID` column holds a value of thirty-two hexadecimal digits, compared digit by digit. The
database reads any spelling of it (letters in either case) and prints the lower-case one; the
application checks a spelling with one regular expression, which also fixes the version and
variant digits.

## Main definitions

* `Uuid`: the values of a `UUID` column
* `Uuid.toText`: the spelling the database prints
* `Uuid.parse`: the spellings the database reads
* `isUuid`: the application's regular expression

## Main results

* `Uuid.parse_toText`: what is printed is read back
* `Uuid.parse_map_asciiLower`: the case of letters is not read
* `Uuid.toText_lt_toText`: printed spellings are ordered as the values
* `isUuid_spells`: an accepted text is a spelling of exactly one value
-/

namespace MernChat

/-- The value of a `UUID` column: thirty-two hexadecimal digits. -/
structure Uuid where
  digits : List (Fin 16)
  length_digits : digits.length = 32
deriving DecidableEq

namespace Uuid

@[ext] theorem ext {u v : Uuid} (h : u.digits = v.digits) : u = v := by
  cases u
  cases v
  simp_all

/-- The value with the digits of a number, low digits last. -/
def ofNat (n : Nat) : Uuid where
  digits := (List.range 32).map fun i => Fin.ofNat 16 (n / 16 ^ (31 - i))
  length_digits := by simp

theorem digits_injective : Function.Injective digits := fun _ _ => ext

/-- Values are compared digit by digit. -/
instance : LinearOrder Uuid := LinearOrder.lift' digits digits_injective

end Uuid

/-! ## Hexadecimal digits -/

/-- The lower-case hexadecimal digit. -/
def hexDigit (d : Fin 16) : UInt16 := UInt16.ofNat (if d.val < 10 then 48 + d.val else 87 + d.val)

/-- The value of a hexadecimal digit in either case. -/
def hexValue (c : UInt16) : Option (Fin 16) :=
  if 48 ≤ c.toNat ∧ c.toNat ≤ 57 then some (Fin.ofNat 16 (c.toNat - 48))
  else if 97 ≤ c.toNat ∧ c.toNat ≤ 102 then some (Fin.ofNat 16 (c.toNat - 87))
  else if 65 ≤ c.toNat ∧ c.toNat ≤ 70 then some (Fin.ofNat 16 (c.toNat - 55))
  else none

@[simp] theorem hexValue_hexDigit : ∀ d, hexValue (hexDigit d) = some d := by decide

theorem hexDigit_injective : Function.Injective hexDigit := fun d e h => by
  simpa using congrArg hexValue h

theorem hexDigit_lt_hexDigit : ∀ d e : Fin 16, hexDigit d < hexDigit e ↔ d < e := by decide

theorem hexDigit_ne_hyphen : ∀ d, hexDigit d ≠ 0x2D := by decide

theorem hexDigit_ne_brace : ∀ d, hexDigit d ≠ 0x7B := by decide

theorem asciiLower_hexDigit : ∀ d, asciiLower (hexDigit d) = hexDigit d := by decide

@[simp] theorem hexValue_asciiLower (c : UInt16) : hexValue (asciiLower c) = hexValue c := by
  unfold hexValue
  rw [toNat_asciiLower]
  by_cases h : 65 ≤ c.toNat ∧ c.toNat ≤ 90
  · rw [if_pos h]
    by_cases h' : c.toNat ≤ 70
    · rw [if_neg (by omega), if_pos (by omega), if_neg (by omega), if_neg (by omega),
        if_pos (by omega), show c.toNat + 32 - 87 = c.toNat - 55 by omega]
    · rw [if_neg (by omega), if_neg (by omega), if_neg (by omega), if_neg (by omega),
        if_neg (by omega), if_neg (by omega)]
  · rw [if_neg h]

/-- A hexadecimal digit is a spelling of its value. -/
theorem asciiLower_of_hexValue {c : UInt16} {d : Fin 16} (h : hexValue c = some d) :
    asciiLower c = hexDigit d := by
  have hc := hexValue_asciiLower c ▸ h
  apply UInt16.toNat_inj.mp
  rw [toNat_asciiLower]
  unfold hexValue at h
  unfold hexDigit
  -- a decimal digit, a lower-case letter, an upper-case letter
  split_ifs at h with h₁ h₂ h₃ <;> obtain rfl := Option.some.inj h
  · rw [if_neg (by omega)]
    simp only [Fin.val_ofNat]
    rw [if_pos (by omega), UInt16.toNat_ofNat', Nat.mod_eq_of_lt (by omega)]
    omega
  · rw [if_neg (by omega)]
    simp only [Fin.val_ofNat]
    rw [if_neg (by omega), UInt16.toNat_ofNat', Nat.mod_eq_of_lt (by omega)]
    omega
  · rw [if_pos (by omega)]
    simp only [Fin.val_ofNat]
    rw [if_neg (by omega), UInt16.toNat_ofNat', Nat.mod_eq_of_lt (by omega)]
    omega

/-! ## Printing and reading -/

namespace Uuid

/-- The digits of `n` bytes, with a hyphen after the fourth, sixth, eighth and tenth of sixteen
bytes. -/
def printBytes : Nat → List (Fin 16) → JsString
  | n + 1, x :: y :: ds =>
    hexDigit x :: hexDigit y ::
      ((if n = 12 ∨ n = 10 ∨ n = 8 ∨ n = 6 then [0x2D] else []) ++ printBytes n ds)
  | _, _ => []

/-- The spelling a `UUID` column is printed in. -/
def toText (u : Uuid) : JsString := printBytes 16 u.digits

/-- The optional hyphen of the input syntax. -/
def dropHyphen : JsString → JsString
  | c :: s => if c = 0x2D then s else c :: s
  | [] => []

/-- `n` bytes of the input syntax, and the text after them: two digits a byte, and an optional
hyphen after every second byte but the last. -/
def parseBytes : Nat → JsString → Option (List (Fin 16) × JsString)
  | 0, s => some ([], s)
  | n + 1, a :: b :: s =>
    (hexValue a).bind fun x => (hexValue b).bind fun y =>
      -- `n` bytes follow, so that hyphens come before an even number of them
      (parseBytes n (if n % 2 = 0 ∧ 0 < n then dropHyphen s else s)).map fun r =>
        (x :: y :: r.1, r.2)
  | _ + 1, _ => none

/-- The value of sixteen bytes, when exactly `rest` follows them. -/
def ofBytes (rest : JsString) (r : List (Fin 16) × JsString) : Option Uuid :=
  if h : r.1.length = 32 ∧ r.2 = rest then some ⟨r.1, h.1⟩ else none

/-- The value a text spells: sixteen bytes, between braces or not. -/
def parse : JsString → Option Uuid
  | [] => none
  | c :: s =>
    if c = 0x7B then (parseBytes 16 s).bind (ofBytes [0x7D])
    else (parseBytes 16 (c :: s)).bind (ofBytes [])

/-! ### What is printed is read back -/

theorem parseBytes_printBytes (n : Nat) (ds : List (Fin 16)) (hl : ds.length = 2 * n) :
    parseBytes n (printBytes n ds) = some (ds, []) := by
  induction n generalizing ds with
  | zero =>
    obtain rfl := List.length_eq_zero_iff.mp hl
    rfl
  | succ n ih =>
    match ds, hl with
    | x :: y :: ds, hl =>
      have hl' : ds.length = 2 * n := by simpa [Nat.mul_add] using hl
      -- without a printed hyphen there is none to drop
      have hd : dropHyphen (printBytes n ds) = printBytes n ds := by
        match n, ds, hl' with
        | 0, [], _ => rfl
        | n + 1, x :: y :: ds, _ => simp [printBytes, dropHyphen, hexDigit_ne_hyphen]
      simp only [printBytes, parseBytes, hexValue_hexDigit, Option.bind_some]
      by_cases hn : n = 12 ∨ n = 10 ∨ n = 8 ∨ n = 6
      · rw [if_pos hn, if_pos (by omega)]
        simp [dropHyphen, ih ds hl']
      · rw [if_neg hn, List.nil_append, hd, ite_self, ih ds hl']
        rfl

theorem toText_head (u : Uuid) : ∃ d s, u.toText = hexDigit d :: s := by
  match hd : u.digits, u.length_digits with
  | x :: y :: ds, _ => exact ⟨x, _, by simp only [toText, hd, printBytes]; rfl⟩

/-- **What is printed is read back.** -/
@[simp] theorem parse_toText (u : Uuid) : parse u.toText = some u := by
  obtain ⟨d, s, hs⟩ := u.toText_head
  have hp := parseBytes_printBytes 16 u.digits u.length_digits
  rw [← toText, hs] at hp
  rw [hs, parse, if_neg (hexDigit_ne_brace d), hp]
  simp [ofBytes, u.length_digits]

theorem toText_injective : Function.Injective toText := fun u v h => by
  simpa using congrArg parse h

/-! ### The case of letters is not read -/

theorem asciiLower_eq_hyphen (c : UInt16) : asciiLower c = 0x2D ↔ c = 0x2D := by
  rw [← UInt16.toNat_inj, ← UInt16.toNat_inj, toNat_asciiLower]
  have : (0x2D : UInt16).toNat = 45 := rfl
  split_ifs <;> omega

theorem asciiLower_eq_brace (c : UInt16) : asciiLower c = 0x7B ↔ c = 0x7B := by
  rw [← UInt16.toNat_inj, ← UInt16.toNat_inj, toNat_asciiLower]
  have : (0x7B : UInt16).toNat = 123 := rfl
  split_ifs <;> omega

theorem dropHyphen_map_asciiLower (s : JsString) :
    dropHyphen (s.map asciiLower) = (dropHyphen s).map asciiLower := by
  cases s with
  | nil => rfl
  | cons c s =>
    simp only [List.map_cons, dropHyphen, asciiLower_eq_hyphen]
    split_ifs <;> rfl

theorem parseBytes_map_asciiLower (n : Nat) (s : JsString) :
    parseBytes n (s.map asciiLower) =
      (parseBytes n s).map fun r => (r.1, r.2.map asciiLower) := by
  induction n generalizing s with
  | zero => rfl
  | succ n ih =>
    match s with
    | [] => rfl
    | [_] => rfl
    | a :: b :: s =>
      have hs : (if n % 2 = 0 ∧ 0 < n then dropHyphen (s.map asciiLower) else s.map asciiLower) =
          (if n % 2 = 0 ∧ 0 < n then dropHyphen s else s).map asciiLower := by
        rw [dropHyphen_map_asciiLower]
        split_ifs <;> rfl
      simp only [List.map_cons, parseBytes, hexValue_asciiLower, hs, ih]
      cases hexValue a with
      | none => rfl
      | some x =>
        cases hexValue b with
        | none => rfl
        | some y =>
          simp only [Option.bind_some, Option.map_map]
          rfl

theorem map_asciiLower_eq_nil_or_brace (s : JsString) :
    (s.map asciiLower = [] ↔ s = []) ∧ (s.map asciiLower = [0x7D] ↔ s = [0x7D]) := by
  refine ⟨List.map_eq_nil_iff, ?_⟩
  rw [List.map_eq_singleton_iff]
  constructor
  · rintro ⟨c, rfl, hc⟩
    rw [← UInt16.toNat_inj, toNat_asciiLower] at hc
    have h : (0x7D : UInt16).toNat = 125 := rfl
    rw [show c = 0x7D from UInt16.toNat_inj.mp (by split_ifs at hc <;> omega)]
  · rintro rfl
    exact ⟨_, rfl, rfl⟩

/-- **Every spelling of a text spells the same value.** -/
theorem parse_map_asciiLower (s : JsString) : parse (s.map asciiLower) = parse s := by
  have hb : ∀ rest : JsString, (rest = [] ∨ rest = [0x7D]) → ∀ t,
      (parseBytes 16 (t.map asciiLower)).bind (ofBytes rest) =
        (parseBytes 16 t).bind (ofBytes rest) := by
    intro rest hr t
    rw [parseBytes_map_asciiLower]
    cases parseBytes 16 t with
    | none => rfl
    | some r =>
      have hl := map_asciiLower_eq_nil_or_brace r.2
      rcases hr with rfl | rfl <;> simp [ofBytes, hl]
  cases s with
  | nil => rfl
  | cons c s =>
    have ht := hb [] (Or.inl rfl) (c :: s)
    simp only [List.map_cons, parse, asciiLower_eq_brace] at ht ⊢
    rw [hb [0x7D] (Or.inr rfl) s, ht]

theorem parse_congr {s t : JsString} (h : CaseVariant s t) : parse s = parse t := by
  rw [← parse_map_asciiLower s, h, parse_map_asciiLower]

theorem map_asciiLower_printBytes (n : Nat) (ds : List (Fin 16)) :
    (printBytes n ds).map asciiLower = printBytes n ds := by
  induction n generalizing ds with
  | zero => rfl
  | succ n ih =>
    match ds with
    | [] => rfl
    | [_] => rfl
    | x :: y :: ds =>
      simp only [printBytes, List.map_cons, List.map_append, asciiLower_hexDigit, ih]
      split_ifs <;> rfl

/-- A printed value is in lower case. -/
theorem map_asciiLower_toText (u : Uuid) : u.toText.map asciiLower = u.toText :=
  map_asciiLower_printBytes 16 u.digits

/-- The spellings of a value are those of its printed form. -/
theorem parse_of_caseVariant {s : JsString} {u : Uuid} (h : CaseVariant s u.toText) :
    parse s = some u := by
  rw [parse_congr h, parse_toText]

theorem plain_printBytes (n : Nat) (ds : List (Fin 16)) : Plain (printBytes n ds) := by
  have hdigit : ∀ d : Fin 16, plainUnit (hexDigit d) = true := by decide
  induction n, ds using printBytes.induct with
  | case1 n x y ds ih =>
    rw [printBytes, plain_cons, plain_cons, plain_append]
    refine ⟨hdigit x, hdigit y, ?_, ih⟩
    split_ifs
    · exact plain_cons.mpr ⟨by decide, plain_nil⟩
    · exact plain_nil
  | case2 n ds h =>
    rw [printBytes]
    · exact plain_nil
    · exact h

/-- A printed value is a plain text. -/
theorem plain_toText (u : Uuid) : Plain u.toText := plain_printBytes 16 u.digits

theorem ascii_toText (u : Uuid) : Ascii u.toText := u.plain_toText.ascii

theorem length_printBytes {n : Nat} {ds : List (Fin 16)} (h : ds.length = 2 * n) :
    (printBytes n ds).length ≤ 3 * n := by
  induction n generalizing ds with
  | zero =>
    obtain rfl := List.length_eq_zero_iff.mp h
    simp [printBytes]
  | succ n ih =>
    match ds, h with
    | x :: y :: ds, h =>
      have hrec : (printBytes n ds).length ≤ 3 * n := ih (by simpa [Nat.mul_add] using h)
      rw [printBytes, List.length_cons, List.length_cons, List.length_append]
      split_ifs <;> simp <;> omega

theorem length_toText_le (u : Uuid) : u.toText.length ≤ 48 := length_printBytes u.length_digits

/-! ### Printed values are ordered as the values -/

theorem printBytes_lt_printBytes (n : Nat) {ds es : List (Fin 16)} (hd : ds.length = 2 * n)
    (he : es.length = 2 * n) : printBytes n ds < printBytes n es ↔ ds < es := by
  induction n generalizing ds es with
  | zero =>
    obtain rfl := List.length_eq_zero_iff.mp hd
    obtain rfl := List.length_eq_zero_iff.mp he
    simp [printBytes]
  | succ n ih =>
    match ds, es, hd, he with
    | x :: y :: ds, x' :: y' :: es, hd, he =>
      have ht : printBytes n ds < printBytes n es ↔ ds < es :=
        ih (by simpa [Nat.mul_add] using hd) (by simpa [Nat.mul_add] using he)
      simp only [printBytes, List.cons_lt_cons_iff, hexDigit_lt_hexDigit,
        hexDigit_injective.eq_iff]
      split_ifs
      · simp only [List.singleton_append, List.cons_lt_cons_iff, ht]
        simp
      · rw [List.nil_append, List.nil_append, ht]

/-- Printed values compare, as strings, as the values do. -/
theorem toText_lt_toText (u v : Uuid) : u.toText < v.toText ↔ u < v :=
  printBytes_lt_printBytes 16 u.length_digits v.length_digits

end Uuid

/-! ## The application's check -/

/-- A hexadecimal digit, in either case. -/
def hexClass (c : UInt16) : Bool := (hexValue c).isSome

/-- A hyphen. -/
def hyphenClass (c : UInt16) : Bool := c == 0x2D

/-- `[1-5]`: the version digit. -/
def versionClass (c : UInt16) : Bool := 49 ≤ c.toNat && c.toNat ≤ 53

/-- `[89ab]`, in either case: the variant digit. -/
def variantClass (c : UInt16) : Bool :=
  c.toNat == 56 || c.toNat == 57 || c.toNat == 97 || c.toNat == 98 || c.toNat == 65 ||
    c.toNat == 66

/-- `/^[0-9a-f]{8}-[0-9a-f]{4}-[1-5][0-9a-f]{3}-[89ab][0-9a-f]{3}-[0-9a-f]{12}$/i`. -/
def uuidClasses : List (UInt16 → Bool) :=
  List.replicate 8 hexClass ++ [hyphenClass] ++ List.replicate 4 hexClass ++ [hyphenClass] ++
    versionClass :: List.replicate 3 hexClass ++ [hyphenClass] ++
    variantClass :: List.replicate 3 hexClass ++ [hyphenClass] ++ List.replicate 12 hexClass

/-- The check the validation schemas, the cursor decoder and the event contract share. -/
def isUuid (s : JsString) : Bool := matchesClasses uuidClasses s

/-- The classes of `n` printed bytes: two digits a byte, and the hyphens of the printed form. -/
def layout : Nat → List (UInt16 → Bool)
  | n + 1 =>
    hexClass :: hexClass ::
      ((if n = 12 ∨ n = 10 ∨ n = 8 ∨ n = 6 then [hyphenClass] else []) ++ layout n)
  | 0 => []

theorem matchesClasses_mono {ps qs : List (UInt16 → Bool)}
    (h : List.Forall₂ (fun p q : UInt16 → Bool => ∀ c, p c = true → q c = true) ps qs)
    {s : JsString} (hs : matchesClasses ps s = true) : matchesClasses qs s = true := by
  induction h generalizing s with
  | nil => exact hs
  | cons hpq _ ih =>
    cases s with
    | nil => simp [matchesClasses] at hs
    | cons c s =>
      simp only [matchesClasses, Bool.and_eq_true] at hs ⊢
      exact ⟨hpq c hs.1, ih hs.2⟩

theorem hexClass_of_versionClass (c : UInt16) (h : versionClass c = true) :
    hexClass c = true := by
  simp only [versionClass, Bool.and_eq_true, decide_eq_true_eq] at h
  simp [hexClass, hexValue, show 48 ≤ c.toNat ∧ c.toNat ≤ 57 by omega]

theorem hexClass_of_variantClass (c : UInt16) (h : variantClass c = true) :
    hexClass c = true := by
  simp only [variantClass, Bool.or_eq_true, beq_iff_eq] at h
  simp only [hexClass, hexValue]
  split_ifs with h₁ h₂ h₃
  · rfl
  · rfl
  · rfl
  · omega

/-- The pattern has the layout of sixteen printed bytes. -/
theorem uuidClasses_layout :
    List.Forall₂ (fun p q : UInt16 → Bool => ∀ c, p c = true → q c = true) uuidClasses
      (layout 16) := by
  simp only [uuidClasses, layout, List.replicate]
  simpa using ⟨hexClass_of_versionClass, hexClass_of_variantClass⟩

/-- A text of the layout is a spelling of the bytes whose digits it lists. -/
theorem matchesClasses_layout {n : Nat} {s : JsString}
    (h : matchesClasses (layout n) s = true) :
    ∃ ds : List (Fin 16), ds.length = 2 * n ∧ s.map asciiLower = Uuid.printBytes n ds := by
  induction n generalizing s with
  | zero =>
    cases s with
    | nil => exact ⟨[], rfl, rfl⟩
    | cons => simp [layout, matchesClasses] at h
  | succ n ih =>
    obtain _ | ⟨a, _ | ⟨b, s⟩⟩ := s
    · simp [layout, matchesClasses] at h
    · simp [layout, matchesClasses] at h
    · simp only [layout, matchesClasses, Bool.and_eq_true] at h
      obtain ⟨ha, hb, hs⟩ := h
      obtain ⟨x, hx⟩ := Option.isSome_iff_exists.mp ha
      obtain ⟨y, hy⟩ := Option.isSome_iff_exists.mp hb
      by_cases hn : n = 12 ∨ n = 10 ∨ n = 8 ∨ n = 6
      · rw [if_pos hn] at hs
        cases s with
        | nil => simp [matchesClasses] at hs
        | cons c s =>
          simp only [List.singleton_append, matchesClasses, Bool.and_eq_true, hyphenClass,
            beq_iff_eq] at hs
          obtain ⟨rfl, hs⟩ := hs
          obtain ⟨ds, hl, hds⟩ := ih hs
          refine ⟨x :: y :: ds, by simp [hl, Nat.mul_add], ?_⟩
          simp only [List.map_cons, asciiLower_of_hexValue hx, asciiLower_of_hexValue hy, hds,
            Uuid.printBytes, if_pos hn]
          rfl
      · rw [if_neg hn, List.nil_append] at hs
        obtain ⟨ds, hl, hds⟩ := ih hs
        refine ⟨x :: y :: ds, by simp [hl, Nat.mul_add], ?_⟩
        simp only [List.map_cons, asciiLower_of_hexValue hx, asciiLower_of_hexValue hy, hds,
          Uuid.printBytes, if_neg hn, List.nil_append]

/-- **A text the application accepts is a spelling of a value**, in the printed layout. -/
theorem isUuid_spells {s : JsString} (h : isUuid s = true) :
    ∃ u : Uuid, CaseVariant s u.toText ∧ Uuid.parse s = some u := by
  obtain ⟨ds, hl, hds⟩ := matchesClasses_layout (matchesClasses_mono uuidClasses_layout h)
  have hv : CaseVariant s (Uuid.mk ds hl).toText := by
    rw [CaseVariant, Uuid.map_asciiLower_toText]
    exact hds
  exact ⟨_, hv, Uuid.parse_of_caseVariant hv⟩

theorem hexClass_asciiLower (c : UInt16) : hexClass (asciiLower c) = hexClass c := by
  simp [hexClass]

theorem uuidClasses_asciiLower : ∀ p ∈ uuidClasses, ∀ c, p (asciiLower c) = p c := by
  have h₁ : ∀ c, hyphenClass (asciiLower c) = hyphenClass c := fun c => by
    rw [Bool.eq_iff_iff]
    simp only [hyphenClass, beq_iff_eq, Uuid.asciiLower_eq_hyphen]
  have h₂ : ∀ c, versionClass (asciiLower c) = versionClass c := fun c => by
    rw [Bool.eq_iff_iff]
    simp only [versionClass, toNat_asciiLower, Bool.and_eq_true, decide_eq_true_eq]
    split_ifs <;> omega
  have h₃ : ∀ c, variantClass (asciiLower c) = variantClass c := fun c => by
    rw [Bool.eq_iff_iff]
    simp only [variantClass, toNat_asciiLower, Bool.or_eq_true, beq_iff_eq]
    split_ifs <;> omega
  simp only [uuidClasses, List.forall_mem_append, List.forall_mem_cons]
  simp [h₁, h₂, h₃, hexClass_asciiLower]

/-- The check does not look at the case of letters. -/
theorem isUuid_congr {s t : JsString} (h : CaseVariant s t) : isUuid s = isUuid t := by
  have hm := matchesClasses_map_asciiLower uuidClasses_asciiLower
  rw [isUuid, isUuid, ← hm s, h, hm t]

theorem length_of_isUuid {s : JsString} (h : isUuid s = true) : s.length = 36 :=
  length_of_matchesClasses h

theorem plain_of_uuidClasses : ∀ p ∈ uuidClasses, ∀ c, p c = true → plainUnit c = true := by
  have hhex : ∀ c, hexClass c = true → plainUnit c = true := by
    intro c hc
    have hquote : (0x22 : UInt16).toNat = 34 := rfl
    have hbackslash : (0x5C : UInt16).toNat = 92 := rfl
    simp only [hexClass, hexValue] at hc
    simp only [plainUnit, Bool.and_eq_true, decide_eq_true_eq, bne_iff_ne, ne_eq,
      ← UInt16.toNat_inj]
    split_ifs at hc
    · omega
    · omega
    · omega
    · cases hc
  have hhyphen : ∀ c, hyphenClass c = true → plainUnit c = true := by
    intro c hc
    rw [beq_iff_eq.mp hc]
    decide
  have hversion : ∀ c, versionClass c = true → plainUnit c = true :=
    fun c hc => hhex c (hexClass_of_versionClass c hc)
  have hvariant : ∀ c, variantClass c = true → plainUnit c = true :=
    fun c hc => hhex c (hexClass_of_variantClass c hc)
  simp only [uuidClasses, List.forall_mem_append, List.forall_mem_cons]
  simp +contextual [hhex, hhyphen, hversion, hvariant]

/-- An accepted id, in any spelling, is a plain text. -/
theorem plain_of_isUuid {s : JsString} (h : isUuid s = true) : Plain s := by
  intro c hc
  obtain ⟨p, hp, hpc⟩ := exists_class_of_matchesClasses h c hc
  exact plain_of_uuidClasses p hp c hpc

end MernChat
