import MernChat.Runtime.Postgres
import Mathlib.Algebra.Group.Int.Defs

/-!
# JSON texts

`JSON.stringify` of strings, and `JSON.parse`. A number keeps the decimal value of its text;
comparing it with a small integer rounds it as reading it into a double does.

## Main definitions

* `Json`, `Json.field`: values, and the field of a parsed object
* `jsonQuote`: the text of a string
* `parseJson`: `JSON.parse`

## Main results

* `parseStringBody_plain`: a string without escapes is read back
-/

namespace MernChat

/-- The decimal number `mantissa * 10 ^ exponent`. -/
structure JsonNumber where
  mantissa : Int
  exponent : Int
deriving DecidableEq

inductive Json
  | null
  | bool (b : Bool)
  | num (n : JsonNumber)
  | str (s : JsString)
  | arr (elements : List Json)
  | obj (fields : List (JsString × Json))

/-- `value.name`: the last field of that name, where the value is an object or an array. -/
def Json.field (name : JsString) : Json → Option Json
  | .obj fields => (fields.reverse.find? fun f => f.1 == name).map Prod.snd
  | _ => none

/-- `n === 2`: the number lies between the midpoints to the doubles next to 2, where ties go to
2. -/
def JsonNumber.isTwo (n : JsonNumber) : Bool :=
  let scale : Int := 10 ^ (-n.exponent).toNat
  let value : Int := n.mantissa * 10 ^ n.exponent.toNat
  decide ((2 ^ 54 - 1) * scale ≤ value * 2 ^ 53) && decide (value * 2 ^ 52 ≤ (2 ^ 53 + 1) * scale)

/-! ## Strings -/

def hexText (n : Nat) : UInt16 := hexDigit ⟨n % 16, Nat.mod_lt n (by decide)⟩

/-- The escape of a code unit. -/
def unicodeEscape (c : UInt16) : JsString :=
  [0x5C, 0x75, hexText (c.toNat / 0x1000), hexText (c.toNat / 0x100), hexText (c.toNat / 0x10),
    hexText c.toNat]

/-- A code unit that is no part of a surrogate pair. -/
def quoteUnit (c : UInt16) : JsString :=
  if c = 0x22 then [0x5C, 0x22]
  else if c = 0x5C then [0x5C, 0x5C]
  else if c = 0x08 then [0x5C, 0x62]
  else if c = 0x0C then [0x5C, 0x66]
  else if c = 0x0A then [0x5C, 0x6E]
  else if c = 0x0D then [0x5C, 0x72]
  else if c = 0x09 then [0x5C, 0x74]
  else if c.toNat < 0x20 || isHighSurrogate c || isLowSurrogate c then unicodeEscape c
  else [c]

def quoteBody : JsString → JsString
  | [] => []
  | [c] => quoteUnit c
  | c :: d :: s =>
    if isHighSurrogate c && isLowSurrogate d then c :: d :: quoteBody s
    else quoteUnit c ++ quoteBody (d :: s)

/-- `JSON.stringify(s)`. -/
def jsonQuote (s : JsString) : JsString := 0x22 :: (quoteBody s ++ [0x22])

/-- The code unit of a one-letter escape. -/
def simpleEscape (c : UInt16) : Option UInt16 :=
  if c = 0x22 ∨ c = 0x5C ∨ c = 0x2F then some c
  else if c = 0x62 then some 0x08
  else if c = 0x66 then some 0x0C
  else if c = 0x6E then some 0x0A
  else if c = 0x72 then some 0x0D
  else if c = 0x74 then some 0x09
  else none

/-- Where a reader of a string stands. -/
inductive StringState
  | plain
  /-- After a backslash. -/
  | escape
  /-- Within a four-digit escape: the digits to follow, less one, and the value so far. -/
  | unicode (more value : Nat)

/-- The code unit `c` before the rest of a string. -/
def consUnit (c : UInt16) (r : Option (JsString × JsString)) : Option (JsString × JsString) :=
  r.map fun r => (c :: r.1, r.2)

/-- The rest of a string, and the text after its closing quote. -/
def parseStringFrom : StringState → JsString → Option (JsString × JsString)
  | _, [] => none
  | .plain, c :: s =>
    if c = 0x22 then some ([], s)
    else if c = 0x5C then parseStringFrom .escape s
    else if c.toNat < 0x20 then none
    else consUnit c (parseStringFrom .plain s)
  | .escape, c :: s =>
    if c = 0x75 then parseStringFrom (.unicode 3 0) s
    else (simpleEscape c).bind fun u => consUnit u (parseStringFrom .plain s)
  | .unicode more value, c :: s =>
    (hexValue c).bind fun d =>
      match more with
      | 0 => consUnit (UInt16.ofNat (value * 0x10 + d.val)) (parseStringFrom .plain s)
      | more + 1 => parseStringFrom (.unicode more (value * 0x10 + d.val)) s

/-- The string after an opening quote, and the text after its closing quote. -/
def parseStringBody (s : JsString) : Option (JsString × JsString) := parseStringFrom .plain s

/-! ## Numbers -/

def isDigit (c : UInt16) : Bool := 0x30 ≤ c.toNat && c.toNat ≤ 0x39

def digitsValue (s : JsString) : Nat := s.foldl (fun n c => 10 * n + (c.toNat - 48)) 0

/-- The digits of a number before its point: no leading zero. -/
def parseIntegerPart (s : JsString) : Option (JsString × JsString) :=
  match s with
  | 0x30 :: s => some ([0x30], s)
  | _ =>
    let digits := s.takeWhile isDigit
    if digits = [] then none else some (digits, s.dropWhile isDigit)

/-- The digits after a point. -/
def parseFraction (s : JsString) : Option (JsString × JsString) :=
  match s with
  | 0x2E :: s =>
    let digits := s.takeWhile isDigit
    if digits = [] then none else some (digits, s.dropWhile isDigit)
  | _ => some ([], s)

/-- The sign of an exponent. -/
def parseSign (s : JsString) : Int × JsString :=
  match s with
  | 0x2B :: s => (1, s)
  | 0x2D :: s => (-1, s)
  | _ => (1, s)

def parseExponent (s : JsString) : Option (Int × JsString) :=
  match s with
  | c :: s' =>
    if c = 0x65 ∨ c = 0x45 then
      let signed := parseSign s'
      let digits := signed.2.takeWhile isDigit
      if digits = [] then none
      else some (signed.1 * digitsValue digits, signed.2.dropWhile isDigit)
    else some (0, s)
  | [] => some (0, [])

def parseNumber (s : JsString) : Option (JsonNumber × JsString) := do
  let signed : Int × JsString := match s with
    | 0x2D :: s => (-1, s)
    | _ => (1, s)
  let (integer, s) ← parseIntegerPart signed.2
  let (fraction, s) ← parseFraction s
  let (exponent, s) ← parseExponent s
  return (⟨signed.1 * digitsValue (integer ++ fraction), exponent - fraction.length⟩, s)

/-! ## Values -/

/-- The text after its leading white space. -/
def skipSpace (s : JsString) : JsString :=
  s.dropWhile fun c => c == 0x20 || c == 0x09 || c == 0x0A || c == 0x0D

/-- The text after a given first part. -/
def stripWord (word s : JsString) : Option JsString :=
  if word.isPrefixOf s then some (s.drop word.length) else none

mutual

/-- A value, and the text after it. The fuel bounds the depth and the length of what is read. -/
def parseValue : Nat → JsString → Option (Json × JsString)
  | 0, _ => none
  | fuel + 1, s =>
    match skipSpace s with
    | [] => none
    | c :: s =>
      if c = 0x7B then
        match skipSpace s with
        | 0x7D :: s => some (.obj [], s)
        | _ => (parseMembers fuel s).map fun r => (.obj r.1, r.2)
      else if c = 0x5B then
        match skipSpace s with
        | 0x5D :: s => some (.arr [], s)
        | _ => (parseElements fuel s).map fun r => (.arr r.1, r.2)
      else if c = 0x22 then (parseStringBody s).map fun r => (.str r.1, r.2)
      else if c = 0x74 then (stripWord (js "rue") s).map fun s => (.bool true, s)
      else if c = 0x66 then (stripWord (js "alse") s).map fun s => (.bool false, s)
      else if c = 0x6E then (stripWord (js "ull") s).map fun s => (.null, s)
      else (parseNumber (c :: s)).map fun r => (.num r.1, r.2)

/-- The members of an object, and the text after its closing brace. -/
def parseMembers : Nat → JsString → Option (List (JsString × Json) × JsString)
  | 0, _ => none
  | fuel + 1, s =>
    match skipSpace s with
    | 0x22 :: s =>
      (parseStringBody s).bind fun key =>
        match skipSpace key.2 with
        | 0x3A :: s =>
          (parseValue fuel s).bind fun value =>
            match skipSpace value.2 with
            | 0x2C :: s =>
              (parseMembers fuel s).map fun r => ((key.1, value.1) :: r.1, r.2)
            | 0x7D :: s => some ([(key.1, value.1)], s)
            | _ => none
        | _ => none
    | _ => none

/-- The elements of an array, and the text after its closing bracket. -/
def parseElements : Nat → JsString → Option (List Json × JsString)
  | 0, _ => none
  | fuel + 1, s =>
    (parseValue fuel s).bind fun value =>
      match skipSpace value.2 with
      | 0x2C :: s => (parseElements fuel s).map fun r => (value.1 :: r.1, r.2)
      | 0x5D :: s => some ([value.1], s)
      | _ => none

end

/-- `JSON.parse`; none where it throws. -/
def parseJson (s : JsString) : Option Json :=
  -- an array or an object uses up two units of fuel, and has two brackets
  (parseValue (s.length + 1) s).bind fun r => if skipSpace r.2 = [] then some r.1 else none

/-! ## Strings without escapes -/

theorem quoteUnit_plain {c : UInt16} (h : plainUnit c = true) : quoteUnit c = [c] := by
  simp only [plainUnit, Bool.and_eq_true, decide_eq_true_eq, bne_iff_ne, ne_eq] at h
  obtain ⟨⟨⟨h₁, h₂⟩, h₃⟩, h₄⟩ := h
  have hne : ∀ d : UInt16, d.toNat < 0x20 → c ≠ d := by
    rintro d hd rfl
    omega
  obtain ⟨hh, hl⟩ := not_surrogate h₂
  rw [quoteUnit, if_neg h₃, if_neg h₄, if_neg (hne _ (by decide)), if_neg (hne _ (by decide)),
    if_neg (hne _ (by decide)), if_neg (hne _ (by decide)), if_neg (hne _ (by decide)), if_neg]
  simp only [hh, hl, Bool.or_false, decide_eq_true_eq]
  omega

/-- A plain text is quoted as it is. -/
theorem quoteBody_plain {s : JsString} (h : Plain s) : quoteBody s = s := by
  induction s using quoteBody.induct with
  | case1 => rfl
  | case2 c => exact quoteUnit_plain (h c List.mem_cons_self)
  | case3 c d s hc ih =>
    have hp := h c List.mem_cons_self
    simp only [plainUnit, Bool.and_eq_true, decide_eq_true_eq] at hp
    -- a plain text has no surrogates
    rw [(not_surrogate hp.1.1.2).1] at hc
    cases hc
  | case4 c d s hc ih =>
    rw [quoteBody, if_neg hc, quoteUnit_plain (h c List.mem_cons_self),
      ih fun e he => h e (List.mem_cons_of_mem c he)]
    rfl

/-- **A plain text is read back** up to its closing quote. -/
theorem parseStringBody_plain {s : JsString} (h : Plain s) (t : JsString) :
    parseStringBody (s ++ 0x22 :: t) = some (s, t) := by
  unfold parseStringBody
  induction s with
  | nil => rfl
  | cons c s ih =>
    have hc := h c List.mem_cons_self
    simp only [plainUnit, Bool.and_eq_true, decide_eq_true_eq, bne_iff_ne, ne_eq] at hc
    obtain ⟨⟨⟨h₁, h₂⟩, h₃⟩, h₄⟩ := hc
    rw [List.cons_append, parseStringFrom, if_neg h₃, if_neg h₄, if_neg (by omega),
      ih fun d hd => h d (List.mem_cons_of_mem c hd)]
    rfl

end MernChat
