import Mathlib.Tactic.SplitIfs
import MernChat.Observability.Metrics

/-!
# The text format

The text format of metrics, version 0.0.4, as its reader takes it: lines that end with a line feed,
in them comments and samples, the units of a line apart by blanks.

## Main definitions

* `readQuoted`, `readLabel`, `readLabels`: the labels of a sample
* `readSample`, `isComment`, `readLine`: one line
* `readExposition`: the samples of a text

## Main results

* `readLabels_joinWith`: labels written with their values escaped are read back
* `readLabels_firstLine`: labels broken by a line feed are not read
* `readLines_append`, `splitOn_joinWith`: a text is read line by line
-/

namespace MernChat

open Library

/-! ## Units -/

def lineFeed : UInt16 := 0x0A

/-- A space or a tab. -/
def isBlank (c : UInt16) : Bool := c == 0x20 || c == 0x09

/-- `[a-zA-Z0-9_:]`. -/
def metricUnit (c : UInt16) : Bool := labelUnit c || c == 0x3A

/-- `[a-zA-Z_:][a-zA-Z0-9_:]*`. -/
def isMetricName : JsString → Bool
  | [] => false
  | c :: s => (isLetter c || c == 0x5F || c == 0x3A) && s.all metricUnit

def skipBlanks (s : JsString) : JsString := s.dropWhile isBlank

/-- The units before the next blank, and the text from it on. -/
def nextToken (s : JsString) : JsString := s.takeWhile fun c => !isBlank c

def afterToken (s : JsString) : JsString := s.dropWhile fun c => !isBlank c

/-- The text after a unit, with blanks before it. -/
def after (c : UInt16) (s : JsString) : Option JsString :=
  match skipBlanks s with
  | [] => none
  | d :: s => if d = c then some s else none

/-! ## Labels -/

/-- What a backslash stands before in a label value. -/
def unescapeUnit (c : UInt16) : Option UInt16 :=
  if c = 0x5C then some 0x5C else if c = 0x22 then some 0x22
  else if c = 0x6E then some lineFeed else none

/-- A label value after its opening quote, and the text after the closing one. -/
def readQuoted : JsString → Option (JsString × JsString)
  | [] => none
  | c :: s =>
    if c = 0x22 then some ([], s)
    else if c = 0x5C then
      match s with
      | [] => none
      | d :: s => do
        let value ← unescapeUnit d
        let read ← readQuoted s
        some (value :: read.1, read.2)
    else do
      let read ← readQuoted s
      some (c :: read.1, read.2)

/-- `name="value"`. -/
def readLabel (s : JsString) : Option ((JsString × JsString) × JsString) :=
  if isLabelName (s.takeWhile labelUnit) then do
    let value ← after 0x3D (s.dropWhile labelUnit)
    let quoted ← after 0x22 value
    let read ← readQuoted quoted
    some ((s.takeWhile labelUnit, read.1), read.2)
  else none

/-- Labels after an opening brace, at most so many, and the text after the closing one. A comma may
stand after the last. -/
def readLabels : Nat → JsString → Option (List (JsString × JsString) × JsString)
  | 0, _ => none
  | n + 1, s =>
    match after 0x7D s with
    | some rest => some ([], rest)
    | none => do
      let label ← readLabel (skipBlanks s)
      match after 0x2C label.2 with
      | some s => do
        let labels ← readLabels n s
        some (label.1 :: labels.1, labels.2)
      | none => do
        let rest ← after 0x7D label.2
        some ([label.1], rest)

/-! ## Lines -/

/-- A sample of the text. -/
structure Sample (ν : Type) where
  name : JsString
  labels : List (JsString × JsString)
  value : ν

/-- The same name and value under the same labels, in whatever order they are written. -/
structure Sample.Same {ν : Type} (sample sample' : Sample ν) : Prop where
  name : sample.name = sample'.name
  labels : sample.labels.Perm sample'.labels
  value : sample.value = sample'.value

/-- Nothing, or the milliseconds of a sample. -/
def isTimestamp (s : JsString) : Bool :=
  let digits := if s.head? = some 0x2D then s.tail else s
  s = [] || (digits.takeWhile isDigit ≠ [] && skipBlanks (digits.dropWhile isDigit) = [])

/-- Backslashes of a help text stand before a backslash or an `n`. -/
def isHelp : JsString → Bool
  | [] => true
  | c :: s =>
    if c = 0x5C then
      match s with
      | [] => false
      | d :: s => (d == 0x5C || d == 0x6E) && isHelp s
    else isHelp s

/-- The types of metrics. -/
def metricTypes : List JsString :=
  [js "counter", js "gauge", js "histogram", js "summary", js "untyped"]

/-- A metric name, and after blanks a text of a kind. -/
def isDescription (ofText : JsString → Bool) (s : JsString) : Bool :=
  isMetricName (nextToken s) && ofText (skipBlanks (afterToken s))

/-- A line is a comment after its `#`, unless it begins as a help text or a type and is none. -/
def isComment (s : JsString) : Bool :=
  let token := nextToken (skipBlanks s)
  let rest := skipBlanks (afterToken (skipBlanks s))
  if token = js "HELP" then isDescription isHelp rest
  else if token = js "TYPE" then
    isDescription (fun s => metricTypes.contains (nextToken s) && skipBlanks (afterToken s) = [])
      rest
  else true

section Reading

variable {ν : Type} (readNumber : JsString → Option ν)

/-- `name{labels} value timestamp`. -/
def readSample (s : JsString) : Option (Sample ν) :=
  if isMetricName (s.takeWhile metricUnit) then do
    let labels ←
      match after 0x7B (s.dropWhile metricUnit) with
      | some s => readLabels s.length s
      | none => some ([], s.dropWhile metricUnit)
    let value ← readNumber (nextToken (skipBlanks labels.2))
    if isTimestamp (skipBlanks (afterToken (skipBlanks labels.2))) then
      some ⟨s.takeWhile metricUnit, labels.1, value⟩
    else none
  else none

/-- The sample of a line, if it has one. -/
def readLine (s : JsString) : Option (Option (Sample ν)) :=
  match skipBlanks s with
  | [] => some none
  | c :: s =>
    if c = 0x23 then if isComment s then some none else none
    else (readSample readNumber (c :: s)).map some

def readLines : List JsString → Option (List (Sample ν))
  | [] => some []
  | line :: lines => do
    let sample ← readLine readNumber line
    let samples ← readLines lines
    some (sample.toList ++ samples)

/-- The samples of a text. Its last line ends with a line feed too. -/
def readExposition (text : JsString) : Option (List (Sample ν)) :=
  if text = [] ∨ text.getLast? = some lineFeed then
    readLines readNumber (text.splitOn lineFeed)
  else none

end Reading

/-! ## Names -/

theorem toNat_of_labelUnit {c : UInt16} (h : labelUnit c = true) : 0x30 ≤ c.toNat := by
  simp only [labelUnit, isLetter, isDigit, Bool.or_eq_true, Bool.and_eq_true, decide_eq_true_eq,
    beq_iff_eq] at h
  rcases h with (h | h) | rfl
  · have hlower := toNat_asciiLower c
    split_ifs at hlower <;> omega
  · omega
  · decide

theorem metricUnit_of_labelUnit {c : UInt16} (h : labelUnit c = true) : metricUnit c = true := by
  rw [metricUnit, h, Bool.true_or]

theorem toNat_of_metricUnit {c : UInt16} (h : metricUnit c = true) : 0x30 ≤ c.toNat := by
  rw [metricUnit, Bool.or_eq_true, beq_iff_eq] at h
  rcases h with h | rfl
  · exact toNat_of_labelUnit h
  · decide

/-- Units above the punctuation that stands around tokens are no blanks. -/
theorem isBlank_of_toNat {c : UInt16} (h : 0x21 ≤ c.toNat) : isBlank c = false := by
  rw [isBlank, Bool.or_eq_false_iff, beq_eq_false_iff_ne, beq_eq_false_iff_ne]
  constructor
  · rintro rfl
    exact absurd h (by decide)
  · rintro rfl
    exact absurd h (by decide)

theorem ne_lineFeed_of_toNat {c : UInt16} (h : 0x21 ≤ c.toNat) : c ≠ lineFeed := by
  rintro rfl
  exact absurd h (by decide)

theorem isBlank_of_metricUnit {c : UInt16} (h : metricUnit c = true) : isBlank c = false := by
  have hlarge := toNat_of_metricUnit h
  exact isBlank_of_toNat (by omega)

theorem labelUnit_of_mem {name : JsString} (h : isLabelName name = true) :
    ∀ c ∈ name, labelUnit c = true := by
  cases name with
  | nil => exact fun c hc => absurd hc List.not_mem_nil
  | cons c s =>
    simp only [isLabelName, Bool.and_eq_true, Bool.or_eq_true, List.all_eq_true] at h
    rw [List.forall_mem_cons]
    refine ⟨?_, h.2⟩
    rw [labelUnit, Bool.or_assoc, Bool.or_left_comm, Bool.or_eq_true, Bool.or_eq_true]
    exact Or.inr h.1

theorem metricUnit_of_mem {name : JsString} (h : isMetricName name = true) :
    ∀ c ∈ name, metricUnit c = true := by
  cases name with
  | nil => exact fun c hc => absurd hc List.not_mem_nil
  | cons c s =>
    simp only [isMetricName, Bool.and_eq_true, Bool.or_eq_true, List.all_eq_true] at h
    rw [List.forall_mem_cons]
    refine ⟨?_, h.2⟩
    simp only [metricUnit, labelUnit, Bool.or_eq_true]
    tauto

/-- A name is not empty. -/
theorem ne_nil_of_isLabelName {name : JsString} (h : isLabelName name = true) : name ≠ [] := by
  rintro rfl
  exact Bool.false_ne_true h

theorem ne_nil_of_isMetricName {name : JsString} (h : isMetricName name = true) : name ≠ [] := by
  rintro rfl
  exact Bool.false_ne_true h

/-! ## Tokens -/

theorem skipBlanks_append {token : JsString} (hne : token ≠ [])
    (h : ∀ c ∈ token, isBlank c = false) (s : JsString) : skipBlanks (token ++ s) = token ++ s := by
  cases token with
  | nil => exact absurd rfl hne
  | cons c token =>
    have hc : ¬isBlank c = true := by rw [h c List.mem_cons_self]; exact Bool.false_ne_true
    rw [skipBlanks, List.cons_append, List.dropWhile_cons_of_neg hc]

theorem skipBlanks_space_cons (s : JsString) : skipBlanks (0x20 :: s) = skipBlanks s := by
  rw [skipBlanks, List.dropWhile_cons_of_pos (by decide), skipBlanks]

theorem skipBlanks_cons {c : UInt16} (h : isBlank c = false) (s : JsString) :
    skipBlanks (c :: s) = c :: s := by
  rw [skipBlanks, List.dropWhile_cons_of_neg (by rw [h]; exact Bool.false_ne_true)]

theorem after_cons {c d : UInt16} (h : isBlank d = false) (s : JsString) :
    after c (d :: s) = if d = c then some s else none := by
  rw [after, skipBlanks_cons h]

theorem after_self {c : UInt16} (h : isBlank c = false) (s : JsString) :
    after c (c :: s) = some s := by
  rw [after_cons h, if_pos rfl]

theorem nextToken_append {token : JsString} (h : ∀ c ∈ token, isBlank c = false) (s : JsString) :
    nextToken (token ++ 0x20 :: s) = token ∧ afterToken (token ++ 0x20 :: s) = 0x20 :: s :=
  takeWhile_token (fun c hc => by rw [h c hc, Bool.not_false]) rfl s

theorem nextToken_eq {token : JsString} (h : ∀ c ∈ token, isBlank c = false) :
    nextToken token = token ∧ afterToken token = [] := by
  have hall : ∀ c ∈ token, (!isBlank c) = true := fun c hc => by rw [h c hc, Bool.not_false]
  exact ⟨List.takeWhile_eq_self_iff.mpr hall, List.dropWhile_eq_nil_iff.mpr hall⟩

/-! ## Escapes -/

/-- A unit of a label value as it is written. -/
def escapeUnit (c : UInt16) : JsString :=
  if c = 0x5C then [0x5C, 0x5C] else if c = 0x22 then [0x5C, 0x22] else [c]

/-- **The two replacements, one after the other, escape unit by unit.** -/
theorem replaceUnit_replaceUnit (s : JsString) :
    replaceUnit 0x22 (js "\\\"") (replaceUnit 0x5C (js "\\\\") s) = s.flatMap escapeUnit := by
  induction s with
  | nil => rfl
  | cons c s ih =>
    have happend : ∀ a b : JsString, replaceUnit 0x22 (js "\\\"") (a ++ b) =
        replaceUnit 0x22 (js "\\\"") a ++ replaceUnit 0x22 (js "\\\"") b := by
      intro a b
      rw [replaceUnit, List.flatMap_append]
      rfl
    have hcons : replaceUnit 0x5C (js "\\\\") (c :: s) =
        (if c = 0x5C then js "\\\\" else [c]) ++ replaceUnit 0x5C (js "\\\\") s := rfl
    rw [hcons, happend, ih, List.flatMap_cons, escapeUnit]
    congr 1
    -- the backslashes written first are not replaced again, they are no quotes
    split_ifs with hbackslash hquote
    · rfl
    · rw [hquote]
      rfl
    · rw [replaceUnit, List.flatMap_singleton, if_neg hquote]

theorem readQuoted_quote (s : JsString) : readQuoted (0x22 :: s) = some ([], s) := by
  rw [readQuoted.eq_def]
  exact if_pos rfl

/-- An escaped unit is read back. -/
theorem readQuoted_escapeUnit (c : UInt16) (s : JsString) :
    readQuoted (escapeUnit c ++ s) =
      (readQuoted s).bind fun read => some (c :: read.1, read.2) := by
  rw [escapeUnit]
  split_ifs with hbackslash hquote
  · rw [hbackslash]
    rfl
  · rw [hquote]
    rfl
  · rw [List.singleton_append, readQuoted.eq_def]
    exact (if_neg hquote).trans (if_neg hbackslash)

theorem readQuoted_escaped (value s : JsString) :
    readQuoted (value.flatMap escapeUnit ++ 0x22 :: s) = some (value, s) := by
  induction value with
  | nil => exact readQuoted_quote s
  | cons c value ih =>
    rw [List.flatMap_cons, List.append_assoc, readQuoted_escapeUnit, ih]
    rfl

/-- No value is read where its closing quote is missing. -/
theorem readQuoted_open (value : JsString) : readQuoted (value.flatMap escapeUnit) = none := by
  induction value with
  | nil => rfl
  | cons c value ih =>
    rw [List.flatMap_cons, readQuoted_escapeUnit, ih]
    rfl

/-! ## The first line -/

/-- A text up to its first line feed. -/
def firstLine (s : JsString) : JsString := s.takeWhile fun c => c != lineFeed

theorem firstLine_append_of_not_mem {a : JsString} (h : lineFeed ∉ a) (b : JsString) :
    firstLine (a ++ b) = a ++ firstLine b := by
  refine List.takeWhile_append_of_pos fun c hc => ?_
  rw [bne_iff_ne]
  rintro rfl
  exact h hc

theorem firstLine_append_of_mem {a : JsString} (h : lineFeed ∈ a) (b : JsString) :
    firstLine (a ++ b) = firstLine a := by
  induction a with
  | nil => exact absurd h List.not_mem_nil
  | cons c a ih =>
    rw [firstLine, firstLine, List.cons_append]
    by_cases hc : c = lineFeed
    · rw [hc]
      rfl
    · have hmem : lineFeed ∈ a := (List.mem_cons.mp h).resolve_left fun heq => hc heq.symm
      have hunit : (c != lineFeed) = true := bne_iff_ne.mpr hc
      rw [List.takeWhile_cons, List.takeWhile_cons, if_pos hunit, if_pos hunit]
      exact congrArg (c :: ·) (ih hmem)

/-- An escape neither makes a line feed nor takes one away. -/
theorem lineFeed_mem_escaped {value : JsString} :
    lineFeed ∈ value.flatMap escapeUnit ↔ lineFeed ∈ value := by
  have hunit : ∀ c, lineFeed ∈ escapeUnit c ↔ lineFeed = c := by
    intro c
    rw [escapeUnit]
    split_ifs with hbackslash hquote
    · rw [hbackslash]
      decide
    · rw [hquote]
      decide
    · exact List.mem_singleton
  rw [List.mem_flatMap]
  constructor
  · rintro ⟨c, hc, hmem⟩
    rw [(hunit c).mp hmem]
    exact hc
  · exact fun hmem => ⟨lineFeed, hmem, (hunit _).mpr rfl⟩

theorem firstLine_escaped (value : JsString) :
    firstLine (value.flatMap escapeUnit) = (firstLine value).flatMap escapeUnit := by
  induction value with
  | nil => rfl
  | cons c value ih =>
    rw [List.flatMap_cons]
    by_cases hc : c = lineFeed
    · rw [hc]
      rfl
    · have hunit : lineFeed ∉ escapeUnit c := by
        intro hmem
        have hsingle : lineFeed ∈ [c].flatMap escapeUnit := by
          rw [List.flatMap_singleton]
          exact hmem
        exact hc (List.mem_singleton.mp (lineFeed_mem_escaped.mp hsingle)).symm
      have hfirst : firstLine (c :: value) = c :: firstLine value :=
        List.takeWhile_cons_of_pos (bne_iff_ne.mpr hc)
      rw [firstLine_append_of_not_mem hunit, ih, hfirst, List.flatMap_cons]

/-! ## Labels read back -/

theorem renderLabel_eq (e : JsString × JsString) (s : JsString) :
    renderLabel e ++ s = e.1 ++ 0x3D :: 0x22 :: (e.2.flatMap escapeUnit ++ 0x22 :: s) := by
  rw [renderLabel, replaceUnit_replaceUnit]
  have hopen : js "=\"" = [0x3D, 0x22] := by decide
  have hclose : js "\"" = [0x22] := by decide
  rw [hopen, hclose]
  simp only [List.append_assoc, List.cons_append, List.nil_append]

/-- A label is what its quoted value is read as. -/
theorem readLabel_name {name : JsString} (h : isLabelName name = true) (s : JsString) :
    readLabel (name ++ 0x3D :: 0x22 :: s) =
      (readQuoted s).bind fun read => some ((name, read.1), read.2) := by
  obtain ⟨htake, hdrop⟩ := takeWhile_token (labelUnit_of_mem h) (d := 0x3D) rfl (0x22 :: s)
  rw [readLabel, htake, hdrop, if_pos h, after_self rfl]
  simp only [Option.bind_eq_bind, Option.bind_some]
  rw [after_self rfl]
  rfl

theorem readLabel_renderLabel {e : JsString × JsString} (h : isLabelName e.1 = true)
    (s : JsString) : readLabel (renderLabel e ++ s) = some (e, s) := by
  rw [renderLabel_eq, readLabel_name h, readQuoted_escaped]
  rfl

theorem lineFeed_not_mem_of_units {p : UInt16 → Bool} {s : JsString}
    (hp : ∀ c, p c = true → 0x21 ≤ c.toNat) (h : ∀ c ∈ s, p c = true) : lineFeed ∉ s :=
  fun hmem => ne_lineFeed_of_toNat (hp _ (h _ hmem)) rfl

theorem lineFeed_not_mem_labelName {name : JsString} (h : isLabelName name = true) :
    lineFeed ∉ name :=
  lineFeed_not_mem_of_units (fun _ hc => (by decide : 0x21 ≤ 0x30).trans (toNat_of_labelUnit hc))
    (labelUnit_of_mem h)

/-- A label whose value holds a line feed is cut off within its quotes. -/
theorem readLabel_firstLine {e : JsString × JsString} (h : isLabelName e.1 = true)
    (hvalue : lineFeed ∈ e.2) (s : JsString) :
    readLabel (firstLine (renderLabel e ++ s)) = none := by
  have hmem : lineFeed ∈ e.2.flatMap escapeUnit := lineFeed_mem_escaped.mpr hvalue
  have hopen : lineFeed ∉ e.1 ++ [0x3D, 0x22] := by
    rw [List.mem_append, not_or]
    exact ⟨lineFeed_not_mem_labelName h, by decide⟩
  have hline : firstLine (renderLabel e ++ s) =
      e.1 ++ 0x3D :: 0x22 :: (firstLine e.2).flatMap escapeUnit := by
    rw [renderLabel_eq, ← firstLine_escaped, ← firstLine_append_of_mem hmem (0x22 :: s)]
    have hsplit := firstLine_append_of_not_mem hopen (e.2.flatMap escapeUnit ++ 0x22 :: s)
    rw [List.append_assoc, List.append_assoc] at hsplit
    exact hsplit
  rw [hline, readLabel_name h, readQuoted_open]
  rfl

/-- A label is broken only in its value. -/
theorem lineFeed_mem_renderLabel {e : JsString × JsString} (h : isLabelName e.1 = true) :
    lineFeed ∈ renderLabel e ↔ lineFeed ∈ e.2 := by
  have hrender := renderLabel_eq e []
  rw [List.append_nil] at hrender
  rw [hrender, List.mem_append, or_iff_right (lineFeed_not_mem_labelName h), List.mem_cons,
    or_iff_right (by decide), List.mem_cons, or_iff_right (by decide), List.mem_append,
    lineFeed_mem_escaped, or_iff_left (by decide)]

/-- Where a label begins no other token does. -/
theorem after_labelName {name : JsString} (h : isLabelName name = true) {c : UInt16}
    (hc : labelUnit c = false) (s : JsString) :
    after c (name ++ s) = none ∧ skipBlanks (name ++ s) = name ++ s := by
  have hblank : ∀ d ∈ name, isBlank d = false := fun d hd =>
    isBlank_of_metricUnit (metricUnit_of_labelUnit (labelUnit_of_mem h d hd))
  have hskip := skipBlanks_append (ne_nil_of_isLabelName h) hblank s
  refine ⟨?_, hskip⟩
  rw [after, hskip]
  cases name with
  | nil => exact absurd h Bool.false_ne_true
  | cons d name =>
    have hd : d ≠ c := by
      rintro rfl
      exact Bool.false_ne_true (hc.symm.trans (labelUnit_of_mem h d List.mem_cons_self))
    exact if_neg hd

/-- One label is read, and what follows it decides. -/
theorem readLabels_renderLabel {e : JsString × JsString} (h : isLabelName e.1 = true) (n : Nat)
    (s : JsString) : readLabels (n + 1) (renderLabel e ++ s) =
      match after 0x2C s with
      | some s => (readLabels n s).bind fun labels => some (e :: labels.1, labels.2)
      | none => (after 0x7D s).bind fun rest => some ([e], rest) := by
  obtain ⟨hnone, hskip⟩ := after_labelName h (c := 0x7D) rfl
    (0x3D :: 0x22 :: (e.2.flatMap escapeUnit ++ 0x22 :: s))
  rw [← renderLabel_eq] at hnone hskip
  rw [readLabels, hnone]
  simp only [hskip, readLabel_renderLabel h, Option.bind_eq_bind, Option.bind_some]

theorem joinWith_cons_cons (separator s t : JsString) (rest : List JsString) :
    joinWith separator (s :: t :: rest) = s ++ separator ++ joinWith separator (t :: rest) := rfl

/-- **Labels written with their values escaped are read back.** -/
theorem readLabels_joinWith {es : List (JsString × JsString)} {n : Nat} (hne : es ≠ [])
    (h : ∀ e ∈ es, isLabelName e.1 = true) (hn : es.length ≤ n) (s : JsString) :
    readLabels n (joinWith (js ",") (es.map renderLabel) ++ 0x7D :: s) = some (es, s) := by
  induction es generalizing n with
  | nil => exact absurd rfl hne
  | cons e es ih =>
    obtain ⟨he, hes⟩ := List.forall_mem_cons.mp h
    obtain ⟨n, rfl⟩ := Nat.exists_eq_succ_of_ne_zero (Nat.ne_zero_of_lt hn)
    cases es with
    | nil =>
      rw [List.map_singleton, joinWith, readLabels_renderLabel he]
      rfl
    | cons e' es =>
      rw [List.map_cons, List.map_cons, joinWith_cons_cons, List.append_assoc, List.append_assoc,
        readLabels_renderLabel he]
      have hcomma : ∀ s, after 0x2C (js "," ++ s) = some s := fun s => after_self rfl s
      have hrest := ih (List.cons_ne_nil e' es) hes (Nat.le_of_succ_le_succ hn)
      rw [List.map_cons] at hrest
      rw [hcomma]
      simp only [hrest, Option.bind_some]

/-- A label takes at least one unit. -/
theorem length_le_joinWith (es : List (JsString × JsString)) (s : JsString) :
    es.length ≤ (joinWith (js ",") (es.map renderLabel) ++ s).length := by
  induction es with
  | nil => exact Nat.zero_le _
  | cons e es ih =>
    have hlabel : 1 ≤ (renderLabel e).length := by
      have hrender := renderLabel_eq e []
      rw [List.append_nil] at hrender
      rw [hrender, List.length_append, List.length_cons]
      omega
    rw [List.length_append] at ih ⊢
    cases es with
    | nil =>
      rw [List.map_singleton, joinWith, List.length_singleton]
      omega
    | cons e' es =>
      rw [List.map_cons, List.map_cons, joinWith_cons_cons, List.length_append, List.length_append,
        List.length_cons]
      rw [List.map_cons] at ih
      omega

/-- **Labels broken by a line feed are not read.** -/
theorem readLabels_firstLine {es : List (JsString × JsString)} (n : Nat)
    (h : ∀ e ∈ es, isLabelName e.1 = true) (hvalue : ∃ e ∈ es, lineFeed ∈ e.2) (s : JsString) :
    readLabels n (firstLine (joinWith (js ",") (es.map renderLabel) ++ s)) = none := by
  induction es generalizing n s with
  | nil =>
    obtain ⟨e, he, -⟩ := hvalue
    exact absurd he List.not_mem_nil
  | cons e es ih =>
    cases n with
    | zero => rfl
    | succ n =>
      obtain ⟨he, hes⟩ := List.forall_mem_cons.mp h
      -- what stands after the first label
      obtain ⟨t, hjoin, hnext⟩ : ∃ t, joinWith (js ",") ((e :: es).map renderLabel) ++ s =
          renderLabel e ++ t ∧ (es ≠ [] →
            t = 0x2C :: (joinWith (js ",") (es.map renderLabel) ++ s)) := by
        cases es with
        | nil => exact ⟨s, rfl, fun hne => absurd rfl hne⟩
        | cons e' es =>
          refine ⟨0x2C :: (joinWith (js ",") ((e' :: es).map renderLabel) ++ s), ?_, fun _ => rfl⟩
          rw [List.map_cons, List.map_cons, joinWith_cons_cons, List.append_assoc,
            List.append_assoc]
          rfl
      rw [hjoin]
      by_cases hmem : lineFeed ∈ e.2
      · -- the label itself is cut off
        have hopen : lineFeed ∉ e.1 := lineFeed_not_mem_labelName he
        obtain ⟨hnone, hskip⟩ := after_labelName he (c := 0x7D) rfl
          (firstLine (0x3D :: 0x22 :: (e.2.flatMap escapeUnit ++ 0x22 :: t)))
        rw [← firstLine_append_of_not_mem hopen, ← renderLabel_eq] at hnone hskip
        rw [readLabels, hnone]
        simp only [hskip, readLabel_firstLine he hmem, Option.bind_eq_bind, Option.bind_none]
      · have hlabel : lineFeed ∉ renderLabel e := (lineFeed_mem_renderLabel he).not.mpr hmem
        have hvalue' : ∃ e ∈ es, lineFeed ∈ e.2 := by
          obtain ⟨e', he', hmem'⟩ := hvalue
          rcases List.mem_cons.mp he' with rfl | he'
          · exact absurd hmem' hmem
          · exact ⟨e', he', hmem'⟩
        have hne : es ≠ [] := by
          obtain ⟨e', he', -⟩ := hvalue'
          exact List.ne_nil_of_mem he'
        have hfirst : ∀ s, firstLine (0x2C :: s) = 0x2C :: firstLine s := fun s => rfl
        rw [hnext hne, firstLine_append_of_not_mem hlabel, hfirst, readLabels_renderLabel he,
          after_self rfl]
        simp only [ih n hes hvalue', Option.bind_none]

/-! ## Samples read back -/

/-- What the text of a number is made of: digits, letters, points and signs. -/
def numberUnit (c : UInt16) : Bool :=
  isLetter c || isDigit c || c == 0x2E || c == 0x2B || c == 0x2D

/-- The text of a number is made of such units, and the number is read off it. -/
structure NumberTexts {ν : Type} (numberText : ν → JsString) (readNumber : JsString → Option ν) :
    Prop where
  units : ∀ x, ∀ c ∈ numberText x, numberUnit c = true
  read : ∀ x, readNumber (numberText x) = some x

theorem toNat_of_numberUnit {c : UInt16} (h : numberUnit c = true) : 0x21 ≤ c.toNat := by
  simp only [numberUnit, Bool.or_eq_true, beq_iff_eq] at h
  rcases h with (((h | h) | rfl) | rfl) | rfl
  · have hunit : labelUnit c = true := by rw [labelUnit, h, Bool.true_or, Bool.true_or]
    exact (by decide : 0x21 ≤ 0x30).trans (toNat_of_labelUnit hunit)
  · have hunit : labelUnit c = true := by rw [labelUnit, h, Bool.or_true, Bool.true_or]
    exact (by decide : 0x21 ≤ 0x30).trans (toNat_of_labelUnit hunit)
  · decide
  · decide
  · decide

section Samples

variable {ν : Type} {numberText : ν → JsString} {readNumber : JsString → Option ν}
  {localeCompare : JsString → JsString → Int} {name : JsString}
  {labels : InsertionMap JsString JsString}

theorem isLabelName_of_mem_sortedEntries (hnamed : ∀ key ∈ labels.keys, isLabelName key = true) :
    ∀ e ∈ sortedEntries localeCompare labels, isLabelName e.1 = true := fun e he =>
  hnamed e.1 (List.mem_map_of_mem (InsertionMap.mem_sortEntries.mp he))

theorem renderLabels_of_ne_nil (h : sortedEntries localeCompare labels ≠ []) :
    renderLabels localeCompare labels =
      0x7B :: (joinWith (js ",") ((sortedEntries localeCompare labels).map renderLabel) ++
        [0x7D]) := by
  have hlength : ((sortedEntries localeCompare labels).map renderLabel).length > 0 := by
    rw [List.length_map]
    exact List.length_pos_of_ne_nil h
  rw [renderLabels, if_pos hlength]
  rfl

theorem renderLabels_of_nil (h : sortedEntries localeCompare labels = []) :
    renderLabels localeCompare labels = [] := by
  rw [renderLabels, h]
  rfl

/-- The number at the end of a sample. -/
theorem readNumber_end (h : NumberTexts numberText readNumber) (x : ν) :
    skipBlanks (0x20 :: numberText x) = numberText x ∧
      nextToken (numberText x) = numberText x ∧ afterToken (numberText x) = [] := by
  have hblank : ∀ c ∈ numberText x, isBlank c = false := fun c hc =>
    isBlank_of_toNat (toNat_of_numberUnit (h.units x c hc))
  refine ⟨?_, nextToken_eq hblank⟩
  rw [skipBlanks_space_cons]
  by_cases hne : numberText x = []
  · rw [hne]
    rfl
  · have hskip := skipBlanks_append hne hblank []
    rwa [List.append_nil] at hskip

theorem after_brace_number (h : NumberTexts numberText readNumber) (x : ν) :
    after 0x7B (0x20 :: numberText x) = none := by
  rw [after, (readNumber_end h x).1]
  cases hnumber : numberText x with
  | nil => rfl
  | cons c s =>
    refine if_neg ?_
    rintro rfl
    have hunit := h.units x 0x7B (by rw [hnumber]; exact List.mem_cons_self)
    exact absurd hunit (by decide)

/-- **A sample is read back as it was written.** -/
theorem readSample_renderSample (h : NumberTexts numberText readNumber)
    (hname : isMetricName name = true) (hnamed : ∀ key ∈ labels.keys, isLabelName key = true)
    (x : ν) : readSample readNumber (renderSample localeCompare numberText name labels x) =
      some ⟨name, sortedEntries localeCompare labels, x⟩ := by
  obtain ⟨hskip, hnext, hafter⟩ := readNumber_end h x
  have hspace : js " " = [0x20] := by decide
  rw [renderSample, hspace, List.append_assoc, List.append_assoc, List.singleton_append]
  by_cases hnil : sortedEntries localeCompare labels = []
  · obtain ⟨htake, hdrop⟩ := takeWhile_token (metricUnit_of_mem hname) (d := 0x20) rfl
      (numberText x)
    rw [renderLabels_of_nil hnil, List.nil_append, readSample, htake, hdrop, if_pos hname,
      after_brace_number h]
    simp only [Option.bind_eq_bind, Option.bind_some, hskip, hnext, hafter, h.read, hnil]
    rfl
  · obtain ⟨htake, hdrop⟩ := takeWhile_token (metricUnit_of_mem hname) (d := 0x7B) rfl
      (joinWith (js ",") ((sortedEntries localeCompare labels).map renderLabel) ++
        0x7D :: 0x20 :: numberText x)
    have hlabels := readLabels_joinWith (n := (joinWith (js ",")
      ((sortedEntries localeCompare labels).map renderLabel) ++
        0x7D :: 0x20 :: numberText x).length) hnil (isLabelName_of_mem_sortedEntries hnamed) ?_
      (0x20 :: numberText x)
    · rw [renderLabels_of_ne_nil hnil, List.cons_append, List.append_assoc, List.singleton_append,
        readSample, htake, hdrop, if_pos hname, after_self rfl]
      simp only [Option.bind_eq_bind, hlabels, Option.bind_some, hskip, hnext, hafter, h.read]
      rfl
    · exact length_le_joinWith _ _

theorem lineFeed_not_mem_metricName (hname : isMetricName name = true) : lineFeed ∉ name :=
  lineFeed_not_mem_of_units
    (fun _ hc => (by decide : 0x21 ≤ 0x30).trans (toNat_of_metricUnit hc)) (metricUnit_of_mem hname)

theorem mem_joinWith {c : UInt16} {separator : JsString} {texts : List JsString}
    (h : c ∈ joinWith separator texts) : c ∈ separator ∨ ∃ s ∈ texts, c ∈ s := by
  induction texts with
  | nil => exact absurd h List.not_mem_nil
  | cons s texts ih =>
    cases texts with
    | nil => exact Or.inr ⟨s, List.mem_cons_self, h⟩
    | cons t texts =>
      rw [joinWith_cons_cons, List.mem_append, List.mem_append] at h
      rcases h with (hs | hseparator) | hrest
      · exact Or.inr ⟨s, List.mem_cons_self, hs⟩
      · exact Or.inl hseparator
      · refine (ih hrest).imp_right ?_
        rintro ⟨u, hu, hc⟩
        exact ⟨u, List.mem_cons_of_mem s hu, hc⟩

/-- A sample is one line if none of its values is broken. -/
theorem lineFeed_not_mem_renderSample (h : NumberTexts numberText readNumber)
    (hname : isMetricName name = true) (hnamed : ∀ key ∈ labels.keys, isLabelName key = true)
    (hvalues : ∀ e ∈ labels.entries, lineFeed ∉ e.2) (x : ν) :
    lineFeed ∉ renderSample localeCompare numberText name labels x := by
  have hlabel : ∀ e ∈ sortedEntries localeCompare labels, lineFeed ∉ renderLabel e := by
    intro e he
    rw [lineFeed_mem_renderLabel (isLabelName_of_mem_sortedEntries hnamed e he)]
    exact hvalues e (InsertionMap.mem_sortEntries.mp he)
  have hlabels : lineFeed ∉ renderLabels localeCompare labels := by
    by_cases hnil : sortedEntries localeCompare labels = []
    · rw [renderLabels_of_nil hnil]
      exact List.not_mem_nil
    · rw [renderLabels_of_ne_nil hnil, List.mem_cons, List.mem_append, not_or, not_or]
      refine ⟨by decide, fun hmem => ?_, by decide⟩
      rcases mem_joinWith hmem with hseparator | ⟨s, hs, hmem⟩
      · exact absurd hseparator (by decide)
      · obtain ⟨e, he, rfl⟩ := List.mem_map.mp hs
        exact hlabel e he hmem
  have hnumber : lineFeed ∉ numberText x :=
    lineFeed_not_mem_of_units (fun _ => toNat_of_numberUnit) (h.units x)
  rw [renderSample, List.mem_append, List.mem_append, List.mem_append, not_or, not_or, not_or]
  exact ⟨⟨⟨lineFeed_not_mem_metricName hname, hlabels⟩, by decide⟩, hnumber⟩

/-- A sample whose labels are broken by a line feed is not read. -/
theorem readSample_firstLine (hname : isMetricName name = true)
    (hnamed : ∀ key ∈ labels.keys, isLabelName key = true)
    (hvalue : ∃ e ∈ labels.entries, lineFeed ∈ e.2) (x : ν) :
    readSample readNumber
      (firstLine (renderSample localeCompare numberText name labels x)) = none := by
  obtain ⟨e, he, hmem⟩ := hvalue
  have hsorted : e ∈ sortedEntries localeCompare labels := InsertionMap.mem_sortEntries.mpr he
  have hclosed := lineFeed_not_mem_metricName hname
  have hbrace : ∀ s, firstLine (0x7B :: s) = 0x7B :: firstLine s := fun s => rfl
  rw [renderSample, renderLabels_of_ne_nil (List.ne_nil_of_mem hsorted), List.append_assoc,
    List.append_assoc, firstLine_append_of_not_mem hclosed, List.cons_append, hbrace]
  obtain ⟨htake, hdrop⟩ := takeWhile_token (metricUnit_of_mem hname) (d := 0x7B) rfl
    (firstLine (joinWith (js ",") ((sortedEntries localeCompare labels).map renderLabel) ++
      [0x7D] ++ (js " " ++ numberText x)))
  rw [readSample, htake, hdrop, if_pos hname, after_self rfl, List.append_assoc]
  simp only [Option.bind_eq_bind, Option.bind_none,
    readLabels_firstLine _ (isLabelName_of_mem_sortedEntries hnamed) ⟨e, hsorted, hmem⟩]

/-! ## Lines read back -/

/-- A line that begins with a name is a sample. -/
theorem readLine_name (hname : isMetricName name = true) (s : JsString) :
    readLine readNumber (name ++ s) = (readSample readNumber (name ++ s)).map some := by
  have hblank : ∀ d ∈ name, isBlank d = false := fun d hd =>
    isBlank_of_metricUnit (metricUnit_of_mem hname d hd)
  rw [readLine, skipBlanks_append (ne_nil_of_isMetricName hname) hblank]
  cases name with
  | nil => exact absurd hname Bool.false_ne_true
  | cons c name =>
    refine if_neg ?_
    rintro rfl
    exact absurd (metricUnit_of_mem hname _ List.mem_cons_self) (by decide)

theorem readLine_renderSample (h : NumberTexts numberText readNumber)
    (hname : isMetricName name = true) (hnamed : ∀ key ∈ labels.keys, isLabelName key = true)
    (x : ν) : readLine readNumber (renderSample localeCompare numberText name labels x) =
      some (some ⟨name, sortedEntries localeCompare labels, x⟩) := by
  have hsample : readSample readNumber (renderSample localeCompare numberText name labels x) = _ :=
    readSample_renderSample h hname hnamed x
  rw [renderSample, List.append_assoc, List.append_assoc] at hsample ⊢
  rw [readLine_name hname, hsample]
  rfl

theorem readLine_firstLine (hname : isMetricName name = true)
    (hnamed : ∀ key ∈ labels.keys, isLabelName key = true)
    (hvalue : ∃ e ∈ labels.entries, lineFeed ∈ e.2) (x : ν) :
    readLine readNumber
      (firstLine (renderSample localeCompare numberText name labels x)) = none := by
  have hclosed := lineFeed_not_mem_metricName hname
  have hsample : readSample readNumber
      (firstLine (renderSample localeCompare numberText name labels x)) = none :=
    readSample_firstLine hname hnamed hvalue x
  rw [renderSample, List.append_assoc, List.append_assoc,
    firstLine_append_of_not_mem hclosed] at hsample ⊢
  rw [readLine_name hname, hsample]
  rfl

/-- What a comment is read as after its keyword. -/
theorem isComment_keyword {keyword rest : JsString} (hkeyword : keyword ≠ [])
    (hunits : ∀ c ∈ keyword, isBlank c = false) :
    isComment (0x20 :: (keyword ++ 0x20 :: rest)) =
      if keyword = js "HELP" then isDescription isHelp (skipBlanks rest)
      else if keyword = js "TYPE" then
        isDescription
          (fun s => metricTypes.contains (nextToken s) && skipBlanks (afterToken s) = [])
          (skipBlanks rest)
      else true := by
  obtain ⟨hnext, hafter⟩ := nextToken_append hunits rest
  rw [isComment, skipBlanks_space_cons, skipBlanks_append hkeyword hunits, hnext, hafter,
    skipBlanks_space_cons]

theorem isDescription_name (hname : isMetricName name = true) (ofText : JsString → Bool)
    (text : JsString) :
    isDescription ofText (skipBlanks (name ++ 0x20 :: text)) = ofText (skipBlanks text) := by
  have hblank : ∀ d ∈ name, isBlank d = false := fun d hd =>
    isBlank_of_metricUnit (metricUnit_of_mem hname d hd)
  obtain ⟨hnext, hafter⟩ := nextToken_append hblank text
  rw [skipBlanks_append (ne_nil_of_isMetricName hname) hblank, isDescription, hnext, hafter, hname,
    skipBlanks_space_cons, Bool.true_and]

theorem isHelp_of_not_mem {text : JsString} (h : 0x5C ∉ text) : isHelp text = true := by
  induction text with
  | nil => rfl
  | cons c s ih =>
    rw [List.mem_cons, not_or] at h
    rw [isHelp.eq_def]
    exact (if_neg fun heq => h.1 heq.symm).trans (ih h.2)

/-- A comment of the writer. -/
theorem readLine_comment {s : JsString} (h : isComment (0x20 :: s) = true) :
    readLine readNumber (js "# " ++ s) = some none := by
  have hhash : js "# " = [0x23, 0x20] := by decide
  rw [hhash, readLine, List.cons_append, skipBlanks_cons (by decide)]
  exact (if_pos rfl).trans (if_pos h)

theorem readLine_help (hname : isMetricName name = true) {help : JsString} (h : 0x5C ∉ help) :
    readLine readNumber (js "# HELP " ++ name ++ js " " ++ help) = some none := by
  have hsplit : js "# HELP " ++ name ++ js " " ++ help =
      js "# " ++ (js "HELP" ++ 0x20 :: (name ++ 0x20 :: help)) := by
    have hhelp : js "# HELP " = js "# " ++ (js "HELP" ++ [0x20]) := by decide
    have hspace : js " " = [0x20] := by decide
    rw [hhelp, hspace]
    simp only [List.append_assoc, List.cons_append, List.nil_append]
  have hunits : ∀ c ∈ js "HELP", isBlank c = false := by decide +kernel
  rw [hsplit]
  refine readLine_comment ?_
  rw [isComment_keyword (by decide) hunits, if_pos rfl, isDescription_name hname]
  refine isHelp_of_not_mem fun hmem => h ?_
  exact (List.dropWhile_suffix _).subset hmem

theorem readLine_type (hname : isMetricName name = true) {type : JsString}
    (h : metricTypes.contains type = true) (hunits : ∀ c ∈ type, isBlank c = false)
    (hne : type ≠ []) :
    readLine readNumber (js "# TYPE " ++ name ++ js " " ++ type) = some none := by
  have hsplit : js "# TYPE " ++ name ++ js " " ++ type =
      js "# " ++ (js "TYPE" ++ 0x20 :: (name ++ 0x20 :: type)) := by
    have htype : js "# TYPE " = js "# " ++ (js "TYPE" ++ [0x20]) := by decide
    have hspace : js " " = [0x20] := by decide
    rw [htype, hspace]
    simp only [List.append_assoc, List.cons_append, List.nil_append]
  obtain ⟨hnext, hafter⟩ := nextToken_eq hunits
  have hskip := skipBlanks_append hne hunits []
  rw [List.append_nil] at hskip
  have hkeyword : ∀ c ∈ js "TYPE", isBlank c = false := by decide +kernel
  rw [hsplit]
  refine readLine_comment ?_
  rw [isComment_keyword (by decide) hkeyword, if_neg (by decide), if_pos rfl,
    isDescription_name hname, hskip, hnext, hafter, h]
  rfl

end Samples

/-! ## Texts read back -/

section Texts

variable {ν : Type} {readNumber : JsString → Option ν}

/-- **Lines are read one after the other.** -/
theorem readLines_append (lines lines' : List JsString) :
    readLines readNumber (lines ++ lines') =
      (readLines readNumber lines).bind fun samples =>
        (readLines readNumber lines').map (samples ++ ·) := by
  induction lines with
  | nil =>
    rw [List.nil_append, readLines, Option.bind_some]
    cases readLines readNumber lines' <;> rfl
  | cons line lines ih =>
    rw [List.cons_append, readLines, readLines, ih]
    cases readLine readNumber line with
    | none => rfl
    | some sample =>
      cases readLines readNumber lines with
      | none => rfl
      | some samples =>
        cases readLines readNumber lines' with
        | none => rfl
        | some samples' =>
          simp only [Option.bind_eq_bind, Option.bind_some, Option.map_some, List.append_assoc]

/-- One line that is not read spoils the text. -/
theorem readLines_of_mem {lines : List JsString} {line : JsString} (hmem : line ∈ lines)
    (h : readLine readNumber line = none) : readLines readNumber lines = none := by
  induction lines with
  | nil => exact absurd hmem List.not_mem_nil
  | cons first lines ih =>
    rw [readLines]
    rcases List.mem_cons.mp hmem with rfl | hmem
    · rw [h]
      rfl
    · rw [ih hmem]
      cases readLine readNumber first <;> rfl

/-- A text of lines is split where they end, and where they are broken. -/
theorem splitOn_joinWith {lines : List JsString} (hne : lines ≠ []) :
    (joinWith (js "\n") lines ++ js "\n").splitOn lineFeed =
      lines.flatMap (·.splitOn lineFeed) ++ [[]] := by
  have hend : js "\n" = [lineFeed] := by decide
  induction lines with
  | nil => exact absurd rfl hne
  | cons line lines ih =>
    cases lines with
    | nil =>
      rw [joinWith, hend, List.splitOn_append_cons_self, List.flatMap_singleton, List.splitOn_nil]
    | cons next lines =>
      rw [joinWith_cons_cons, List.append_assoc, List.append_assoc, hend, List.singleton_append,
        List.splitOn_append_cons_self, List.flatMap_cons, List.append_assoc, ← hend,
        ih (List.cons_ne_nil _ _)]

theorem firstLine_mem_splitOn (s : JsString) : firstLine s ∈ s.splitOn lineFeed := by
  by_cases hmem : lineFeed ∈ s
  · obtain ⟨a, b, rfl, hnot⟩ := List.eq_append_cons_of_mem hmem
    have hfirst : firstLine (lineFeed :: b) = [] := rfl
    rw [firstLine_append_of_not_mem hnot, hfirst, List.append_nil,
      List.splitOn_append_cons_self_of_not_mem hnot]
    exact List.mem_cons_self
  · rw [List.splitOn_eq_singleton hmem, List.mem_singleton]
    have hself := firstLine_append_of_not_mem hmem []
    rw [List.append_nil] at hself
    rw [hself]
    exact List.append_nil s

/-- **A text of lines is read line by line.** -/
theorem readExposition_joinWith (lines : List JsString) :
    readExposition readNumber (joinWith (js "\n") lines ++ js "\n") =
      readLines readNumber (lines.flatMap (·.splitOn lineFeed)) := by
  by_cases hne : lines = []
  · rw [hne]
    rfl
  have hlast : (joinWith (js "\n") lines ++ js "\n").getLast? = some lineFeed := by
    have hend : js "\n" = [lineFeed] := by decide
    rw [hend, List.getLast?_concat]
  rw [readExposition, if_pos (Or.inr hlast), splitOn_joinWith hne, readLines_append]
  have hempty : readLines readNumber [[]] = some [] := rfl
  rw [hempty]
  simp only [Option.map_some, List.append_nil]
  exact Option.bind_fun_some _

end Texts

end MernChat
