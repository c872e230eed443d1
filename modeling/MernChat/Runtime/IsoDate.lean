import MernChat.Runtime.Clock
import MernChat.Runtime.Text
import Mathlib.Algebra.Group.Int.Defs
import Mathlib.Algebra.Group.Nat.Defs

/-!
# ISO dates

`Date.prototype.toISOString` prints a date in one way: year, month, day and time in fields of
fixed width, a year outside 0 to 9999 with a sign and six digits. The days of the calendar are
counted in eras of 400 years that begin on a first of March.

## Main definitions

* `civilFromDays`, `daysFromCivil`: the day of the calendar, and its number from the epoch
* `toISOString`: the printed date
* `parseISOString`: the date a printed text stands for
* `DateParse.Documented`: what is known of `Date.parse`

## Main results

* `daysFromCivil_civilFromDays`: a day has the number it was found by
* `parseISOString_toISOString`: what is printed is read back
-/

namespace MernChat

/-! ## The calendar -/

/-- A day of the proleptic Gregorian calendar. -/
structure CivilDay where
  year : Int
  month : Int
  day : Int
deriving DecidableEq

/-- The year of a 400-year era that holds the day `doe` of it; years begin in March, so that the
long ones of a century, of four years and of an era come last. -/
def yearOfEra (doe : Int) : Int :=
  let century := min (doe / 36524) 3
  let doc := doe - 36524 * century
  let doq := doc % 1461
  100 * century + 4 * (doc / 1461) + min (doq / 365) 3

/-- The number of days of an era before its year `yoe`. -/
def daysBeforeYear (yoe : Int) : Int := 365 * yoe + yoe / 4 - yoe / 100

/-- The month, counted from March, that holds the day `doy` of a year. -/
def monthOfYear (doy : Int) : Int := (5 * doy + 2) / 153

/-- The number of days of a year before the month `mp`. -/
def daysBeforeMonth (mp : Int) : Int := (153 * mp + 2) / 5

/-- The day of the calendar with number `z`. -/
def civilFromDays (z : Int) : CivilDay :=
  let era := (z + 719468) / 146097
  let doe := (z + 719468) % 146097
  let yoe := yearOfEra doe
  let doy := doe - daysBeforeYear yoe
  let mp := monthOfYear doy
  let month := if mp < 10 then mp + 3 else mp - 9
  { year := yoe + era * 400 + if month ≤ 2 then 1 else 0
    month
    day := doy - daysBeforeMonth mp + 1 }

/-- The number of a day of the calendar. -/
def daysFromCivil (c : CivilDay) : Int :=
  let year := if c.month ≤ 2 then c.year - 1 else c.year
  let mp := if c.month ≤ 2 then c.month + 9 else c.month - 3
  year / 400 * 146097 + (daysBeforeYear (year % 400) + (daysBeforeMonth mp + c.day - 1)) - 719468

/-- The years of an era by centuries, groups of four years, and the rest. -/
theorem daysBeforeYear_parts {c q y : Int} (hq : 0 ≤ q) (hq' : q ≤ 24) (hy : 0 ≤ y)
    (hy' : y ≤ 3) :
    daysBeforeYear (100 * c + 4 * q + y) = 36524 * c + 1461 * q + 365 * y := by
  have h₄ : (100 * c + 4 * q + y) / 4 = 25 * c + q := by omega
  have h₁₀₀ : (100 * c + 4 * q + y) / 100 = c := by omega
  unfold daysBeforeYear
  omega

/-- A day of an era lies in the year found for it. -/
theorem yearOfEra_bounds {doe : Int} (h₀ : 0 ≤ doe) (h₁ : doe < 146097) :
    (0 ≤ yearOfEra doe ∧ yearOfEra doe < 400) ∧ 0 ≤ doe - daysBeforeYear (yearOfEra doe) ∧
      doe - daysBeforeYear (yearOfEra doe) < 366 := by
  have hyear : yearOfEra doe = 100 * min (doe / 36524) 3 +
      4 * ((doe - 36524 * min (doe / 36524) 3) / 1461) +
      min ((doe - 36524 * min (doe / 36524) 3) % 1461 / 365) 3 := rfl
  have hc : 0 ≤ min (doe / 36524) 3 ∧ min (doe / 36524) 3 ≤ 3 := by omega
  have hdoc : 0 ≤ doe - 36524 * min (doe / 36524) 3 ∧
      doe - 36524 * min (doe / 36524) 3 ≤ 36524 := by omega
  rw [hyear]
  -- the century, the four years and the year, one after the other
  generalize min (doe / 36524) 3 = c at *
  generalize hdoc' : doe - 36524 * c = doc at *
  have hy : 0 ≤ min (doc % 1461 / 365) 3 ∧ min (doc % 1461 / 365) 3 ≤ 3 := by omega
  have hdoy : 0 ≤ doc % 1461 - 365 * min (doc % 1461 / 365) 3 ∧
      doc % 1461 - 365 * min (doc % 1461 / 365) 3 < 366 := by omega
  generalize min (doc % 1461 / 365) 3 = y at *
  rw [daysBeforeYear_parts (by omega) (by omega) hy.1 hy.2]
  omega

theorem monthOfYear_bounds {doy : Int} (h₀ : 0 ≤ doy) (h₁ : doy < 366) :
    0 ≤ monthOfYear doy ∧ monthOfYear doy < 12 ∧ 0 ≤ doy - daysBeforeMonth (monthOfYear doy) ∧
      doy - daysBeforeMonth (monthOfYear doy) < 31 := by
  unfold monthOfYear daysBeforeMonth
  omega

/-- Fields of a day have two digits. -/
theorem civilFromDays_bounds (z : Int) :
    1 ≤ (civilFromDays z).month ∧ (civilFromDays z).month ≤ 12 ∧ 1 ≤ (civilFromDays z).day ∧
      (civilFromDays z).day ≤ 31 := by
  have hdoe := Int.emod_nonneg (z + 719468) (by decide : (146097 : Int) ≠ 0)
  have hdoe' := Int.emod_lt_of_pos (z + 719468) (by decide : (0 : Int) < 146097)
  have hdoy := (yearOfEra_bounds hdoe hdoe').2
  have hmp := monthOfYear_bounds hdoy.1 hdoy.2
  simp only [civilFromDays]
  split_ifs <;> omega

theorem natAbs_year_lt {z : Int} (h : -100000000 ≤ z ∧ z ≤ 100000000) :
    (civilFromDays z).year.natAbs < 1000000 := by
  have hdoe := Int.emod_nonneg (z + 719468) (by decide : (146097 : Int) ≠ 0)
  have hdoe' := Int.emod_lt_of_pos (z + 719468) (by decide : (0 : Int) < 146097)
  have hyoe := (yearOfEra_bounds hdoe hdoe').1
  simp only [civilFromDays]
  split_ifs <;> omega

/-- The number of a day given by its era, the year of the era, and the month from March. -/
theorem daysFromCivil_parts {era yoe mp month day : Int} (hy : 0 ≤ yoe ∧ yoe < 400)
    (hm : 0 ≤ mp ∧ mp < 12) (hmonth : month = if mp < 10 then mp + 3 else mp - 9) :
    daysFromCivil ⟨yoe + era * 400 + if month ≤ 2 then 1 else 0, month, day⟩ =
      era * 146097 + (daysBeforeYear yoe + (daysBeforeMonth mp + day - 1)) - 719468 := by
  have hdiv : (yoe + era * 400) / 400 = era := by omega
  have hmod : (yoe + era * 400) % 400 = yoe := by omega
  simp only [daysFromCivil]
  by_cases hlt : mp < 10
  · -- March to December
    rw [if_pos hlt] at hmonth
    subst hmonth
    rw [if_neg (by omega), if_neg (by omega), if_neg (by omega), Int.add_zero, hdiv, hmod,
      Int.add_sub_cancel]
  · -- January and February belong to the next year of the calendar
    rw [if_neg hlt] at hmonth
    subst hmonth
    rw [if_pos (by omega), if_pos (by omega), if_pos (by omega), Int.add_sub_cancel, hdiv, hmod,
      Int.sub_add_cancel]

/-- **A day has the number it was found by.** -/
theorem daysFromCivil_civilFromDays (z : Int) : daysFromCivil (civilFromDays z) = z := by
  have hdoe := Int.emod_nonneg (z + 719468) (by decide : (146097 : Int) ≠ 0)
  have hdoe' := Int.emod_lt_of_pos (z + 719468) (by decide : (0 : Int) < 146097)
  obtain ⟨hyoe, hdoy⟩ := yearOfEra_bounds hdoe hdoe'
  have hmp := monthOfYear_bounds hdoy.1 hdoy.2
  have hz := Int.mul_ediv_add_emod (z + 719468) 146097
  show daysFromCivil ⟨_ + _ * 400 + if _ ≤ 2 then 1 else 0, _, _⟩ = z
  rw [daysFromCivil_parts hyoe ⟨hmp.1, hmp.2.1⟩ rfl]
  omega

/-! ## Decimal fields -/

/-- The last `w` decimal digits of a number. -/
def decimal : Nat → Nat → JsString
  | 0, _ => []
  | w + 1, n => decimal w (n / 10) ++ [UInt16.ofNat (48 + n % 10)]

/-- The number a decimal field stands for. -/
def readDecimal (s : JsString) : Nat := s.foldl (fun n c => 10 * n + (c.toNat - 48)) 0

@[simp] theorem length_decimal (w n : Nat) : (decimal w n).length = w := by
  induction w generalizing n with
  | zero => rfl
  | succ w ih => simp [decimal, ih]

/-- A number that fits its field is read back. -/
theorem readDecimal_decimal {w n : Nat} (h : n < 10 ^ w) : readDecimal (decimal w n) = n := by
  induction w generalizing n with
  | zero =>
    simp only [Nat.pow_zero] at h
    show 0 = n
    omega
  | succ w ih =>
    have hdigit : (UInt16.ofNat (48 + n % 10)).toNat = 48 + n % 10 := by
      rw [UInt16.toNat_ofNat', Nat.mod_eq_of_lt (by omega)]
    have hdiv : n / 10 < 10 ^ w := by
      rw [Nat.pow_succ] at h
      omega
    have hrec := ih hdiv
    simp only [readDecimal] at hrec
    simp only [decimal, readDecimal, List.foldl_append, hrec, List.foldl_cons, List.foldl_nil,
      hdigit]
    omega

/-! ## Printing and reading -/

/-- The year of a printed date. -/
def isoYear (y : Int) : JsString :=
  if 0 ≤ y ∧ y ≤ 9999 then decimal 4 y.toNat
  -- six digits, with a sign
  else (if 0 ≤ y then 0x2B else 0x2D) :: decimal 6 y.natAbs

/-- The printed date after its year: month, day, and the milliseconds `ms` of the day. -/
def isoRest (month day ms : Int) : JsString :=
  [0x2D] ++ decimal 2 month.toNat ++ [0x2D] ++ decimal 2 day.toNat ++ [0x54] ++
    decimal 2 (ms / 3600000).toNat ++ [0x3A] ++ decimal 2 (ms / 60000 % 60).toNat ++ [0x3A] ++
    decimal 2 (ms / 1000 % 60).toNat ++ [0x2E] ++ decimal 3 (ms % 1000).toNat ++ [0x5A]

/-- The printed form of a time value. -/
def isoText (t : Int) : JsString :=
  let c := civilFromDays (t / DAY)
  isoYear c.year ++ isoRest c.month c.day (t % DAY)

/-- `Date.prototype.toISOString`; an invalid date throws. -/
def toISOString (d : JsDate) : Option JsString := d.map isoText

/-- The fields of a date after its year: month, day, and the milliseconds of the day. -/
def readRest (s : JsString) : Int × Int × Int :=
  (readDecimal ((s.drop 1).take 2), readDecimal ((s.drop 4).take 2),
    readDecimal ((s.drop 7).take 2) * 3600000 + readDecimal ((s.drop 10).take 2) * 60000 +
      readDecimal ((s.drop 13).take 2) * 1000 + readDecimal ((s.drop 16).take 3))

/-- The year of a date, and the text after it. -/
def readYear (s : JsString) : Int × JsString :=
  if s.head? = some 0x2B then (readDecimal ((s.drop 1).take 6), s.drop 7)
  else if s.head? = some 0x2D then (-readDecimal ((s.drop 1).take 6), s.drop 7)
  else (readDecimal (s.take 4), s.drop 4)

/-- The time value of the fields at the places where `toISOString` prints them. -/
def readFields (s : JsString) : Int :=
  let year := readYear s
  let fields := readRest year.2
  daysFromCivil ⟨year.1, fields.1, fields.2.1⟩ * DAY + fields.2.2

/-- `new Date(s)`, when printing the date gives `s` back. -/
def parseISOString (s : JsString) : JsDate :=
  let t := readFields s
  if toISOString (timeClip t) = some s then some t else none

theorem plain_decimal (w n : Nat) : Plain (decimal w n) := by
  induction w generalizing n with
  | zero => exact plain_nil
  | succ w ih =>
    have hdigit : ∀ d < 10, plainUnit (UInt16.ofNat (48 + d)) = true := by decide
    rw [decimal, plain_append, plain_cons]
    exact ⟨ih _, hdigit _ (Nat.mod_lt _ (by decide)), plain_nil⟩

/-- A printed date is a plain text. -/
theorem plain_isoText (t : Int) : Plain (isoText t) := by
  have hyear : ∀ y, Plain (isoYear y) := by
    intro y
    unfold isoYear
    split_ifs
    · exact plain_decimal 4 _
    · exact plain_cons.mpr ⟨by decide, plain_decimal 6 _⟩
    · exact plain_cons.mpr ⟨by decide, plain_decimal 6 _⟩
  simp only [isoText, isoRest, plain_append, plain_cons, plain_decimal, plain_nil, hyear]
  decide

theorem length_isoText (t : Int) : (isoText t).length ≤ 27 := by
  have hyear : ∀ y, (isoYear y).length ≤ 7 := by
    intro y
    unfold isoYear
    split_ifs <;> simp
  have hrest := hyear (civilFromDays (t / DAY)).year
  simp only [isoText, isoRest, List.length_append, length_decimal, List.length_cons,
    List.length_nil]
  omega

theorem readYear_isoYear {y : Int} (hy : y.natAbs < 1000000) (s : JsString) :
    readYear (isoYear y ++ s) = (y, s) := by
  unfold isoYear
  split_ifs with h h₀
  · have hhead : (decimal 4 y.toNat ++ s).head? =
        some (UInt16.ofNat (48 + y.toNat / 10 / 10 / 10 % 10)) := by simp [decimal]
    have hdigit : (UInt16.ofNat (48 + y.toNat / 10 / 10 / 10 % 10)).toNat =
        48 + y.toNat / 10 / 10 / 10 % 10 := by
      rw [UInt16.toNat_ofNat', Nat.mod_eq_of_lt (by omega)]
    -- four digits do not begin with a sign
    have hne : ∀ c : UInt16, c.toNat < 48 → (decimal 4 y.toNat ++ s).head? ≠ some c := by
      intro c hc heq
      rw [hhead, Option.some.injEq] at heq
      rw [← heq, hdigit] at hc
      omega
    rw [readYear, if_neg (hne _ (by decide)), if_neg (hne _ (by decide))]
    rw [List.take_left' (length_decimal 4 _), List.drop_left' (length_decimal 4 _),
      readDecimal_decimal (by omega)]
    simp only [Prod.mk.injEq, and_true]
    omega
  · rw [readYear, if_pos (by simp)]
    simp only [List.cons_append, List.drop_succ_cons, List.drop_zero]
    rw [List.take_left' (length_decimal 6 _), List.drop_left' (length_decimal 6 _),
      readDecimal_decimal (by omega)]
    simp only [Prod.mk.injEq, and_true]
    omega
  · rw [readYear, if_neg (by simp), if_pos (by simp)]
    simp only [List.cons_append, List.drop_succ_cons, List.drop_zero]
    rw [List.take_left' (length_decimal 6 _), List.drop_left' (length_decimal 6 _),
      readDecimal_decimal (by omega)]
    simp only [Prod.mk.injEq, and_true]
    omega

/-- The fields stand where they are read. -/
theorem readRest_fields {month day hour minute second milli : JsString} (h₁ : month.length = 2)
    (h₂ : day.length = 2) (h₃ : hour.length = 2) (h₄ : minute.length = 2)
    (h₅ : second.length = 2) (h₆ : milli.length = 3) :
    readRest ([0x2D] ++ month ++ [0x2D] ++ day ++ [0x54] ++ hour ++ [0x3A] ++ minute ++ [0x3A] ++
        second ++ [0x2E] ++ milli ++ [0x5A]) =
      ((readDecimal month : Int), (readDecimal day : Int), (readDecimal hour : Int) * 3600000 +
        (readDecimal minute : Int) * 60000 + (readDecimal second : Int) * 1000 +
          (readDecimal milli : Int)) := by
  obtain ⟨_, _, rfl⟩ := List.length_eq_two.mp h₁
  obtain ⟨_, _, rfl⟩ := List.length_eq_two.mp h₂
  obtain ⟨_, _, rfl⟩ := List.length_eq_two.mp h₃
  obtain ⟨_, _, rfl⟩ := List.length_eq_two.mp h₄
  obtain ⟨_, _, rfl⟩ := List.length_eq_two.mp h₅
  obtain ⟨_, _, _, rfl⟩ := List.length_eq_three.mp h₆
  rfl

theorem readRest_isoRest {month day ms : Int} (hm : 1 ≤ month ∧ month ≤ 12)
    (hd : 1 ≤ day ∧ day ≤ 31) (hms : 0 ≤ ms ∧ ms < DAY) :
    readRest (isoRest month day ms) = (month, day, ms) := by
  have hfield : ∀ {w : Nat} {n : Int}, 0 ≤ n → n < 10 ^ w →
      (readDecimal (decimal w n.toNat) : Int) = n := by
    intro w n h₀ h
    rw [readDecimal_decimal]
    · omega
    · have : ((10 ^ w : Nat) : Int) = 10 ^ w := by simp
      omega
  simp only [DAY] at hms
  rw [isoRest, readRest_fields (by simp) (by simp) (by simp) (by simp) (by simp) (by simp)]
  rw [hfield (by omega) (by omega), hfield (by omega) (by omega),
    hfield (by omega) (by omega), hfield (by omega) (by omega), hfield (by omega) (by omega),
    hfield (by omega) (by omega)]
  simp only [Prod.mk.injEq, true_and]
  omega

theorem readFields_isoText {t : Int} (h : -MAX_TIME ≤ t ∧ t ≤ MAX_TIME) :
    readFields (isoText t) = t := by
  have hms : 0 ≤ t % DAY ∧ t % DAY < DAY := by
    simp only [DAY]
    omega
  obtain ⟨hm, hm', hd, hd'⟩ := civilFromDays_bounds (t / DAY)
  have hy : (civilFromDays (t / DAY)).year.natAbs < 1000000 := by
    apply natAbs_year_lt
    simp only [MAX_TIME, DAY] at h ⊢
    omega
  have hdays := daysFromCivil_civilFromDays (t / DAY)
  simp only [readFields, isoText]
  rw [readYear_isoYear hy, readRest_isoRest ⟨hm, hm'⟩ ⟨hd, hd'⟩ hms]
  show daysFromCivil (civilFromDays (t / DAY)) * DAY + t % DAY = t
  rw [hdays, Int.mul_comm]
  exact Int.mul_ediv_add_emod t DAY

/-- **What is printed is read back.** -/
theorem parseISOString_isoText {t : Int} (h : -MAX_TIME ≤ t ∧ t ≤ MAX_TIME) :
    parseISOString (isoText t) = some t := by
  have hclip : toISOString (timeClip t) = some (isoText t) := by
    rw [timeClip, if_pos h]
    rfl
  simp only [parseISOString, readFields_isoText h]
  rw [if_pos hclip]

/-- What is known of `Date.parse`. -/
structure DateParse.Documented (dateParse : JsString → Option Int) : Prop where
  iso : ∀ t, -MAX_TIME ≤ t ∧ t ≤ MAX_TIME → dateParse (isoText t) = some t

theorem parseISOString_documented : DateParse.Documented parseISOString :=
  ⟨fun _ => parseISOString_isoText⟩

end MernChat
