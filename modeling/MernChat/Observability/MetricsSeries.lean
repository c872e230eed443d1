import Mathlib.Algebra.Order.BigOperators.Group.List
import Mathlib.Algebra.BigOperators.Group.List.Basic
import Mathlib.Data.Rat.Cast.Order
import MernChat.Library.Table
import MernChat.Observability.Metrics

/-!
# What a series holds

The value of every series, read off the calls that were made, with sums of exact numbers.

## Main definitions

* `ExactNumber`: numbers that are added exactly
* `LocaleOrder`: what is assumed of `localeCompare`
* `increments`, `observations`: the increments and observations a series is made of
* `CountersExact`, `HistogramsExact`: what the series hold after some calls
* `BoundariesOf`: the boundaries of a histogram, read off its definitions

## Main results

* `labelKey_eq_iff`: two label maps have one key exactly when they are the same
* `metrics_exact`: every series holds what it was given since the last reset
-/

namespace MernChat

open Library

/-! ## Exact numbers -/

/-- A number of the runtime, finite ones exact. -/
inductive ExactNumber
  | finite (q : ℚ)
  | NaN
  | infinity
  | negativeInfinity
deriving DecidableEq

namespace ExactNumber

def isFinite : ExactNumber → Bool
  | .finite _ => true
  | _ => false

def add : ExactNumber → ExactNumber → ExactNumber
  | .finite a, .finite b => .finite (a + b)
  | .NaN, _ | _, .NaN => .NaN
  | .infinity, .negativeInfinity | .negativeInfinity, .infinity => .NaN
  | .infinity, _ | _, .infinity => .infinity
  | .negativeInfinity, _ | _, .negativeInfinity => .negativeInfinity

def lt : ExactNumber → ExactNumber → Bool
  | .finite a, .finite b => decide (a < b)
  | .finite _, .infinity | .negativeInfinity, .finite _ | .negativeInfinity, .infinity => true
  | _, _ => false

def le : ExactNumber → ExactNumber → Bool
  | .finite a, .finite b => decide (a ≤ b)
  | .NaN, _ | _, .NaN => false
  | _, .infinity | .negativeInfinity, _ => true
  | _, _ => false

instance : JsNumber ExactNumber := ⟨.finite, isFinite, add, lt, le⟩

end ExactNumber

/-! ## Keys -/

/-- On the names of labels `localeCompare` is a strict total order. -/
structure LocaleOrder (localeCompare : JsString → JsString → Int) : Prop where
  zero : ∀ {a b}, isLabelName a = true → isLabelName b = true → (localeCompare a b = 0 ↔ a = b)
  swap : ∀ {a b}, isLabelName a = true → isLabelName b = true →
    (localeCompare a b < 0 ↔ 0 < localeCompare b a)
  trans : ∀ {a b c}, isLabelName a = true → isLabelName b = true → isLabelName c = true →
    localeCompare a b < 0 → localeCompare b c < 0 → localeCompare a c < 0

variable {localeCompare : JsString → JsString → Int}

theorem LocaleOrder.orderOn (h : LocaleOrder localeCompare) :
    InsertionMap.OrderOn (fun a b => localeCompare a b ≤ 0)
      fun name => isLabelName name = true where
  total := by
    intro a b ha hb
    have hswap := h.swap ha hb
    have hswap' := h.swap hb ha
    omega
  trans := by
    intro a b c ha hb hc hab hbc
    rcases lt_or_eq_of_le hab with hab | hab
    · rcases lt_or_eq_of_le hbc with hbc | hbc
      · exact (h.trans ha hb hc hab hbc).le
      · rw [(h.zero hb hc).mp hbc] at hab
        exact hab.le
    · rw [(h.zero ha hb).mp hab]
      exact hbc
  antisymm := by
    intro a b ha hb hab hba
    have hswap := h.swap ha hb
    exact (h.zero ha hb).mp (by omega)

/-- Entries are read off their JSON text. -/
theorem stringify_entries_injective {l l' : List (JsString × JsString)}
    (h : stringify (fun _ => []) (.arr (l.map fun e => .arr [.str e.1, .str e.2])) =
      stringify (fun _ => []) (.arr (l'.map fun e => .arr [.str e.1, .str e.2]))) : l = l' := by
  have hreadable : ∀ l : List (JsString × JsString),
      (Json.arr (l.map fun e => .arr [.str e.1, .str e.2])).Readable fun _ => [] := by
    intro l
    refine .arr fun value hvalue => ?_
    obtain ⟨e, -, rfl⟩ := List.mem_map.mp hvalue
    refine .arr fun value hvalue => ?_
    rcases List.mem_cons.mp hvalue with rfl | hvalue
    · exact .str _
    · rw [List.mem_singleton.mp hvalue]
      exact .str _
  have hparse := congrArg parseJson h
  rw [parseJson_stringify (hreadable l), parseJson_stringify (hreadable l'), Option.some.injEq,
    Json.arr.injEq] at hparse
  refine List.map_injective_iff.mpr (fun e e' he => ?_) hparse
  simp only [Json.arr.injEq, List.cons.injEq, Json.str.injEq, and_true] at he
  exact Prod.ext he.1 he.2

/-- **Two label maps have one key exactly when they are the same.** -/
theorem labelKey_eq_iff (h : LocaleOrder localeCompare) {labels labels' : MetricLabels} :
    labelKey localeCompare labels.map = labelKey localeCompare labels'.map ↔
      labels.Same labels' := by
  rw [MetricLabels.Same, ← InsertionMap.sortEntries_eq_iff h.orderOn labels.named labels'.named]
  constructor
  · intro hkey
    exact stringify_entries_injective hkey
  · intro hsorted
    rw [labelKey, labelKey, sortedEntries, sortedEntries, hsorted]

/-! ## What the calls say -/

/-- The counter was defined by one of the calls. -/
def counterDefined (name : JsString) : List (MetricsCall ExactNumber) → Bool
  | [] => false
  | .defineCounter name' _ :: earlier => name' = name || counterDefined name earlier
  | _ :: earlier => counterDefined name earlier

/-- The boundaries of the histogram: those of its first definition that has some. -/
def boundaries (name : JsString) : List (MetricsCall ExactNumber) → Option (List ExactNumber)
  | [] => none
  | .defineHistogram name' _ buckets :: earlier =>
    match boundaries name earlier with
    | some bs => some bs
    | none =>
      if name' = name ∧ normalizedBuckets buckets ≠ [] then some (normalizedBuckets buckets)
      else none
  | _ :: earlier => boundaries name earlier

/-- The positive finite increments of the defined counter since the last reset, under the labels.
The latest call comes first. -/
def increments (name : JsString) (labels : MetricLabels) : List (MetricsCall ExactNumber) → List ℚ
  | [] => []
  | .resetMetrics :: _ => []
  | .incrementCounter name' labels' (.finite q) :: earlier =>
    if name' = name ∧ labels'.Same labels ∧ 0 < q ∧ counterDefined name earlier = true then
      q :: increments name labels earlier
    else increments name labels earlier
  | _ :: earlier => increments name labels earlier

/-- The finite observations of the defined histogram that are not negative, since the last reset,
under the labels. -/
def observations (name : JsString) (labels : MetricLabels) :
    List (MetricsCall ExactNumber) → List ℚ
  | [] => []
  | .resetMetrics :: _ => []
  | .observeHistogram name' (.finite q) labels' :: earlier =>
    if name' = name ∧ labels'.Same labels ∧ 0 ≤ q ∧ (boundaries name earlier).isSome = true then
      q :: observations name labels earlier
    else observations name labels earlier
  | _ :: earlier => observations name labels earlier

/-- The value of a counter's series with these increments, if there is one. -/
def counterValue : List ℚ → Option ExactNumber
  | [] => none
  | qs => some (.finite qs.sum)

/-- The count, the sum and the buckets of a histogram's series with these observations, if there is
one. -/
def histogramValue (bs : List ExactNumber) : List ℚ → Option (Nat × ExactNumber × List Nat)
  | [] => none
  | qs => some (qs.length, .finite qs.sum,
      bs.map fun b => qs.countP fun q => (ExactNumber.finite q).le b)

/-! ## Tables of series -/

section Tables

variable {ι β : Type} {labelsOf : ι → MetricLabels}
  {tables : InsertionMap JsString (InsertionMap JsString ι)} {name : JsString}
  {series : InsertionMap JsString ι} {labels : MetricLabels}

/-- Every item of a series stands under the key of its labels. -/
def Keyed (localeCompare : JsString → JsString → Int) (labelsOf : ι → MetricLabels)
    (tables : InsertionMap JsString (InsertionMap JsString ι)) : Prop :=
  ∀ name series key item, tables.get name = some series → series.get key = some item →
    key = labelKey localeCompare (labelsOf item).map

theorem Keyed.define (h : Keyed localeCompare labelsOf tables) (name : JsString) :
    Keyed localeCompare labelsOf (tables.set name .empty) := by
  intro name' series key item hseries hitem
  rcases InsertionMap.get_set_eq_some.mp hseries with ⟨-, rfl⟩ | ⟨-, hseries⟩
  · cases hitem
  · exact h name' series key item hseries hitem

/-- An item keeps the labels it was made with. -/
theorem Keyed.record (h : Keyed localeCompare labelsOf tables)
    (hseries : tables.get name = some series) {update : Option ι → ι}
    (hnew : labelsOf (update none) = labels)
    (hold : ∀ item, labelsOf (update (some item)) = labelsOf item) :
    Keyed localeCompare labelsOf (tables.set name (series.set (labelKey localeCompare labels.map)
      (update (series.get (labelKey localeCompare labels.map))))) := by
  intro name' series' key item hseries' hitem
  rcases InsertionMap.get_set_eq_some.mp hseries' with ⟨rfl, rfl⟩ | ⟨-, hseries'⟩
  · rcases InsertionMap.get_set_eq_some.mp hitem with ⟨rfl, rfl⟩ | ⟨-, hitem⟩
    · cases hexisting : series.get (labelKey localeCompare labels.map) with
      | none => rw [hnew]
      | some existing =>
        rw [hold]
        exact h name' series _ existing hseries hexisting
    · exact h name' series key item hseries hitem
  · exact h name' series' key item hseries' hitem

theorem Keyed.reset : Keyed localeCompare labelsOf (tables.map fun _ => .empty) := by
  intro name series key item hseries hitem
  rw [InsertionMap.get_map, Option.map_eq_some_iff] at hseries
  obtain ⟨_, -, rfl⟩ := hseries
  cases hitem

/-- What is read under the labels after an item is set under others. -/
theorem map_get_record (h : LocaleOrder localeCompare) (view : ι → β) (item : ι)
    (labels' : MetricLabels) :
    ((series.set (labelKey localeCompare labels.map) item).get
      (labelKey localeCompare labels'.map)).map view =
      if labels.Same labels' then some (view item)
      else (series.get (labelKey localeCompare labels'.map)).map view := by
  rw [InsertionMap.get_set]
  by_cases hsame : labels.Same labels'
  · rw [if_pos hsame, if_pos ((labelKey_eq_iff h).mpr hsame).symm]
    rfl
  · rw [if_neg hsame, if_neg fun hkey => hsame ((labelKey_eq_iff h).mp hkey.symm)]

end Tables

/-! ## Counters -/

/-- The counters after the calls. -/
structure CountersExact (localeCompare : JsString → JsString → Int) (s : Metrics ExactNumber)
    (calls : List (MetricsCall ExactNumber)) : Prop where
  help : ∀ name, (s.counterHelp.get name).isSome = counterDefined name calls
  series : ∀ name, (s.counters.get name).isSome = counterDefined name calls
  key : ∀ name series key item, s.counters.get name = some series → series.get key = some item →
    key = labelKey localeCompare item.labels.map
  value : ∀ name series labels, s.counters.get name = some series →
    (series.get (labelKey localeCompare labels.map)).map CounterItem.value =
      counterValue (increments name labels calls)

section Counters

variable {s : Metrics ExactNumber} {calls : List (MetricsCall ExactNumber)}
  {call : MetricsCall ExactNumber}

theorem CountersExact.keyed (hs : CountersExact localeCompare s calls) :
    Keyed localeCompare CounterItem.labels s.counters :=
  hs.key

/-- Only a defined counter is incremented. -/
theorem counterDefined_of_increments {name : JsString} {labels : MetricLabels}
    (h : increments name labels calls ≠ []) : counterDefined name calls = true := by
  fun_induction increments name labels calls with
  | case1 => exact absurd rfl h
  | case2 => exact absurd rfl h
  | case3 name' labels' q earlier haccepted ih => exact haccepted.2.2.2
  | case4 name' labels' q earlier haccepted ih => exact ih h
  | case5 call earlier hreset hincrement ih =>
    have hearlier := ih h
    cases call with
    | defineCounter name' help => rw [counterDefined, hearlier, Bool.or_true]
    | _ => exact hearlier

/-- What one increment makes of an item. -/
def incremented (labels : MetricLabels) (q : ℚ) :
    Option (CounterItem ExactNumber) → CounterItem ExactNumber
  | none => ⟨labels, .finite q⟩
  | some existing => ⟨existing.labels, existing.value.add (.finite q)⟩

theorem incrementCounter_of_accepted {name : JsString} {labels : MetricLabels} {q : ℚ}
    {series : InsertionMap JsString (CounterItem ExactNumber)}
    (hseries : s.counters.get name = some series) (hq : 0 < q) :
    incrementCounter localeCompare s name labels (.finite q) = { s with
      counters := s.counters.set name (series.set (labelKey localeCompare labels.map)
        (incremented labels q (series.get (labelKey localeCompare labels.map)))) } := by
  have hpositive : (!JsNumber.isFinite (ExactNumber.finite q) ||
      JsNumber.le (ExactNumber.finite q) (JsNumber.literal 0)) = false := by
    simp [JsNumber.isFinite, ExactNumber.isFinite, JsNumber.le, ExactNumber.le, JsNumber.literal,
      hq]
  rw [incrementCounter, hseries]
  simp only [hpositive, Bool.false_eq_true, if_false]
  cases series.get (labelKey localeCompare labels.map) with
  | none => rfl
  | some existing => rfl

theorem incrementCounter_of_rejected {name : JsString} {labels : MetricLabels}
    {amount : ExactNumber}
    (h : s.counters.get name = none ∨ ∀ q, amount = .finite q → q ≤ 0) :
    incrementCounter localeCompare s name labels amount = s := by
  rw [incrementCounter]
  cases hseries : s.counters.get name with
  | none => rfl
  | some series =>
    have hamount := h.resolve_left (by simp [hseries])
    have hrejected : (!JsNumber.isFinite amount ||
        JsNumber.le amount (JsNumber.literal 0)) = true := by
      cases amount with
      | finite q => simp [JsNumber.le, ExactNumber.le, JsNumber.literal, hamount q rfl]
      | _ => rfl
    simp only [hrejected, if_true]

/-- A call that touches no counter. -/
theorem CountersExact.of_same (hs : CountersExact localeCompare s calls) {s' : Metrics ExactNumber}
    {calls' : List (MetricsCall ExactNumber)} (hcounters : s'.counters = s.counters)
    (hhelp : s'.counterHelp = s.counterHelp)
    (hdefined : ∀ name, counterDefined name calls' = counterDefined name calls)
    (hincrements : ∀ name labels, increments name labels calls' = increments name labels calls) :
    CountersExact localeCompare s' calls' where
  help := fun name => by rw [hhelp, hdefined, hs.help]
  series := fun name => by rw [hcounters, hdefined, hs.series]
  key := fun name series key item hseries => hs.key name series key item (hcounters ▸ hseries)
  value := fun name series labels hseries => by
    rw [hincrements]
    exact hs.value name series labels (hcounters ▸ hseries)

theorem CountersExact.defineCounter (hs : CountersExact localeCompare s calls)
    (name help : JsString) :
    CountersExact localeCompare (MernChat.defineCounter s name help)
      (.defineCounter name help :: calls) := by
  rw [MernChat.defineCounter]
  split_ifs with hdefined
  · -- the first definition stays
    rw [hs.help] at hdefined
    refine hs.of_same rfl rfl (fun name' => ?_) fun _ _ => rfl
    rw [counterDefined]
    by_cases hname : name = name'
    · subst hname
      rw [hdefined, Bool.or_true]
    · simp [hname]
  · rw [hs.help, Bool.not_eq_true] at hdefined
    refine ⟨fun name' => ?_, fun name' => ?_, hs.keyed.define name,
      fun name' series labels hseries => ?_⟩
    · rw [InsertionMap.get_set, counterDefined]
      split_ifs with hname
      · simp [hname]
      · simp [Ne.symm hname, hs.help]
    · rw [InsertionMap.get_set, counterDefined]
      split_ifs with hname
      · simp [hname]
      · simp [Ne.symm hname, hs.series]
    · have hsame : increments name' labels (.defineCounter name help :: calls) =
          increments name' labels calls := rfl
      rw [hsame]
      rcases InsertionMap.get_set_eq_some.mp hseries with ⟨rfl, rfl⟩ | ⟨-, hseries⟩
      · -- nothing was counted before
        have hnone : increments name' labels calls = [] := by
          by_contra hne
          rw [counterDefined_of_increments hne] at hdefined
          cases hdefined
        rw [hnone]
        rfl
      · exact hs.value name' series labels hseries

/-- One more increment. -/
theorem counterValue_cons (labels : MetricLabels) (q : ℚ) (qs : List ℚ)
    {item : Option (CounterItem ExactNumber)}
    (h : item.map CounterItem.value = counterValue qs) :
    counterValue (q :: qs) = some (incremented labels q item).value := by
  cases qs with
  | nil =>
    cases item with
    | none => simp [counterValue, incremented]
    | some item => cases h
  | cons q' qs =>
    cases item with
    | none => cases h
    | some item =>
      have hvalue : item.value = _ := Option.some.inj h
      simp [counterValue, incremented, hvalue, ExactNumber.add, add_comm q]

theorem CountersExact.incrementCounter (h : LocaleOrder localeCompare)
    (hs : CountersExact localeCompare s calls) (name : JsString) (labels : MetricLabels)
    (amount : ExactNumber) :
    CountersExact localeCompare (MernChat.incrementCounter localeCompare s name labels amount)
      (.incrementCounter name labels amount :: calls) := by
  by_cases hrejected : s.counters.get name = none ∨ ∀ q, amount = .finite q → q ≤ 0
  · rw [incrementCounter_of_rejected hrejected]
    refine hs.of_same rfl rfl (fun _ => rfl) fun name' labels' => ?_
    cases amount with
    | finite q =>
      rw [increments, if_neg]
      rintro ⟨rfl, -, hq, hdefined⟩
      rcases hrejected with hnone | hle
      · rw [← hs.series, hnone] at hdefined
        cases hdefined
      · exact absurd hq (not_lt.mpr (hle q rfl))
    | _ => rfl
  · simp only [not_or, not_forall, not_le] at hrejected
    obtain ⟨hsome, q, rfl, hq⟩ := hrejected
    obtain ⟨series, hseries⟩ := Option.ne_none_iff_exists'.mp hsome
    have hisSome : (s.counters.get name).isSome = true := by rw [hseries]; rfl
    have hdefined : counterDefined name calls = true := by rw [← hs.series, hisSome]
    rw [incrementCounter_of_accepted hseries hq]
    refine ⟨hs.help, fun name' => ?_, hs.keyed.record hseries rfl fun _ => rfl,
      fun name' series' labels' hseries' => ?_⟩
    · exact (InsertionMap.isSome_get_set hisSome _ name').trans (hs.series name')
    · rw [increments]
      rcases InsertionMap.get_set_eq_some.mp hseries' with ⟨rfl, rfl⟩ | ⟨hname, hseries'⟩
      · have hvalue := hs.value name' series labels' hseries
        rw [map_get_record h]
        by_cases hsame : labels.Same labels'
        · -- the increment is added to the series
          rw [← (labelKey_eq_iff h).mpr hsame] at hvalue
          rw [if_pos hsame, if_pos ⟨rfl, hsame, hq, hdefined⟩, counterValue_cons labels q _ hvalue]
        · rw [if_neg hsame, if_neg fun hall => hsame hall.2.1, hvalue]
      · rw [if_neg fun hall => hname hall.1.symm]
        exact hs.value name' series' labels' hseries'

theorem CountersExact.resetMetrics (hs : CountersExact localeCompare s calls) :
    CountersExact localeCompare (MernChat.resetMetrics s) (.resetMetrics :: calls) where
  help := hs.help
  series := fun name => by
    rw [MernChat.resetMetrics, InsertionMap.get_map, Option.isSome_map, hs.series]
    rfl
  key := Keyed.reset
  value := fun name series labels hseries => by
    rw [MernChat.resetMetrics, InsertionMap.get_map, Option.map_eq_some_iff] at hseries
    obtain ⟨_, -, rfl⟩ := hseries
    rfl

theorem observeHistogram_counters (name : JsString) (value : ExactNumber) (labels : MetricLabels) :
    (observeHistogram localeCompare s name value labels).counters = s.counters ∧
      (observeHistogram localeCompare s name value labels).counterHelp = s.counterHelp := by
  rw [observeHistogram]
  split
  · split_ifs
    · exact ⟨rfl, rfl⟩
    · exact ⟨rfl, rfl⟩
  · exact ⟨rfl, rfl⟩

theorem defineHistogram_counters {name help : JsString} {buckets : List ExactNumber}
    {s' : Metrics ExactNumber} (h : defineHistogram s name help buckets = .ok s') :
    s'.counters = s.counters ∧ s'.counterHelp = s.counterHelp := by
  rw [defineHistogram] at h
  split_ifs at h
  · obtain rfl := Except.ok.inj h
    exact ⟨rfl, rfl⟩
  · obtain rfl := Except.ok.inj h
    exact ⟨rfl, rfl⟩

/-- **What one call makes of the counters.** -/
theorem CountersExact.exec (h : LocaleOrder localeCompare)
    (hs : CountersExact localeCompare s calls) (call : MetricsCall ExactNumber) :
    CountersExact localeCompare (call.exec localeCompare s) (call :: calls) := by
  cases call with
  | defineCounter name help => exact hs.defineCounter name help
  | incrementCounter name labels amount => exact hs.incrementCounter h name labels amount
  | resetMetrics => exact hs.resetMetrics
  | observeHistogram name value labels =>
    obtain ⟨hcounters, hhelp⟩ := observeHistogram_counters (s := s) name value labels
    exact hs.of_same hcounters hhelp (fun _ => rfl) fun _ _ => rfl
  | defineHistogram name help buckets =>
    rw [MetricsCall.exec]
    cases hdefine : MernChat.defineHistogram s name help buckets with
    | error e => exact hs.of_same rfl rfl (fun _ => rfl) fun _ _ => rfl
    | ok s' =>
      obtain ⟨hcounters, hhelp⟩ := defineHistogram_counters hdefine
      exact hs.of_same hcounters hhelp (fun _ => rfl) fun _ _ => rfl

end Counters

/-- **What the counters hold after any calls.** -/
theorem countersExact_metricsAfter (h : LocaleOrder localeCompare)
    (calls : List (MetricsCall ExactNumber)) :
    CountersExact localeCompare (metricsAfter localeCompare calls) calls := by
  induction calls with
  | nil =>
    refine ⟨fun _ => rfl, fun _ => rfl, fun name series key item hseries => ?_,
      fun name series labels hseries => ?_⟩
    · cases hseries
    · cases hseries
  | cons call calls ih => exact ih.exec h call

/-! ## Histograms -/

/-- The histograms after the calls. -/
structure HistogramsExact (localeCompare : JsString → JsString → Int) (s : Metrics ExactNumber)
    (calls : List (MetricsCall ExactNumber)) : Prop where
  definition : ∀ name, (s.histogramHelp.get name).map HistogramDefinition.buckets =
    boundaries name calls
  series : ∀ name, (s.histograms.get name).isSome = (boundaries name calls).isSome
  key : ∀ name series key item, s.histograms.get name = some series →
    series.get key = some item → key = labelKey localeCompare item.labels.map
  value : ∀ name series labels bs, s.histograms.get name = some series →
    boundaries name calls = some bs →
    (series.get (labelKey localeCompare labels.map)).map
      (fun item => (item.count, item.sum, item.buckets)) =
        histogramValue bs (observations name labels calls)

section Histograms

variable {s : Metrics ExactNumber} {calls : List (MetricsCall ExactNumber)}
  {call : MetricsCall ExactNumber}

theorem HistogramsExact.keyed (hs : HistogramsExact localeCompare s calls) :
    Keyed localeCompare HistogramItem.labels s.histograms :=
  hs.key

theorem isSome_boundaries_cons (name : JsString) (call : MetricsCall ExactNumber)
    (h : (boundaries name calls).isSome = true) :
    boundaries name (call :: calls) = boundaries name calls := by
  cases call with
  | defineHistogram name' help buckets =>
    obtain ⟨bs, hbs⟩ := Option.isSome_iff_exists.mp h
    rw [boundaries, hbs]
  | _ => rfl

/-- Only a defined histogram is observed. -/
theorem isSome_boundaries_of_observations {name : JsString} {labels : MetricLabels}
    (h : observations name labels calls ≠ []) : (boundaries name calls).isSome = true := by
  fun_induction observations name labels calls with
  | case1 => exact absurd rfl h
  | case2 => exact absurd rfl h
  | case3 name' q labels' earlier haccepted ih => exact haccepted.2.2.2
  | case4 name' q labels' earlier haccepted ih => exact ih h
  | case5 call earlier hreset hobserve ih =>
    have hearlier := ih h
    rwa [isSome_boundaries_cons name call hearlier]

/-- A call that touches no histogram. -/
theorem HistogramsExact.of_same (hs : HistogramsExact localeCompare s calls)
    {s' : Metrics ExactNumber} {calls' : List (MetricsCall ExactNumber)}
    (hhistograms : s'.histograms = s.histograms) (hhelp : s'.histogramHelp = s.histogramHelp)
    (hboundaries : ∀ name, boundaries name calls' = boundaries name calls)
    (hobservations : ∀ name labels,
      observations name labels calls' = observations name labels calls) :
    HistogramsExact localeCompare s' calls' where
  definition := fun name => by rw [hhelp, hboundaries, hs.definition]
  series := fun name => by rw [hhistograms, hboundaries, hs.series]
  key := fun name series key item hseries => hs.key name series key item (hhistograms ▸ hseries)
  value := fun name series labels bs hseries hbs => by
    rw [hobservations]
    exact hs.value name series labels bs (hhistograms ▸ hseries) (hboundaries name ▸ hbs)

theorem HistogramsExact.defineHistogram (hs : HistogramsExact localeCompare s calls)
    (name help : JsString) (buckets : List ExactNumber) :
    HistogramsExact localeCompare
      (MetricsCall.exec localeCompare s (.defineHistogram name help buckets))
      (.defineHistogram name help buckets :: calls) := by
  have hisSome : ∀ name', (s.histogramHelp.get name').isSome = (boundaries name' calls).isSome :=
    fun name' => by rw [← hs.definition, Option.isSome_map]
  rw [MetricsCall.exec, MernChat.defineHistogram]
  by_cases hdefined : (s.histogramHelp.get name).isSome = true
  · -- the first definition stays
    rw [if_pos hdefined]
    refine hs.of_same rfl rfl (fun name' => ?_) fun _ _ => rfl
    rw [hisSome] at hdefined
    by_cases hname : name = name'
    · exact isSome_boundaries_cons name' _ (hname ▸ hdefined)
    · rw [boundaries]
      cases boundaries name' calls with
      | some bs => rfl
      | none => rw [if_neg fun hall => hname hall.1]
  · rw [if_neg hdefined]
    rw [hisSome, Bool.not_eq_true, Option.isSome_eq_false_iff, Option.isNone_iff_eq_none]
      at hdefined
    by_cases hempty : normalizedBuckets buckets = []
    · -- it throws
      rw [if_pos hempty]
      refine hs.of_same rfl rfl (fun name' => ?_) fun _ _ => rfl
      rw [boundaries]
      cases boundaries name' calls with
      | some bs => rfl
      | none => rw [if_neg fun hall => hall.2 hempty]
    · rw [if_neg hempty]
      have hboundaries : ∀ name', boundaries name' (.defineHistogram name help buckets :: calls) =
          if name' = name then some (normalizedBuckets buckets) else boundaries name' calls := by
        intro name'
        rw [boundaries]
        by_cases hname : name' = name
        · rw [hname, hdefined, if_pos rfl]
          exact if_pos ⟨rfl, hempty⟩
        · rw [if_neg hname]
          cases boundaries name' calls with
          | some bs => rfl
          | none => exact if_neg fun hall => hname hall.1.symm
      refine ⟨fun name' => ?_, fun name' => ?_, hs.keyed.define name,
        fun name' series labels bs hseries hbs => ?_⟩
      · rw [hboundaries, InsertionMap.get_set]
        split_ifs with hname
        · rfl
        · exact hs.definition name'
      · rw [hboundaries, InsertionMap.get_set]
        split_ifs with hname
        · rfl
        · exact hs.series name'
      · have hsame : observations name' labels (.defineHistogram name help buckets :: calls) =
            observations name' labels calls := rfl
        rw [hsame]
        rw [hboundaries] at hbs
        rcases InsertionMap.get_set_eq_some.mp hseries with ⟨rfl, rfl⟩ | ⟨hname, hseries⟩
        · -- nothing was observed before
          have hnone : observations name' labels calls = [] := by
            by_contra hne
            have hsome := isSome_boundaries_of_observations hne
            rw [hdefined] at hsome
            cases hsome
          rw [hnone]
          rfl
        · rw [if_neg hname] at hbs
          exact hs.value name' series labels bs hseries hbs

theorem observeHistogram_of_rejected {name : JsString} {labels : MetricLabels}
    {value : ExactNumber}
    (h : s.histogramHelp.get name = none ∨ s.histograms.get name = none ∨
      ∀ q, value = .finite q → q < 0) :
    observeHistogram localeCompare s name value labels = s := by
  rw [observeHistogram]
  split
  · rename_i definition series hdefinition hseries
    have hvalue : ∀ q, value = .finite q → q < 0 := by
      rcases h with h | h | h
      · rw [hdefinition] at h
        cases h
      · rw [hseries] at h
        cases h
      · exact h
    have hrejected : (!JsNumber.isFinite value ||
        JsNumber.lt value (JsNumber.literal 0)) = true := by
      cases value with
      | finite q => simp [JsNumber.lt, ExactNumber.lt, JsNumber.literal, hvalue q rfl]
      | _ => rfl
    rw [if_pos hrejected]
  · rfl

/-- What one observation makes of a series. -/
def observed (definition : HistogramDefinition ExactNumber) (labels : MetricLabels) (q : ℚ)
    (item : Option (HistogramItem ExactNumber)) : HistogramItem ExactNumber :=
  let target := item.getD ⟨labels, 0, .finite 0, definition.buckets.map fun _ => 0⟩
  ⟨target.labels, target.count + 1, target.sum.add (.finite q), definition.buckets.zipWith
    (fun boundary n => if (ExactNumber.finite q).le boundary then n + 1 else n) target.buckets⟩

theorem observeHistogram_of_accepted {name : JsString} {labels : MetricLabels} {q : ℚ}
    {definition : HistogramDefinition ExactNumber}
    {series : InsertionMap JsString (HistogramItem ExactNumber)}
    (hdefinition : s.histogramHelp.get name = some definition)
    (hseries : s.histograms.get name = some series) (hq : 0 ≤ q) :
    observeHistogram localeCompare s name (.finite q) labels = { s with
      histograms := s.histograms.set name (series.set (labelKey localeCompare labels.map)
        (observed definition labels q (series.get (labelKey localeCompare labels.map)))) } := by
  have haccepted : (!JsNumber.isFinite (ExactNumber.finite q) ||
      JsNumber.lt (ExactNumber.finite q) (JsNumber.literal 0)) = false := by
    simp [JsNumber.isFinite, ExactNumber.isFinite, JsNumber.lt, ExactNumber.lt, JsNumber.literal,
      hq]
  rw [observeHistogram, hdefinition, hseries]
  simp only [haccepted, Bool.false_eq_true, if_false]
  rfl

/-- One more observation. -/
theorem histogramValue_cons (definition : HistogramDefinition ExactNumber) (labels : MetricLabels)
    (q : ℚ) (qs : List ℚ) {item : Option (HistogramItem ExactNumber)}
    (h : item.map (fun item => (item.count, item.sum, item.buckets)) =
      histogramValue definition.buckets qs) :
    histogramValue definition.buckets (q :: qs) =
      some ((observed definition labels q item).count, (observed definition labels q item).sum,
        (observed definition labels q item).buckets) := by
  have hcount : ∀ (qs : List ℚ) (bs : List ExactNumber),
      (bs.zipWith (fun b n => if (ExactNumber.finite q).le b then n + 1 else n)
        (bs.map fun b => qs.countP fun q => (ExactNumber.finite q).le b)) =
      bs.map fun b => (q :: qs).countP fun q => (ExactNumber.finite q).le b := by
    intro qs bs
    rw [List.zipWith_map_right, List.zipWith_self]
    refine List.map_congr_left fun b _ => ?_
    rw [List.countP_cons]
    split_ifs <;> rfl
  cases qs with
  | nil =>
    cases item with
    | none =>
      have hfirst := hcount [] definition.buckets
      simp only [List.countP_nil] at hfirst
      simp only [histogramValue, observed, Option.getD_none, hfirst]
      simp [ExactNumber.add]
    | some item => cases h
  | cons q' qs =>
    cases item with
    | none => cases h
    | some item =>
      simp only [Option.map_some, histogramValue, Option.some.injEq, Prod.mk.injEq] at h
      obtain ⟨hitem, hsum, hbuckets⟩ := h
      simp only [histogramValue, observed, Option.getD_some, hitem, hsum, hbuckets, hcount]
      simp [ExactNumber.add, add_comm q]

theorem HistogramsExact.observeHistogram (h : LocaleOrder localeCompare)
    (hs : HistogramsExact localeCompare s calls) (name : JsString) (value : ExactNumber)
    (labels : MetricLabels) :
    HistogramsExact localeCompare (MernChat.observeHistogram localeCompare s name value labels)
      (.observeHistogram name value labels :: calls) := by
  by_cases hrejected : s.histogramHelp.get name = none ∨ s.histograms.get name = none ∨
      ∀ q, value = .finite q → q < 0
  · rw [observeHistogram_of_rejected hrejected]
    refine hs.of_same rfl rfl (fun _ => rfl) fun name' labels' => ?_
    cases value with
    | finite q =>
      rw [observations, if_neg]
      rintro ⟨rfl, -, hq, hdefined⟩
      rcases hrejected with hnone | hnone | hlt
      · rw [← hs.definition, hnone] at hdefined
        cases hdefined
      · rw [← hs.series, hnone] at hdefined
        cases hdefined
      · exact absurd hq (not_le.mpr (hlt q rfl))
    | _ => rfl
  · simp only [not_or, not_forall, not_lt] at hrejected
    obtain ⟨hsomeHelp, hsome, q, rfl, hq⟩ := hrejected
    obtain ⟨definition, hdefinition⟩ := Option.ne_none_iff_exists'.mp hsomeHelp
    obtain ⟨series, hseries⟩ := Option.ne_none_iff_exists'.mp hsome
    have hbs : boundaries name calls = some definition.buckets := by
      rw [← hs.definition, hdefinition]
      rfl
    rw [observeHistogram_of_accepted hdefinition hseries hq]
    refine ⟨hs.definition, fun name' => ?_,
      hs.keyed.record hseries rfl fun _ => rfl,
      fun name' series' labels' bs hseries' hbs' => ?_⟩
    · have hisSome : (s.histograms.get name).isSome = true := by rw [hseries]; rfl
      exact (InsertionMap.isSome_get_set hisSome _ name').trans (hs.series name')
    · rw [observations]
      rcases InsertionMap.get_set_eq_some.mp hseries' with ⟨rfl, rfl⟩ | ⟨hname, hseries'⟩
      · obtain rfl : definition.buckets = bs := Option.some.inj (hbs.symm.trans hbs')
        have hvalue := hs.value name' series labels' definition.buckets hseries hbs
        have hdefined : (boundaries name' calls).isSome = true := by rw [hbs]; rfl
        rw [map_get_record h]
        by_cases hsame : labels.Same labels'
        · -- the observation is added to the series
          rw [← (labelKey_eq_iff h).mpr hsame] at hvalue
          rw [if_pos hsame, if_pos ⟨rfl, hsame, hq, hdefined⟩,
            histogramValue_cons definition labels q _ hvalue]
        · rw [if_neg hsame, if_neg fun hall => hsame hall.2.1, hvalue]
      · rw [if_neg fun hall => hname hall.1.symm]
        exact hs.value name' series' labels' bs hseries' hbs'

theorem HistogramsExact.resetMetrics (hs : HistogramsExact localeCompare s calls) :
    HistogramsExact localeCompare (MernChat.resetMetrics s) (.resetMetrics :: calls) where
  definition := hs.definition
  series := fun name => by
    rw [MernChat.resetMetrics, InsertionMap.get_map, Option.isSome_map, hs.series]
    rfl
  key := Keyed.reset
  value := fun name series labels bs hseries hbs => by
    rw [MernChat.resetMetrics, InsertionMap.get_map, Option.map_eq_some_iff] at hseries
    obtain ⟨_, -, rfl⟩ := hseries
    rfl

theorem defineCounter_histograms (name help : JsString) :
    (defineCounter s name help).histograms = s.histograms ∧
      (defineCounter s name help).histogramHelp = s.histogramHelp := by
  rw [defineCounter]
  split_ifs
  · exact ⟨rfl, rfl⟩
  · exact ⟨rfl, rfl⟩

theorem incrementCounter_histograms (name : JsString) (labels : MetricLabels)
    (amount : ExactNumber) :
    (incrementCounter localeCompare s name labels amount).histograms = s.histograms ∧
      (incrementCounter localeCompare s name labels amount).histogramHelp = s.histogramHelp := by
  rw [incrementCounter]
  split
  · exact ⟨rfl, rfl⟩
  · split_ifs
    · exact ⟨rfl, rfl⟩
    · exact ⟨rfl, rfl⟩

/-- **What one call makes of the histograms.** -/
theorem HistogramsExact.exec (h : LocaleOrder localeCompare)
    (hs : HistogramsExact localeCompare s calls) (call : MetricsCall ExactNumber) :
    HistogramsExact localeCompare (call.exec localeCompare s) (call :: calls) := by
  cases call with
  | defineHistogram name help buckets => exact hs.defineHistogram name help buckets
  | observeHistogram name value labels => exact hs.observeHistogram h name value labels
  | resetMetrics => exact hs.resetMetrics
  | defineCounter name help =>
    obtain ⟨hhistograms, hhelp⟩ := defineCounter_histograms (s := s) name help
    exact hs.of_same hhistograms hhelp (fun _ => rfl) fun _ _ => rfl
  | incrementCounter name labels amount =>
    obtain ⟨hhistograms, hhelp⟩ :
        (MernChat.incrementCounter localeCompare s name labels amount).histograms =
          s.histograms ∧ _ := incrementCounter_histograms name labels amount
    exact hs.of_same hhistograms hhelp (fun _ => rfl) fun _ _ => rfl

end Histograms

/-- **What the histograms hold after any calls.** -/
theorem histogramsExact_metricsAfter (h : LocaleOrder localeCompare)
    (calls : List (MetricsCall ExactNumber)) :
    HistogramsExact localeCompare (metricsAfter localeCompare calls) calls := by
  induction calls with
  | nil =>
    refine ⟨fun _ => rfl, fun _ => rfl, fun name series key item hseries => ?_,
      fun name series labels bs hseries => ?_⟩
    · cases hseries
    · cases hseries
  | cons call calls ih => exact ih.exec h call

/-! ## Boundaries -/

theorem exists_map_finite {l : List ExactNumber} (h : ∀ b ∈ l, ∃ q, b = .finite q) :
    ∃ qs : List ℚ, qs.map ExactNumber.finite = l := by
  induction l with
  | nil => exact ⟨[], rfl⟩
  | cons b l ih =>
    obtain ⟨⟨q, rfl⟩, htail⟩ := List.forall_mem_cons.mp h
    obtain ⟨qs, rfl⟩ := ih htail
    exact ⟨q :: qs, rfl⟩

/-- The boundaries are finite, positive and strictly increasing. -/
theorem normalizedBuckets_eq (buckets : List ExactNumber) :
    ∃ bs : List ℚ, normalizedBuckets buckets = bs.map .finite ∧ bs.Pairwise (· < ·) ∧
      ∀ q, q ∈ bs ↔ .finite q ∈ buckets ∧ 0 < q := by
  let kept := (buckets.filter fun bucket =>
    JsNumber.isFinite bucket && JsNumber.lt (JsNumber.literal 0) bucket).eraseDups
  have hmem : ∀ b, b ∈ kept ↔ b ∈ buckets ∧ ∃ q, b = .finite q ∧ 0 < q := by
    intro b
    simp only [kept, List.mem_eraseDups, List.mem_filter, and_congr_right_iff]
    intro _
    cases b <;> simp [JsNumber.isFinite, ExactNumber.isFinite, JsNumber.lt, ExactNumber.lt,
      JsNumber.literal]
  obtain ⟨qs, hqs⟩ : ∃ qs : List ℚ, qs.map ExactNumber.finite = kept := by
    refine exists_map_finite fun b hb => ?_
    obtain ⟨-, q, hq, -⟩ := (hmem b).mp hb
    exact ⟨q, hq⟩
  have hsort := List.map_insertionSort (r := fun a b : ℚ => a ≤ b)
    (s := fun a b : ExactNumber => JsNumber.le a b = true) ExactNumber.finite qs
    fun a _ b _ => by simp [JsNumber.le, ExactNumber.le]
  rw [hqs] at hsort
  refine ⟨qs.insertionSort fun a b => a ≤ b, hsort.symm, ?_, fun q => ?_⟩
  · have hnodup : (qs.insertionSort fun a b => a ≤ b).Nodup := by
      rw [(List.perm_insertionSort _ qs).nodup_iff]
      apply List.Nodup.of_map ExactNumber.finite
      rw [hqs]
      exact nodup_eraseDups _
    exact ((List.pairwise_insertionSort _ qs).and hnodup).imp fun h => lt_of_le_of_ne h.1 h.2
  · rw [List.mem_insertionSort]
    have hfinite : q ∈ qs ↔ ExactNumber.finite q ∈ kept := by
      rw [← hqs, List.mem_map_of_injective fun _ _ h => ExactNumber.finite.inj h]
    rw [hfinite, hmem]
    simp

/-- The boundaries are those of one definition, before which none had any. -/
theorem exists_of_boundaries {name : JsString} {calls : List (MetricsCall ExactNumber)}
    {bs : List ExactNumber} (h : boundaries name calls = some bs) :
    ∃ help buckets earlier, .defineHistogram name help buckets :: earlier <:+ calls ∧
      boundaries name earlier = none ∧ bs = normalizedBuckets buckets := by
  induction calls with
  | nil => cases h
  | cons call calls ih =>
    have hearlier : boundaries name calls = some bs → ∃ help buckets earlier,
        .defineHistogram name help buckets :: earlier <:+ call :: calls ∧
          boundaries name earlier = none ∧ bs = normalizedBuckets buckets := by
      intro hbs
      obtain ⟨help, buckets, earlier, hsuffix, hfirst⟩ := ih hbs
      exact ⟨help, buckets, earlier, hsuffix.trans (List.suffix_cons _ _), hfirst⟩
    cases call with
    | defineHistogram name' help buckets =>
      rw [boundaries] at h
      cases hbs : boundaries name calls with
      | some bs' =>
        rw [hbs] at h
        exact hearlier (hbs.trans h)
      | none =>
        rw [hbs] at h
        simp only at h
        split_ifs at h with hdefines
        obtain ⟨rfl, -⟩ := hdefines
        exact ⟨help, buckets, calls, List.suffix_refl _, hbs, (Option.some.inj h).symm⟩
    | _ => exact hearlier h

/-! ## Every series -/

/-- The series of a metric stand for the label maps that something was given under, one for
each. -/
def OnePerLabels {ι : Type} (labels : ι → MetricLabels) (given : MetricLabels → List ℚ)
    (items : List ι) : Prop :=
  (∀ l, (∃ item ∈ items, (labels item).Same l) ↔ given l ≠ []) ∧
    items.Pairwise fun a b => ¬ (labels a).Same (labels b)

theorem onePerLabels_of (h : LocaleOrder localeCompare) {ι : Type} {labels : ι → MetricLabels}
    {given : MetricLabels → List ℚ} {series : InsertionMap JsString ι}
    (hkey : ∀ key item, series.get key = some item →
      key = labelKey localeCompare (labels item).map)
    (hgiven : ∀ l, (series.get (labelKey localeCompare l.map)).isSome = true ↔ given l ≠ []) :
    OnePerLabels labels given series.values := by
  constructor
  · intro l
    rw [← hgiven]
    constructor
    · rintro ⟨item, hitem, hsame⟩
      obtain ⟨key, hentry⟩ := InsertionMap.mem_values.mp hitem
      have hget := InsertionMap.get_eq_some.mpr hentry
      rw [← (labelKey_eq_iff h).mpr hsame, ← hkey key item hget, hget]
      rfl
    · intro hsome
      obtain ⟨item, hitem⟩ := Option.isSome_iff_exists.mp hsome
      exact ⟨item, InsertionMap.mem_values.mpr ⟨_, InsertionMap.get_eq_some.mp hitem⟩,
        (labelKey_eq_iff h).mp (hkey _ item hitem).symm⟩
  · -- equal label maps would have one key
    have hdistinct := List.pairwise_map.mp series.nodup
    rw [InsertionMap.values, List.pairwise_map]
    refine hdistinct.imp_of_mem fun {e f} he hf hne hsame => hne ?_
    rw [hkey e.1 e.2 (InsertionMap.get_eq_some.mpr he),
      hkey f.1 f.2 (InsertionMap.get_eq_some.mpr hf)]
    exact (labelKey_eq_iff h).mpr hsame

theorem counterValue_isSome {qs : List ℚ} : (counterValue qs).isSome = true ↔ qs ≠ [] := by
  cases qs <;> simp [counterValue]

theorem counterValue_eq_some {qs : List ℚ} {value : ExactNumber}
    (h : counterValue qs = some value) : value = .finite qs.sum := by
  cases qs with
  | nil => cases h
  | cons q qs => exact (Option.some.inj h).symm

theorem histogramValue_isSome {bs : List ExactNumber} {qs : List ℚ} :
    (histogramValue bs qs).isSome = true ↔ qs ≠ [] := by
  cases qs <;> simp [histogramValue]

theorem histogramValue_eq_some {bs : List ExactNumber} {qs : List ℚ}
    {value : Nat × ExactNumber × List Nat} (h : histogramValue bs qs = some value) :
    value = (qs.length, .finite qs.sum,
      bs.map fun b => qs.countP fun q => (ExactNumber.finite q).le b) := by
  cases qs with
  | nil => cases h
  | cons q qs => exact (Option.some.inj h).symm

/-- The rendered counts do not decrease from one boundary to the next. -/
theorem pairwise_countP {bs qs : List ℚ} (h : bs.Pairwise (· < ·)) :
    ((bs.map fun b => qs.countP fun q => decide (q ≤ b)) ++ [qs.length]).Pairwise (· ≤ ·) := by
  rw [List.pairwise_append]
  refine ⟨?_, List.pairwise_singleton _ _, fun n hn m hm => ?_⟩
  · rw [List.pairwise_map]
    refine h.imp fun {b b'} hlt => List.countP_mono_left fun q _ hq => ?_
    exact decide_eq_true ((of_decide_eq_true hq).trans hlt.le)
  · obtain ⟨b, -, rfl⟩ := List.mem_map.mp hn
    rw [List.mem_singleton.mp hm]
    exact List.countP_le_length

/-- A boundary is rendered with its bucket, and at last the count. -/
theorem renderedBuckets_eq (numberText : ExactNumber → JsString)
    {definition : HistogramDefinition ExactNumber} {bs : List ℚ}
    (h : definition.buckets = bs.map .finite) (item : HistogramItem ExactNumber) :
    renderedBuckets numberText definition item =
      (bs.map fun b => numberText (.finite b)).zip item.buckets ++ [(js "+Inf", item.count)] := by
  rw [renderedBuckets, h, List.zip_map_left, List.zip_map_left, List.map_map]
  rfl

/-- The boundaries of the histogram are the finite positive ones of its first definition that has
some. -/
def BoundariesOf (name : JsString) (calls : List (MetricsCall ExactNumber)) (bs : List ℚ) : Prop :=
  ∃ help buckets earlier, .defineHistogram name help buckets :: earlier <:+ calls ∧
    boundaries name earlier = none ∧ ∀ q, q ∈ bs ↔ .finite q ∈ buckets ∧ 0 < q

theorem boundariesOf_of_eq {name : JsString} {calls : List (MetricsCall ExactNumber)}
    {buckets : List ExactNumber} (h : boundaries name calls = some buckets) :
    ∃ bs : List ℚ, buckets = bs.map .finite ∧ bs.Pairwise (· < ·) ∧ BoundariesOf name calls bs := by
  obtain ⟨help, given, earlier, hsuffix, hfirst, rfl⟩ := exists_of_boundaries h
  obtain ⟨bs, hnormalized, hsorted, hmem⟩ := normalizedBuckets_eq given
  exact ⟨bs, hnormalized, hsorted, help, given, earlier, hsuffix, hfirst, hmem⟩

section Items

variable {s : Metrics ExactNumber} {calls : List (MetricsCall ExactNumber)} {name : JsString}

theorem CountersExact.value_of_mem (hs : CountersExact localeCompare s calls)
    {series : InsertionMap JsString (CounterItem ExactNumber)}
    (hseries : s.counters.get name = some series) {item : CounterItem ExactNumber}
    (hitem : item ∈ series.values) :
    item.value = .finite (increments name item.labels calls).sum := by
  obtain ⟨key, hentry⟩ := InsertionMap.mem_values.mp hitem
  have hget := InsertionMap.get_eq_some.mpr hentry
  have hvalue := hs.value name series item.labels hseries
  rw [← hs.key name series key item hseries hget, hget] at hvalue
  exact counterValue_eq_some hvalue.symm

theorem HistogramsExact.value_of_mem (hs : HistogramsExact localeCompare s calls)
    {series : InsertionMap JsString (HistogramItem ExactNumber)}
    (hseries : s.histograms.get name = some series) {bs : List ℚ}
    (hbs : boundaries name calls = some (bs.map .finite)) {item : HistogramItem ExactNumber}
    (hitem : item ∈ series.values) :
    item.count = (observations name item.labels calls).length ∧
      item.sum = .finite (observations name item.labels calls).sum ∧
        item.buckets = bs.map fun b =>
          (observations name item.labels calls).countP fun q => decide (q ≤ b) := by
  obtain ⟨key, hentry⟩ := InsertionMap.mem_values.mp hitem
  have hget := InsertionMap.get_eq_some.mpr hentry
  have hvalue := hs.value name series item.labels _ hseries hbs
  rw [← hs.key name series key item hseries hget, hget] at hvalue
  obtain ⟨hcount, hrest⟩ := Prod.mk.inj (histogramValue_eq_some hvalue.symm)
  obtain ⟨hsum, hbuckets⟩ := Prod.mk.inj hrest
  refine ⟨hcount, hsum, ?_⟩
  rw [hbuckets, List.map_map]
  rfl

/-- What is rendered of an item does not decrease. -/
theorem pairwise_renderedBuckets (numberText : ExactNumber → JsString)
    {definition : HistogramDefinition ExactNumber} {bs qs : List ℚ}
    (h : definition.buckets = bs.map .finite) (hsorted : bs.Pairwise (· < ·))
    {item : HistogramItem ExactNumber} (hcount : item.count = qs.length)
    (hbuckets : item.buckets = bs.map fun b => qs.countP fun q => decide (q ≤ b)) :
    ((renderedBuckets numberText definition item).map Prod.snd).Pairwise (· ≤ ·) := by
  have hlength : item.buckets.length ≤ (bs.map fun b => numberText (.finite b)).length := by
    rw [hbuckets, List.length_map, List.length_map]
  rw [renderedBuckets_eq numberText h, List.map_append, List.map_snd_zip hlength,
    List.map_singleton, hbuckets, hcount]
  exact pairwise_countP hsorted

end Items

/-- **Every series is exact.** A metric has a table exactly when it is defined, a histogram by a
definition with some boundary. A counter's series holds the sum of its increments since the last
reset; a histogram's series holds the number of its observations and, for every boundary, the
number of those at most the boundary; and there is one series for each label map. -/
theorem metrics_exact (h : LocaleOrder localeCompare) (numberText : ExactNumber → JsString)
    (calls : List (MetricsCall ExactNumber)) :
    (∀ name, ((metricsAfter localeCompare (loadedBefore calls)).counters.get name).isSome =
        counterDefined name (loadedBefore calls) ∧
      ((metricsAfter localeCompare (loadedBefore calls)).histograms.get name).isSome =
        (boundaries name (loadedBefore calls)).isSome ∧
      ((metricsAfter localeCompare (loadedBefore calls)).histogramHelp.get name).map
        HistogramDefinition.buckets = boundaries name (loadedBefore calls)) ∧
    (∀ name series,
      (metricsAfter localeCompare (loadedBefore calls)).counters.get name = some series →
      (∀ item ∈ series.values, item.value =
        .finite (increments name item.labels (loadedBefore calls)).sum) ∧
      OnePerLabels CounterItem.labels (fun l => increments name l (loadedBefore calls))
        series.values) ∧
    ∀ name series definition,
      (metricsAfter localeCompare (loadedBefore calls)).histograms.get name = some series →
      (metricsAfter localeCompare (loadedBefore calls)).histogramHelp.get name =
        some definition →
      ∃ bs : List ℚ, definition.buckets = bs.map .finite ∧ bs.Pairwise (· < ·) ∧
        BoundariesOf name (loadedBefore calls) bs ∧
        (∀ item ∈ series.values,
          item.count = (observations name item.labels (loadedBefore calls)).length ∧
          item.sum = .finite (observations name item.labels (loadedBefore calls)).sum ∧
          item.buckets = (bs.map fun b => (observations name item.labels
            (loadedBefore calls)).countP fun q => decide (q ≤ b)) ∧
          renderedBuckets numberText definition item =
            (bs.map fun b => numberText (.finite b)).zip item.buckets ++
              [(js "+Inf", item.count)] ∧
          ((renderedBuckets numberText definition item).map Prod.snd).Pairwise (· ≤ ·)) ∧
        OnePerLabels HistogramItem.labels (fun l => observations name l (loadedBefore calls))
          series.values := by
  have hcounters := countersExact_metricsAfter h (loadedBefore calls)
  have hhistograms := histogramsExact_metricsAfter h (loadedBefore calls)
  refine ⟨fun name => ⟨hcounters.series name, hhistograms.series name,
      hhistograms.definition name⟩, fun name series hseries => ⟨fun item hitem => ?_, ?_⟩,
    fun name series definition hseries hdefinition => ?_⟩
  · exact hcounters.value_of_mem hseries hitem
  · refine onePerLabels_of h (hcounters.key name series · · hseries) fun l => ?_
    rw [← counterValue_isSome, ← hcounters.value name series l hseries, Option.isSome_map]
  · have hboundaries : boundaries name (loadedBefore calls) = some definition.buckets := by
      rw [← hhistograms.definition, hdefinition]
      rfl
    obtain ⟨bs, hbs, hsorted, hof⟩ := boundariesOf_of_eq hboundaries
    refine ⟨bs, hbs, hsorted, hof, fun item hitem => ?_, ?_⟩
    · obtain ⟨hcount, hsum, hbuckets⟩ :=
        hhistograms.value_of_mem hseries (hbs ▸ hboundaries) hitem
      exact ⟨hcount, hsum, hbuckets, renderedBuckets_eq numberText hbs item,
        pairwise_renderedBuckets numberText hbs hsorted hcount hbuckets⟩
    · refine onePerLabels_of h (hhistograms.key name series · · hseries) fun l => ?_
      rw [← @histogramValue_isSome definition.buckets,
        ← hhistograms.value name series l _ hseries hboundaries, Option.isSome_map]

/-- A comparison of code units, an order on all texts. -/
def sampleCompare (a b : JsString) : Int :=
  if a = b then 0 else if a.map UInt16.toNat < b.map UInt16.toNat then -1 else 1

theorem localeOrder_sampleCompare : LocaleOrder sampleCompare := by
  have hinjective : Function.Injective fun a : JsString => a.map UInt16.toNat :=
    List.map_injective_iff.mpr fun _ _ h => UInt16.toNat_inj.mp h
  have hneg : ∀ a b, sampleCompare a b < 0 ↔ a.map UInt16.toNat < b.map UInt16.toNat := by
    intro a b
    rw [sampleCompare]
    split_ifs with heq hlt
    · rw [heq]
      simp
    · simp [hlt]
    · simp [hlt]
  refine ⟨fun {a b} _ _ => ?_, fun {a b} _ _ => ?_, fun {a b c} _ _ _ hab hbc => ?_⟩
  · rw [sampleCompare]
    split_ifs with heq hlt
    · exact iff_of_true rfl heq
    · exact iff_of_false (by decide) heq
    · exact iff_of_false (by decide) heq
  · rw [hneg, sampleCompare]
    split_ifs with heq hlt
    · rw [heq]
      simp
    · exact iff_of_false (lt_asymm hlt) (by decide)
    · -- two different texts are in one order or the other
      refine iff_of_true (lt_of_le_of_ne (not_lt.mp hlt) fun hsame => heq ?_) (by decide)
      exact (hinjective hsame).symm
  · rw [hneg] at hab hbc ⊢
    exact hab.trans hbc

/-- The labels of a request, in the order given. -/
def sampleLabels (entries : List (JsString × JsString))
    (nodup : (entries.map Prod.fst).Nodup := by decide)
    (named : ∀ name ∈ entries.map Prod.fst, isLabelName name = true := by decide) : MetricLabels :=
  ⟨⟨entries, nodup⟩, named⟩

/-- The labels of the calls. -/
def getLabels : MetricLabels := sampleLabels [(js "method", js "GET"), (js "status", js "200")]

/-- Two increments under labels in two orders, and one that is not counted; a histogram with two
boundaries, and three observations that count. -/
def sampleCalls : List (MetricsCall ExactNumber) :=
  [ .incrementCounter (js "http_requests_total")
      (sampleLabels [(js "status", js "200")]) (.finite 7),
    .defineHistogram (js "send_seconds") (js "Sends.")
      [.finite 1, .NaN, .finite (1 / 2), .finite 0],
    .resetMetrics,
    .incrementCounter (js "http_requests_total") getLabels (.finite 2),
    .incrementCounter (js "http_requests_total")
      (sampleLabels [(js "status", js "200"), (js "method", js "GET")]) (.finite (1 / 2)),
    .incrementCounter (js "http_requests_total") getLabels .NaN,
    .observeHistogram (js "send_seconds") (.finite (1 / 4)) getLabels,
    .observeHistogram (js "send_seconds") (.finite 1)
      (sampleLabels [(js "status", js "200"), (js "method", js "GET")]),
    .observeHistogram (js "send_seconds") (.finite 3) getLabels,
    .observeHistogram (js "send_seconds") (.finite (-1)) getLabels ]

/-- The increments make one series of the sum, and the observations one of their counts. -/
theorem metrics_exact_sample :
    (∃ series, (metricsAfter sampleCompare (loadedBefore sampleCalls)).counters.get
        (js "http_requests_total") = some series ∧
      ∀ item ∈ series.values, item.labels = getLabels → item.value = .finite (5 / 2)) ∧
    ∃ series definition,
      (metricsAfter sampleCompare (loadedBefore sampleCalls)).histograms.get
        (js "send_seconds") = some series ∧
      (metricsAfter sampleCompare (loadedBefore sampleCalls)).histogramHelp.get
        (js "send_seconds") = some definition ∧
      definition.buckets = [.finite (1 / 2), .finite 1] ∧
      (∃ item ∈ series.values, item.labels.Same getLabels) ∧
      ∀ item ∈ series.values, item.labels = getLabels → item.count = 3 ∧ item.buckets = [1, 2] := by
  obtain ⟨hdefined, hcounters, hhistograms⟩ :=
    metrics_exact localeOrder_sampleCompare (fun _ => []) sampleCalls
  constructor
  · obtain ⟨series, hseries⟩ := Option.isSome_iff_exists.mp
      ((hdefined (js "http_requests_total")).1.trans (by decide +kernel))
    refine ⟨series, hseries, fun item hitem hlabels => ?_⟩
    rw [(hcounters _ series hseries).1 item hitem, hlabels]
    decide +kernel
  · obtain ⟨-, hsome, hbuckets⟩ := hdefined (js "send_seconds")
    have hboundaries : boundaries (js "send_seconds") (loadedBefore sampleCalls) =
        some [.finite (1 / 2), .finite 1] := by decide +kernel
    rw [hboundaries] at hsome hbuckets
    obtain ⟨series, hseries⟩ := Option.isSome_iff_exists.mp hsome
    obtain ⟨definition, hdefinition, heq⟩ := Option.map_eq_some_iff.mp hbuckets
    obtain ⟨bs, hbs, -, -, hitems, hone⟩ := hhistograms _ series definition hseries hdefinition
    obtain rfl : bs = [1 / 2, 1] :=
      List.map_injective_iff.mpr (fun _ _ => ExactNumber.finite.inj) (hbs.symm.trans heq)
    refine ⟨series, definition, hseries, hdefinition, heq, (hone.1 _).mpr (by decide +kernel),
      fun item hitem hlabels => ?_⟩
    obtain ⟨hcount, -, hcounts, -⟩ := hitems item hitem
    rw [hcount, hcounts, hlabels]
    constructor
    · decide +kernel
    · decide +kernel

end MernChat
