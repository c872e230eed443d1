import Mathlib.Data.Nat.Digits.Defs
import MernChat.Observability.MetricsSeries
import MernChat.Observability.TextFormat
import MernChat.Runtime.IsoDate

/-!
# What the metrics are read as

The text of the metrics, read by the text format: exactly the recorded series, as long as no label
value holds a line feed, which is not escaped.

## Main definitions

* `recordedSamples`: the samples of the recorded series
* `MetricsCall.Legal`: definitions with a metric name and a plain help text
* `WrittenAs`: lines that are read as some samples

## Main results

* `exposition_faithful_iff`: the text is read as the recorded series exactly when no label value
  holds a line feed
* `exposition_not_faithful`: a text that is not read
-/

namespace MernChat

open Library

/-! ## What is recorded -/

section Recorded

variable {ν : Type} [JsNumber ν]

/-- The labels of every series. -/
def recordedLabels (s : Metrics ν) : List MetricLabels :=
  (s.counters.entries.flatMap fun e => e.2.values.map CounterItem.labels) ++
    s.histograms.entries.flatMap fun e => e.2.values.map HistogramItem.labels

def counterSample (name : JsString) (item : CounterItem ν) : Sample ν :=
  ⟨name, item.labels.map.entries, item.value⟩

variable (numberText : ν → JsString)

/-- The samples of a series of a histogram: its buckets, each under the label `le` of its boundary,
its sum and its count. -/
def histogramSamples (name : JsString) (definition : HistogramDefinition ν)
    (item : HistogramItem ν) : List (Sample ν) :=
  (renderedBuckets numberText definition item).map (fun b =>
    ⟨name ++ js "_bucket", item.labels.map.entries ++ [(js "le", b.1)], countNumber b.2⟩) ++
  [⟨name ++ js "_sum", item.labels.map.entries, item.sum⟩,
    ⟨name ++ js "_count", item.labels.map.entries, countNumber item.count⟩]

/-- The samples of the recorded series. -/
def recordedSamples (s : Metrics ν) : List (Sample ν) :=
  (s.counters.entries.flatMap fun e => e.2.values.map (counterSample e.1)) ++
    s.histograms.entries.flatMap fun e =>
      match s.histogramHelp.get e.1 with
      | some definition => e.2.values.flatMap (histogramSamples numberText e.1 definition)
      | none => []

end Recorded

/-! ## Legal states -/

/-- A help text of one line without a backslash. -/
def IsPlainHelp (help : JsString) : Prop := 0x5C ∉ help ∧ lineFeed ∉ help

instance (help : JsString) : Decidable (IsPlainHelp help) :=
  inferInstanceAs (Decidable (_ ∧ _))

/-- A definition has a metric name and a plain help text. -/
def MetricsCall.Legal {ν : Type} : MetricsCall ν → Prop
  | .defineCounter name help => isMetricName name = true ∧ IsPlainHelp help
  | .defineHistogram name help _ => isMetricName name = true ∧ IsPlainHelp help
  | _ => True

instance {ν : Type} (call : MetricsCall ν) : Decidable call.Legal := by
  cases call <;> (unfold MetricsCall.Legal; infer_instance)

/-- The metrics of a state are those that are defined, with legal names and help texts. -/
structure Metrics.Legal {ν : Type} (s : Metrics ν) : Prop where
  counters : s.counters.keys = s.counterHelp.keys
  histograms : s.histograms.keys = s.histogramHelp.keys
  counterHelp : ∀ e ∈ s.counterHelp.entries, isMetricName e.1 = true ∧ IsPlainHelp e.2
  histogramHelp : ∀ e ∈ s.histogramHelp.entries, isMetricName e.1 = true ∧ IsPlainHelp e.2.help

section Legal

variable {ν : Type} {s : Metrics ν}

theorem Metrics.legal_empty : (Metrics.empty : Metrics ν).Legal where
  counters := rfl
  histograms := rfl
  counterHelp := fun _ he => absurd he List.not_mem_nil
  histogramHelp := fun _ he => absurd he List.not_mem_nil

theorem Metrics.Legal.defineCounter (hs : s.Legal) {name help : JsString}
    (hname : isMetricName name = true) (hhelp : IsPlainHelp help) :
    (defineCounter s name help).Legal := by
  rw [MernChat.defineCounter]
  split_ifs with hdefined
  · exact hs
  · have hnone : s.counterHelp.get name = none := Option.not_isSome_iff_eq_none.mp hdefined
    have hnone' : s.counters.get name = none := by
      rw [InsertionMap.get_eq_none, hs.counters]
      exact InsertionMap.get_eq_none.mp hnone
    refine { hs with counters := ?_, counterHelp := fun e he => ?_ }
    · show (s.counters.set name .empty).keys = (s.counterHelp.set name help).keys
      rw [InsertionMap.keys_set_of_none hnone, InsertionMap.keys_set_of_none hnone', hs.counters]
    · rcases InsertionMap.mem_entries_set.mp he with rfl | ⟨he, -⟩
      · exact ⟨hname, hhelp⟩
      · exact hs.counterHelp e he

theorem Metrics.Legal.resetMetrics (hs : s.Legal) : (resetMetrics s).Legal where
  counters := (InsertionMap.keys_map _ _).trans hs.counters
  histograms := (InsertionMap.keys_map _ _).trans hs.histograms
  counterHelp := hs.counterHelp
  histogramHelp := hs.histogramHelp

variable [JsNumber ν]

theorem Metrics.Legal.defineHistogram [DecidableEq ν] (hs : s.Legal) {name help : JsString}
    (hname : isMetricName name = true) (hhelp : IsPlainHelp help) {buckets : List ν}
    {s' : Metrics ν} (h : MernChat.defineHistogram s name help buckets = .ok s') : s'.Legal := by
  rw [MernChat.defineHistogram] at h
  split_ifs at h with hdefined hempty
  · cases h
    exact hs
  · cases h
    have hnone : s.histogramHelp.get name = none := Option.not_isSome_iff_eq_none.mp hdefined
    have hnone' : s.histograms.get name = none := by
      rw [InsertionMap.get_eq_none, hs.histograms]
      exact InsertionMap.get_eq_none.mp hnone
    refine { hs with histograms := ?_, histogramHelp := fun e he => ?_ }
    · show (s.histograms.set name .empty).keys = (s.histogramHelp.set name _).keys
      rw [InsertionMap.keys_set_of_none hnone, InsertionMap.keys_set_of_none hnone',
        hs.histograms]
    · rcases InsertionMap.mem_entries_set.mp he with rfl | ⟨he, -⟩
      · exact ⟨hname, hhelp⟩
      · exact hs.histogramHelp e he

variable (localeCompare : JsString → JsString → Int)

theorem Metrics.Legal.incrementCounter (hs : s.Legal) (name : JsString) (labels : MetricLabels)
    (amount : ν) : (incrementCounter localeCompare s name labels amount).Legal := by
  rw [MernChat.incrementCounter]
  split
  · exact hs
  · rename_i series hseries
    split_ifs
    · exact hs
    · refine { hs with counters := ?_ }
      have hsome : (s.counters.get name).isSome = true := by rw [hseries]; rfl
      exact (InsertionMap.keys_set_of_isSome hsome _).trans hs.counters

theorem Metrics.Legal.observeHistogram (hs : s.Legal) (name : JsString) (value : ν)
    (labels : MetricLabels) : (observeHistogram localeCompare s name value labels).Legal := by
  rw [MernChat.observeHistogram]
  split
  · rename_i definition series hdefinition hseries
    split_ifs
    · exact hs
    · refine { hs with histograms := ?_ }
      have hsome : (s.histograms.get name).isSome = true := by rw [hseries]; rfl
      exact (InsertionMap.keys_set_of_isSome hsome _).trans hs.histograms
  · exact hs

variable [DecidableEq ν]

/-- One call keeps a state legal. -/
theorem Metrics.Legal.exec (hs : s.Legal) {call : MetricsCall ν} (hcall : call.Legal) :
    (call.exec localeCompare s).Legal := by
  cases call with
  | defineCounter name help => exact hs.defineCounter hcall.1 hcall.2
  | defineHistogram name help buckets =>
    rw [MetricsCall.exec]
    split
    · rename_i s' h
      exact hs.defineHistogram hcall.1 hcall.2 h
    · exact hs
  | incrementCounter name labels amount =>
    exact hs.incrementCounter localeCompare name labels amount
  | observeHistogram name value labels => exact hs.observeHistogram localeCompare name value labels
  | resetMetrics => exact hs.resetMetrics

theorem legal_metricsAfter {calls : List (MetricsCall ν)} (h : ∀ call ∈ calls, call.Legal) :
    (metricsAfter localeCompare calls).Legal := by
  induction calls with
  | nil => exact Metrics.legal_empty
  | cons call calls ih =>
    obtain ⟨hcall, hcalls⟩ := List.forall_mem_cons.mp h
    exact (ih hcalls).exec localeCompare hcall

omit [DecidableEq ν] in
/-- The definitions of the module are legal. -/
theorem legal_moduleDefinitions : ∀ call ∈ (moduleDefinitions : List (MetricsCall ν)),
    call.Legal := by
  simp only [moduleDefinitions, List.forall_mem_cons, MetricsCall.Legal, List.not_mem_nil,
    IsEmpty.forall_iff, implies_true, and_true]
  decide +kernel

omit [DecidableEq ν] in
theorem legal_loadedBefore {calls : List (MetricsCall ν)} (h : ∀ call ∈ calls, call.Legal) :
    ∀ call ∈ loadedBefore calls, call.Legal := by
  intro call hcall
  rw [loadedBefore, List.mem_append, List.mem_reverse, List.mem_reverse] at hcall
  exact hcall.elim (h call) (legal_moduleDefinitions call)

end Legal

/-! ## What is written -/

section Written

variable {ν : Type} (readNumber : JsString → Option ν)

/-- Lines none of which is broken, read as samples. -/
structure WrittenAs (lines : List JsString) (samples : List (Sample ν)) : Prop where
  unbroken : ∀ line ∈ lines, lineFeed ∉ line
  read : ∃ read, readLines readNumber lines = some read ∧ List.Forall₂ Sample.Same read samples

variable {readNumber}

theorem WrittenAs.nil : WrittenAs readNumber [] [] :=
  ⟨fun _ h => absurd h List.not_mem_nil, [], rfl, .nil⟩

theorem WrittenAs.append {lines lines' : List JsString} {samples samples' : List (Sample ν)}
    (h : WrittenAs readNumber lines samples) (h' : WrittenAs readNumber lines' samples') :
    WrittenAs readNumber (lines ++ lines') (samples ++ samples') := by
  obtain ⟨read, hread, hsame⟩ := h.read
  obtain ⟨read', hread', hsame'⟩ := h'.read
  refine ⟨fun line hline => ?_, read ++ read', ?_, List.rel_append hsame hsame'⟩
  · exact (List.mem_append.mp hline).elim (h.unbroken line) (h'.unbroken line)
  · rw [readLines_append, hread, hread']
    rfl

/-- Written for each element of a list, one after the other. -/
theorem WrittenAs.flatMap {α : Type} {l : List α} {lines : α → List JsString}
    {samples : α → List (Sample ν)} (h : ∀ a ∈ l, WrittenAs readNumber (lines a) (samples a)) :
    WrittenAs readNumber (l.flatMap lines) (l.flatMap samples) := by
  induction l with
  | nil => exact .nil
  | cons a l ih =>
    obtain ⟨ha, hl⟩ := List.forall_mem_cons.mp h
    rw [List.flatMap_cons, List.flatMap_cons]
    exact ha.append (ih hl)

theorem WrittenAs.map {α : Type} {l : List α} {line : α → JsString} {sample : α → Sample ν}
    (h : ∀ a ∈ l, WrittenAs readNumber [line a] [sample a]) :
    WrittenAs readNumber (l.map line) (l.map sample) := by
  rw [List.map_eq_flatMap, List.map_eq_flatMap]
  exact .flatMap h

/-- Lines that are comments. -/
theorem WrittenAs.comment {line : JsString} (hline : lineFeed ∉ line)
    (h : readLine readNumber line = some none) : WrittenAs readNumber [line] [] := by
  refine ⟨fun _ hmem => ?_, [], ?_, .nil⟩
  · rwa [List.mem_singleton.mp hmem]
  · rw [readLines, h]
    rfl

/-- **A text whose lines are not broken is read as what they say.** -/
theorem WrittenAs.readExposition {lines : List JsString} {samples : List (Sample ν)}
    (h : WrittenAs readNumber lines samples) : ∃ read,
      readExposition readNumber (joinWith (js "\n") lines ++ js "\n") = some read ∧
        List.Forall₂ Sample.Same read samples := by
  have hsplit : lines.flatMap (·.splitOn lineFeed) = lines := by
    have hsingle : lines.flatMap (·.splitOn lineFeed) = lines.flatMap fun line => [line] :=
      List.flatMap_congr fun line hline => List.splitOn_eq_singleton (h.unbroken line hline)
    rw [hsingle, List.flatMap_singleton']
  rw [readExposition_joinWith, hsplit]
  exact h.read

variable {numberText : ν → JsString} {localeCompare : JsString → JsString → Int} {name : JsString}

theorem perm_sortedEntries (labels : InsertionMap JsString JsString) :
    (sortedEntries localeCompare labels).Perm labels.entries := InsertionMap.perm_sortEntries labels

theorem writtenAs_renderSample (h : NumberTexts numberText readNumber)
    (hname : isMetricName name = true) {labels : InsertionMap JsString JsString}
    {entries : List (JsString × JsString)} (hentries : labels.entries = entries)
    (hnamed : ∀ e ∈ entries, isLabelName e.1 = true) (hvalues : ∀ e ∈ entries, lineFeed ∉ e.2)
    (x : ν) : WrittenAs readNumber [renderSample localeCompare numberText name labels x]
      [⟨name, entries, x⟩] := by
  subst hentries
  have hkeys : ∀ key ∈ labels.keys, isLabelName key = true := by
    intro key hkey
    obtain ⟨e, he, rfl⟩ := List.mem_map.mp hkey
    exact hnamed e he
  refine ⟨fun _ hmem => ?_, [⟨name, sortedEntries localeCompare labels, x⟩], ?_, ?_⟩
  · rw [List.mem_singleton.mp hmem]
    exact lineFeed_not_mem_renderSample h hname hkeys hvalues x
  · rw [readLines, readLine_renderSample h hname hkeys]
    rfl
  · exact .cons ⟨rfl, perm_sortedEntries labels, rfl⟩ .nil

theorem writtenAs_help (hname : isMetricName name = true) {help : JsString}
    (h : IsPlainHelp help) :
    WrittenAs readNumber [js "# HELP " ++ name ++ js " " ++ help] [] := by
  refine .comment ?_ (readLine_help hname h.1)
  rw [List.mem_append, List.mem_append, List.mem_append, not_or, not_or, not_or]
  exact ⟨⟨⟨by decide, lineFeed_not_mem_metricName hname⟩, by decide⟩, h.2⟩

/-- The types of the format are words. -/
theorem metricTypes_words : ∀ type ∈ metricTypes,
    (∀ c ∈ type, isBlank c = false) ∧ type ≠ [] ∧ lineFeed ∉ type := by
  decide +kernel

theorem writtenAs_type (hname : isMetricName name = true) {type : JsString}
    (h : type ∈ metricTypes) :
    WrittenAs readNumber [js "# TYPE " ++ name ++ js " " ++ type] [] := by
  obtain ⟨hunits, hne, hline⟩ := metricTypes_words type h
  refine .comment ?_ (readLine_type hname (List.contains_iff_mem.mpr h) hunits hne)
  rw [List.mem_append, List.mem_append, List.mem_append, not_or, not_or, not_or]
  exact ⟨⟨⟨by decide, lineFeed_not_mem_metricName hname⟩, by decide⟩, hline⟩

end Written

/-! ## The text of a state -/

section State

variable {ν : Type} {numberText : ν → JsString} {readNumber : JsString → Option ν}
  {localeCompare : JsString → JsString → Int} {name : JsString} {s : Metrics ν}

/-- The labels of a bucket are those of its series, and then `le`. -/
theorem entries_set_le {labels : MetricLabels} (h : js "le" ∉ labels.map.keys) (text : JsString) :
    (labels.map.set (js "le") text).entries = labels.map.entries ++ [(js "le", text)] :=
  InsertionMap.entries_set_of_none (InsertionMap.get_eq_none.mpr h) text

theorem isLabelName_of_mem_entries (labels : MetricLabels) :
    ∀ e ∈ labels.map.entries, isLabelName e.1 = true := fun e he =>
  labels.named e.1 (List.mem_map_of_mem he)

/-- Labels none of which is broken, nor called `le`. -/
structure PlainLabels (labels : MetricLabels) : Prop where
  le : js "le" ∉ labels.map.keys
  values : ∀ e ∈ labels.map.entries, lineFeed ∉ e.2

theorem writtenAs_plain (h : NumberTexts numberText readNumber) (hname : isMetricName name = true)
    {labels : MetricLabels} (hlabels : PlainLabels labels) (x : ν) :
    WrittenAs readNumber [renderSample localeCompare numberText name labels.map x]
      [⟨name, labels.map.entries, x⟩] :=
  writtenAs_renderSample h hname rfl (isLabelName_of_mem_entries labels) hlabels.values x

theorem isMetricName_append {suffix : JsString} (hname : isMetricName name = true)
    (hsuffix : suffix.all metricUnit = true) : isMetricName (name ++ suffix) = true := by
  cases name with
  | nil => exact absurd hname Bool.false_ne_true
  | cons c s =>
    rw [isMetricName, Bool.and_eq_true] at hname
    rw [List.cons_append, isMetricName, List.all_append, hname.1, hname.2, hsuffix]
    rfl

/-- A bucket is written under the label of its boundary. -/
theorem writtenAs_bucket (h : NumberTexts numberText readNumber) (hname : isMetricName name = true)
    {labels : MetricLabels} (hlabels : PlainLabels labels) {text : JsString}
    (htext : lineFeed ∉ text) (x : ν) :
    WrittenAs readNumber
      [renderSample localeCompare numberText (name ++ js "_bucket")
        (labels.map.set (js "le") text) x]
      [⟨name ++ js "_bucket", labels.map.entries ++ [(js "le", text)], x⟩] := by
  refine writtenAs_renderSample h (isMetricName_append hname (by decide))
    (entries_set_le hlabels.le text) (fun e he => ?_) (fun e he => ?_) x
  · rcases List.mem_append.mp he with he | he
    · exact isLabelName_of_mem_entries labels e he
    · rw [List.mem_singleton.mp he]
      exact (by decide : isLabelName (js "le") = true)
  · rcases List.mem_append.mp he with he | he
    · exact hlabels.values e he
    · rw [List.mem_singleton.mp he]
      exact htext

theorem mem_recordedLabels_counter {series : InsertionMap JsString (CounterItem ν)}
    (hseries : s.counters.get name = some series) {item : CounterItem ν}
    (hitem : item ∈ series.values) : item.labels ∈ recordedLabels s :=
  List.mem_append_left _ (List.mem_flatMap.mpr
    ⟨_, InsertionMap.get_eq_some.mp hseries, List.mem_map_of_mem hitem⟩)

theorem mem_recordedLabels_histogram {series : InsertionMap JsString (HistogramItem ν)}
    (hseries : s.histograms.get name = some series) {item : HistogramItem ν}
    (hitem : item ∈ series.values) : item.labels ∈ recordedLabels s :=
  List.mem_append_right _ (List.mem_flatMap.mpr
    ⟨_, InsertionMap.get_eq_some.mp hseries, List.mem_map_of_mem hitem⟩)

theorem lineFeed_not_mem_renderedBuckets (h : NumberTexts numberText readNumber)
    {definition : HistogramDefinition ν} {item : HistogramItem ν} :
    ∀ b ∈ renderedBuckets numberText definition item, lineFeed ∉ b.1 := by
  intro b hb
  rcases List.mem_append.mp hb with hb | hb
  · obtain ⟨c, -, rfl⟩ := List.mem_map.mp hb
    exact lineFeed_not_mem_of_units (fun _ => toNat_of_numberUnit) (h.units c.1)
  · rw [List.mem_singleton.mp hb]
    exact (by decide : lineFeed ∉ js "+Inf")

/-- The samples of a counter. -/
def counterSamples (name : JsString) (series : Option (InsertionMap JsString (CounterItem ν))) :
    List (Sample ν) :=
  ((series.map InsertionMap.values).getD []).map (counterSample name)

theorem writtenAs_renderCounter (h : NumberTexts numberText readNumber)
    (hplain : ∀ labels ∈ recordedLabels s, PlainLabels labels) {help : JsString}
    (hlegal : isMetricName name = true ∧ IsPlainHelp help) :
    WrittenAs readNumber (renderCounter localeCompare numberText s name help)
      (counterSamples name (s.counters.get name)) := by
  have hhelp : WrittenAs readNumber _ _ := writtenAs_help hlegal.1 hlegal.2
  have htype : WrittenAs readNumber [js "# TYPE " ++ name ++ js " " ++ js "counter"] [] :=
    writtenAs_type hlegal.1 (by decide)
  have htype' : js "# TYPE " ++ name ++ js " counter" =
      js "# TYPE " ++ name ++ js " " ++ js "counter" := by
    rw [List.append_assoc _ (js " ")]
    rfl
  refine (hhelp.append (htype' ▸ htype)).append ?_
  refine .map fun item hitem => ?_
  cases hseries : s.counters.get name with
  | none =>
    rw [hseries] at hitem
    exact absurd hitem List.not_mem_nil
  | some series =>
    rw [hseries] at hitem
    exact writtenAs_plain h hlegal.1 (hplain _ (mem_recordedLabels_counter hseries hitem)) _

theorem mem_renderCounter {series : InsertionMap JsString (CounterItem ν)}
    (hseries : s.counters.get name = some series) {item : CounterItem ν}
    (hitem : item ∈ series.values) (help : JsString) :
    renderSample localeCompare numberText name item.labels.map item.value ∈
      renderCounter localeCompare numberText s name help := by
  rw [renderCounter, hseries]
  exact List.mem_append_right _ (List.mem_map.mpr ⟨item, hitem, rfl⟩)

variable [JsNumber ν]

theorem writtenAs_renderHistogramItem (h : NumberTexts numberText readNumber)
    (hname : isMetricName name = true) (definition : HistogramDefinition ν)
    {item : HistogramItem ν} (hlabels : PlainLabels item.labels) :
    WrittenAs readNumber (renderHistogramItem localeCompare numberText name definition item)
      (histogramSamples numberText name definition item) := by
  have hbuckets : WrittenAs readNumber ((renderedBuckets numberText definition item).map fun b =>
      renderSample localeCompare numberText (name ++ js "_bucket")
        (item.labels.map.set (js "le") b.1) (countNumber b.2))
      ((renderedBuckets numberText definition item).map fun b =>
        ⟨name ++ js "_bucket", item.labels.map.entries ++ [(js "le", b.1)], countNumber b.2⟩) :=
    .map fun b hb =>
      writtenAs_bucket h hname hlabels (lineFeed_not_mem_renderedBuckets h b hb) _
  have hsum : WrittenAs readNumber
      [renderSample localeCompare numberText (name ++ js "_sum") item.labels.map item.sum] _ :=
    writtenAs_plain h (isMetricName_append hname (by decide)) hlabels item.sum
  have hcount : WrittenAs readNumber [renderSample localeCompare numberText (name ++ js "_count")
      item.labels.map (countNumber item.count)] _ :=
    writtenAs_plain h (isMetricName_append hname (by decide)) hlabels (countNumber item.count)
  exact hbuckets.append (hsum.append hcount)

/-- The samples of a histogram. -/
def seriesSamples (numberText : ν → JsString) (name : JsString)
    (definition : Option (HistogramDefinition ν))
    (series : Option (InsertionMap JsString (HistogramItem ν))) : List (Sample ν) :=
  match definition with
  | some definition =>
    ((series.map InsertionMap.values).getD []).flatMap (histogramSamples numberText name definition)
  | none => []

theorem writtenAs_renderHistogram (h : NumberTexts numberText readNumber)
    (hplain : ∀ labels ∈ recordedLabels s, PlainLabels labels)
    {definition : HistogramDefinition ν}
    (hlegal : isMetricName name = true ∧ IsPlainHelp definition.help) :
    WrittenAs readNumber (renderHistogram localeCompare numberText s name definition)
      (seriesSamples numberText name (some definition) (s.histograms.get name)) := by
  have hhelp : WrittenAs readNumber _ _ := writtenAs_help hlegal.1 hlegal.2
  have htype : WrittenAs readNumber [js "# TYPE " ++ name ++ js " " ++ js "histogram"] [] :=
    writtenAs_type hlegal.1 (by decide)
  have htype' : js "# TYPE " ++ name ++ js " histogram" =
      js "# TYPE " ++ name ++ js " " ++ js "histogram" := by
    rw [List.append_assoc _ (js " ")]
    rfl
  refine (hhelp.append (htype' ▸ htype)).append ?_
  refine .flatMap fun item hitem => ?_
  cases hseries : s.histograms.get name with
  | none =>
    rw [hseries] at hitem
    exact absurd hitem List.not_mem_nil
  | some series =>
    rw [hseries] at hitem
    exact writtenAs_renderHistogramItem h hlegal.1 definition
      (hplain _ (mem_recordedLabels_histogram hseries hitem))

/-- The samples of the recorded series, in the order of the definitions. -/
theorem recordedSamples_eq (hs : s.Legal) : recordedSamples numberText s =
    (s.counterHelp.entries.flatMap fun e => counterSamples e.1 (s.counters.get e.1)) ++
      s.histogramHelp.entries.flatMap fun e =>
        seriesSamples numberText e.1 (some e.2) (s.histograms.get e.1) := by
  have hcounters := s.counters.flatMap_entries fun name series => counterSamples name series
  have hhelp := s.counterHelp.flatMap_entries fun name _ =>
    counterSamples name (s.counters.get name)
  have hhistograms := s.histograms.flatMap_entries fun name series =>
    seriesSamples numberText name (s.histogramHelp.get name) series
  have hhistogramHelp := s.histogramHelp.flatMap_entries fun name definition =>
    seriesSamples numberText name definition (s.histograms.get name)
  rw [hhelp, hhistogramHelp, ← hs.counters, ← hs.histograms, ← hcounters, ← hhistograms]
  rfl

/-- **Plain labels are read back.** -/
theorem readExposition_renderMetrics (h : NumberTexts numberText readNumber) (hs : s.Legal)
    (hplain : ∀ labels ∈ recordedLabels s, PlainLabels labels) :
    ∃ read, readExposition readNumber (renderMetrics localeCompare numberText s) = some read ∧
      List.Forall₂ Sample.Same read (recordedSamples numberText s) := by
  rw [recordedSamples_eq hs]
  refine WrittenAs.readExposition (.append ?_ ?_)
  · exact .flatMap fun e he => writtenAs_renderCounter h hplain (hs.counterHelp e he)
  · exact .flatMap fun e he => writtenAs_renderHistogram h hplain (hs.histogramHelp e he)

/-! ## Broken lines -/

theorem mem_renderHistogram {series : InsertionMap JsString (HistogramItem ν)}
    (hseries : s.histograms.get name = some series) {item : HistogramItem ν}
    (hitem : item ∈ series.values) (definition : HistogramDefinition ν) :
    renderSample localeCompare numberText (name ++ js "_sum") item.labels.map item.sum ∈
      renderHistogram localeCompare numberText s name definition := by
  rw [renderHistogram, hseries]
  refine List.mem_append_right _ (List.mem_flatMap.mpr ⟨item, hitem, ?_⟩)
  exact List.mem_append_right _ List.mem_cons_self

/-- A text with a broken label is not read. -/
theorem readExposition_broken (hs : s.Legal) {labels : MetricLabels}
    (hlabels : labels ∈ recordedLabels s) (hbroken : ∃ e ∈ labels.map.entries, lineFeed ∈ e.2) :
    readExposition readNumber (renderMetrics localeCompare numberText s) = none := by
  -- one line of the text is a sample with these labels
  obtain ⟨name, x, hname, hline⟩ : ∃ name x, isMetricName name = true ∧
      renderSample localeCompare numberText name labels.map x ∈
        (s.counterHelp.entries.flatMap fun e =>
          renderCounter localeCompare numberText s e.1 e.2) ++
        s.histogramHelp.entries.flatMap fun e =>
          renderHistogram localeCompare numberText s e.1 e.2 := by
    rcases List.mem_append.mp hlabels with hlabels | hlabels
    · obtain ⟨⟨name, series⟩, hentry, hlabels⟩ := List.mem_flatMap.mp hlabels
      obtain ⟨item, hitem, rfl⟩ := List.mem_map.mp hlabels
      obtain ⟨help, hhelp⟩ := InsertionMap.exists_mem_entries hs.counters hentry
      refine ⟨name, item.value, (hs.counterHelp _ hhelp).1, List.mem_append_left _ ?_⟩
      exact List.mem_flatMap.mpr ⟨_, hhelp,
        mem_renderCounter (InsertionMap.get_eq_some.mpr hentry) hitem help⟩
    · obtain ⟨⟨name, series⟩, hentry, hlabels⟩ := List.mem_flatMap.mp hlabels
      obtain ⟨item, hitem, rfl⟩ := List.mem_map.mp hlabels
      obtain ⟨definition, hdefinition⟩ :=
        InsertionMap.exists_mem_entries hs.histograms hentry
      refine ⟨name ++ js "_sum", item.sum,
        isMetricName_append (hs.histogramHelp _ hdefinition).1 (by decide),
        List.mem_append_right _ ?_⟩
      exact List.mem_flatMap.mpr ⟨_, hdefinition,
        mem_renderHistogram (InsertionMap.get_eq_some.mpr hentry) hitem definition⟩
  rw [renderMetrics, readExposition_joinWith]
  refine readLines_of_mem (List.mem_flatMap.mpr ⟨_, hline, firstLine_mem_splitOn _⟩) ?_
  exact readLine_firstLine hname labels.named hbroken x

/-- **The text is read as the recorded series exactly when no label value holds a line feed.** -/
theorem exposition_faithful_iff [DecidableEq ν] (h : NumberTexts numberText readNumber)
    (calls : List (MetricsCall ν)) (hcalls : ∀ call ∈ calls, call.Legal)
    (hle : ∀ labels ∈ recordedLabels (metricsAfter localeCompare (loadedBefore calls)),
      js "le" ∉ labels.map.keys) :
    (∃ read, readExposition readNumber (renderMetrics localeCompare numberText
        (metricsAfter localeCompare (loadedBefore calls))) = some read ∧
      List.Forall₂ Sample.Same read
        (recordedSamples numberText (metricsAfter localeCompare (loadedBefore calls)))) ↔
    ∀ labels ∈ recordedLabels (metricsAfter localeCompare (loadedBefore calls)),
      ∀ e ∈ labels.map.entries, lineFeed ∉ e.2 := by
  have hs := legal_metricsAfter localeCompare (legal_loadedBefore hcalls)
  constructor
  · rintro ⟨read, hread, -⟩ labels hlabels e he hmem
    rw [readExposition_broken hs hlabels ⟨e, he, hmem⟩] at hread
    cases hread
  · intro hvalues
    exact readExposition_renderMetrics h hs fun labels hlabels =>
      ⟨hle labels hlabels, hvalues labels hlabels⟩

end State

/-! ## Numbers of three decimals -/

/-- A number by its thousandths. -/
structure Thousandths where
  count : Nat
deriving DecidableEq

namespace Thousandths

instance : JsNumber Thousandths where
  literal q := ⟨(q * 1000).floor.toNat⟩
  isFinite _ := true
  add a b := ⟨a.count + b.count⟩
  lt a b := a.count < b.count
  le a b := a.count ≤ b.count

/-- The digits of a whole number. -/
def whole (n : Nat) : JsString :=
  if n = 0 then [0x30] else ((Nat.digits 10 n).reverse).map fun d => UInt16.ofNat (48 + d)

/-- A point and up to three digits, without zeros at the end. -/
def fraction (n : Nat) : JsString :=
  if n = 0 then []
  else if n % 100 = 0 then 0x2E :: decimal 1 (n / 100)
  else if n % 10 = 0 then 0x2E :: decimal 2 (n / 10)
  else 0x2E :: decimal 3 n

/-- `String(x)`. -/
def text (x : Thousandths) : JsString := whole (x.count / 1000) ++ fraction (x.count % 1000)

def read (s : JsString) : Option Thousandths :=
  let n := readDecimal (s.takeWhile isDigit)
  match s.dropWhile isDigit with
  | [] => some ⟨1000 * n⟩
  | c :: digits =>
    if c = 0x2E then some ⟨1000 * n + readDecimal digits * 10 ^ (3 - digits.length)⟩ else none

end Thousandths

theorem isDigit_ofNat {d : Nat} (h : d < 10) : isDigit (UInt16.ofNat (48 + d)) = true := by
  have hvalue : (UInt16.ofNat (48 + d)).toNat = 48 + d := by
    rw [UInt16.toNat_ofNat', Nat.mod_eq_of_lt (by omega)]
  rw [isDigit, hvalue, Bool.and_eq_true, decide_eq_true_eq, decide_eq_true_eq]
  omega

theorem isDigit_of_mem_decimal (w n : Nat) : ∀ c ∈ decimal w n, isDigit c = true := by
  induction w generalizing n with
  | zero => exact fun c hc => absurd hc List.not_mem_nil
  | succ w ih =>
    intro c hc
    rcases List.mem_append.mp hc with hc | hc
    · exact ih _ c hc
    · rw [List.mem_singleton.mp hc]
      exact isDigit_ofNat (Nat.mod_lt n (by decide))

theorem isDigit_of_mem_whole (n : Nat) : ∀ c ∈ Thousandths.whole n, isDigit c = true := by
  intro c hc
  rw [Thousandths.whole] at hc
  split_ifs at hc with hzero
  · rw [List.mem_singleton.mp hc]
    rfl
  · obtain ⟨d, hd, rfl⟩ := List.mem_map.mp hc
    exact isDigit_ofNat (Nat.digits_lt_base (by decide) (List.mem_reverse.mp hd))

theorem readDecimal_whole (n : Nat) : readDecimal (Thousandths.whole n) = n := by
  rw [Thousandths.whole]
  split_ifs with hzero
  · rw [hzero]
    rfl
  · have hdigits : ∀ ds : List Nat, (∀ d ∈ ds, d < 10) →
        readDecimal (ds.reverse.map fun d => UInt16.ofNat (48 + d)) = Nat.ofDigits 10 ds := by
      intro ds hds
      induction ds with
      | nil => rfl
      | cons d ds ih =>
        obtain ⟨hd, hds⟩ := List.forall_mem_cons.mp hds
        have hvalue : (UInt16.ofNat (48 + d)).toNat = 48 + d := by
          rw [UInt16.toNat_ofNat', Nat.mod_eq_of_lt (by omega)]
        have ih' := ih hds
        rw [readDecimal] at ih'
        rw [List.reverse_cons, List.map_append, readDecimal, List.foldl_append, ih',
          List.map_singleton, List.foldl_cons, List.foldl_nil, hvalue, Nat.ofDigits_cons]
        omega
    rw [hdigits _ fun d hd => Nat.digits_lt_base (by decide) hd, Nat.ofDigits_digits]

/-- The text of a fraction is nothing, or a point and digits. -/
theorem fraction_eq {n : Nat} (h : n < 1000) :
    (n = 0 ∧ Thousandths.fraction n = []) ∨ ∃ digits, Thousandths.fraction n = 0x2E :: digits ∧
      (∀ c ∈ digits, isDigit c = true) ∧ readDecimal digits * 10 ^ (3 - digits.length) = n := by
  rw [Thousandths.fraction]
  split_ifs with hzero hhundreds htens
  · exact Or.inl ⟨hzero, rfl⟩
  · refine Or.inr ⟨_, rfl, isDigit_of_mem_decimal _ _, ?_⟩
    rw [readDecimal_decimal (by omega), length_decimal]
    omega
  · refine Or.inr ⟨_, rfl, isDigit_of_mem_decimal _ _, ?_⟩
    rw [readDecimal_decimal (by omega), length_decimal]
    omega
  · refine Or.inr ⟨_, rfl, isDigit_of_mem_decimal _ _, ?_⟩
    rw [readDecimal_decimal (by omega), length_decimal]
    omega

theorem numberTexts_thousandths : NumberTexts Thousandths.text Thousandths.read where
  units := by
    intro x c hc
    have hdigit : ∀ c, isDigit c = true → numberUnit c = true := by
      intro c hc
      rw [numberUnit, hc, Bool.or_true, Bool.true_or, Bool.true_or, Bool.true_or]
    rcases List.mem_append.mp hc with hc | hc
    · exact hdigit c (isDigit_of_mem_whole _ c hc)
    · rcases fraction_eq (Nat.mod_lt x.count (by decide : 1000 > 0)) with
        ⟨-, hnil⟩ | ⟨digits, hdigits, hall, -⟩
      · rw [hnil] at hc
        exact absurd hc List.not_mem_nil
      · rw [hdigits] at hc
        rcases List.mem_cons.mp hc with rfl | hc
        · rfl
        · exact hdigit c (hall c hc)
  read := by
    rintro ⟨n⟩
    have hwhole := isDigit_of_mem_whole (n / 1000)
    rw [Thousandths.read, Thousandths.text, List.takeWhile_append_of_pos hwhole,
      List.dropWhile_append_of_pos hwhole]
    rcases fraction_eq (Nat.mod_lt n (by decide : 1000 > 0)) with
      ⟨hzero, hnil⟩ | ⟨digits, hdigits, -, hvalue⟩
    · rw [hnil]
      simp only [List.takeWhile_nil, List.dropWhile_nil, List.append_nil, readDecimal_whole,
        Option.some.injEq, Thousandths.mk.injEq]
      omega
    · have hpoint : isDigit 0x2E = false := rfl
      rw [hdigits]
      simp only [List.takeWhile_cons, List.dropWhile_cons, hpoint, Bool.false_eq_true, if_false,
        List.append_nil, readDecimal_whole, if_true, Option.some.injEq, Thousandths.mk.injEq]
      omega

/-- Series with quotes and backslashes in their labels. -/
def sampleWrites : List (MetricsCall Thousandths) :=
  [ .incrementCounter (js "http_requests_total")
      (sampleLabels [(js "route", js "a\"b\\nc"), (js "method", js "GET")]) ⟨2500⟩,
    .observeHistogram (js "http_request_duration_seconds") ⟨20⟩
      (sampleLabels [(js "method", js "GET")]) ]

theorem exposition_faithful_sample :
    ∃ read, readExposition Thousandths.read (renderMetrics sampleCompare Thousandths.text
        (metricsAfter sampleCompare (loadedBefore sampleWrites))) = some read ∧
      List.Forall₂ Sample.Same read (recordedSamples Thousandths.text
        (metricsAfter sampleCompare (loadedBefore sampleWrites))) :=
  (exposition_faithful_iff numberTexts_thousandths sampleWrites (by decide)
    (by decide +kernel)).mpr (by decide +kernel)

/-- A label of two lines. -/
def sampleBroken : List (MetricsCall Thousandths) :=
  [ .incrementCounter (js "http_requests_total") (sampleLabels [(js "route", js "a\nb")]) ⟨1000⟩ ]

/-- **A text that is not read.** -/
theorem exposition_not_faithful :
    (∀ call ∈ sampleBroken, call.Legal) ∧
    (∀ labels ∈ recordedLabels (metricsAfter sampleCompare (loadedBefore sampleBroken)),
      js "le" ∉ labels.map.keys) ∧
    ¬∃ read, readExposition Thousandths.read (renderMetrics sampleCompare Thousandths.text
        (metricsAfter sampleCompare (loadedBefore sampleBroken))) = some read ∧
      List.Forall₂ Sample.Same read (recordedSamples Thousandths.text
        (metricsAfter sampleCompare (loadedBefore sampleBroken))) := by
  refine ⟨by decide, by decide +kernel, ?_⟩
  rintro ⟨read, hread, -⟩
  have hlegal : (metricsAfter sampleCompare (loadedBefore sampleBroken)).Legal :=
    legal_metricsAfter sampleCompare (legal_loadedBefore (by decide))
  have hbroken : ∃ labels ∈ recordedLabels (metricsAfter sampleCompare (loadedBefore sampleBroken)),
      ∃ e ∈ labels.map.entries, lineFeed ∈ e.2 := by
    decide +kernel
  obtain ⟨labels, hlabels, hvalue⟩ := hbroken
  rw [readExposition_broken hlegal hlabels hvalue] at hread
  cases hread

end MernChat
