import Paymaster.Lib.Assoc
import Paymaster.Lib.PlainText

/-!
# The metrics registry

Counters, gauges and histograms, each a map from label sets to values in the
order in which the label sets came, and the text that the registry renders. The
numbers are those of the language: what it prints, reads and adds.
-/

namespace Paymaster.Metrics

open PlainText

abbrev Text := List Char

/-- The label set of a series; the values as `String` writes them. -/
abbrev Labels := List (Text × Text)

/-- Numbers as far as they are counted with, compared, printed and read. -/
structure Numbers where
  Value : Type
  ofNat : Nat → Value
  add : Value → Value → Value
  le : Value → Value → Bool
  /-- `===`. -/
  same : Value → Value → Bool
  infinity : Value
  minusInfinity : Value
  nan : Value
  /-- `String(value)`. -/
  text : Value → Text
  /-- `Number(text)`; `none` if that is not a number. -/
  number : Text → Option Value
  add_ofNat : ∀ m n, m + n ≤ 2 ^ 53 → add (ofNat m) (ofNat n) = ofNat (m + n)
  same_ofNat : ∀ m n, m ≤ 2 ^ 53 → n ≤ 2 ^ 53 → same (ofNat m) (ofNat n) = decide (m = n)
  text_visible : ∀ v, text v ≠ [] ∧ ∀ c ∈ text v, isSpace c = false ∧ c ≠ '}'
  text_signed : ∀ v, text v ≠ "+Inf".toList ∧ text v ≠ "-Inf".toList
  text_nan : ∀ v, text v = "NaN".toList ↔ v = nan
  number_text : ∀ v, v ≠ nan → number (text v) = some v

/-! ## Rendering -/

def replaceAll (c : Char) (replacement text : Text) : Text := text.flatMap fun x => if x = c then replacement else [x]

def escape (value : Text) : Text :=
  replaceAll '\n' "\\n".toList (replaceAll '"' "\\\"".toList (replaceAll '\\' "\\\\".toList value))

def renderLabel (label : Text × Text) : Text := label.1 ++ '=' :: '"' :: escape label.2 ++ ['"']

def renderLabels (labels : Labels) : Text :=
  match labels with
  | [] => []
  | _ => '{' :: [','].intercalate (labels.map renderLabel) ++ ['}']

def seriesKey (labels : Labels) : Text :=
  [','].intercalate ((labels.mergeSort fun a b => decide (a.1 ≤ b.1)).map fun label => label.1 ++ '=' :: label.2)

inductive MetricType
  | counter
  | gauge
  | histogram
deriving DecidableEq

def MetricType.text : MetricType → String
  | .counter => "counter"
  | .gauge => "gauge"
  | .histogram => "histogram"

structure Series (α : Type) where
  labels : Labels
  value : α

abbrev SeriesMap (α : Type) := List (Text × Series α)

section
variable (num : Numbers)

structure Counter where
  name : Text
  help : Text
  series : SeriesMap num.Value

structure Gauge where
  name : Text
  help : Text
  series : SeriesMap num.Value

structure HistogramSeries where
  buckets : List num.Value
  sum : num.Value
  count : num.Value

structure Histogram where
  name : Text
  help : Text
  bounds : List num.Value
  series : SeriesMap (HistogramSeries num)

variable {num}

def headerLines (name help : Text) (type : MetricType) : List Text :=
  ["# HELP ".toList ++ name ++ ' ' :: help, "# TYPE ".toList ++ name ++ ' ' :: type.text.toList]

def sampleLine (name : Text) (labels : Labels) (value : num.Value) : Text :=
  name ++ renderLabels labels ++ ' ' :: num.text value

namespace Counter

def inc (counter : Counter num) (labels : Labels) (amount : num.Value) : Counter num :=
  let key := seriesKey labels
  match Assoc.get counter.series key with
  | none => { counter with series := Assoc.set counter.series key ⟨labels, amount⟩ }
  | some existing =>
    { counter with series := Assoc.set counter.series key { existing with value := num.add existing.value amount } }

def lines (counter : Counter num) : List Text :=
  headerLines counter.name counter.help .counter ++
    counter.series.map fun (_, s) => sampleLine counter.name s.labels s.value

end Counter

namespace Gauge

def set (gauge : Gauge num) (value : num.Value) (labels : Labels) : Gauge num :=
  { gauge with series := Assoc.set gauge.series (seriesKey labels) ⟨labels, value⟩ }

def lines (gauge : Gauge num) : List Text :=
  headerLines gauge.name gauge.help .gauge ++ gauge.series.map fun (_, s) => sampleLine gauge.name s.labels s.value

end Gauge

namespace Histogram

def observe (histogram : Histogram num) (value : num.Value) (labels : Labels) : Histogram num :=
  let key := seriesKey labels
  let existing := (Assoc.get histogram.series key).getD
    ⟨labels, ⟨List.replicate histogram.bounds.length (num.ofNat 0), num.ofNat 0, num.ofNat 0⟩⟩
  let counted := List.zipWith (fun bound count => if num.le value bound then num.add count (num.ofNat 1) else count)
    histogram.bounds existing.value.buckets
  let updated : HistogramSeries num :=
    ⟨counted, num.add existing.value.sum value, num.add existing.value.count (num.ofNat 1)⟩
  { histogram with series := Assoc.set histogram.series key { existing with value := updated } }

def samples (histogram : Histogram num) (s : Series (HistogramSeries num)) : List (Text × Labels × num.Value) :=
  (histogram.bounds.zip s.value.buckets).map (fun (bound, count) =>
      (histogram.name ++ "_bucket".toList, s.labels ++ [("le".toList, num.text bound)], count)) ++
    [(histogram.name ++ "_bucket".toList, s.labels ++ [("le".toList, "+Inf".toList)], s.value.count),
      (histogram.name ++ "_sum".toList, s.labels, s.value.sum),
      (histogram.name ++ "_count".toList, s.labels, s.value.count)]

def lines (histogram : Histogram num) : List Text :=
  headerLines histogram.name histogram.help .histogram ++
    (histogram.series.flatMap fun (_, s) => histogram.samples s).map fun (name, labels, value) =>
      sampleLine name labels value

end Histogram

variable (num) in
inductive Metric
  | counter (counter : Counter num)
  | gauge (gauge : Gauge num)
  | histogram (histogram : Histogram num)

namespace Metric

def name : Metric num → Text
  | counter c => c.name
  | gauge g => g.name
  | histogram h => h.name

def help : Metric num → Text
  | counter c => c.help
  | gauge g => g.help
  | histogram h => h.help

def type : Metric num → MetricType
  | counter _ => .counter
  | gauge _ => .gauge
  | histogram _ => .histogram

def samples : Metric num → List (Text × Labels × num.Value)
  | counter c => c.series.map fun (_, s) => (c.name, s.labels, s.value)
  | gauge g => g.series.map fun (_, s) => (g.name, s.labels, s.value)
  | histogram h => h.series.flatMap fun (_, s) => h.samples s

def lines : Metric num → List Text
  | counter c => c.lines
  | gauge g => g.lines
  | histogram h => h.lines

def render (metric : Metric num) : Text := ['\n'].intercalate metric.lines

end Metric

def render (metrics : List (Metric num)) : Text := "\n\n".toList.intercalate (metrics.map Metric.render) ++ ['\n']

/-! ## What is rendered -/

theorem lines_eq (metric : Metric num) : metric.lines =
    headerLines metric.name metric.help metric.type ++
      metric.samples.map fun s => sampleLine s.1 s.2.1 s.2.2 := by
  cases metric with
  | counter c => simp [Metric.lines, Counter.lines, Metric.samples, Metric.name, Metric.help, Metric.type]
  | gauge g => simp [Metric.lines, Gauge.lines, Metric.samples, Metric.name, Metric.help, Metric.type]
  | histogram h => rfl

def escapeChar (c : Char) : Text :=
  if c = '\\' then "\\\\".toList else if c = '"' then "\\\"".toList else if c = '\n' then "\\n".toList else [c]

theorem escape_eq (value : Text) : escape value = value.flatMap escapeChar := by
  unfold escape replaceAll
  rw [List.flatMap_assoc, List.flatMap_assoc]
  congr 1
  funext c
  unfold escapeChar
  by_cases hslash : c = '\\'
  · subst hslash
    decide
  by_cases hquote : c = '"'
  · subst hquote
    decide
  simp [hslash, hquote]

def expositionLines : List (Metric num) → List Text
  | [] => [[]]
  | [metric] => metric.lines
  | metric :: metrics => metric.lines ++ [] :: expositionLines metrics

theorem lines_ne_nil (metric : Metric num) : metric.lines ≠ [] := by
  rw [lines_eq]
  simp [headerLines]

theorem intercalate_append {α : Type} {sep : List α} {xs ys : List (List α)} (hx : xs ≠ []) (hy : ys ≠ []) :
    sep.intercalate (xs ++ ys) = sep.intercalate xs ++ sep ++ sep.intercalate ys := by
  induction xs with
  | nil => exact absurd rfl hx
  | cons x xs ih =>
    cases xs with
    | nil =>
      cases ys with
      | nil => exact absurd rfl hy
      | cons y ys => simp [List.intercalate]
    | cons x' xs =>
      have := ih (by simp)
      simp only [List.intercalate, List.cons_append, List.intersperse_cons_cons, List.flatten_cons] at this ⊢
      rw [this]
      simp

theorem render_eq (metrics : List (Metric num)) :
    render metrics = ['\n'].intercalate (expositionLines metrics ++ [[]]) := by
  have hlines : ∀ metrics : List (Metric num), expositionLines metrics ≠ [] := by
    intro metrics
    cases metrics with
    | nil => simp [expositionLines]
    | cons metric metrics =>
      cases metrics with
      | nil => exact lines_ne_nil metric
      | cons next metrics => simp [expositionLines]
  rw [intercalate_append (hlines metrics) (by simp)]
  unfold render
  have hblocks : "\n\n".toList.intercalate (metrics.map Metric.render) = ['\n'].intercalate (expositionLines metrics) := by
    induction metrics with
    | nil => rfl
    | cons metric metrics ih =>
      cases metrics with
      | nil => simp [expositionLines, Metric.render, List.intercalate]
      | cons next metrics =>
        have hsplit : expositionLines (metric :: next :: metrics) =
            metric.lines ++ ([[]] ++ expositionLines (next :: metrics)) := rfl
        rw [hsplit, intercalate_append (lines_ne_nil metric) (by simp), intercalate_append (by simp) (hlines _), ← ih]
        simp [Metric.render, List.intercalate]
  rw [hblocks]
  simp [List.intercalate]

end

end Paymaster.Metrics
