import Paymaster.Frontend.Prometheus
import Paymaster.Lib.Numeral

/-!
# The exposition is read back

A registry renders to a text from which the dashboard's parser recovers every
family with its help, its type and its samples in order, as long as the names
are names and no label value breaks its line.
-/

namespace Paymaster.Prometheus

open PlainText Metrics

section
variable {num : Numbers} {families : Families num} {metric : Metric num} {metrics : List (Metric num)} {name : Text}

def familyOf (metric : Metric num) : MetricFamily num :=
  ⟨metric.name, metric.type.text.toList, metric.help, metric.samples.map fun s => ⟨s.1, s.2.1, s.2.2⟩⟩

/-- A metric whose text says what it is. -/
structure Readable (metric : Metric num) : Prop where
  name : MetricName metric.name
  help : HelpText metric.help
  labels : ∀ s ∈ metric.samples, LabelSet s.2.1

instance (metric : Metric num) : Decidable (Readable metric) :=
  decidable_of_iff (MetricName metric.name ∧ HelpText metric.help ∧
      metric.samples.all (fun s => decide (LabelSet s.2.1)) = true)
    ⟨fun h => ⟨h.1, h.2.1, fun s hs => by simpa using List.all_eq_true.mp h.2.2 s hs⟩,
    fun h => ⟨h.name, h.help, List.all_eq_true.mpr fun s hs => by simp [h.labels s hs]⟩⟩

structure WellFormed (metrics : List (Metric num)) : Prop where
  readable : ∀ m ∈ metrics, Readable m
  distinct : (metrics.map Metric.name).Nodup
  /-- No name is that of a series of a histogram. -/
  unsuffixed : ∀ m ∈ metrics, ∀ h ∈ metrics, m.type ≠ .histogram → h.type = .histogram → baseName m.name ≠ h.name

instance (metrics : List (Metric num)) : Decidable (WellFormed metrics) :=
  decidable_of_iff (metrics.all (fun m => decide (Readable m)) = true ∧ (metrics.map Metric.name).Nodup ∧
      metrics.all (fun m => metrics.all fun h =>
        decide (m.type ≠ .histogram → h.type = .histogram → baseName m.name ≠ h.name)) = true)
    ⟨fun h => by
      have hreadable := List.all_eq_true.mp h.1
      have hunsuffixed := List.all_eq_true.mp h.2.2
      simp only [List.all_eq_true, decide_eq_true_eq] at hreadable hunsuffixed
      exact ⟨hreadable, h.2.1, hunsuffixed⟩,
    fun h => by
      refine ⟨List.all_eq_true.mpr fun m hm => by simp [h.readable m hm], h.distinct, ?_⟩
      simp only [List.all_eq_true, decide_eq_true_eq]
      exact h.unsuffixed⟩

theorem modify_new {f : MetricFamily num → MetricFamily num} (h : name ∉ families.map Prod.fst) :
    modify families name f = families ++ [(name, f ⟨name, "untyped".toList, [], []⟩)] := by
  unfold modify
  rw [Assoc.get_of_notMem h, Assoc.set_of_notMem h]
  rfl

theorem modify_last {f : MetricFamily num → MetricFamily num} {family : MetricFamily num}
    (h : name ∉ families.map Prod.fst) : modify (families ++ [(name, family)]) name f = families ++ [(name, f family)] := by
  unfold modify
  rw [Assoc.get_append_of_notMem h, Assoc.set_append_of_notMem h]
  simp [Assoc.get, Assoc.set]

theorem baseName_bucket : baseName (name ++ "_bucket".toList) = name := by
  unfold baseName
  rw [if_pos (List.suffix_append ..), List.length_append]
  exact List.take_left' (by simp)

theorem not_suffix {suffix other : Text} (hlength : suffix.length ≤ other.length) (h : ¬ suffix <:+ other) :
    ¬ other <:+ name ++ suffix :=
  fun hother => h (List.suffix_of_suffix_length_le (List.suffix_append name suffix) hother hlength)

theorem baseName_sum : baseName (name ++ "_sum".toList) = name := by
  unfold baseName
  rw [if_neg (not_suffix (by decide) (by decide)), if_pos (List.suffix_append ..), List.length_append]
  exact List.take_left' (by simp)

theorem baseName_count : baseName (name ++ "_count".toList) = name := by
  have hsum : ¬ "_sum".toList <:+ name ++ "_count".toList := by
    intro h
    have := List.suffix_of_suffix_length_le h (List.suffix_append name "_count".toList) (by decide)
    revert this
    decide
  unfold baseName
  rw [if_neg (not_suffix (by decide) (by decide)), if_neg hsum, if_pos (List.suffix_append ..), List.length_append]
  exact List.take_left' (by simp)

theorem suffixes_chars : (∀ c ∈ "_bucket".toList, isNameChar c = true) ∧ (∀ c ∈ "_sum".toList, isNameChar c = true) ∧
    ∀ c ∈ "_count".toList, isNameChar c = true := by
  simp [isNameChar, isNameStart, isLabelStart, isLetter]

/-- The name of a sample: the metric's own, or with a histogram's suffix. -/
theorem sample_name {s : Text × Labels × num.Value} (hs : s ∈ metric.samples) :
    (metric.type ≠ .histogram ∧ s.1 = metric.name) ∨
      (metric.type = .histogram ∧ baseName s.1 = metric.name ∧ (MetricName metric.name → MetricName s.1)) := by
  cases metric with
  | counter c =>
    obtain ⟨_, -, rfl⟩ := List.mem_map.mp hs
    exact .inl ⟨by simp [Metric.type], rfl⟩
  | gauge g =>
    obtain ⟨_, -, rfl⟩ := List.mem_map.mp hs
    exact .inl ⟨by simp [Metric.type], rfl⟩
  | histogram h =>
    refine .inr ⟨rfl, ?_⟩
    have hsuffix : ∀ suffix : Text, (∀ c ∈ suffix, isNameChar c = true) → MetricName h.name → MetricName (h.name ++ suffix) := by
      intro suffix hchars hname
      refine ⟨?_, ?_⟩
      · have hstart := hname.start
        cases hcase : h.name with
        | nil => simp [hcase] at hstart
        | cons c rest => simpa [hcase] using hstart
      · intro c hc
        rcases List.mem_append.mp hc with hc | hc
        · exact hname.chars c hc
        · exact hchars c hc
    obtain ⟨⟨key, series⟩, -, hs⟩ := List.mem_flatMap.mp hs
    simp only [Histogram.samples, List.mem_append, List.mem_map, List.mem_cons, List.not_mem_nil, or_false] at hs
    rcases hs with ⟨bound, -, rfl⟩ | rfl | rfl | rfl
    · exact ⟨baseName_bucket, hsuffix _ suffixes_chars.1⟩
    · exact ⟨baseName_bucket, hsuffix _ suffixes_chars.1⟩
    · exact ⟨baseName_sum, hsuffix _ suffixes_chars.2.1⟩
    · exact ⟨baseName_count, hsuffix _ suffixes_chars.2.2⟩

theorem foldl_samples {samples : List (Text × Labels × num.Value)} {family : MetricFamily num}
    (hname : name ∉ families.map Prod.fst) (hnames : ∀ s ∈ samples, MetricName s.1) (hlabels : ∀ s ∈ samples, LabelSet s.2.1)
    (howner : ∀ s ∈ samples, ∀ family' : MetricFamily num, family'.type = family.type →
      ownerOf (families ++ [(name, family')]) s.1 = name) :
    (samples.map fun s => sampleLine s.1 s.2.1 s.2.2).foldl parseLine (families ++ [(name, family)]) =
      families ++ [(name, { family with
        samples := family.samples ++ samples.map fun s => ⟨s.1, s.2.1, s.2.2⟩ })] := by
  induction samples generalizing family with
  | nil => simp
  | cons s samples ih =>
    have hs := parseLine_sampleLine (families ++ [(name, family)]) s.2.2 (hnames s (by simp)) (hlabels s (by simp))
    rw [howner s (by simp) family rfl, modify_last hname] at hs
    rw [List.map_cons, List.foldl_cons, hs]
    refine (@ih { family with samples := family.samples ++ [⟨s.1, s.2.1, s.2.2⟩] }
      (fun s hs => hnames s (by simp [hs])) (fun s hs => hlabels s (by simp [hs]))
      fun s hs family' htype => howner s (by simp [hs]) family' htype).trans ?_
    simp

theorem type_visible (type : MetricType) :
    (∀ c ∈ type.text.toList, isSpace c = false) ∧ type.text.toList ≠ [] := by
  have hchars : (∀ c ∈ "counter".toList, isNameChar c = true) ∧ (∀ c ∈ "gauge".toList, isNameChar c = true) ∧
      ∀ c ∈ "histogram".toList, isNameChar c = true := by
    simp [isNameChar, isNameStart, isLabelStart, isLetter]
  have hne : "counter".toList ≠ [] ∧ "gauge".toList ≠ [] ∧ "histogram".toList ≠ [] := by simp
  cases type with
  | counter => exact ⟨fun c hc => isSpace_nameChar (hchars.1 c hc), hne.1⟩
  | gauge => exact ⟨fun c hc => isSpace_nameChar (hchars.2.1 c hc), hne.2.1⟩
  | histogram => exact ⟨fun c hc => isSpace_nameChar (hchars.2.2 c hc), hne.2.2⟩

theorem foldl_metric (hreadable : Readable metric) (hname : metric.name ∉ families.map Prod.fst)
    (hscalar : metric.type ≠ .histogram → ∀ family, Assoc.get families (baseName metric.name) = some family →
      family.type ≠ "histogram".toList) :
    metric.lines.foldl parseLine families = families ++ [(metric.name, familyOf metric)] := by
  obtain ⟨hvisible, hne⟩ := type_visible metric.type
  rw [lines_eq, List.foldl_append]
  simp only [headerLines, List.foldl_cons, List.foldl_nil]
  rw [parseLine_help hreadable.name hreadable.help, modify_new hname, parseLine_type hreadable.name hvisible hne,
    modify_last hname, foldl_samples hname]
  · simp [familyOf]
  · intro s hs
    rcases sample_name hs with ⟨-, h⟩ | ⟨-, -, h⟩
    · rw [h]
      exact hreadable.name
    · exact h hreadable.name
  · exact hreadable.labels
  · intro s hs family' htype
    simp only at htype
    unfold ownerOf
    rcases sample_name hs with ⟨hscalar', h⟩ | ⟨hhistogram, h, -⟩
    · rw [h]
      by_cases hbase : baseName metric.name = metric.name
      · rw [hbase]
        split
        · split <;> rfl
        · rfl
      · cases hget : Assoc.get families (baseName metric.name) with
        | none =>
          have hnot : baseName metric.name ∉ families.map Prod.fst := by
            intro hmem
            have := Assoc.get_isSome_iff.mpr hmem
            simp [hget] at this
          rw [Assoc.get_append_of_notMem hnot]
          simp [Assoc.get, Ne.symm hbase]
        | some family =>
          rw [Assoc.get_append_of_some hget]
          simp only [if_neg (hscalar hscalar' family hget)]
    · have htext : family'.type = "histogram".toList := by
        rw [htype, hhistogram]
        rfl
      rw [h, Assoc.get_append_of_notMem hname]
      simp only [Assoc.get, if_true, if_pos htext]

theorem get_families {family : MetricFamily num} {front : List (Metric num)}
    (h : Assoc.get (front.map fun m => (m.name, familyOf m)) name = some family) :
    ∃ m ∈ front, m.name = name ∧ familyOf m = family := by
  induction front with
  | nil => cases h
  | cons m front ih =>
    by_cases hm : m.name = name
    · simp only [List.map_cons, Assoc.get, if_pos hm, Option.some.injEq] at h
      exact ⟨m, by simp, hm, h⟩
    · simp only [List.map_cons, Assoc.get, if_neg hm] at h
      obtain ⟨m', hmem, hname, hfamily⟩ := ih h
      exact ⟨m', by simp [hmem], hname, hfamily⟩

theorem type_of_text (h : (familyOf metric).type = "histogram".toList) : metric.type = .histogram := by
  have htext : metric.type.text = "histogram" := String.toList_inj.mp h
  cases htype : metric.type with
  | counter =>
    rw [htype] at htext
    simp [MetricType.text] at htext
  | gauge =>
    rw [htype] at htext
    simp [MetricType.text] at htext
  | histogram => rfl

theorem foldl_expositionLines (hwellFormed : WellFormed metrics) {front : List (Metric num)}
    (hfront : ∀ m ∈ metrics, m.name ∉ front.map Metric.name)
    (hunsuffixed : ∀ m ∈ metrics, ∀ h ∈ front, m.type ≠ .histogram → h.type = .histogram → baseName m.name ≠ h.name) :
    (expositionLines metrics).foldl parseLine (front.map fun m => (m.name, familyOf m)) =
      (front ++ metrics).map fun m => (m.name, familyOf m) := by
  have hblank : ∀ families : Families num, parseLine families [] = families := fun _ => rfl
  induction metrics generalizing front with
  | nil => simp [expositionLines, hblank]
  | cons metric metrics ih =>
    obtain ⟨hreadable, hdistinct, hsuffixes⟩ := hwellFormed
    have hnew : metric.name ∉ (front.map fun m => (m.name, familyOf m)).map Prod.fst := by
      have := hfront metric (by simp)
      simpa [List.map_map, Function.comp_def] using this
    have hscalar : metric.type ≠ .histogram → ∀ family,
        Assoc.get (front.map fun m => (m.name, familyOf m)) (baseName metric.name) = some family →
        family.type ≠ "histogram".toList := by
      intro htype family hget hhistogram
      obtain ⟨h, hmem, hname, hfamily⟩ := get_families hget
      have hhtype : h.type = .histogram := by
        rw [← hfamily] at hhistogram
        exact type_of_text hhistogram
      exact hunsuffixed metric (by simp) h hmem htype hhtype hname.symm
    have hmetric := foldl_metric (hreadable metric (by simp)) hnew hscalar
    cases metrics with
    | nil =>
      rw [expositionLines, hmetric]
      simp
    | cons next metrics =>
      obtain ⟨hnotMem, hdistinct'⟩ := List.nodup_cons.mp hdistinct
      have hfront' : ∀ m ∈ next :: metrics, m.name ∉ (front ++ [metric]).map Metric.name := by
        intro m hm
        have hne : m.name ≠ metric.name := fun e => hnotMem (e ▸ List.mem_map_of_mem hm)
        have hm' := hfront m (by simp [hm])
        simp only [List.map_append, List.map_cons, List.map_nil, List.mem_append, List.mem_singleton, not_or]
        exact ⟨hm', hne⟩
      have hunsuffixed' : ∀ m ∈ next :: metrics, ∀ h ∈ front ++ [metric], m.type ≠ .histogram → h.type = .histogram →
          baseName m.name ≠ h.name := by
        intro m hm h hh
        rcases List.mem_append.mp hh with hh | hh
        · exact hunsuffixed m (by simp [hm]) h hh
        · rw [List.mem_singleton.mp hh]
          exact hsuffixes m (by simp [hm]) metric (by simp)
      have hrest := ih ⟨fun m hm => hreadable m (by simp [hm]), hdistinct',
        fun m hm h hh => hsuffixes m (by simp [hm]) h (by simp [hh])⟩ hfront' hunsuffixed'
      have hlines : expositionLines (metric :: next :: metrics) = metric.lines ++ [] :: expositionLines (next :: metrics) :=
        rfl
      rw [hlines, List.foldl_append, hmetric, List.foldl_cons, hblank]
      simpa using hrest

theorem sampleLine_line {labels : Labels} {value : num.Value} (hname : MetricName name) (hlabels : LabelSet labels) :
    ∀ c ∈ sampleLine name labels value, isTerminator c = false := by
  intro c hc
  simp only [sampleLine, List.mem_append, List.mem_cons] at hc
  rcases hc with (hc | hc) | rfl | hc
  · exact isTerminator_nameChar (hname.chars c hc)
  · cases labels with
    | nil => simp [renderLabels] at hc
    | cons label labels =>
      simp only [renderLabels, List.mem_append, List.mem_cons, List.not_mem_nil, or_false] at hc
      rcases hc with (rfl | hc) | rfl
      · rfl
      · exact labels_line hlabels c hc
      · rfl
  · rfl
  · exact text_line value c hc

theorem metric_line (h : Readable metric) : ∀ line ∈ metric.lines, '\n' ∉ line := by
  intro line hline hfeed
  have hterminator : isTerminator '\n' = true := rfl
  rw [lines_eq] at hline
  simp only [headerLines, List.cons_append, List.nil_append, List.mem_cons, List.mem_map] at hline
  rcases hline with rfl | rfl | ⟨s, hs, rfl⟩
  · simp only [List.mem_append, List.mem_cons] at hfeed
    rcases hfeed with (hfeed | hfeed) | hfeed | hfeed
    · simp at hfeed
    · have := isTerminator_nameChar (h.name.chars _ hfeed)
      simp [hterminator] at this
    · cases hfeed
    · have := h.help.line _ hfeed
      simp [hterminator] at this
  · simp only [List.mem_append, List.mem_cons] at hfeed
    rcases hfeed with (hfeed | hfeed) | hfeed | hfeed
    · simp at hfeed
    · have := isTerminator_nameChar (h.name.chars _ hfeed)
      simp [hterminator] at this
    · cases hfeed
    · have := (type_visible metric.type).1 _ hfeed
      simp [isSpace] at this
  · have hname : MetricName s.1 := by
      rcases sample_name hs with ⟨-, hs'⟩ | ⟨-, -, hs'⟩
      · rw [hs']
        exact h.name
      · exact hs' h.name
    have := sampleLine_line hname (h.labels s hs) _ hfeed
    simp [hterminator] at this

theorem expositionLines_line (h : ∀ m ∈ metrics, Readable m) : ∀ line ∈ expositionLines metrics, '\n' ∉ line := by
  induction metrics with
  | nil => simp [expositionLines]
  | cons metric metrics ih =>
    have hmetric := metric_line (h metric (by simp))
    have hrest := ih fun m hm => h m (by simp [hm])
    cases metrics with
    | nil => simpa [expositionLines] using hmetric
    | cons next metrics =>
      intro line hline
      simp only [expositionLines, List.mem_append, List.mem_cons] at hline hrest
      rcases hline with hline | rfl | hline
      · exact hmetric line hline
      · simp
      · exact hrest line hline

theorem foldl_render (h : WellFormed metrics) :
    ((render metrics).splitOn '\n').foldl parseLine [] = metrics.map fun m => (m.name, familyOf m) := by
  have hlines : ∀ line ∈ expositionLines metrics ++ [[]], '\n' ∉ line := by
    intro line hline
    rcases List.mem_append.mp hline with hline | hline
    · exact expositionLines_line h.readable line hline
    · rw [List.mem_singleton.mp hline]
      simp
  have hfold := foldl_expositionLines h
    (show ∀ m ∈ metrics, m.name ∉ ([] : List (Metric num)).map Metric.name by simp) (by simp)
  rw [render_eq, splitOn_lines hlines (by simp), List.foldl_append]
  rw [List.map_nil, List.nil_append] at hfold
  rw [hfold]
  rfl

/-- Whatever is in the registry is what the dashboard reads off its text. -/
theorem parse_render (h : WellFormed metrics) :
    parsePrometheusText (render metrics) = metrics.map fun m => (m.name, familyOf m) := foldl_render h

end

/-! ## A registry -/

/-- Whole numbers and the three values that are no numbers. -/
inductive Whole
  | nat (n : Nat)
  | infinity
  | minusInfinity
  | nan
deriving DecidableEq

namespace Whole

def written : Whole → String
  | nat n => String.ofList (Nat.toDigits 10 n)
  | infinity => "Infinity"
  | minusInfinity => "-Infinity"
  | nan => "NaN"

def text (v : Whole) : Text := (written v).toList

theorem text_nat (n : Nat) : text (nat n) = Nat.toDigits 10 n := String.toList_ofList

def number (text : Text) : Option Whole :=
  if text = "Infinity".toList then some infinity
  else if text = "-Infinity".toList then some minusInfinity
  else (Numeral.read 10 text).map nat

def add : Whole → Whole → Whole
  | nat m, nat n => nat (m + n)
  | infinity, nat _ | nat _, infinity | infinity, infinity => infinity
  | minusInfinity, nat _ | nat _, minusInfinity | minusInfinity, minusInfinity => minusInfinity
  | _, _ => nan

def le : Whole → Whole → Bool
  | nat m, nat n => decide (m ≤ n)
  | minusInfinity, nat _ | minusInfinity, infinity | nat _, infinity => true
  | infinity, infinity | minusInfinity, minusInfinity => true
  | _, _ => false

theorem digit_of_mem {n : Nat} {c : Char} (h : c ∈ Nat.toDigits 10 n) : 48 ≤ c.toNat ∧ c.toNat ≤ 57 := by
  have hdigit := Nat.isDigit_of_mem_toDigits (by decide) (by decide) h
  simpa [Char.isDigit, UInt32.le_iff_toNat_le] using hdigit

theorem digits_ne {n : Nat} {c : Char} {rest : Text} (hc : c.toNat < 48 ∨ 57 < c.toNat) :
    Nat.toDigits 10 n ≠ c :: rest := by
  intro h
  have := digit_of_mem (n := n) (c := c) (by simp [h])
  omega

end Whole

def wholeNumbers : Numbers where
  Value := Whole
  ofNat := .nat
  add := Whole.add
  le := Whole.le
  same v w := decide (v = w ∧ v ≠ .nan)
  infinity := .infinity
  minusInfinity := .minusInfinity
  nan := .nan
  text := Whole.text
  number := Whole.number
  add_ofNat m n _ := rfl
  same_ofNat m n _ _ := by simp
  text_visible v := by
    cases v with
    | nat n =>
      rw [Whole.text_nat]
      refine ⟨Nat.toDigits_ne_nil, ?_⟩
      intro c hc
      have hrange := Whole.digit_of_mem hc
      refine ⟨?_, ?_⟩
      · by_cases hs : isSpace c = true
        · have := toNat_of_isSpace hs
          omega
        · simpa using hs
      · rintro rfl
        simp at hrange
    | infinity => simp [Whole.text, Whole.written, isSpace]
    | minusInfinity => simp [Whole.text, Whole.written, isSpace]
    | nan => simp [Whole.text, Whole.written, isSpace]
  text_signed v := by
    cases v with
    | nat n =>
      rw [Whole.text_nat]
      exact ⟨Whole.digits_ne (by decide), Whole.digits_ne (by decide)⟩
    | infinity => simp [Whole.text, Whole.written]
    | minusInfinity => simp [Whole.text, Whole.written]
    | nan => simp [Whole.text, Whole.written]
  text_nan v := by
    cases v with
    | nat n =>
      rw [Whole.text_nat]
      exact iff_of_false (Whole.digits_ne (by decide)) nofun
    | infinity => simp [Whole.text, Whole.written]
    | minusInfinity => simp [Whole.text, Whole.written]
    | nan => simp [Whole.text, Whole.written]
  number_text v hv := by
    cases v with
    | nat n =>
      have h1 : Nat.toDigits 10 n ≠ "Infinity".toList := Whole.digits_ne (by decide)
      have h2 : Nat.toDigits 10 n ≠ "-Infinity".toList := Whole.digits_ne (by decide)
      simp only [Whole.number, Whole.text_nat, if_neg h1, if_neg h2, Numeral.read_toDigits (b := 10) (by decide) (by decide),
        Option.map_some]
    | infinity => simp [Whole.number, Whole.text, Whole.written]
    | minusInfinity => simp [Whole.number, Whole.text, Whole.written]
    | nan => exact absurd rfl hv

/-- A counter with a label value that needs every escape, and a histogram. -/
def sampleRegistry : List (Metric wholeNumbers) :=
  let denials : Counter wholeNumbers := ⟨"denials_total".toList, "Denials by rule.".toList, []⟩
  let seconds : Histogram wholeNumbers :=
    ⟨"evaluation_seconds".toList, "Wall time.".toList, [Whole.nat 1, Whole.nat 5], []⟩
  [.counter (denials.inc [("rule".toList, "a\\b \"c\"\n, d=\"\x7d 5".toList)] (Whole.nat 2)),
    .histogram (seconds.observe (Whole.nat 3) [])]

theorem parse_render_sample :
    parsePrometheusText (render sampleRegistry) = sampleRegistry.map fun m => (m.name, familyOf m) :=
  parse_render (by decide +kernel)

end Paymaster.Prometheus
