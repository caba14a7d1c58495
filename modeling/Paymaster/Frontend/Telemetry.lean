import Paymaster.Backend.PaymasterMetrics
import Paymaster.Frontend.Exposition

/-!
# The dashboard's view of the paymaster

What the dashboard derives from one scrape of the metrics and one health probe.
It is read from the text that the backend rendered, and says of each chain and
of the whole what the events were that the backend had recorded.
-/

namespace Paymaster.Dashboard

open Metrics Prometheus

/-! ## Reading a snapshot -/

section
variable {num : Numbers}

def matching (wanted : Labels) (labels : Labels) : Bool := wanted.all fun (key, value) => Assoc.get labels key = some value

def samplesOf (families : Families num) (name : String) : List (Sample num) :=
  ((Assoc.get families name.toList).map MetricFamily.samples).getD []

def sumOf (families : Families num) (name : String) (wanted : Labels) : num.Value :=
  ((samplesOf families name).filter fun s => matching wanted s.labels).foldl (fun total s => num.add total s.value)
    (num.ofNat 0)

def valueOf (families : Families num) (name : String) (wanted : Labels) : Option num.Value :=
  ((samplesOf families name).find? fun s => matching wanted s.labels).map Sample.value

def totalsByLabel (label : Text) (samples : List (Sample num)) : List (Text × num.Value) :=
  samples.foldl (fun totals s =>
    match Assoc.get s.labels label with
    | none => totals
    | some key => Assoc.set totals key (num.add ((Assoc.get totals key).getD (num.ofNat 0)) s.value)) []

def sumByLabel (families : Families num) (name label : String) : List (Text × num.Value) :=
  (totalsByLabel label.toList (samplesOf families name)).mergeSort fun a b => num.le b.2 a.2

def distinct (values : List Text) : List Text :=
  values.foldl (fun seen value => if value ∈ seen then seen else seen ++ [value]) []

/-- `before` is the order of `localeCompare`. -/
def labelValues (before : Text → Text → Bool) (families : Families num) (name label : String) : List Text :=
  (distinct ((samplesOf families name).filterMap fun s => Assoc.get s.labels label.toList)).mergeSort before

/-! ## The view -/

structure HealthChain where
  chainId : Nat
  healthy : Bool
  blockNumber : Option Text
  latencyMs : Option Nat

structure HealthView where
  status : String
  chains : Option (List HealthChain)

variable (num) in
structure OutcomeCounts where
  issued : num.Value
  denied : num.Value
  error : num.Value

variable (num) in
structure ChainView where
  chainId : Text
  healthy : Option Bool
  blockNumber : Option num.Value
  circuitOpen : Option Bool
  depositWei : Option num.Value
  stakeWei : Option num.Value
  depositBelowThreshold : Option Bool
  stakeBelowThreshold : Option Bool
  fundingUnreadable : Bool
  sponsorships : OutcomeCounts num
  gasCommittedWei : num.Value
  rpcLatencyMs : Option Nat

variable (num) in
structure Telemetry where
  metricsEnabled : Bool
  health : Option HealthView
  chains : List (ChainView num)
  sponsorships : OutcomeCounts num
  total : num.Value
  gasCommittedWei : num.Value
  allowed : num.Value
  denied : num.Value
  denialsByRule : List (Text × num.Value)
  denialsByCode : List (Text × num.Value)
  authFailures : num.Value
  ipBlocks : num.Value
  rejectionsByReason : List (Text × num.Value)

def chainWanted (chainId : Text) : Text × Text := ("chain".toList, chainId)

def isOne (value : Option num.Value) : Option Bool := value.map fun v => num.same v (num.ofNat 1)

def booleanGauge (families : Families num) (chainId : Text) (kind : String) : Option Bool :=
  isOne (valueOf families "paymaster_funding_below_threshold" [chainWanted chainId, label "kind" kind])

def HealthView.chain (health : Option HealthView) (chainId : Text) : Option HealthChain :=
  ((health.bind HealthView.chains).getD []).find? fun c => Nat.toDigits 10 c.chainId = chainId

def outcomeCounts (families : Families num) (wanted : Labels) : OutcomeCounts num where
  issued := sumOf families "paymaster_sponsorships_total" (wanted ++ [label "outcome" "issued"])
  denied := sumOf families "paymaster_sponsorships_total" (wanted ++ [label "outcome" "denied"])
  error := sumOf families "paymaster_sponsorships_total" (wanted ++ [label "outcome" "error"])

def chainView (families : Families num) (health : Option HealthView) (chainId : Text) : ChainView num :=
  let fromHealth := HealthView.chain health chainId
  { chainId := chainId
    healthy := (fromHealth.map HealthChain.healthy).or (isOne (valueOf families "paymaster_chain_healthy" [chainWanted chainId]))
    blockNumber :=
      match fromHealth.bind HealthChain.blockNumber with
      | some text => some ((num.number text).getD num.nan)
      | none => valueOf families "paymaster_chain_block_number" [chainWanted chainId]
    circuitOpen := isOne (valueOf families "paymaster_chain_circuit_open" [chainWanted chainId])
    depositWei := valueOf families "paymaster_deposit_wei" [chainWanted chainId]
    stakeWei := valueOf families "paymaster_stake_wei" [chainWanted chainId]
    depositBelowThreshold := booleanGauge families chainId "deposit"
    stakeBelowThreshold := booleanGauge families chainId "stake"
    fundingUnreadable := booleanGauge families chainId "read_error" = some true
    sponsorships := outcomeCounts families [chainWanted chainId]
    gasCommittedWei := sumOf families "paymaster_gas_committed_wei_total" [chainWanted chainId]
    rpcLatencyMs := fromHealth.bind HealthChain.latencyMs }

def chainIds (before : Text → Text → Bool) (families : Families num) (health : Option HealthView) : List Text :=
  distinct (labelValues before families "paymaster_chain_healthy" "chain" ++
    labelValues before families "paymaster_deposit_wei" "chain" ++
    labelValues before families "paymaster_sponsorships_total" "chain" ++
    ((health.bind HealthView.chains).getD []).map fun c => Nat.toDigits 10 c.chainId)

def buildTelemetry (before : Text → Text → Bool) (families : Families num) (health : Option HealthView) : Telemetry num :=
  let counts := outcomeCounts families []
  { metricsEnabled := decide (0 < families.length)
    health := health
    chains := ((chainIds before families health).mergeSort before).map (chainView families health)
    sponsorships := counts
    total := num.add (num.add counts.issued counts.denied) counts.error
    gasCommittedWei := sumOf families "paymaster_gas_committed_wei_total" []
    allowed := sumOf families "paymaster_policy_decisions_total" [label "outcome" "allowed"]
    denied := sumOf families "paymaster_policy_decisions_total" [label "outcome" "denied"]
    denialsByRule := sumByLabel families "paymaster_policy_denials_total" "rule"
    denialsByCode := sumByLabel families "paymaster_policy_denials_total" "code"
    authFailures := sumOf families "paymaster_auth_failures_total" []
    ipBlocks := sumOf families "paymaster_ip_blocks_total" []
    rejectionsByReason := sumByLabel families "paymaster_ip_rejections_total" "reason" }

end

/-! ## What the readers find -/

section
variable {num : Numbers} {families : Families num} {name : Text} {counter : Counter num} {gauge : Gauge num}
  {puts : List (Labels × Nat)} {wanted labels : Labels}

theorem distinct_snoc {values : List Text} {v : Text} :
    distinct (values ++ [v]) = if v ∈ distinct values then distinct values else distinct values ++ [v] := by
  unfold distinct
  rw [List.foldl_append]
  rfl

theorem mem_distinct {values : List Text} {value : Text} : value ∈ distinct values ↔ value ∈ values := by
  induction values using List.reverseRecOn with
  | nil => simp [distinct]
  | append_singleton values v ih =>
    rw [distinct_snoc]
    by_cases hv : v ∈ distinct values
    · rw [if_pos hv, ih, List.mem_append, List.mem_singleton]
      constructor
      · exact Or.inl
      · intro hor
        rcases hor with hin | rfl
        · exact hin
        · exact ih.mp hv
    · rw [if_neg hv, List.mem_append, List.mem_append, ih]

theorem nodup_distinct {values : List Text} : (distinct values).Nodup := by
  induction values using List.reverseRecOn with
  | nil => exact List.nodup_nil
  | append_singleton values v ih =>
    rw [distinct_snoc]
    by_cases hv : v ∈ distinct values
    · rw [if_pos hv]
      exact ih
    · rw [if_neg hv]
      apply List.Nodup.append ih (List.nodup_singleton v)
      rw [List.disjoint_singleton]
      exact hv

def samplesIn (name : Text) (series : SeriesMap num.Value) : List (Sample num) :=
  series.map fun entry => ⟨name, entry.2.labels, entry.2.value⟩

theorem sumOf_counter {name : String} (hsamples : samplesOf families name = samplesIn counter.name counter.series)
    (h : CounterHolds counter puts) (hsum : (puts.map Prod.snd).sum ≤ 2 ^ 53) :
    sumOf families name wanted = num.ofNat ((puts.filter fun put => matching wanted put.1).map Prod.snd).sum := by
  rw [← sum_series h hsum (matching wanted), sumOf, hsamples, samplesIn, List.filter_map, List.foldl_map, List.foldl_map]
  rfl

/-- A gauge has the last value of the label set that is wanted. -/
theorem valueOf_gauge {name : String} (hsamples : samplesOf families name = samplesIn gauge.name gauge.series)
    (h : GaugeHolds gauge puts) (honly : ∀ put ∈ puts, matching wanted put.1 = true ↔ put.1 = labels) :
    valueOf families name wanted = (amountsOf puts labels).getLast?.map num.ofNat := by
  have hentry : ∀ entry ∈ gauge.series, matching wanted entry.2.labels = true ↔ entry.2.labels = labels := by
    intro entry hin
    obtain ⟨put, hput, heq⟩ := List.mem_map.mp (mem_labels h hin)
    rw [← heq]
    exact honly put hput
  rw [valueOf, hsamples, samplesIn, List.find?_map, Option.map_map]
  cases hfind : gauge.series.find? ((fun s : Sample num => matching wanted s.labels) ∘ fun entry =>
      ⟨gauge.name, entry.2.labels, entry.2.value⟩) with
  | none =>
    have hnil : amountsOf puts labels = [] := by
      by_contra hne
      obtain ⟨entry, hin, heq⟩ := List.mem_map.mp ((h.mem labels).mpr (amountsOf_ne_nil.mp hne))
      exact List.find?_eq_none.mp hfind entry hin ((hentry entry hin).mpr heq)
    simp [hnil]
  | some entry =>
    have hin := List.mem_of_find?_eq_some hfind
    have hmatch := List.find?_some hfind
    have heq : entry.2.labels = labels := (hentry entry hin).mp hmatch
    have hne : amountsOf puts labels ≠ [] := by
      rw [amountsOf_ne_nil, ← heq]
      exact mem_labels h hin
    have hvalue := h.value entry hin
    rw [heq, List.getLastD_eq_getLast?, List.getLast?_eq_some_getLast hne] at hvalue
    rw [List.getLast?_eq_some_getLast hne]
    simp [hvalue]

def under (label key : Text) (samples : List (Sample num)) : List (Sample num) :=
  samples.filter fun s => Assoc.get s.labels label = some key

theorem totalsByLabel_snoc {label : Text} {samples : List (Sample num)} {s : Sample num} :
    totalsByLabel label (samples ++ [s]) =
      match Assoc.get s.labels label with
      | none => totalsByLabel label samples
      | some key => Assoc.set (totalsByLabel label samples) key
          (num.add ((Assoc.get (totalsByLabel label samples) key).getD (num.ofNat 0)) s.value) := by
  unfold totalsByLabel
  rw [List.foldl_append]
  rfl

theorem get_totalsByLabel {label key : Text} {samples : List (Sample num)} :
    Assoc.get (totalsByLabel label samples) key =
      if under label key samples = [] then none
      else some ((under label key samples).foldl (fun total s => num.add total s.value) (num.ofNat 0)) := by
  induction samples using List.reverseRecOn with
  | nil => rfl
  | append_singleton samples s ih =>
    rw [totalsByLabel_snoc]
    by_cases hkey : Assoc.get s.labels label = some key
    · have hunder : under label key (samples ++ [s]) = under label key samples ++ [s] := by
        simp [under, hkey]
      have hne : under label key samples ++ [s] ≠ [] := by simp
      rw [hkey, Assoc.get_set_self, ih, hunder, if_neg hne, List.foldl_append]
      by_cases hnil : under label key samples = []
      · rw [if_pos hnil, hnil]
        rfl
      · rw [if_neg hnil]
        rfl
    · have hunder : under label key (samples ++ [s]) = under label key samples := by
        simp [under, hkey]
      rw [hunder, ← ih]
      cases hother : Assoc.get s.labels label with
      | none => rfl
      | some other =>
        have hne : key ≠ other := fun heq => hkey (by rw [hother, heq])
        exact Assoc.get_set_of_ne hne

theorem nodup_totalsByLabel {label : Text} {samples : List (Sample num)} :
    ((totalsByLabel label samples).map Prod.fst).Nodup := by
  induction samples using List.reverseRecOn with
  | nil => exact List.nodup_nil
  | append_singleton samples s ih =>
    rw [totalsByLabel_snoc]
    split
    · exact ih
    · exact Assoc.nodup_keys_set ih

theorem mem_sumByLabel {name label : String} {key : Text} {value : num.Value} :
    (key, value) ∈ sumByLabel families name label ↔
      under label.toList key (samplesOf families name) ≠ [] ∧
        value = (under label.toList key (samplesOf families name)).foldl (fun total s => num.add total s.value) (num.ofNat 0) := by
  have hget : (key, value) ∈ totalsByLabel label.toList (samplesOf families name) ↔
      Assoc.get (totalsByLabel label.toList (samplesOf families name)) key = some value :=
    ⟨Assoc.get_of_mem nodup_totalsByLabel, Assoc.mem_of_get⟩
  rw [sumByLabel, List.mem_mergeSort, hget, get_totalsByLabel]
  by_cases hnil : under label.toList key (samplesOf families name) = []
  · simp [hnil]
  · rw [if_neg hnil, Option.some.injEq]
    exact ⟨fun heq => ⟨hnil, heq.symm⟩, fun h => h.2.symm⟩

/-- The sums by a label are those of the amounts that came with each of its values. -/
theorem mem_sumByLabel_counter {name label : String} {key : Text} {value : num.Value}
    (hsamples : samplesOf families name = samplesIn counter.name counter.series) (h : CounterHolds counter puts)
    (hsum : (puts.map Prod.snd).sum ≤ 2 ^ 53) :
    (key, value) ∈ sumByLabel families name label ↔
      (∃ put ∈ puts, Assoc.get put.1 label.toList = some key) ∧
        value = num.ofNat ((puts.filter fun put => Assoc.get put.1 label.toList = some key).map Prod.snd).sum := by
  have hfold : (under label.toList key (samplesOf families name)).foldl (fun total s => num.add total s.value) (num.ofNat 0) =
      num.ofNat ((puts.filter fun put => Assoc.get put.1 label.toList = some key).map Prod.snd).sum := by
    rw [← sum_series h hsum fun labels => decide (Assoc.get labels label.toList = some key), under, hsamples, samplesIn,
      List.filter_map, List.foldl_map, List.foldl_map]
    rfl
  have hnil : under label.toList key (samplesOf families name) ≠ [] ↔
      ∃ put ∈ puts, Assoc.get put.1 label.toList = some key := by
    rw [hsamples]
    constructor
    · intro hne
      obtain ⟨s, hs⟩ := List.exists_mem_of_ne_nil _ hne
      obtain ⟨hs, hkey⟩ := List.mem_filter.mp hs
      obtain ⟨entry, hentry, rfl⟩ := List.mem_map.mp hs
      obtain ⟨put, hput, heq⟩ := List.mem_map.mp (mem_labels h hentry)
      refine ⟨put, hput, ?_⟩
      rw [heq]
      simpa using hkey
    · intro h
      obtain ⟨put, hput, hkey⟩ := h
      obtain ⟨entry, hentry, heq⟩ := List.mem_map.mp ((h.mem put.1).mpr (List.mem_map_of_mem hput))
      apply List.ne_nil_of_mem (a := ⟨counter.name, entry.2.labels, entry.2.value⟩)
      apply List.mem_filter.mpr
      refine ⟨List.mem_map.mpr ⟨entry, hentry, rfl⟩, ?_⟩
      simp only [heq, hkey, decide_true]
  rw [mem_sumByLabel, hnil, hfold]

/-! ## From the registry to the samples -/

variable {metrics : List (Metric num)}

theorem samplesOf_metric {metric : Metric num} {name : String} (hdistinct : (metrics.map Metric.name).Nodup)
    (hmem : metric ∈ metrics) (hname : metric.name = name.toList) :
    samplesOf (metrics.map fun m => (m.name, familyOf m)) name = (familyOf metric).samples := by
  have hkeys : ((metrics.map fun m => (m.name, familyOf m)).map Prod.fst).Nodup := by
    rw [List.map_map]
    exact hdistinct
  rw [samplesOf, ← hname, Assoc.get_of_mem hkeys (List.mem_map_of_mem hmem)]
  rfl

theorem samples_counter : (familyOf (.counter counter)).samples = samplesIn counter.name counter.series := by
  simp [familyOf, Metric.samples, samplesIn]

theorem samples_gauge : (familyOf (.gauge gauge)).samples = samplesIn gauge.name gauge.series := by
  simp [familyOf, Metric.samples, samplesIn]

/-! ## The registry is well formed -/

theorem labelSet_nil : LabelSet [] := ⟨by simp, by simp, List.nodup_nil⟩

theorem labelSet_one {name value : Text} (hname : LabelName name) (hvalue : Clean value) : LabelSet [(name, value)] :=
  ⟨by simpa using hname, by simpa using hvalue, by simp⟩

theorem labelSet_two {name name' value value' : Text} (hname : LabelName name) (hname' : LabelName name') (hne : name ≠ name')
    (hvalue : Clean value) (hvalue' : Clean value') : LabelSet [(name, value), (name', value')] := by
  refine ⟨?_, ?_, by simpa using hne⟩
  · intro l hl
    rcases List.mem_pair.mp hl with rfl | rfl
    · exact hname
    · exact hname'
  · intro l hl
    rcases List.mem_pair.mp hl with rfl | rfl
    · exact hvalue
    · exact hvalue'

theorem clean_digits (chainId : Nat) : Clean (Nat.toDigits 10 chainId) := by
  have hdigit : ∀ c ∈ Nat.toDigits 10 chainId, c.isDigit = true := fun c hc =>
    Nat.isDigit_of_mem_toDigits (by decide) (by decide) hc
  refine ⟨?_, ?_, ?_⟩
  · intro hmem
    have := hdigit _ hmem
    simp [Char.isDigit] at this
  · intro hmem
    have := hdigit _ hmem
    simp [Char.isDigit] at this
  · intro hmem
    have := hdigit _ hmem
    simp [Char.isDigit] at this

theorem clean_text (v : num.Value) : Clean (num.text v) := by
  have hvisible := (num.text_visible v).2
  refine ⟨?_, ?_, ?_⟩
  · intro hmem
    exact absurd (hvisible _ hmem).1 (by decide)
  · intro hmem
    exact absurd (hvisible _ hmem).1 (by decide)
  · intro hmem
    exact absurd (hvisible _ hmem).1 (by decide)

theorem clean_code (code : PolicyDenialCode) : Clean (codeText code).toList := by
  cases code <;> decide

theorem clean_outcome (outcome : Metrics.Outcome) : Clean outcome.text.toList := by
  cases outcome <;> decide

theorem clean_rejection (reason : Rejection) : Clean reason.text.toList := by
  cases reason <;> decide

theorem labelSet_chain (chainId : Nat) : LabelSet [chainLabel chainId] := labelSet_one (by decide) (clean_digits chainId)

structure Unlabelled (histogram : Histogram num) : Prop where
  name : histogram.name = (PaymasterMetrics.init num).evalDuration.name
  help : histogram.help = (PaymasterMetrics.init num).evalDuration.help
  labels : ∀ entry ∈ histogram.series, entry.2.labels = []

theorem unlabelled_observe {histogram : Histogram num} {seconds : num.Value} (h : Unlabelled histogram) :
    Unlabelled (histogram.observe seconds []) := by
  refine ⟨h.name, h.help, ?_⟩
  intro entry hentry
  rcases Assoc.mem_set hentry with hold | rfl
  · exact h.labels entry hold
  · show Series.labels (Option.getD (Assoc.get histogram.series (seriesKey [])) _) = []
    cases hget : Assoc.get histogram.series (seriesKey []) with
    | none => rfl
    | some existing => exact h.labels _ (Assoc.mem_of_get hget)

theorem unlabelled_record {m : PaymasterMetrics num} {e : MetricsEvent num} (h : Unlabelled m.evalDuration) :
    Unlabelled (m.record e).evalDuration := by
  cases e with
  | ipRejection reason => exact h
  | authFailure blocked => cases blocked <;> exact h
  | circuitState chainId state => exact h
  | decision policyId decided seconds =>
    simp only [PaymasterMetrics.record, PaymasterMetrics.onDecision]
    split
    · exact h
    · split <;> exact unlabelled_observe h
  | sponsorship chainId outcome committedWei =>
    simp only [PaymasterMetrics.record, PaymasterMetrics.recordSponsorship]
    split <;> exact h
  | chainHealth chainId healthy blockNumber => cases blockNumber <;> exact h
  | funding results =>
    show Unlabelled (results.foldl PaymasterMetrics.recordResult m).evalDuration
    induction results generalizing m with
    | nil => exact h
    | cons result results ih =>
      apply ih
      cases result <;> exact h

theorem unlabelled_after (es : List (MetricsEvent num)) : Unlabelled (after es).evalDuration := by
  induction es using List.reverseRecOn with
  | nil => exact ⟨rfl, rfl, by simp [after, PaymasterMetrics.init]⟩
  | append_singleton es e ih =>
    have hlast : after (es ++ [e]) = (after es).record e := by simp [after]
    rw [hlast]
    exact unlabelled_record ih

def headOf (metric : Metric num) : Text × Text × MetricType := (metric.name, metric.help, metric.type)

theorem heads_after (es : List (MetricsEvent num)) :
    (after es).registry.map headOf = (PaymasterMetrics.init num).registry.map headOf := by
  have hfed := fed_after es
  have hduration := unlabelled_after es
  simp only [PaymasterMetrics.registry, List.map_cons, List.map_nil, headOf, Metric.name, Metric.help, Metric.type,
    hfed.decisions, hfed.denials, hfed.sponsorships, hfed.gasCommitted, hfed.chainHealthy, hfed.chainBlock, hfed.deposit,
    hfed.stake, hfed.fundingBelow, hfed.circuit, hfed.authFailures, hfed.ipRejections, hfed.ipBlocks, incAll_name, setAll_name,
    hduration.name, hduration.help]

theorem head_mem {metric : Metric num} {es : List (MetricsEvent num)} (h : metric ∈ (after es).registry) :
    headOf metric ∈ (PaymasterMetrics.init wholeNumbers).registry.map headOf := by
  have hsame : (PaymasterMetrics.init wholeNumbers).registry.map headOf = (PaymasterMetrics.init num).registry.map headOf := rfl
  rw [hsame, ← heads_after es]
  exact List.mem_map_of_mem h

theorem names_distinct (es : List (MetricsEvent num)) : ((after es).registry.map Metric.name).Nodup := by
  have hnames : (after es).registry.map Metric.name = ((PaymasterMetrics.init wholeNumbers).registry.map headOf).map Prod.fst := by
    have hsame : (PaymasterMetrics.init wholeNumbers).registry.map headOf = (PaymasterMetrics.init num).registry.map headOf := rfl
    rw [hsame, ← heads_after es, List.map_map]
    rfl
  rw [hnames]
  decide +kernel

theorem heads_readable : ∀ m ∈ (PaymasterMetrics.init wholeNumbers).registry.map headOf, MetricName m.1 ∧ HelpText m.2.1 := by
  decide +kernel

theorem heads_unsuffixed : ∀ m ∈ (PaymasterMetrics.init wholeNumbers).registry.map headOf,
    ∀ h ∈ (PaymasterMetrics.init wholeNumbers).registry.map headOf,
      m.2.2 ≠ .histogram → h.2.2 = .histogram → baseName m.1 ≠ h.1 := by
  decide +kernel

theorem labels_counter (h : CounterHolds counter puts) (hlabels : ∀ put ∈ puts, LabelSet put.1) :
    ∀ s ∈ (Metric.counter counter).samples, LabelSet s.2.1 := by
  intro s hs
  obtain ⟨entry, hentry, rfl⟩ := List.mem_map.mp hs
  obtain ⟨put, hput, heq⟩ := List.mem_map.mp (mem_labels h hentry)
  show LabelSet entry.2.labels
  rw [← heq]
  exact hlabels put hput

theorem labels_gauge (h : GaugeHolds gauge puts) (hlabels : ∀ put ∈ puts, LabelSet put.1) :
    ∀ s ∈ (Metric.gauge gauge).samples, LabelSet s.2.1 := by
  intro s hs
  obtain ⟨entry, hentry, rfl⟩ := List.mem_map.mp hs
  obtain ⟨put, hput, heq⟩ := List.mem_map.mp (mem_labels h hentry)
  show LabelSet entry.2.labels
  rw [← heq]
  exact hlabels put hput

theorem labels_histogram {histogram : Histogram num} (h : Unlabelled histogram) :
    ∀ s ∈ (Metric.histogram histogram).samples, LabelSet s.2.1 := by
  intro s hs
  obtain ⟨entry, hentry, hs⟩ := List.mem_flatMap.mp hs
  have hnone := h.labels entry hentry
  simp only [Histogram.samples, hnone, List.nil_append, List.mem_append, List.mem_map, List.mem_cons, List.not_mem_nil,
    or_false] at hs
  rcases hs with ⟨bucket, -, rfl⟩ | rfl | rfl | rfl
  · exact labelSet_one (by decide) (clean_text _)
  · exact labelSet_one (by decide) (by decide)
  · exact labelSet_nil
  · exact labelSet_nil

theorem labels_chain (h : ∀ put ∈ puts, ∃ chainId, put.1 = [chainLabel chainId]) : ∀ put ∈ puts, LabelSet put.1 := by
  intro put hput
  obtain ⟨chainId, heq⟩ := h put hput
  rw [heq]
  exact labelSet_chain chainId

theorem labels_empty (h : ∀ put ∈ puts, put.1 = []) : ∀ put ∈ puts, LabelSet put.1 := by
  intro put hput
  rw [h put hput]
  exact labelSet_nil

/-- The registry can be read back, whatever was recorded under rules with plain names. -/
theorem wellFormed_after {es : List (MetricsEvent num)} (h : ∀ e ∈ es, e.Names fun rule => Clean rule.toList) :
    WellFormed (after es).registry := by
  have hholds := holds_after es
  have hshaped := shaped_putsOf h
  refine ⟨?_, names_distinct es, ?_⟩
  · intro metric hmetric
    obtain ⟨hname, hhelp⟩ := heads_readable _ (head_mem hmetric)
    refine ⟨hname, hhelp, ?_⟩
    simp only [PaymasterMetrics.registry, List.mem_cons, List.not_mem_nil, or_false] at hmetric
    rcases hmetric with rfl | rfl | rfl | rfl | rfl | rfl | rfl | rfl | rfl | rfl | rfl | rfl | rfl | rfl
    · apply labels_counter hholds.decisions
      intro put hput
      obtain ⟨outcome, houtcome, heq⟩ := hshaped.decisions put hput
      rw [heq]
      apply labelSet_one (by decide)
      rcases List.mem_pair.mp houtcome with rfl | rfl <;> decide
    · apply labels_counter hholds.denials
      intro put hput
      obtain ⟨rule, code, hrule, heq⟩ := hshaped.denials put hput
      rw [heq]
      exact labelSet_two (by decide) (by decide) (by decide) hrule (clean_code code)
    · exact labels_histogram (unlabelled_after es)
    · apply labels_counter hholds.sponsorships
      intro put hput
      obtain ⟨chainId, outcome, heq⟩ := hshaped.sponsorships put hput
      rw [heq]
      exact labelSet_two (by decide) (by decide) (by decide) (clean_digits chainId) (clean_outcome outcome)
    · exact labels_counter hholds.gasCommitted (labels_chain hshaped.gasCommitted)
    · exact labels_gauge hholds.chainHealthy (labels_chain hshaped.chainHealthy)
    · exact labels_gauge hholds.chainBlock (labels_chain hshaped.chainBlock)
    · exact labels_gauge hholds.deposit (labels_chain hshaped.deposit)
    · exact labels_gauge hholds.stake (labels_chain hshaped.stake)
    · apply labels_gauge hholds.fundingBelow
      intro put hput
      obtain ⟨chainId, kind, hkind, heq⟩ := hshaped.fundingBelow put hput
      rw [heq]
      apply labelSet_two (by decide) (by decide) (by decide) (clean_digits chainId)
      simp only [List.mem_cons, List.not_mem_nil, or_false] at hkind
      rcases hkind with rfl | rfl | rfl <;> decide
    · exact labels_gauge hholds.circuit (labels_chain hshaped.circuit)
    · exact labels_counter hholds.authFailures (labels_empty hshaped.authFailures)
    · apply labels_counter hholds.ipRejections
      intro put hput
      obtain ⟨reason, heq⟩ := hshaped.ipRejections put hput
      rw [heq]
      exact labelSet_one (by decide) (clean_rejection reason)
    · exact labels_counter hholds.ipBlocks (labels_empty hshaped.ipBlocks)
  · intro metric hmetric other hother
    exact heads_unsuffixed _ (head_mem hmetric) _ (head_mem hother)

end

end Paymaster.Dashboard
