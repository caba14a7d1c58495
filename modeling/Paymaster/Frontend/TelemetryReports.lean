import Paymaster.Backend.RecordedEvents
import Paymaster.Frontend.Telemetry

/-!
# The dashboard says what happened

From the text that the backend rendered the dashboard derives how often each
kind of event was recorded, and of each chain what was observed last.
-/

namespace Paymaster.Dashboard

open Metrics Prometheus

/-! ## What is to be shown -/

section
variable {num : Numbers}

structure ChainReports (es : List (MetricsEvent num)) (health : Option HealthView) (chainId : Nat) (view : ChainView num) :
    Prop where
  named : view.chainId = Nat.toDigits 10 chainId
  healthy : view.healthy = ((HealthView.chain health view.chainId).map HealthChain.healthy).or (lastOf (healths es) chainId)
  blockNumber : (HealthView.chain health view.chainId).bind HealthChain.blockNumber = none →
    view.blockNumber = (lastOf (blocks es) chainId).map num.ofNat
  circuitOpen : view.circuitOpen = (lastOf (circuits es) chainId).map fun state => decide (state ≠ .closed)
  depositWei : view.depositWei = (lastOf (fundings es) chainId).map fun funding => num.ofNat funding.deposit
  stakeWei : view.stakeWei = (lastOf (fundings es) chainId).map fun funding => num.ofNat funding.stake
  depositBelowThreshold :
    view.depositBelowThreshold = (lastOf (fundings es) chainId).map PaymasterFunding.depositBelowThreshold
  stakeBelowThreshold : view.stakeBelowThreshold = (lastOf (fundings es) chainId).map PaymasterFunding.stakeBelowThreshold
  fundingUnreadable : view.fundingUnreadable = (lastOf (failed es) chainId).getD false
  issued : view.sponsorships.issued =
    num.ofNat ((Metrics.sponsored es).countP fun s => s.1 = chainId && s.2.1 = .issued)
  denied : view.sponsorships.denied =
    num.ofNat ((Metrics.sponsored es).countP fun s => s.1 = chainId && s.2.1 = .denied)
  error : view.sponsorships.error =
    num.ofNat ((Metrics.sponsored es).countP fun s => s.1 = chainId && s.2.1 = .error)
  gasCommittedWei : ((issuedWei es).map Prod.snd).sum ≤ 2 ^ 53 →
    view.gasCommittedWei = num.ofNat (((issuedWei es).filter fun s => s.1 = chainId).map Prod.snd).sum

/-- The chains that the dashboard shows. -/
def Mentioned (es : List (MetricsEvent num)) (health : Option HealthView) (chainId : Nat) : Prop :=
  (∃ o ∈ healths es, o.1 = chainId) ∨ (∃ o ∈ fundings es, o.1 = chainId) ∨
    (∃ s ∈ Metrics.sponsored es, s.1 = chainId) ∨
    ∃ c ∈ (health.bind HealthView.chains).getD [], c.chainId = chainId

/-- The totals by a key: of each key that came, how often it did. -/
def Tallied {α : Type} [DecidableEq α] (totals : List (Text × num.Value)) (keys : List α) (text : α → Text) : Prop :=
  ∀ key value, (key, value) ∈ totals ↔ ∃ k ∈ keys, key = text k ∧ value = num.ofNat (keys.count k)

structure Reports (es : List (MetricsEvent num)) (health : Option HealthView) (t : Telemetry num) : Prop where
  issued : t.sponsorships.issued = num.ofNat ((Metrics.sponsored es).countP fun s => s.2.1 = .issued)
  denied : t.sponsorships.denied = num.ofNat ((Metrics.sponsored es).countP fun s => s.2.1 = .denied)
  error : t.sponsorships.error = num.ofNat ((Metrics.sponsored es).countP fun s => s.2.1 = .error)
  total : t.total = num.ofNat (Metrics.sponsored es).length
  gasCommittedWei : ((issuedWei es).map Prod.snd).sum ≤ 2 ^ 53 →
    t.gasCommittedWei = num.ofNat ((issuedWei es).map Prod.snd).sum
  allowed : t.allowed = num.ofNat ((decided es).count .allow)
  refused : t.denied = num.ofNat (denials es).length
  denialsByRule : Tallied t.denialsByRule ((denials es).map PolicyDenial.rule) String.toList
  denialsByCode : Tallied t.denialsByCode ((denials es).map PolicyDenial.code) fun code => (codeText code).toList
  authFailures : t.authFailures = num.ofNat (failures es).length
  ipBlocks : t.ipBlocks = num.ofNat ((failures es).count true)
  rejectionsByReason : Tallied t.rejectionsByReason (rejections es) fun reason => reason.text.toList
  chains : ∀ view ∈ t.chains, ∃ chainId, ChainReports es health chainId view
  mentioned : ∀ chainId, Nat.toDigits 10 chainId ∈ t.chains.map ChainView.chainId ↔ Mentioned es health chainId
  nodup : (t.chains.map ChainView.chainId).Nodup

end

/-! ## The labels that are read -/

section
variable {num : Numbers} {es : List (MetricsEvent num)} {labels wanted : Labels} {p : Labels → Bool}

theorem toDigits_inj {m n : Nat} : Nat.toDigits 10 m = Nat.toDigits 10 n ↔ m = n := by
  constructor
  · intro h
    have hread := congrArg (Numeral.read 10) h
    rw [Numeral.read_toDigits (by decide) (by decide), Numeral.read_toDigits (by decide) (by decide)] at hread
    exact Option.some.inj hread
  · intro h
    rw [h]

theorem chainLabel_inj {m n : Nat} : chainLabel m = chainLabel n ↔ m = n := by
  simp [chainLabel, toDigits_inj]

theorem matching_nil : matching [] labels = true := rfl

theorem matching_one {key value : Text} : matching [(key, value)] labels = decide (Assoc.get labels key = some value) := by
  simp [matching]

theorem matching_cons {l : Text × Text} : matching (l :: wanted) labels = (matching [l] labels && matching wanted labels) := by
  simp [matching]

theorem matching_chain {chainId c : Nat} {rest : Labels} :
    matching [chainWanted (Nat.toDigits 10 chainId)] (chainLabel c :: rest) = decide (c = chainId) := by
  unfold chainWanted
  rw [matching_one]
  show decide (some (Nat.toDigits 10 c) = some (Nat.toDigits 10 chainId)) = _
  simp [toDigits_inj]

theorem matching_outcome {c : Nat} {o outcome : Metrics.Outcome} :
    matching [label "outcome" outcome.text] [chainLabel c, label "outcome" o.text] = decide (o = outcome) := by
  cases o <;> cases outcome <;> rfl

/-! ## What is read of the scrape -/

def familiesOf (es : List (MetricsEvent num)) : Families num := (after es).registry.map fun m => (m.name, familyOf m)

theorem samples_of_counter {counter : Counter num} {name : String} (hmem : .counter counter ∈ (after es).registry)
    (hname : counter.name = name.toList) : samplesOf (familiesOf es) name = samplesIn counter.name counter.series := by
  rw [familiesOf, samplesOf_metric (names_distinct es) hmem hname, samples_counter]

theorem samples_of_gauge {gauge : Gauge num} {name : String} (hmem : .gauge gauge ∈ (after es).registry)
    (hname : gauge.name = name.toList) : samplesOf (familiesOf es) name = samplesIn gauge.name gauge.series := by
  rw [familiesOf, samplesOf_metric (names_distinct es) hmem hname, samples_gauge]

structure Sampled (families : Families num) (m : PaymasterMetrics num) : Prop where
  decisions : samplesOf families "paymaster_policy_decisions_total" = samplesIn m.decisions.name m.decisions.series
  denials : samplesOf families "paymaster_policy_denials_total" = samplesIn m.denials.name m.denials.series
  sponsorships : samplesOf families "paymaster_sponsorships_total" = samplesIn m.sponsorships.name m.sponsorships.series
  gasCommitted : samplesOf families "paymaster_gas_committed_wei_total" = samplesIn m.gasCommitted.name m.gasCommitted.series
  chainHealthy : samplesOf families "paymaster_chain_healthy" = samplesIn m.chainHealthy.name m.chainHealthy.series
  chainBlock : samplesOf families "paymaster_chain_block_number" = samplesIn m.chainBlock.name m.chainBlock.series
  deposit : samplesOf families "paymaster_deposit_wei" = samplesIn m.deposit.name m.deposit.series
  stake : samplesOf families "paymaster_stake_wei" = samplesIn m.stake.name m.stake.series
  fundingBelow :
    samplesOf families "paymaster_funding_below_threshold" = samplesIn m.fundingBelow.name m.fundingBelow.series
  circuit : samplesOf families "paymaster_chain_circuit_open" = samplesIn m.circuit.name m.circuit.series
  authFailures : samplesOf families "paymaster_auth_failures_total" = samplesIn m.authFailures.name m.authFailures.series
  ipRejections : samplesOf families "paymaster_ip_rejections_total" = samplesIn m.ipRejections.name m.ipRejections.series
  ipBlocks : samplesOf families "paymaster_ip_blocks_total" = samplesIn m.ipBlocks.name m.ipBlocks.series

theorem sampled_after (es : List (MetricsEvent num)) : Sampled (familiesOf es) (after es) := by
  have hfed := fed_after es
  constructor
  case decisions => exact samples_of_counter (by simp [PaymasterMetrics.registry]) (by rw [hfed.decisions, (incAll_name _).1]; rfl)
  case denials => exact samples_of_counter (by simp [PaymasterMetrics.registry]) (by rw [hfed.denials, (incAll_name _).1]; rfl)
  case sponsorships =>
    exact samples_of_counter (by simp [PaymasterMetrics.registry]) (by rw [hfed.sponsorships, (incAll_name _).1]; rfl)
  case gasCommitted =>
    exact samples_of_counter (by simp [PaymasterMetrics.registry]) (by rw [hfed.gasCommitted, (incAll_name _).1]; rfl)
  case chainHealthy =>
    exact samples_of_gauge (by simp [PaymasterMetrics.registry]) (by rw [hfed.chainHealthy, (setAll_name _).1]; rfl)
  case chainBlock => exact samples_of_gauge (by simp [PaymasterMetrics.registry]) (by rw [hfed.chainBlock, (setAll_name _).1]; rfl)
  case deposit => exact samples_of_gauge (by simp [PaymasterMetrics.registry]) (by rw [hfed.deposit, (setAll_name _).1]; rfl)
  case stake => exact samples_of_gauge (by simp [PaymasterMetrics.registry]) (by rw [hfed.stake, (setAll_name _).1]; rfl)
  case fundingBelow =>
    exact samples_of_gauge (by simp [PaymasterMetrics.registry]) (by rw [hfed.fundingBelow, (setAll_name _).1]; rfl)
  case circuit => exact samples_of_gauge (by simp [PaymasterMetrics.registry]) (by rw [hfed.circuit, (setAll_name _).1]; rfl)
  case authFailures =>
    exact samples_of_counter (by simp [PaymasterMetrics.registry]) (by rw [hfed.authFailures, (incAll_name _).1]; rfl)
  case ipRejections =>
    exact samples_of_counter (by simp [PaymasterMetrics.registry]) (by rw [hfed.ipRejections, (incAll_name _).1]; rfl)
  case ipBlocks => exact samples_of_counter (by simp [PaymasterMetrics.registry]) (by rw [hfed.ipBlocks, (incAll_name _).1]; rfl)

/-! ### Counters -/

section
variable {β : Type} {counter : Counter num} {families : Families num} {name : String} {xs : List β} {l : β → Labels}
  {key : Text} {value : num.Value}

/-- A counter that every event of a kind increments by one is read as their number. -/
theorem sumOf_singles (hsamples : samplesOf families name = samplesIn counter.name counter.series)
    (h : CounterHolds counter (xs.flatMap fun x => [(l x, 1)])) (hlength : xs.length ≤ 2 ^ 53) :
    sumOf families name wanted = num.ofNat (xs.countP fun x => matching wanted (l x)) := by
  rw [sumOf_counter hsamples h (by rw [total_singles]; exact hlength), count_singles]

theorem tallied_singles {α : Type} [DecidableEq α] {label : String} {keyOf : β → α} {text : α → Text}
    (hsamples : samplesOf families name = samplesIn counter.name counter.series)
    (h : CounterHolds counter (xs.flatMap fun x => [(l x, 1)])) (hlength : xs.length ≤ 2 ^ 53)
    (hget : ∀ x, Assoc.get (l x) label.toList = some (text (keyOf x))) (hinj : ∀ a b, text a = text b → a = b) :
    Tallied (sumByLabel families name label) (xs.map keyOf) text := by
  intro key value
  rw [mem_sumByLabel_counter hsamples h (by rw [total_singles]; exact hlength)]
  have hcount : ∀ k, ((((xs.flatMap fun x => [(l x, 1)]).filter fun put =>
      Assoc.get put.1 label.toList = some (text k)).map Prod.snd).sum) = (xs.map keyOf).count k := by
    intro k
    have hsum := @count_singles (fun labels => decide (Assoc.get labels label.toList = some (text k))) _ xs l
    rw [hsum, List.count, List.countP_map]
    apply List.countP_congr
    intro x _
    rw [hget]
    simp only [Option.some.injEq, decide_eq_true_eq, Function.comp, beq_iff_eq]
    exact ⟨hinj _ _, fun heq => by rw [heq]⟩
  constructor
  · intro h
    obtain ⟨⟨put, hput, hkey⟩, hvalue⟩ := h
    obtain ⟨x, hx, rfl⟩ := mem_singles.mp hput
    rw [hget, Option.some.injEq] at hkey
    refine ⟨keyOf x, List.mem_map_of_mem hx, hkey.symm, ?_⟩
    rw [hvalue, ← hcount, hkey]
  · intro h
    obtain ⟨k, hk, hkey, hvalue⟩ := h
    obtain ⟨x, hx, rfl⟩ := List.mem_map.mp hk
    refine ⟨⟨(l x, 1), mem_singles.mpr ⟨x, hx, rfl⟩, by rw [hget, hkey]⟩, ?_⟩
    rw [hvalue, ← hcount, hkey]

end

theorem outcomes_total {ss : List (Nat × Metrics.Outcome × Nat)} : (ss.countP fun s => s.2.1 = .issued) +
    (ss.countP fun s => s.2.1 = .denied) + (ss.countP fun s => s.2.1 = .error) = ss.length := by
  induction ss with
  | nil => rfl
  | cons s ss ih =>
    obtain ⟨chainId, outcome, wei⟩ := s
    cases outcome
    all_goals
      simp only [List.countP_cons, List.length_cons, reduceCtorEq, decide_true, decide_false, if_true, if_false, Nat.add_zero,
        Bool.false_eq_true]
      omega

theorem gas_sum {ss : List (Nat × Metrics.Outcome × Nat)} :
    (((ss.flatMap fun s => if s.2.1 = .issued ∧ 0 < s.2.2 then [([chainLabel s.1], s.2.2)] else []).filter
        fun put => p put.1).map Prod.snd).sum =
      (((ss.flatMap fun s => if s.2.1 = .issued then [(s.1, s.2.2)] else []).filter
        fun s => p [chainLabel s.1]).map Prod.snd).sum := by
  induction ss with
  | nil => rfl
  | cons s ss ih =>
    rw [List.flatMap_cons, List.flatMap_cons, List.filter_append, List.filter_append, List.map_append, List.map_append,
      List.sum_append, List.sum_append, ih]
    congr 1
    by_cases hissued : s.2.1 = .issued
    · by_cases hwei : 0 < s.2.2
      · by_cases hp : p [chainLabel s.1] = true <;> simp [hissued, hwei, hp]
      · have hzero : s.2.2 = 0 := by omega
        by_cases hp : p [chainLabel s.1] = true <;> simp [hissued, hzero, hp]
    · simp [hissued]

theorem sumOf_gas (hfits : ((issuedWei es).map Prod.snd).sum ≤ 2 ^ 53) :
    sumOf (familiesOf es) "paymaster_gas_committed_wei_total" wanted =
      num.ofNat (((issuedWei es).filter fun s => matching wanted [chainLabel s.1]).map Prod.snd).sum := by
  have htotal : ((putsOf es).gasCommitted.map Prod.snd).sum ≤ 2 ^ 53 := by
    have hall := @gas_sum (fun _ => true) (Metrics.sponsored es)
    simp only [List.filter_true] at hall
    rw [gasCommitted_eq, hall]
    exact hfits
  rw [sumOf_counter (sampled_after es).gasCommitted (holds_after es).gasCommitted htotal, gasCommitted_eq, gas_sum]
  rfl

/-! ### Gauges -/

section
variable {β : Type} {gauge : Gauge num} {families : Families num} {name : String} {xs : List (Nat × β)} {chainId : Nat}

/-- A gauge that every observation of a chain sets is read as the last one. -/
theorem valueOf_chain (g : β → Nat) (hsamples : samplesOf families name = samplesIn gauge.name gauge.series)
    (h : GaugeHolds gauge (xs.flatMap fun o => [([chainLabel o.1], g o.2)])) :
    valueOf families name [chainWanted (Nat.toDigits 10 chainId)] = (lastOf xs chainId).map fun b => num.ofNat (g b) := by
  have honly : ∀ put ∈ xs.flatMap fun o => [([chainLabel o.1], g o.2)],
      matching [chainWanted (Nat.toDigits 10 chainId)] put.1 = true ↔ put.1 = [chainLabel chainId] := by
    intro put hput
    obtain ⟨o, -, rfl⟩ := mem_singles.mp hput
    simp [matching_chain, chainLabel_inj]
  have hamounts : amountsOf (xs.flatMap fun o => [([chainLabel o.1], g o.2)]) [chainLabel chainId] =
      ((xs.filter fun o => o.1 = chainId).map Prod.snd).map g := by
    rw [amountsOf_singles, List.map_map]
    simp [chainLabel_inj, Function.comp_def]
  rw [valueOf_gauge hsamples h honly, hamounts, List.getLast?_map, Option.map_map]
  rfl

theorem isOne_flag {o : Option β} {f : β → Bool} : isOne (o.map fun b => num.ofNat (flag (f b))) = o.map f := by
  cases o with
  | none => rfl
  | some b =>
    have hsame : num.same (num.ofNat (flag (f b))) (num.ofNat 1) = f b := by
      rw [num.same_ofNat _ _ (by unfold flag; split <;> decide) (by decide)]
      cases f b <;> rfl
    simp [isOne, hsame]

end

theorem matching_kind {chainId c : Nat} {kind k : String} :
    matching [chainWanted (Nat.toDigits 10 chainId), label "kind" kind] [chainLabel c, label "kind" k] =
      (decide (c = chainId) && decide (k = kind)) := by
  rw [matching_cons, matching_chain]
  unfold label
  rw [matching_one]
  show (_ && decide (some k.toList = some kind.toList)) = _
  simp [String.toList_inj]

/-- What the readings set under one kind is the last of it. -/
theorem booleanGauge_eq {β : Type} {xs : List (Nat × β)} {f : β → Bool} {chainId : Nat} {kind : String}
    (hamounts : amountsOf (putsOf es).fundingBelow [chainLabel chainId, label "kind" kind] =
      ((xs.filter fun o => o.1 = chainId).map Prod.snd).map fun b => flag (f b)) :
    booleanGauge (familiesOf es) (Nat.toDigits 10 chainId) kind = (lastOf xs chainId).map f := by
  have hshaped : Shaped (fun _ => True) (putsOf es) := by
    apply shaped_putsOf
    intro e _
    unfold MetricsEvent.Names
    split <;> trivial
  have honly : ∀ put ∈ (putsOf es).fundingBelow,
      matching [chainWanted (Nat.toDigits 10 chainId), label "kind" kind] put.1 = true ↔
        put.1 = [chainLabel chainId, label "kind" kind] := by
    intro put hput
    obtain ⟨c, k, -, heq⟩ := hshaped.fundingBelow put hput
    rw [heq, matching_kind]
    simp [chainLabel_inj, label, String.toList_inj]
  have hvalue := valueOf_gauge (sampled_after es).fundingBelow (holds_after es).fundingBelow honly
  rw [hamounts, List.getLast?_map, Option.map_map] at hvalue
  rw [booleanGauge, hvalue]
  exact isOne_flag

theorem amounts_readings {β : Type} {observed : FundingResult → List (Nat × β)} {f : β → Bool} {chainId : Nat} {kind : String}
    (h : ∀ result : FundingResult, amountsOf result.puts.fundingBelow [chainLabel chainId, label "kind" kind] =
      (((observed result).filter fun o => o.1 = chainId).map Prod.snd).map fun b => flag (f b)) :
    amountsOf (putsOf es).fundingBelow [chainLabel chainId, label "kind" kind] =
      ((((readings es).flatMap observed).filter fun o => o.1 = chainId).map Prod.snd).map fun b => flag (f b) := by
  rw [fundingBelow_eq]
  induction readings es with
  | nil => rfl
  | cons result results ih =>
    have hfirst := h result
    unfold amountsOf at ih hfirst ⊢
    rw [List.flatMap_cons, List.filter_append, List.map_append, hfirst, ih, List.flatMap_cons, List.filter_append,
      List.map_append, List.map_append]

theorem label_inj {name value value' : String} : label name value = label name value' ↔ value = value' := by
  simp [label, String.toList_inj]

theorem deposit_shown {chainId : Nat} : booleanGauge (familiesOf es) (Nat.toDigits 10 chainId) "deposit" =
    (lastOf (fundings es) chainId).map PaymasterFunding.depositBelowThreshold := by
  apply booleanGauge_eq
  apply amounts_readings
  intro result
  cases result with
  | failed c error => simp [FundingResult.puts, amountsOf, label_inj]
  | ok c funding => by_cases hc : c = chainId <;> simp [FundingResult.puts, amountsOf, label_inj, chainLabel_inj, hc]

theorem stake_shown {chainId : Nat} : booleanGauge (familiesOf es) (Nat.toDigits 10 chainId) "stake" =
    (lastOf (fundings es) chainId).map PaymasterFunding.stakeBelowThreshold := by
  apply booleanGauge_eq
  apply amounts_readings
  intro result
  cases result with
  | failed c error => simp [FundingResult.puts, amountsOf, label_inj]
  | ok c funding => by_cases hc : c = chainId <;> simp [FundingResult.puts, amountsOf, label_inj, chainLabel_inj, hc]

theorem error_shown {chainId : Nat} : booleanGauge (familiesOf es) (Nat.toDigits 10 chainId) "read_error" =
    lastOf (failed es) chainId := by
  have hshown := @booleanGauge_eq _ es _ (failed es) id chainId "read_error" (by
    apply amounts_readings
    intro result
    cases result with
    | failed c error => by_cases hc : c = chainId <;> simp [FundingResult.puts, amountsOf, chainLabel_inj, hc, flag]
    | ok c funding => by_cases hc : c = chainId <;> simp [FundingResult.puts, amountsOf, label_inj, chainLabel_inj, hc, flag])
  rw [hshown, Option.map_id]
  rfl

/-! ### The chains -/

theorem mem_labelValues {before : Text → Text → Bool} {families : Families num} {name label : String} {value : Text} :
    value ∈ labelValues before families name label ↔
      ∃ s ∈ samplesOf families name, Assoc.get s.labels label.toList = some value := by
  rw [labelValues, List.mem_mergeSort, mem_distinct, List.mem_filterMap]

theorem mem_chains {before : Text → Text → Bool} {β : Type} {families : Families num} {name : String} {xs : List β}
    {chainOf : β → Nat} {rest : β → Labels} {n : β → Nat} {metric : Text} {series : SeriesMap num.Value} {f : Labels → num.Value}
    {value : Text} (hsamples : samplesOf families name = samplesIn metric series)
    (h : SeriesOf f ((xs.flatMap fun x => [(chainLabel (chainOf x) :: rest x, n x)]).map Prod.fst) series) :
    value ∈ labelValues before families name "chain" ↔ ∃ x ∈ xs, Nat.toDigits 10 (chainOf x) = value := by
  have hget : ∀ x, Assoc.get (chainLabel (chainOf x) :: rest x) "chain".toList = some (Nat.toDigits 10 (chainOf x)) :=
    fun _ => rfl
  rw [mem_labelValues, hsamples]
  constructor
  · intro h
    obtain ⟨s, hs, hvalue⟩ := h
    obtain ⟨entry, hentry, rfl⟩ := List.mem_map.mp hs
    obtain ⟨put, hput, heq⟩ := List.mem_map.mp (mem_labels h hentry)
    obtain ⟨x, hx, rfl⟩ := mem_singles.mp hput
    rw [← heq, hget, Option.some.injEq] at hvalue
    exact ⟨x, hx, hvalue⟩
  · intro h
    obtain ⟨x, hx, hvalue⟩ := h
    have hmem : chainLabel (chainOf x) :: rest x ∈
        (xs.flatMap fun x => [(chainLabel (chainOf x) :: rest x, n x)]).map Prod.fst :=
      List.mem_map.mpr ⟨_, mem_singles.mpr ⟨x, hx, rfl⟩, rfl⟩
    obtain ⟨entry, hentry, heq⟩ := List.mem_map.mp ((h.mem _).mpr hmem)
    refine ⟨_, List.mem_map.mpr ⟨entry, hentry, rfl⟩, ?_⟩
    rw [heq, hget, hvalue]

variable {before : Text → Text → Bool} {health : Option HealthView} {chainId : Nat}

theorem mem_chainIds {value : Text} : value ∈ chainIds before (familiesOf es) health ↔
    ∃ c, value = Nat.toDigits 10 c ∧ Mentioned es health c := by
  have hsampled := sampled_after es
  have hholds := holds_after es
  have hhealthy := hholds.chainHealthy
  have hdeposit := hholds.deposit
  have hsponsorships := hholds.sponsorships
  rw [chainHealthy_eq] at hhealthy
  rw [deposit_eq] at hdeposit
  rw [sponsorships_eq] at hsponsorships
  rw [chainIds, mem_distinct, List.mem_append, List.mem_append, List.mem_append, mem_chains hsampled.chainHealthy hhealthy,
    mem_chains hsampled.deposit hdeposit, mem_chains hsampled.sponsorships hsponsorships, List.mem_map]
  constructor
  · intro hor
    rcases hor with ((⟨o, ho, rfl⟩ | ⟨o, ho, rfl⟩) | ⟨s, hs, rfl⟩) | ⟨c, hc, rfl⟩
    · exact ⟨o.1, rfl, .inl ⟨o, ho, rfl⟩⟩
    · exact ⟨o.1, rfl, .inr (.inl ⟨o, ho, rfl⟩)⟩
    · exact ⟨s.1, rfl, .inr (.inr (.inl ⟨s, hs, rfl⟩))⟩
    · exact ⟨c.chainId, rfl, .inr (.inr (.inr ⟨c, hc, rfl⟩))⟩
  · intro h
    obtain ⟨c, hvalue, hmentioned⟩ := h
    subst hvalue
    rcases hmentioned with ⟨o, ho, rfl⟩ | ⟨o, ho, rfl⟩ | ⟨s, hs, rfl⟩ | ⟨c, hc, rfl⟩
    · exact .inl (.inl (.inl ⟨o, ho, rfl⟩))
    · exact .inl (.inl (.inr ⟨o, ho, rfl⟩))
    · exact .inl (.inr ⟨s, hs, rfl⟩)
    · exact .inr ⟨c, hc, rfl⟩

theorem outcomeCounts_eq {outcome : Metrics.Outcome} (hlength : es.length ≤ 2 ^ 53) :
    sumOf (familiesOf es) "paymaster_sponsorships_total" (wanted ++ [label "outcome" outcome.text]) =
      num.ofNat ((Metrics.sponsored es).countP fun s =>
        matching (wanted ++ [label "outcome" outcome.text]) [chainLabel s.1, label "outcome" s.2.1.text]) := by
  have hholds := (holds_after es).sponsorships
  rw [sponsorships_eq] at hholds
  exact sumOf_singles (sampled_after es).sponsorships hholds (length_sponsored.trans hlength)

theorem outcome_total (outcome : Metrics.Outcome) (hlength : es.length ≤ 2 ^ 53) :
    sumOf (familiesOf es) "paymaster_sponsorships_total" ([] ++ [label "outcome" outcome.text]) =
      num.ofNat ((Metrics.sponsored es).countP fun s => s.2.1 = outcome) := by
  rw [outcomeCounts_eq hlength]
  simp only [List.nil_append, matching_outcome]

theorem outcome_on (outcome : Metrics.Outcome) (hlength : es.length ≤ 2 ^ 53) :
    sumOf (familiesOf es) "paymaster_sponsorships_total"
        ([chainWanted (Nat.toDigits 10 chainId)] ++ [label "outcome" outcome.text]) =
      num.ofNat ((Metrics.sponsored es).countP fun s => s.1 = chainId && s.2.1 = outcome) := by
  rw [outcomeCounts_eq hlength]
  have hboth : ∀ labels, matching [chainWanted (Nat.toDigits 10 chainId), label "outcome" outcome.text] labels =
      (matching [chainWanted (Nat.toDigits 10 chainId)] labels && matching [label "outcome" outcome.text] labels) :=
    fun _ => matching_cons
  simp only [List.singleton_append, hboth, matching_chain, matching_outcome]

theorem chainView_reports (hlength : es.length ≤ 2 ^ 53) :
    ChainReports es health chainId (chainView (familiesOf es) health (Nat.toDigits 10 chainId)) := by
  have hsampled := sampled_after es
  have hholds := holds_after es
  have hhealthy := hholds.chainHealthy
  have hblock := hholds.chainBlock
  have hcircuit := hholds.circuit
  have hdeposit := hholds.deposit
  have hstake := hholds.stake
  rw [chainHealthy_eq] at hhealthy
  rw [chainBlock_eq] at hblock
  rw [circuit_eq] at hcircuit
  rw [deposit_eq] at hdeposit
  rw [stake_eq] at hstake
  constructor
  case named => rfl
  case healthy =>
    simp only [chainView, valueOf_chain flag hsampled.chainHealthy hhealthy]
    rw [isOne_flag, Option.map_id']
  case blockNumber =>
    intro hnone
    simp only [chainView] at hnone ⊢
    rw [hnone]
    exact valueOf_chain id hsampled.chainBlock hblock
  case circuitOpen =>
    have hflag : ∀ state : CircuitState, (if state = .closed then 0 else 1) = flag (decide (state ≠ .closed)) := by
      intro state
      cases state <;> rfl
    simp only [hflag] at hcircuit
    simp only [chainView, valueOf_chain (fun state => flag (decide (state ≠ CircuitState.closed))) hsampled.circuit hcircuit]
    exact isOne_flag
  case depositWei => exact valueOf_chain PaymasterFunding.deposit hsampled.deposit hdeposit
  case stakeWei => exact valueOf_chain PaymasterFunding.stake hsampled.stake hstake
  case depositBelowThreshold => exact deposit_shown
  case stakeBelowThreshold => exact stake_shown
  case fundingUnreadable =>
    simp only [chainView, error_shown]
    cases lastOf (failed es) chainId with
    | none => rfl
    | some unreadable => cases unreadable <;> rfl
  case issued => exact outcome_on .issued hlength
  case denied => exact outcome_on .denied hlength
  case error => exact outcome_on .error hlength
  case gasCommittedWei =>
    intro hfits
    simp only [chainView, sumOf_gas hfits, matching_chain]

theorem toList_codeText_inj {code code' : PolicyDenialCode} (h : (codeText code).toList = (codeText code').toList) :
    code = code' := by
  have htext := String.toList_inj.mp h
  cases code <;> cases code' <;> simp_all [codeText]

theorem toList_rejection_inj {reason reason' : Rejection} (h : reason.text.toList = reason'.text.toList) : reason = reason' := by
  have htext := String.toList_inj.mp h
  cases reason <;> cases reason' <;> simp_all [Rejection.text]

theorem count_denied : ((decided es).countP fun d => d ≠ .allow) = (denials es).length := by
  unfold denials
  induction decided es with
  | nil => rfl
  | cons d ds ih =>
    rw [List.countP_cons, ih, List.flatMap_cons, List.length_append]
    cases d with
    | allow => simp
    | deny denial => simp [Nat.add_comm]

theorem chains_shown {families : Families num} : (buildTelemetry before families health).chains.map ChainView.chainId =
    (chainIds before families health).mergeSort before := by
  simp only [buildTelemetry, List.map_map]
  exact List.map_id _

/-- The dashboard shows what was recorded, as far as it is counted without loss. -/
theorem telemetry_reports (hrules : ∀ e ∈ es, e.Names fun rule => Clean rule.toList) (hlength : es.length ≤ 2 ^ 53) :
    Reports es health (buildTelemetry before (parsePrometheusText (render (after es).registry)) health) := by
  have hscrape : parsePrometheusText (render (after es).registry) = familiesOf es := foldl_render (wellFormed_after hrules)
  have hsampled := sampled_after es
  have hholds := holds_after es
  have hdecisions := hholds.decisions
  have hdenials := hholds.denials
  have hfailures := hholds.authFailures
  have hrejections := hholds.ipRejections
  have hblocks := hholds.ipBlocks
  rw [decisions_eq] at hdecisions
  rw [denials_eq] at hdenials
  rw [authFailures_eq] at hfailures
  rw [ipRejections_eq] at hrejections
  rw [ipBlocks_eq] at hblocks
  have hdecided : (decided es).length ≤ 2 ^ 53 := length_decided.trans hlength
  have hdenied : (denials es).length ≤ 2 ^ 53 := length_denials.trans hdecided
  rw [hscrape]
  constructor
  case issued => exact outcome_total .issued hlength
  case denied => exact outcome_total .denied hlength
  case error => exact outcome_total .error hlength
  case total =>
    have htotal := @outcomes_total (Metrics.sponsored es)
    have hsponsored : (Metrics.sponsored es).length ≤ 2 ^ 53 := length_sponsored.trans hlength
    show num.add (num.add (sumOf _ _ ([] ++ [label "outcome" Metrics.Outcome.issued.text]))
      (sumOf _ _ ([] ++ [label "outcome" Metrics.Outcome.denied.text])))
        (sumOf _ _ ([] ++ [label "outcome" Metrics.Outcome.error.text])) = _
    rw [outcome_total .issued hlength, outcome_total .denied hlength, outcome_total .error hlength,
      num.add_ofNat _ _ (by omega), num.add_ofNat _ _ (by omega), htotal]
  case gasCommittedWei =>
    intro hfits
    simp only [buildTelemetry, sumOf_gas hfits, matching_nil, List.filter_true]
  case allowed =>
    simp only [buildTelemetry, sumOf_singles hsampled.decisions hdecisions hdecided]
    congr 1
    apply List.countP_congr
    intro d _
    cases d <;> simp [matching, Assoc.get, label]
  case refused =>
    simp only [buildTelemetry, sumOf_singles hsampled.decisions hdecisions hdecided]
    rw [← count_denied]
    congr 1
    apply List.countP_congr
    intro d _
    cases d <;> simp [matching, Assoc.get, label]
  case denialsByRule =>
    exact tallied_singles hsampled.denials hdenials hdenied (fun _ => rfl) fun _ _ => String.toList_inj.mp
  case denialsByCode =>
    exact tallied_singles hsampled.denials hdenials hdenied (fun _ => rfl) fun _ _ => toList_codeText_inj
  case authFailures =>
    simp only [buildTelemetry, sumOf_singles hsampled.authFailures hfailures (length_failures.trans hlength), matching_nil,
      List.countP_true]
  case ipBlocks =>
    have hfits : ((failures es).filter fun blocked => blocked).length ≤ 2 ^ 53 :=
      (List.length_filter_le _ _).trans (length_failures.trans hlength)
    simp only [buildTelemetry, sumOf_singles hsampled.ipBlocks hblocks hfits, matching_nil, List.countP_true]
    rw [List.count, List.countP_eq_length_filter]
    simp
  case rejectionsByReason =>
    have htallied : Tallied (sumByLabel (familiesOf es) "paymaster_ip_rejections_total" "reason")
        ((rejections es).map fun reason => reason) fun reason => reason.text.toList :=
      tallied_singles hsampled.ipRejections hrejections (length_rejections.trans hlength) (fun _ => rfl)
        fun _ _ => toList_rejection_inj
    rwa [List.map_id'] at htallied
  case chains =>
    intro view hview
    obtain ⟨value, hvalue, rfl⟩ := List.mem_map.mp hview
    obtain ⟨chainId, rfl, -⟩ := mem_chainIds.mp (List.mem_mergeSort.mp hvalue)
    exact ⟨chainId, chainView_reports hlength⟩
  case mentioned =>
    intro chainId
    rw [chains_shown, List.mem_mergeSort, mem_chainIds]
    constructor
    · intro h
      obtain ⟨c, hsame, hmentioned⟩ := h
      rw [toDigits_inj.mp hsame]
      exact hmentioned
    · intro hmentioned
      exact ⟨chainId, rfl, hmentioned⟩
  case nodup =>
    rw [chains_shown]
    exact (List.mergeSort_perm _ _).nodup_iff.mpr nodup_distinct

def sampleEvents : List (MetricsEvent wholeNumbers) :=
  [.chainHealth 1 true (some 7), .decision "default" .allow (Whole.nat 0), .sponsorship 1 .issued 21000,
    .decision "default" (.deny ⟨"chain-enabled", .chainDisabled, "chain 10 is disabled"⟩) (Whole.nat 0), .sponsorship 10 .denied 0,
    .funding [.ok 1 ⟨5, 6, true, false⟩, .failed 10 "timeout"], .authFailure true]

theorem telemetry_reports_sample : ∃ t : Telemetry wholeNumbers,
    t = buildTelemetry (fun _ _ => true) (parsePrometheusText (render (after sampleEvents).registry)) none ∧
      t.total = Whole.nat 2 ∧ t.authFailures = Whole.nat 1 ∧ Reports sampleEvents none t := by
  have hrules : ∀ e ∈ sampleEvents, e.Names fun rule => Clean rule.toList := by
    intro e he
    simp only [sampleEvents, List.mem_cons, List.not_mem_nil, or_false] at he
    rcases he with rfl | rfl | rfl | rfl | rfl | rfl | rfl
    case inr.inr.inr.inl => exact (by decide : Clean "chain-enabled".toList)
    all_goals trivial
  have hreports : Reports sampleEvents none
      (buildTelemetry (fun _ _ => true) (parsePrometheusText (render (after sampleEvents).registry)) none) :=
    telemetry_reports hrules (by decide)
  exact ⟨_, rfl, hreports.total, hreports.authFailures, hreports⟩

end

end Paymaster.Dashboard
