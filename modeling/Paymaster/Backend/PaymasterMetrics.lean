import Paymaster.Backend.CircuitBreaker
import Paymaster.Backend.MetricSeries
import Paymaster.Backend.Policy

/-!
# What the paymaster counts

The backend's metrics, each fed by the events it is about: what every event
puts into them, and that in the end each metric holds what was put into it.
-/

namespace Paymaster.Metrics

/-! ## The facade -/

inductive Outcome
  | issued
  | denied
  | error
deriving DecidableEq

def Outcome.text : Outcome → String
  | issued => "issued"
  | denied => "denied"
  | error => "error"

inductive Rejection
  | throttled
  | blocked
deriving DecidableEq

def Rejection.text : Rejection → String
  | throttled => "throttled"
  | blocked => "blocked"

def codeText : PolicyDenialCode → String
  | .chainDisabled => "CHAIN_DISABLED"
  | .senderNotAllowed => "SENDER_NOT_ALLOWED"
  | .senderBlocked => "SENDER_BLOCKED"
  | .targetNotAllowed => "TARGET_NOT_ALLOWED"
  | .methodNotAllowed => "METHOD_NOT_ALLOWED"
  | .callDataUndecodable => "CALLDATA_UNDECODABLE"
  | .quotaExceeded => "QUOTA_EXCEEDED"
  | .spendCapExceeded => "SPEND_CAP_EXCEEDED"
  | .valueNotAllowed => "VALUE_NOT_ALLOWED"
  | .tokenBalanceInsufficient => "TOKEN_BALANCE_INSUFFICIENT"
  | .tenantBalanceInsufficient => "TENANT_BALANCE_INSUFFICIENT"
  | .subscriptionLapsed => "SUBSCRIPTION_LAPSED"
  | .ruleError => "RULE_ERROR"

structure PaymasterFunding where
  deposit : Nat
  stake : Nat
  depositBelowThreshold : Bool
  stakeBelowThreshold : Bool

inductive FundingResult
  | ok (chainId : Nat) (funding : PaymasterFunding)
  | failed (chainId : Nat) (error : String)

structure PaymasterMetrics (num : Numbers) where
  decisions : Counter num
  denials : Counter num
  evalDuration : Histogram num
  sponsorships : Counter num
  gasCommitted : Counter num
  chainHealthy : Gauge num
  chainBlock : Gauge num
  deposit : Gauge num
  stake : Gauge num
  fundingBelow : Gauge num
  circuit : Gauge num
  authFailures : Counter num
  ipRejections : Counter num
  ipBlocks : Counter num

def label (name value : String) : Text × Text := (name.toList, value.toList)

def chainLabel (chainId : Nat) : Text × Text := ("chain".toList, Nat.toDigits 10 chainId)

def flag (b : Bool) : Nat := if b then 1 else 0

namespace PaymasterMetrics

section
variable {num : Numbers}

def counter (name help : String) : Counter num := ⟨name.toList, help.toList, []⟩

def gauge (name help : String) : Gauge num := ⟨name.toList, help.toList, []⟩

/-- The upper bounds of the latency buckets, as the source writes them. -/
def evalBounds : List String := ["0.0005", "0.001", "0.005", "0.01", "0.05", "0.1", "0.5", "1"]

variable (num) in
def init : PaymasterMetrics num where
  decisions := counter "paymaster_policy_decisions_total" "Policy evaluations by outcome."
  denials := counter "paymaster_policy_denials_total" "Policy denials by rule and code."
  evalDuration := ⟨"paymaster_policy_evaluation_seconds".toList, "Policy evaluation wall time.".toList,
    evalBounds.filterMap fun bound => num.number bound.toList, []⟩
  sponsorships := counter "paymaster_sponsorships_total" "Sponsorship requests by chain and outcome."
  gasCommitted := counter "paymaster_gas_committed_wei_total" "Worst-case gas committed to sponsorships, in wei, by chain."
  chainHealthy := gauge "paymaster_chain_healthy" "1 if the chain RPC is healthy, else 0."
  chainBlock := gauge "paymaster_chain_block_number" "Latest observed block number per chain."
  deposit := gauge "paymaster_deposit_wei" "Paymaster EntryPoint deposit per chain, in wei."
  stake := gauge "paymaster_stake_wei" "Paymaster EntryPoint stake per chain, in wei."
  fundingBelow := gauge "paymaster_funding_below_threshold" "1 when deposit/stake is below its configured threshold, else 0."
  circuit := gauge "paymaster_chain_circuit_open"
    "1 when a chain's RPC circuit breaker is not closed (open or half-open), else 0."
  authFailures := counter "paymaster_auth_failures_total" "Authentication failures, counted for abuse detection."
  ipRejections := counter "paymaster_ip_rejections_total"
    "Requests rejected pre-authentication, by reason (throttled or blocked)."
  ipBlocks := counter "paymaster_ip_blocks_total" "IPs newly blocked for crossing the auth-failure threshold."

def registry (m : PaymasterMetrics num) : List (Metric num) :=
  [.counter m.decisions, .counter m.denials, .histogram m.evalDuration, .counter m.sponsorships, .counter m.gasCommitted,
    .gauge m.chainHealthy, .gauge m.chainBlock, .gauge m.deposit, .gauge m.stake, .gauge m.fundingBelow, .gauge m.circuit,
    .counter m.authFailures, .counter m.ipRejections, .counter m.ipBlocks]

variable (m : PaymasterMetrics num)

def recordIpRejection (reason : Rejection) : PaymasterMetrics num :=
  { m with ipRejections := m.ipRejections.inc [label "reason" reason.text] (num.ofNat 1) }

def recordAuthFailure (blocked : Bool) : PaymasterMetrics num :=
  let failed := { m with authFailures := m.authFailures.inc [] (num.ofNat 1) }
  if blocked then { failed with ipBlocks := failed.ipBlocks.inc [] (num.ofNat 1) } else failed

def recordCircuitState (chainId : Nat) (state : CircuitState) : PaymasterMetrics num :=
  { m with circuit := m.circuit.set (num.ofNat (if state = .closed then 0 else 1)) [chainLabel chainId] }

/-- `seconds` is the duration over a thousand. -/
def onDecision (policyId : String) (decision : PolicyDecision) (seconds : num.Value) : PaymasterMetrics num :=
  if policyId = "<release>" then m
  else
    match decision with
    | .allow =>
      { m with
        decisions := m.decisions.inc [label "outcome" "allowed"] (num.ofNat 1)
        evalDuration := m.evalDuration.observe seconds [] }
    | .deny denial =>
      { m with
        decisions := m.decisions.inc [label "outcome" "denied"] (num.ofNat 1)
        evalDuration := m.evalDuration.observe seconds []
        denials := m.denials.inc [label "rule" denial.rule, label "code" (codeText denial.code)] (num.ofNat 1) }

def recordSponsorship (chainId : Nat) (outcome : Outcome) (committedWei : Nat) : PaymasterMetrics num :=
  let counted :=
    { m with sponsorships := m.sponsorships.inc [chainLabel chainId, label "outcome" outcome.text] (num.ofNat 1) }
  if outcome = .issued ∧ 0 < committedWei then
    { counted with gasCommitted := counted.gasCommitted.inc [chainLabel chainId] (num.ofNat committedWei) }
  else counted

def recordChainHealth (chainId : Nat) (healthy : Bool) (blockNumber : Option Nat) : PaymasterMetrics num :=
  let probed := { m with chainHealthy := m.chainHealthy.set (num.ofNat (flag healthy)) [chainLabel chainId] }
  match blockNumber with
  | some number => { probed with chainBlock := probed.chainBlock.set (num.ofNat number) [chainLabel chainId] }
  | none => probed

def recordResult : FundingResult → PaymasterMetrics num
  | .failed chainId _ =>
    { m with fundingBelow := m.fundingBelow.set (num.ofNat 1) [chainLabel chainId, label "kind" "read_error"] }
  | .ok chainId funding =>
    { m with
      deposit := m.deposit.set (num.ofNat funding.deposit) [chainLabel chainId]
      stake := m.stake.set (num.ofNat funding.stake) [chainLabel chainId]
      fundingBelow :=
        ((m.fundingBelow.set (num.ofNat (flag funding.depositBelowThreshold)) [chainLabel chainId, label "kind" "deposit"]).set
          (num.ofNat (flag funding.stakeBelowThreshold)) [chainLabel chainId, label "kind" "stake"]).set
          (num.ofNat 0) [chainLabel chainId, label "kind" "read_error"] }

def recordFunding (results : List FundingResult) : PaymasterMetrics num := results.foldl recordResult m

end

end PaymasterMetrics

/-! ## What the events feed -/

variable (num : Numbers) in
inductive MetricsEvent
  | ipRejection (reason : Rejection)
  | authFailure (blocked : Bool)
  | circuitState (chainId : Nat) (state : CircuitState)
  | decision (policyId : String) (decision : PolicyDecision) (seconds : num.Value)
  | sponsorship (chainId : Nat) (outcome : Outcome) (committedWei : Nat)
  | chainHealth (chainId : Nat) (healthy : Bool) (blockNumber : Option Nat)
  | funding (results : List FundingResult)

structure Puts where
  decisions : List (Labels × Nat) := []
  denials : List (Labels × Nat) := []
  sponsorships : List (Labels × Nat) := []
  gasCommitted : List (Labels × Nat) := []
  chainHealthy : List (Labels × Nat) := []
  chainBlock : List (Labels × Nat) := []
  deposit : List (Labels × Nat) := []
  stake : List (Labels × Nat) := []
  fundingBelow : List (Labels × Nat) := []
  circuit : List (Labels × Nat) := []
  authFailures : List (Labels × Nat) := []
  ipRejections : List (Labels × Nat) := []
  ipBlocks : List (Labels × Nat) := []

section
variable {num : Numbers}

def PaymasterMetrics.record (m : PaymasterMetrics num) : MetricsEvent num → PaymasterMetrics num
  | .ipRejection reason => m.recordIpRejection reason
  | .authFailure blocked => m.recordAuthFailure blocked
  | .circuitState chainId state => m.recordCircuitState chainId state
  | .decision policyId decision seconds => m.onDecision policyId decision seconds
  | .sponsorship chainId outcome committedWei => m.recordSponsorship chainId outcome committedWei
  | .chainHealth chainId healthy blockNumber => m.recordChainHealth chainId healthy blockNumber
  | .funding results => m.recordFunding results

def Puts.concat (ps : List Puts) : Puts where
  decisions := ps.flatMap Puts.decisions
  denials := ps.flatMap Puts.denials
  sponsorships := ps.flatMap Puts.sponsorships
  gasCommitted := ps.flatMap Puts.gasCommitted
  chainHealthy := ps.flatMap Puts.chainHealthy
  chainBlock := ps.flatMap Puts.chainBlock
  deposit := ps.flatMap Puts.deposit
  stake := ps.flatMap Puts.stake
  fundingBelow := ps.flatMap Puts.fundingBelow
  circuit := ps.flatMap Puts.circuit
  authFailures := ps.flatMap Puts.authFailures
  ipRejections := ps.flatMap Puts.ipRejections
  ipBlocks := ps.flatMap Puts.ipBlocks

def FundingResult.puts : FundingResult → Puts
  | .failed chainId _ => { fundingBelow := [([chainLabel chainId, label "kind" "read_error"], 1)] }
  | .ok chainId funding =>
    { deposit := [([chainLabel chainId], funding.deposit)]
      stake := [([chainLabel chainId], funding.stake)]
      fundingBelow :=
        [([chainLabel chainId, label "kind" "deposit"], flag funding.depositBelowThreshold),
          ([chainLabel chainId, label "kind" "stake"], flag funding.stakeBelowThreshold),
          ([chainLabel chainId, label "kind" "read_error"], 0)] }

def MetricsEvent.puts : MetricsEvent num → Puts
  | .ipRejection reason => { ipRejections := [([label "reason" reason.text], 1)] }
  | .authFailure blocked => { authFailures := [([], 1)], ipBlocks := if blocked then [([], 1)] else [] }
  | .circuitState chainId state => { circuit := [([chainLabel chainId], if state = .closed then 0 else 1)] }
  | .decision policyId decided _ =>
    if policyId = "<release>" then {}
    else
      match decided with
      | .allow => { decisions := [([label "outcome" "allowed"], 1)] }
      | .deny denial =>
        { decisions := [([label "outcome" "denied"], 1)]
          denials := [([label "rule" denial.rule, label "code" (codeText denial.code)], 1)] }
  | .sponsorship chainId outcome committedWei =>
    { sponsorships := [([chainLabel chainId, label "outcome" outcome.text], 1)]
      gasCommitted := if outcome = .issued ∧ 0 < committedWei then [([chainLabel chainId], committedWei)] else [] }
  | .chainHealth chainId healthy blockNumber =>
    { chainHealthy := [([chainLabel chainId], flag healthy)]
      chainBlock := blockNumber.toList.map fun number => ([chainLabel chainId], number) }
  | .funding results => Puts.concat (results.map FundingResult.puts)

structure Fed (m : PaymasterMetrics num) (puts : Puts) (m' : PaymasterMetrics num) : Prop where
  decisions : m'.decisions = m.decisions.incAll puts.decisions
  denials : m'.denials = m.denials.incAll puts.denials
  sponsorships : m'.sponsorships = m.sponsorships.incAll puts.sponsorships
  gasCommitted : m'.gasCommitted = m.gasCommitted.incAll puts.gasCommitted
  chainHealthy : m'.chainHealthy = m.chainHealthy.setAll puts.chainHealthy
  chainBlock : m'.chainBlock = m.chainBlock.setAll puts.chainBlock
  deposit : m'.deposit = m.deposit.setAll puts.deposit
  stake : m'.stake = m.stake.setAll puts.stake
  fundingBelow : m'.fundingBelow = m.fundingBelow.setAll puts.fundingBelow
  circuit : m'.circuit = m.circuit.setAll puts.circuit
  authFailures : m'.authFailures = m.authFailures.incAll puts.authFailures
  ipRejections : m'.ipRejections = m.ipRejections.incAll puts.ipRejections
  ipBlocks : m'.ipBlocks = m.ipBlocks.incAll puts.ipBlocks

variable {m : PaymasterMetrics num} {e : MetricsEvent num} {es : List (MetricsEvent num)}

theorem fed_foldl {α : Type} {f : PaymasterMetrics num → α → PaymasterMetrics num} {puts : α → Puts}
    (hstep : ∀ m a, Fed m (puts a) (f m a)) (as : List α) : Fed m (Puts.concat (as.map puts)) (as.foldl f m) := by
  induction as using List.reverseRecOn with
  | nil => constructor <;> rfl
  | append_singleton as a ih =>
    have hlast := hstep (as.foldl f m) a
    rw [List.foldl_append]
    constructor
    case decisions => simp [Puts.concat, Counter.incAll, hlast.decisions, ih.decisions]
    case denials => simp [Puts.concat, Counter.incAll, hlast.denials, ih.denials]
    case sponsorships => simp [Puts.concat, Counter.incAll, hlast.sponsorships, ih.sponsorships]
    case gasCommitted => simp [Puts.concat, Counter.incAll, hlast.gasCommitted, ih.gasCommitted]
    case chainHealthy => simp [Puts.concat, Gauge.setAll, hlast.chainHealthy, ih.chainHealthy]
    case chainBlock => simp [Puts.concat, Gauge.setAll, hlast.chainBlock, ih.chainBlock]
    case deposit => simp [Puts.concat, Gauge.setAll, hlast.deposit, ih.deposit]
    case stake => simp [Puts.concat, Gauge.setAll, hlast.stake, ih.stake]
    case fundingBelow => simp [Puts.concat, Gauge.setAll, hlast.fundingBelow, ih.fundingBelow]
    case circuit => simp [Puts.concat, Gauge.setAll, hlast.circuit, ih.circuit]
    case authFailures => simp [Puts.concat, Counter.incAll, hlast.authFailures, ih.authFailures]
    case ipRejections => simp [Puts.concat, Counter.incAll, hlast.ipRejections, ih.ipRejections]
    case ipBlocks => simp [Puts.concat, Counter.incAll, hlast.ipBlocks, ih.ipBlocks]

theorem fed_recordResult (m : PaymasterMetrics num) (result : FundingResult) : Fed m result.puts (m.recordResult result) := by
  cases result <;> constructor <;> rfl

theorem fed_record (m : PaymasterMetrics num) (e : MetricsEvent num) : Fed m e.puts (m.record e) := by
  cases e with
  | ipRejection reason => constructor <;> rfl
  | authFailure blocked => cases blocked <;> constructor <;> rfl
  | circuitState chainId state => constructor <;> rfl
  | decision policyId decided seconds =>
    by_cases hrelease : policyId = "<release>"
    · have hsame : m.record (.decision policyId decided seconds) = m := if_pos hrelease
      have hputs : (MetricsEvent.decision policyId decided seconds).puts = {} := if_pos hrelease
      rw [hsame, hputs]
      constructor <;> rfl
    · cases decided with
      | allow =>
        have hputs : (MetricsEvent.decision policyId .allow seconds).puts = { decisions := [([label "outcome" "allowed"], 1)] } :=
          if_neg hrelease
        have hrecord : m.record (.decision policyId .allow seconds) =
            { m with
              decisions := m.decisions.inc [label "outcome" "allowed"] (num.ofNat 1)
              evalDuration := m.evalDuration.observe seconds [] } := if_neg hrelease
        rw [hputs, hrecord]
        constructor <;> rfl
      | deny denial =>
        have hputs : (MetricsEvent.decision policyId (.deny denial) seconds).puts =
            { decisions := [([label "outcome" "denied"], 1)]
              denials := [([label "rule" denial.rule, label "code" (codeText denial.code)], 1)] } := if_neg hrelease
        have hrecord : m.record (.decision policyId (.deny denial) seconds) =
            { m with
              decisions := m.decisions.inc [label "outcome" "denied"] (num.ofNat 1)
              evalDuration := m.evalDuration.observe seconds []
              denials := m.denials.inc [label "rule" denial.rule, label "code" (codeText denial.code)] (num.ofNat 1) } :=
          if_neg hrelease
        rw [hputs, hrecord]
        constructor <;> rfl
  | sponsorship chainId outcome committedWei =>
    by_cases hgas : outcome = .issued ∧ 0 < committedWei
    · constructor <;> simp [PaymasterMetrics.record, PaymasterMetrics.recordSponsorship, MetricsEvent.puts, hgas,
        Counter.incAll, Gauge.setAll]
    · constructor <;> simp [PaymasterMetrics.record, PaymasterMetrics.recordSponsorship, MetricsEvent.puts, hgas,
        Counter.incAll, Gauge.setAll]
  | chainHealth chainId healthy blockNumber =>
    cases blockNumber <;> constructor <;> rfl
  | funding results => exact fed_foldl fed_recordResult results

/-! ## Label sets and their keys -/

structure Shaped (rules : String → Prop) (puts : Puts) : Prop where
  decisions : ∀ put ∈ puts.decisions, ∃ outcome ∈ ["allowed", "denied"], put.1 = [label "outcome" outcome]
  denials : ∀ put ∈ puts.denials, ∃ rule code, rules rule ∧ put.1 = [label "rule" rule, label "code" (codeText code)]
  sponsorships : ∀ put ∈ puts.sponsorships, ∃ chainId outcome, put.1 = [chainLabel chainId, label "outcome" (Outcome.text outcome)]
  gasCommitted : ∀ put ∈ puts.gasCommitted, ∃ chainId, put.1 = [chainLabel chainId]
  chainHealthy : ∀ put ∈ puts.chainHealthy, ∃ chainId, put.1 = [chainLabel chainId]
  chainBlock : ∀ put ∈ puts.chainBlock, ∃ chainId, put.1 = [chainLabel chainId]
  deposit : ∀ put ∈ puts.deposit, ∃ chainId, put.1 = [chainLabel chainId]
  stake : ∀ put ∈ puts.stake, ∃ chainId, put.1 = [chainLabel chainId]
  fundingBelow : ∀ put ∈ puts.fundingBelow, ∃ chainId, ∃ kind ∈ ["deposit", "stake", "read_error"],
    put.1 = [chainLabel chainId, label "kind" kind]
  circuit : ∀ put ∈ puts.circuit, ∃ chainId, put.1 = [chainLabel chainId]
  authFailures : ∀ put ∈ puts.authFailures, put.1 = []
  ipRejections : ∀ put ∈ puts.ipRejections, ∃ reason, put.1 = [label "reason" (Rejection.text reason)]
  ipBlocks : ∀ put ∈ puts.ipBlocks, put.1 = []

variable {rules : String → Prop}

theorem shaped_concat {ps : List Puts} (h : ∀ p ∈ ps, Shaped rules p) : Shaped rules (Puts.concat ps) := by
  have hall : ∀ {field : Puts → List (Labels × Nat)} {P : Labels × Nat → Prop}, (∀ p ∈ ps, ∀ put ∈ field p, P put) →
      ∀ put ∈ ps.flatMap field, P put := by
    intro field P hfield put hput
    obtain ⟨p, hp, hput⟩ := List.mem_flatMap.mp hput
    exact hfield p hp put hput
  exact ⟨hall fun p hp => (h p hp).decisions, hall fun p hp => (h p hp).denials, hall fun p hp => (h p hp).sponsorships,
    hall fun p hp => (h p hp).gasCommitted, hall fun p hp => (h p hp).chainHealthy, hall fun p hp => (h p hp).chainBlock,
    hall fun p hp => (h p hp).deposit, hall fun p hp => (h p hp).stake, hall fun p hp => (h p hp).fundingBelow,
    hall fun p hp => (h p hp).circuit, hall fun p hp => (h p hp).authFailures, hall fun p hp => (h p hp).ipRejections,
    hall fun p hp => (h p hp).ipBlocks⟩

theorem shaped_result (result : FundingResult) : Shaped rules result.puts := by
  cases result with
  | failed chainId error =>
    constructor
    case fundingBelow =>
      intro put hput
      rw [List.mem_singleton.mp hput]
      exact ⟨chainId, "read_error", by simp, rfl⟩
    all_goals simp [FundingResult.puts]
  | ok chainId funding =>
    constructor
    case deposit =>
      intro put hput
      rw [List.mem_singleton.mp hput]
      exact ⟨chainId, rfl⟩
    case stake =>
      intro put hput
      rw [List.mem_singleton.mp hput]
      exact ⟨chainId, rfl⟩
    case fundingBelow =>
      intro put hput
      simp only [FundingResult.puts, List.mem_cons, List.not_mem_nil, or_false] at hput
      rcases hput with rfl | rfl | rfl
      · exact ⟨chainId, "deposit", by simp, rfl⟩
      · exact ⟨chainId, "stake", by simp, rfl⟩
      · exact ⟨chainId, "read_error", by simp, rfl⟩
    all_goals simp [FundingResult.puts]

def MetricsEvent.Names (rules : String → Prop) : MetricsEvent num → Prop
  | .decision _ (.deny denial) _ => rules denial.rule
  | _ => True

theorem shaped_puts (h : e.Names rules) : Shaped rules e.puts := by
  cases e with
  | ipRejection reason =>
    constructor
    case ipRejections =>
      intro put hput
      rw [List.mem_singleton.mp hput]
      exact ⟨reason, rfl⟩
    all_goals simp [MetricsEvent.puts]
  | authFailure blocked => cases blocked <;> constructor <;> simp [MetricsEvent.puts]
  | circuitState chainId state =>
    constructor
    case circuit =>
      intro put hput
      rw [List.mem_singleton.mp hput]
      exact ⟨chainId, rfl⟩
    all_goals simp [MetricsEvent.puts]
  | decision policyId decided seconds =>
    by_cases hrelease : policyId = "<release>"
    · constructor <;> simp [MetricsEvent.puts, hrelease]
    · cases decided with
      | allow => constructor <;> simp [MetricsEvent.puts, hrelease]
      | deny denial =>
        constructor
        case denials =>
          intro put hput
          simp only [MetricsEvent.puts, if_neg hrelease, List.mem_singleton] at hput
          rw [hput]
          exact ⟨denial.rule, denial.code, h, rfl⟩
        all_goals simp [MetricsEvent.puts, hrelease]
  | sponsorship chainId outcome committedWei =>
    constructor
    case sponsorships =>
      intro put hput
      rw [List.mem_singleton.mp hput]
      exact ⟨chainId, outcome, rfl⟩
    case gasCommitted =>
      intro put hput
      by_cases hgas : outcome = .issued ∧ 0 < committedWei
      · simp only [MetricsEvent.puts, if_pos hgas, List.mem_singleton] at hput
        rw [hput]
        exact ⟨chainId, rfl⟩
      · simp [MetricsEvent.puts, if_neg hgas] at hput
    all_goals simp [MetricsEvent.puts]
  | chainHealth chainId healthy blockNumber =>
    constructor
    case chainHealthy =>
      intro put hput
      rw [List.mem_singleton.mp hput]
      exact ⟨chainId, rfl⟩
    case chainBlock =>
      intro put hput
      obtain ⟨number, -, rfl⟩ := List.mem_map.mp hput
      exact ⟨chainId, rfl⟩
    all_goals simp [MetricsEvent.puts]
  | funding results =>
    apply shaped_concat
    intro p hp
    obtain ⟨result, -, rfl⟩ := List.mem_map.mp hp
    exact shaped_result result

/-! ### Different label sets, different keys -/

theorem comma_notMem_chain (chainId : Nat) : ',' ∉ "chain".toList ++ '=' :: Nat.toDigits 10 chainId := by
  have hdigits : ',' ∉ Nat.toDigits 10 chainId := by
    intro hmem
    have := Nat.isDigit_of_mem_toDigits (by decide) (by decide) hmem
    simp [Char.isDigit] at this
  simpa using hdigits

theorem comma_notMem_code (code : PolicyDenialCode) : ',' ∉ "code".toList ++ '=' :: (codeText code).toList := by
  cases code <;> decide

variable {puts : List (Labels × Nat)}

theorem keyFaithful_chained (name : String) (hname : "chain".toList ≤ name.toList)
    (h : ∀ put ∈ puts, ∃ (chainId : Nat) (value : String), put.1 = [chainLabel chainId, label name value]) :
    KeyFaithful (puts.map Prod.fst) := by
  apply keyFaithful_of fun part : Nat × String => [chainLabel part.1, label name part.2]
  · intro l hl
    obtain ⟨put, hput, rfl⟩ := List.mem_map.mp hl
    obtain ⟨chainId, value, heq⟩ := h put hput
    exact ⟨(chainId, value), heq⟩
  · intro a b heq
    simp only [chainLabel, label, seriesKey_two hname] at heq ⊢
    obtain ⟨hchain, hvalue⟩ := eq_of_pair (comma_notMem_chain a.1) (comma_notMem_chain b.1) heq
    rw [hchain, hvalue]

theorem keyFaithful_denials (h : ∀ put ∈ puts, ∃ (rule : String) (code : PolicyDenialCode),
    put.1 = [label "rule" rule, label "code" (codeText code)]) : KeyFaithful (puts.map Prod.fst) := by
  apply keyFaithful_of fun part : String × PolicyDenialCode => [label "rule" part.1, label "code" (codeText part.2)]
  · intro l hl
    obtain ⟨put, hput, rfl⟩ := List.mem_map.mp hl
    obtain ⟨rule, code, heq⟩ := h put hput
    exact ⟨(rule, code), heq⟩
  · intro a b heq
    have horder : ¬ "rule".toList ≤ "code".toList := by decide
    simp only [label, seriesKey_swap horder] at heq ⊢
    obtain ⟨hcode, hrule⟩ := eq_of_pair (comma_notMem_code a.2) (comma_notMem_code b.2) heq
    rw [hcode, hrule]

/-! ## Everything that was recorded -/

def after (es : List (MetricsEvent num)) : PaymasterMetrics num := es.foldl PaymasterMetrics.record (PaymasterMetrics.init num)

def putsOf (es : List (MetricsEvent num)) : Puts := Puts.concat (es.map MetricsEvent.puts)

structure Holds (m : PaymasterMetrics num) (puts : Puts) : Prop where
  decisions : CounterHolds m.decisions puts.decisions
  denials : CounterHolds m.denials puts.denials
  sponsorships : CounterHolds m.sponsorships puts.sponsorships
  gasCommitted : CounterHolds m.gasCommitted puts.gasCommitted
  chainHealthy : GaugeHolds m.chainHealthy puts.chainHealthy
  chainBlock : GaugeHolds m.chainBlock puts.chainBlock
  deposit : GaugeHolds m.deposit puts.deposit
  stake : GaugeHolds m.stake puts.stake
  fundingBelow : GaugeHolds m.fundingBelow puts.fundingBelow
  circuit : GaugeHolds m.circuit puts.circuit
  authFailures : CounterHolds m.authFailures puts.authFailures
  ipRejections : CounterHolds m.ipRejections puts.ipRejections
  ipBlocks : CounterHolds m.ipBlocks puts.ipBlocks

theorem keyFaithful_chain (h : ∀ put ∈ puts, ∃ chainId, put.1 = [chainLabel chainId]) : KeyFaithful (puts.map Prod.fst) := by
  apply keyFaithful_one "chain"
  intro put hput
  obtain ⟨chainId, heq⟩ := h put hput
  exact ⟨_, heq⟩

theorem fed_after (es : List (MetricsEvent num)) : Fed (PaymasterMetrics.init num) (putsOf es) (after es) := fed_foldl fed_record es

theorem shaped_putsOf (h : ∀ e ∈ es, e.Names rules) : Shaped rules (putsOf es) := by
  apply shaped_concat
  intro p hp
  obtain ⟨e, he, rfl⟩ := List.mem_map.mp hp
  exact shaped_puts (h e he)

theorem holds_after (es : List (MetricsEvent num)) : Holds (after es) (putsOf es) := by
  have hfed := fed_after es
  have hshaped : Shaped (fun _ => True) (putsOf es) := by
    apply shaped_putsOf
    intro e _
    unfold MetricsEvent.Names
    split <;> trivial
  constructor
  case decisions =>
    rw [hfed.decisions]
    apply seriesOf_incAll (keyFaithful_one "outcome" _)
    intro put hput
    obtain ⟨outcome, -, heq⟩ := hshaped.decisions put hput
    exact ⟨_, heq⟩
  case denials =>
    rw [hfed.denials]
    apply seriesOf_incAll (keyFaithful_denials _)
    intro put hput
    obtain ⟨rule, code, -, heq⟩ := hshaped.denials put hput
    exact ⟨rule, code, heq⟩
  case sponsorships =>
    rw [hfed.sponsorships]
    apply seriesOf_incAll (keyFaithful_chained "outcome" (by decide) _)
    intro put hput
    obtain ⟨chainId, outcome, heq⟩ := hshaped.sponsorships put hput
    exact ⟨chainId, outcome.text, heq⟩
  case gasCommitted =>
    rw [hfed.gasCommitted]
    exact seriesOf_incAll (keyFaithful_chain hshaped.gasCommitted)
  case chainHealthy =>
    rw [hfed.chainHealthy]
    exact seriesOf_setAll (keyFaithful_chain hshaped.chainHealthy)
  case chainBlock =>
    rw [hfed.chainBlock]
    exact seriesOf_setAll (keyFaithful_chain hshaped.chainBlock)
  case deposit =>
    rw [hfed.deposit]
    exact seriesOf_setAll (keyFaithful_chain hshaped.deposit)
  case stake =>
    rw [hfed.stake]
    exact seriesOf_setAll (keyFaithful_chain hshaped.stake)
  case fundingBelow =>
    rw [hfed.fundingBelow]
    apply seriesOf_setAll (keyFaithful_chained "kind" (by decide) _)
    intro put hput
    obtain ⟨chainId, kind, -, heq⟩ := hshaped.fundingBelow put hput
    exact ⟨chainId, kind, heq⟩
  case circuit =>
    rw [hfed.circuit]
    exact seriesOf_setAll (keyFaithful_chain hshaped.circuit)
  case authFailures =>
    rw [hfed.authFailures]
    exact seriesOf_incAll (keyFaithful_empty hshaped.authFailures)
  case ipRejections =>
    rw [hfed.ipRejections]
    apply seriesOf_incAll (keyFaithful_one "reason" _)
    intro put hput
    obtain ⟨reason, heq⟩ := hshaped.ipRejections put hput
    exact ⟨_, heq⟩
  case ipBlocks =>
    rw [hfed.ipBlocks]
    exact seriesOf_incAll (keyFaithful_empty hshaped.ipBlocks)

end

end Paymaster.Metrics
