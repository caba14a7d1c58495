import Paymaster.Backend.PaymasterMetrics

/-!
# What the recorded events say

The requests, decisions, failures and observations among the recorded events,
and that what was put into each metric is exactly what they say.
-/

namespace Paymaster.Metrics

section
variable {num : Numbers} (es : List (MetricsEvent num))

def sponsored : List (Nat × Outcome × Nat) :=
  es.flatMap fun
    | .sponsorship chainId outcome committedWei => [(chainId, outcome, committedWei)]
    | _ => []

def decided : List PolicyDecision :=
  es.flatMap fun
    | .decision policyId decision _ => if policyId = "<release>" then [] else [decision]
    | _ => []

def denials : List PolicyDenial :=
  (decided es).flatMap fun
    | .allow => []
    | .deny denial => [denial]

def failures : List Bool :=
  es.flatMap fun
    | .authFailure blocked => [blocked]
    | _ => []

def rejections : List Rejection :=
  es.flatMap fun
    | .ipRejection reason => [reason]
    | _ => []

def healths : List (Nat × Bool) :=
  es.flatMap fun
    | .chainHealth chainId healthy _ => [(chainId, healthy)]
    | _ => []

def blocks : List (Nat × Nat) :=
  es.flatMap fun
    | .chainHealth chainId _ blockNumber => blockNumber.toList.map fun number => (chainId, number)
    | _ => []

def circuits : List (Nat × CircuitState) :=
  es.flatMap fun
    | .circuitState chainId state => [(chainId, state)]
    | _ => []

def readings : List FundingResult :=
  es.flatMap fun
    | .funding results => results
    | _ => []

def fundings : List (Nat × PaymasterFunding) :=
  (readings es).flatMap fun
    | .ok chainId funding => [(chainId, funding)]
    | .failed _ _ => []

def failed : List (Nat × Bool) :=
  (readings es).flatMap fun
    | .ok chainId _ => [(chainId, false)]
    | .failed chainId _ => [(chainId, true)]

def lastOf {β : Type} (observed : List (Nat × β)) (chainId : Nat) : Option β :=
  ((observed.filter fun o => o.1 = chainId).map Prod.snd).getLast?

def issuedWei : List (Nat × Nat) :=
  (sponsored es).flatMap fun s => if s.2.1 = .issued then [(s.1, s.2.2)] else []

end

/-! ## What was put, in terms of the events -/

section
variable {num : Numbers} {es : List (MetricsEvent num)} {labels : Labels} {p : Labels → Bool}

theorem puts_decision {policyId : String} {decision : PolicyDecision} {seconds : num.Value} :
    (MetricsEvent.decision policyId decision seconds).puts =
      { decisions := if policyId = "<release>" then [] else
          [([label "outcome" (match decision with | .allow => "allowed" | .deny _ => "denied")], 1)]
        denials := if policyId = "<release>" then [] else
          match decision with
          | .allow => []
          | .deny denial => [([label "rule" denial.rule, label "code" (codeText denial.code)], 1)] } := by
  by_cases hrelease : policyId = "<release>"
  · simp only [MetricsEvent.puts, if_pos hrelease]
  · cases decision with
    | allow => simp only [MetricsEvent.puts, if_neg hrelease]
    | deny denial => simp only [MetricsEvent.puts, if_neg hrelease]

theorem puts_funding {results : List FundingResult} :
    (MetricsEvent.funding results : MetricsEvent num).puts =
      { deposit := results.flatMap fun result => result.puts.deposit
        stake := results.flatMap fun result => result.puts.stake
        fundingBelow := results.flatMap fun result => result.puts.fundingBelow } := by
  show Puts.concat (results.map FundingResult.puts) = _
  simp only [Puts.concat, List.flatMap_map]
  congr 1
  all_goals
    apply List.flatMap_eq_nil_iff.mpr
    intro result _
    cases result <;> rfl

/-- What every event puts into a metric, and so what all of them do. -/
theorem field_eq {β : Type} {field : Puts → List (Labels × Nat)} {observed : MetricsEvent num → List β}
    {put : β → List (Labels × Nat)} (h : ∀ e, field e.puts = (observed e).flatMap put) :
    (es.map MetricsEvent.puts).flatMap field = (es.flatMap observed).flatMap put := by
  rw [List.flatMap_map, List.flatMap_assoc]
  congr 1
  funext e
  exact h e

theorem sponsorships_eq :
    (putsOf es).sponsorships = (sponsored es).flatMap fun s => [([chainLabel s.1, label "outcome" s.2.1.text], 1)] := by
  apply field_eq
  intro e
  cases e with
  | decision policyId decision seconds => rw [puts_decision]; rfl
  | funding results => rw [puts_funding]; rfl
  | _ => rfl

theorem gasCommitted_eq : (putsOf es).gasCommitted =
    (sponsored es).flatMap fun s => if s.2.1 = .issued ∧ 0 < s.2.2 then [([chainLabel s.1], s.2.2)] else [] := by
  apply field_eq
  intro e
  cases e with
  | sponsorship chainId outcome committedWei => simp [MetricsEvent.puts]
  | decision policyId decision seconds => rw [puts_decision]; rfl
  | funding results => rw [puts_funding]; rfl
  | _ => rfl

theorem decisions_eq : (putsOf es).decisions =
    (decided es).flatMap fun d => [([label "outcome" (match d with | .allow => "allowed" | .deny _ => "denied")], 1)] := by
  apply field_eq
  intro e
  cases e with
  | decision policyId decision seconds =>
    rw [puts_decision]
    by_cases hrelease : policyId = "<release>" <;> simp [hrelease]
  | funding results => rw [puts_funding]; rfl
  | _ => rfl

theorem denials_eq : (putsOf es).denials =
    (denials es).flatMap fun denial => [([label "rule" denial.rule, label "code" (codeText denial.code)], 1)] := by
  have hdecided : (putsOf es).denials = (decided es).flatMap fun d =>
      match d with
      | .allow => []
      | .deny denial => [([label "rule" denial.rule, label "code" (codeText denial.code)], 1)] := by
    apply field_eq
    intro e
    cases e with
    | decision policyId decision seconds =>
      rw [puts_decision]
      by_cases hrelease : policyId = "<release>" <;> simp [hrelease]
    | funding results => rw [puts_funding]; rfl
    | _ => rfl
  rw [hdecided, denials, List.flatMap_assoc]
  congr 1
  funext d
  cases d <;> rfl

theorem authFailures_eq : (putsOf es).authFailures = (failures es).flatMap fun _ => [([], 1)] := by
  apply field_eq
  intro e
  cases e with
  | decision policyId decision seconds => rw [puts_decision]; rfl
  | funding results => rw [puts_funding]; rfl
  | _ => rfl

theorem ipBlocks_eq : (putsOf es).ipBlocks = ((failures es).filter fun blocked => blocked).flatMap fun _ => [([], 1)] := by
  have hfailed : (putsOf es).ipBlocks = (failures es).flatMap fun blocked => if blocked then [([], 1)] else [] := by
    apply field_eq
    intro e
    cases e with
    | authFailure blocked => simp [MetricsEvent.puts]
    | decision policyId decision seconds => rw [puts_decision]; rfl
    | funding results => rw [puts_funding]; rfl
    | _ => rfl
  rw [hfailed]
  induction failures es with
  | nil => rfl
  | cons blocked rest ih => cases blocked <;> simp [ih]

theorem ipRejections_eq : (putsOf es).ipRejections = (rejections es).flatMap fun reason => [([label "reason" reason.text], 1)] := by
  apply field_eq
  intro e
  cases e with
  | decision policyId decision seconds => rw [puts_decision]; rfl
  | funding results => rw [puts_funding]; rfl
  | _ => rfl

theorem chainHealthy_eq : (putsOf es).chainHealthy = (healths es).flatMap fun o => [([chainLabel o.1], flag o.2)] := by
  apply field_eq
  intro e
  cases e with
  | decision policyId decision seconds => rw [puts_decision]; rfl
  | funding results => rw [puts_funding]; rfl
  | _ => rfl

theorem chainBlock_eq : (putsOf es).chainBlock = (blocks es).flatMap fun o => [([chainLabel o.1], o.2)] := by
  apply field_eq
  intro e
  cases e with
  | chainHealth chainId healthy blockNumber => cases blockNumber <;> rfl
  | decision policyId decision seconds => rw [puts_decision]; rfl
  | funding results => rw [puts_funding]; rfl
  | _ => rfl

theorem circuit_eq :
    (putsOf es).circuit = (circuits es).flatMap fun o => [([chainLabel o.1], if o.2 = .closed then 0 else 1)] := by
  apply field_eq
  intro e
  cases e with
  | decision policyId decision seconds => rw [puts_decision]; rfl
  | funding results => rw [puts_funding]; rfl
  | _ => rfl

theorem deposit_eq : (putsOf es).deposit = (fundings es).flatMap fun o => [([chainLabel o.1], o.2.deposit)] := by
  have hread : (putsOf es).deposit = (readings es).flatMap fun result => result.puts.deposit := by
    apply field_eq
    intro e
    cases e with
    | decision policyId decision seconds => rw [puts_decision]; rfl
    | funding results => rw [puts_funding]
    | _ => rfl
  rw [hread, fundings, List.flatMap_assoc]
  congr 1
  funext result
  cases result <;> rfl

theorem stake_eq : (putsOf es).stake = (fundings es).flatMap fun o => [([chainLabel o.1], o.2.stake)] := by
  have hread : (putsOf es).stake = (readings es).flatMap fun result => result.puts.stake := by
    apply field_eq
    intro e
    cases e with
    | decision policyId decision seconds => rw [puts_decision]; rfl
    | funding results => rw [puts_funding]
    | _ => rfl
  rw [hread, fundings, List.flatMap_assoc]
  congr 1
  funext result
  cases result <;> rfl

theorem fundingBelow_eq : (putsOf es).fundingBelow = (readings es).flatMap fun result => result.puts.fundingBelow := by
  apply field_eq
  intro e
  cases e with
  | decision policyId decision seconds => rw [puts_decision]; rfl
  | funding results => rw [puts_funding]
  | _ => rfl

/-! ## Counting what was put -/

section
variable {β : Type} {xs : List β} {l : β → Labels} {n : β → Nat}

theorem sum_singles : (((xs.flatMap fun x => [(l x, n x)]).filter fun put => p put.1).map Prod.snd).sum =
    ((xs.filter fun x => p (l x)).map n).sum := by
  induction xs with
  | nil => rfl
  | cons x xs ih =>
    by_cases hp : p (l x) = true
    · simp [hp, ih]
    · simp [hp, ih]

theorem count_singles : (((xs.flatMap fun x => [(l x, 1)]).filter fun put => p put.1).map Prod.snd).sum =
    xs.countP fun x => p (l x) := by
  rw [@sum_singles _ _ xs l fun _ => 1, List.map_const', List.sum_replicate, smul_eq_mul, mul_one, List.countP_eq_length_filter]

theorem total_singles : ((xs.flatMap fun x => [(l x, 1)]).map Prod.snd).sum = xs.length := by
  have hall := @count_singles (fun _ => true) _ xs l
  simpa using hall

theorem mem_singles {put : Labels × Nat} : put ∈ (xs.flatMap fun x => [(l x, n x)]) ↔ ∃ x ∈ xs, put = (l x, n x) := by
  simp [List.mem_flatMap]

theorem amountsOf_singles : amountsOf (xs.flatMap fun x => [(l x, n x)]) labels = (xs.filter fun x => l x = labels).map n := by
  induction xs with
  | nil => rfl
  | cons x xs ih =>
    unfold amountsOf at ih ⊢
    by_cases h : l x = labels
    · simp [h, ih]
    · simp [h, ih]

theorem length_observed {observed : MetricsEvent num → List β} (h : ∀ e, (observed e).length ≤ 1) :
    (es.flatMap observed).length ≤ es.length := by
  induction es with
  | nil => exact Nat.le_refl _
  | cons e es ih =>
    have := h e
    rw [List.flatMap_cons, List.length_append, List.length_cons]
    omega

end

theorem length_sponsored : (sponsored es).length ≤ es.length := by
  apply length_observed
  intro e
  cases e <;> simp

theorem length_decided : (decided es).length ≤ es.length := by
  apply length_observed
  intro e
  cases e with
  | decision policyId decision seconds => by_cases h : policyId = "<release>" <;> simp [h]
  | _ => simp

theorem length_denials : (denials es).length ≤ (decided es).length := by
  unfold denials
  induction decided es with
  | nil => exact Nat.le_refl _
  | cons d ds ih =>
    cases d with
    | allow => exact Nat.le_succ_of_le ih
    | deny denial => exact Nat.succ_le_succ ih

theorem length_failures : (failures es).length ≤ es.length := by
  apply length_observed
  intro e
  cases e <;> simp

theorem length_rejections : (rejections es).length ≤ es.length := by
  apply length_observed
  intro e
  cases e <;> simp

end

end Paymaster.Metrics
