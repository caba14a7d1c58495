import Paymaster.Backend.PaymasterLayout
import Paymaster.Backend.Policy
import Paymaster.Lib.Pool

/-!
# The sponsor service

`sponsor` as a process. A call resolves its policy, passes the subscription and
balance checks, evaluates its rules one by one, and signs and records the
attestation; a denial gives back what the rules before it reserved, a failure
after the evaluation gives back everything. The steps of a call are what runs
between two of its awaits, so any number of calls and policy reloads
interleave.
-/

namespace Paymaster

open Function

/-! ## Requests and rows -/

/-- What of a request the service reads. `maxCost` is what `calculateMaxCost`
prices it at, `calls` the targets `decodeCallTargets` finds in it. -/
structure SponsorRequest where
  chainId : Nat
  sender : Address
  nonce : Uint256
  policyId : Option String
  calls : Option (List Address)
  maxCost : Nat
deriving DecidableEq

structure CallerIdentity where
  tenantId : String
  clientIp : Option String
  apiKeyId : Option String
deriving DecidableEq

structure Settlement where
  actualGasCostWei : Nat
  success : Bool
deriving DecidableEq

/-- A row of `sponsorships`, with the call that inserted it. `createdAt` is the
database's time in microseconds; `reconciled` stands for `reconciled_at` and
the two columns written with it. -/
structure Sponsorship where
  issuedBy : Nat
  tenantId : String
  chainId : Nat
  sender : Address
  nonce : Uint256
  apiKeyId : String
  policyId : String
  maxCostWei : Nat
  createdAt : Nat
  reconciled : Option Settlement
deriving DecidableEq

structure SponsorServiceDeps where
  chains : Nat → Option PaymasterKind
  defaultPolicyId : String

/-- What `statusOf` says; the end of the grace period as an ISO instant. -/
structure SubscriptionStatus where
  allowsSponsorship : Bool
  graceEndsAt : Option String
deriving DecidableEq

def precheck (kind : PaymasterKind) (subscription : Option SubscriptionStatus) (balance : Option Nat)
    (maxCost : Nat) : Option PolicyDenial :=
  match subscription with
  | some ⟨false, graceEndsAt⟩ =>
    some ⟨"subscription", .subscriptionLapsed,
      match graceEndsAt with
      | none => "no active subscription"
      | some instant => "subscription lapsed at " ++ instant⟩
  | _ =>
    match kind, balance with
    | .tenant, some balance =>
      if balance < maxCost then
        some ⟨"tenantBalance", .tenantBalanceInsufficient,
          "tenant balance " ++ toString balance ++ " wei is below the " ++ toString maxCost ++
            " wei this operation may cost"⟩
      else none
    | _, _ => none

/-! ## Calls in progress -/

/-- What a call did to the store, and what its rules decided; and what the
reconciler gave back on behalf of its row. -/
inductive Deed
  | decided (rule : PolicyRule) (decision : PolicyDecision)
  | consumed (slot : String) (amount limit : Nat)
  | released (slot : String) (amount : Nat)
  | refunded (slot : String) (amount : Nat)
deriving DecidableEq

/-- Where a call is. The rules that `evaluating` has passed are those that
allowed; the reserving ones among them are the engine's `reserved`. -/
inductive Phase
  | admitting
  | evaluating (evaluated ahead : List PolicyRule)
  | refusing (denial : PolicyDenial) (pending : List QuotaRule)
  | denied (denial : PolicyDenial)
  | attesting
  | recording
  | compensating (pending : List QuotaRule)
  | failed
  | attested
deriving DecidableEq

def Phase.proceed (evaluated : List PolicyRule) : List PolicyRule → Phase
  | [] => .attesting
  | rule :: ahead => .evaluating evaluated (rule :: ahead)

def Phase.refuse (denial : PolicyDenial) : List QuotaRule → Phase
  | [] => .denied denial
  | rule :: pending => .refusing denial (rule :: pending)

def Phase.compensate : List QuotaRule → Phase
  | [] => .failed
  | rule :: pending => .compensating (rule :: pending)

def Phase.finished : Phase → Bool
  | .denied _ | .failed | .attested => true
  | _ => false

def Phase.recorded : Phase → Bool
  | .compensating _ | .failed | .attested => true
  | _ => false

/-- A call of `sponsor`, with the policy it resolved, its time once it was
admitted, and what it did so far, newest first. -/
structure SponsorCall where
  request : SponsorRequest
  caller : CallerIdentity
  policyId : String
  policy : Policy
  now : Nat
  phase : Phase
  history : List Deed
deriving DecidableEq

namespace SponsorCall

variable (c : SponsorCall)

def context : PolicyContext where
  chainId := c.request.chainId
  sender := c.request.sender
  clientIp := c.caller.clientIp
  apiKeyId := c.caller.apiKeyId
  calls := c.request.calls
  maxCost := c.request.maxCost
  now := c.now

def enter (kind : PaymasterKind) (subscription : Option SubscriptionStatus) (balance : Option Nat) (now : Nat) :
    SponsorCall :=
  match precheck kind subscription balance c.request.maxCost with
  | some denial => { c with phase := .denied denial }
  | none => { c with now := now, phase := .proceed [] (orderRules c.policy.rules) }

def taken (rule : PolicyRule) (decision : PolicyDecision) : Option (String × Nat × Nat) :=
  match rule, decision with
  | .quota rule, .allow => (rule.slotFor c.context).map fun slot => (slot, rule.amountFor c.context, rule.countedLimit)
  | _, _ => none

def afterRule (evaluated : List PolicyRule) (rule : PolicyRule) (ahead : List PolicyRule)
    (decision : PolicyDecision) : SponsorCall :=
  { c with
    phase := match decision with
      | .allow => .proceed (evaluated ++ [rule]) ahead
      | .deny denial => .refuse denial (reservingOf evaluated)
    history := .decided rule decision ::
      ((c.taken rule decision).map fun (slot, amount, limit) => Deed.consumed slot amount limit).toList ++ c.history }

def afterRelease (rule : QuotaRule) (phase : Phase) : SponsorCall :=
  { c with
    phase := phase
    history := ((rule.slotFor c.context).map fun slot => Deed.released slot (rule.amountFor c.context)).toList ++
      c.history }

def row (i createdAt : Nat) : Sponsorship where
  issuedBy := i
  tenantId := c.caller.tenantId
  chainId := c.request.chainId
  sender := c.request.sender
  nonce := c.request.nonce
  apiKeyId := c.caller.apiKeyId.getD "anonymous"
  policyId := c.policyId
  maxCostWei := c.request.maxCost
  createdAt := createdAt
  reconciled := none

end SponsorCall

/-! ## The machine -/

/-- The service over its replicas: each has a policy source, all share the
counters and the database. `consumedAgainst` keeps the limit of the last
successful consumption from a slot. -/
structure Service where
  policies : Nat → PolicySource
  counters : Counters
  consumedAgainst : String → Option Nat
  calls : List SponsorCall
  rows : List Sponsorship

/-- How `record` went: it inserted its row; it inserted it and failed
nevertheless; it failed; there is no database. -/
inductive RecordOutcome
  | inserted (createdAt : Nat)
  | lost (createdAt : Nat)
  | failed
  | unconfigured
deriving DecidableEq

inductive SponsorLabel
  | reload (replica : Nat) (loaded : List Policy)
  | sponsor (replica : Nat) (request : SponsorRequest) (caller : CallerIdentity)
  | enter (i : Nat) (subscription : Option SubscriptionStatus) (balance : Option Nat) (now : Nat)
  /-- The subscription could not be read. -/
  | abandon (i : Nat)
  /-- The next rule is evaluated; the verdict is its own if it is a check. -/
  | evaluate (i : Nat) (verdict : Verdict)
  /-- One of the pending releases reaches the store. -/
  | release (i j : Nat)
  | attest (i : Nat) (signed : Bool)
  | record (i : Nat) (outcome : RecordOutcome)
deriving DecidableEq

namespace Service

variable (deps : SponsorServiceDeps) (s : Service)

def setCall (i : Nat) (c : SponsorCall) : Service := { s with calls := s.calls.set i c }

def evaluate (i : Nat) (c : SponsorCall) (evaluated : List PolicyRule) (rule : PolicyRule)
    (ahead : List PolicyRule) (verdict : Verdict) : Service :=
  let (decision, counters) := evaluateRule s.counters rule verdict c.context
  { s with
    counters := counters
    consumedAgainst := match c.taken rule decision with
      | none => s.consumedAgainst
      | some (slot, _, limit) => update s.consumedAgainst slot (some limit)
    calls := s.calls.set i (c.afterRule evaluated rule ahead decision) }

def release (i : Nat) (c : SponsorCall) (rule : QuotaRule) (phase : Phase) : Service :=
  { s with
    counters := rule.release s.counters c.context
    calls := s.calls.set i (c.afterRelease rule phase) }

def record (i : Nat) (c : SponsorCall) : RecordOutcome → Service
  | .inserted createdAt =>
    { s with calls := s.calls.set i { c with phase := .attested }, rows := s.rows ++ [c.row i createdAt] }
  | .lost createdAt =>
    { s with
      calls := s.calls.set i { c with phase := .compensate (reservingOf c.policy.rules) }
      rows := s.rows ++ [c.row i createdAt] }
  | .failed => s.setCall i { c with phase := .compensate (reservingOf c.policy.rules) }
  | .unconfigured => s.setCall i { c with phase := .attested }

def step : SponsorLabel → Option Service
  | .reload replica loaded =>
    some { s with policies := update s.policies replica ((s.policies replica).reload loaded) }
  | .sponsor replica request caller =>
    match deps.chains request.chainId,
        (s.policies replica).get caller.tenantId (request.policyId.getD deps.defaultPolicyId) with
    | some _, some policy =>
      some { s with calls := s.calls ++
        [⟨request, caller, request.policyId.getD deps.defaultPolicyId, policy, 0, .admitting, []⟩] }
    | _, _ => some s
  | .enter i subscription balance now =>
    match s.calls[i]? with
    | some c =>
      match c.phase, deps.chains c.request.chainId with
      | .admitting, some kind => some (s.setCall i (c.enter kind subscription balance now))
      | _, _ => none
    | none => none
  | .abandon i =>
    match s.calls[i]? with
    | some c =>
      match c.phase with
      | .admitting => some (s.setCall i { c with phase := .failed })
      | _ => none
    | none => none
  | .evaluate i verdict =>
    match s.calls[i]? with
    | some c =>
      match c.phase with
      | .evaluating evaluated (rule :: ahead) => some (s.evaluate i c evaluated rule ahead verdict)
      | _ => none
    | none => none
  | .release i j =>
    match s.calls[i]? with
    | some c =>
      match c.phase with
      | .refusing denial pending =>
        pending[j]?.map fun rule => s.release i c rule (.refuse denial (pending.eraseIdx j))
      | .compensating pending => pending[j]?.map fun rule => s.release i c rule (.compensate (pending.eraseIdx j))
      | _ => none
    | none => none
  | .attest i signed =>
    match s.calls[i]? with
    | some c =>
      match c.phase with
      | .attesting => some (s.setCall i
          { c with phase := if signed then .recording else .compensate (reservingOf c.policy.rules) })
      | _ => none
    | none => none
  | .record i outcome =>
    match s.calls[i]? with
    | some c =>
      match c.phase with
      | .recording => some (s.record i c outcome)
      | _ => none
    | none => none

def start (policies : Nat → PolicySource) (counters : Counters) : Service :=
  ⟨policies, counters, fun _ => none, [], []⟩

end Service

/-! ## What a step can do -/

inductive SponsorStep (deps : SponsorServiceDeps) (s : Service) : SponsorLabel → Service → Prop
  | reload (replica : Nat) (loaded : List Policy) :
    SponsorStep deps s (.reload replica loaded)
      { s with policies := update s.policies replica ((s.policies replica).reload loaded) }
  /-- A request for an unknown chain or policy. -/
  | unknown (replica : Nat) (request : SponsorRequest) (caller : CallerIdentity) :
    SponsorStep deps s (.sponsor replica request caller) s
  | sponsor (replica : Nat) (request : SponsorRequest) (caller : CallerIdentity) {policy : Policy} :
    (s.policies replica).get caller.tenantId (request.policyId.getD deps.defaultPolicyId) = some policy →
    SponsorStep deps s (.sponsor replica request caller) { s with calls := s.calls ++
      [⟨request, caller, request.policyId.getD deps.defaultPolicyId, policy, 0, .admitting, []⟩] }
  | enter {i : Nat} {c : SponsorCall} (kind : PaymasterKind) (subscription : Option SubscriptionStatus)
    (balance : Option Nat) (now : Nat) :
    s.calls[i]? = some c → c.phase = .admitting →
    SponsorStep deps s (.enter i subscription balance now) (s.setCall i (c.enter kind subscription balance now))
  | abandon {i : Nat} {c : SponsorCall} :
    s.calls[i]? = some c → c.phase = .admitting →
    SponsorStep deps s (.abandon i) (s.setCall i { c with phase := .failed })
  | evaluate {i : Nat} {c : SponsorCall} {evaluated ahead : List PolicyRule} {rule : PolicyRule} (verdict : Verdict) :
    s.calls[i]? = some c → c.phase = .evaluating evaluated (rule :: ahead) →
    SponsorStep deps s (.evaluate i verdict) (s.evaluate i c evaluated rule ahead verdict)
  | refuse {i j : Nat} {c : SponsorCall} {denial : PolicyDenial} {pending : List QuotaRule} {rule : QuotaRule} :
    s.calls[i]? = some c → c.phase = .refusing denial pending → pending[j]? = some rule →
    SponsorStep deps s (.release i j) (s.release i c rule (.refuse denial (pending.eraseIdx j)))
  | compensate {i j : Nat} {c : SponsorCall} {pending : List QuotaRule} {rule : QuotaRule} :
    s.calls[i]? = some c → c.phase = .compensating pending → pending[j]? = some rule →
    SponsorStep deps s (.release i j) (s.release i c rule (.compensate (pending.eraseIdx j)))
  | attest {i : Nat} {c : SponsorCall} (signed : Bool) :
    s.calls[i]? = some c → c.phase = .attesting →
    SponsorStep deps s (.attest i signed) (s.setCall i
      { c with phase := if signed then .recording else .compensate (reservingOf c.policy.rules) })
  | record {i : Nat} {c : SponsorCall} (outcome : RecordOutcome) :
    s.calls[i]? = some c → c.phase = .recording →
    SponsorStep deps s (.record i outcome) (s.record i c outcome)

theorem sponsorStep_cases {deps : SponsorServiceDeps} {s s' : Service} {l : SponsorLabel}
    (h : s.step deps l = some s') : SponsorStep deps s l s' := by
  cases l with
  | reload replica loaded => cases h; exact .reload replica loaded
  | sponsor replica request caller =>
    simp only [Service.step] at h
    split at h
    · rename_i hp
      cases h; exact .sponsor replica request caller hp
    · cases h; exact .unknown replica request caller
  | enter i subscription balance now =>
    simp only [Service.step] at h
    split at h
    · rename_i c hc
      split at h
      · rename_i kind hphase _
        cases h; exact .enter kind subscription balance now hc hphase
      · cases h
    · cases h
  | abandon i =>
    simp only [Service.step] at h
    split at h
    · rename_i c hc
      split at h
      · rename_i hphase
        cases h; exact .abandon hc hphase
      · cases h
    · cases h
  | evaluate i verdict =>
    simp only [Service.step] at h
    split at h
    · rename_i c hc
      split at h
      · rename_i hphase
        cases h; exact .evaluate verdict hc hphase
      · cases h
    · cases h
  | release i j =>
    simp only [Service.step] at h
    split at h
    · rename_i c hc
      split at h
      · rename_i hphase
        obtain ⟨rule, hr, rfl⟩ := Option.map_eq_some_iff.mp h
        exact .refuse hc hphase hr
      · rename_i hphase
        obtain ⟨rule, hr, rfl⟩ := Option.map_eq_some_iff.mp h
        exact .compensate hc hphase hr
      · cases h
    · cases h
  | attest i signed =>
    simp only [Service.step] at h
    split at h
    · rename_i c hc
      split at h
      · rename_i hphase
        cases h; exact .attest signed hc hphase
      · cases h
    · cases h
  | record i outcome =>
    simp only [Service.step] at h
    split at h
    · rename_i c hc
      split at h
      · rename_i hphase
        cases h; exact .record outcome hc hphase
      · cases h
    · cases h

/-- A call that is done stays as it is. -/
theorem sponsorStep_finished {deps : SponsorServiceDeps} {s s' : Service} {l : SponsorLabel} {i : Nat}
    {c : SponsorCall} (h : SponsorStep deps s l s') (hc : s.calls[i]? = some c) (hp : c.phase.finished = true) :
    s'.calls[i]? = some c := by
  have hframe : ∀ {j : Nat} {d d' : SponsorCall}, s.calls[j]? = some d → d.phase.finished = false →
      (s.calls.set j d')[i]? = some c := by
    intro j d d' hd hne
    by_cases hij : j = i
    · subst hij
      obtain rfl := Option.some.inj (hc.symm.trans hd)
      rw [hp] at hne
      cases hne
    · rw [List.getElem?_set_ne hij]
      exact hc
  cases h with
  | reload => exact hc
  | unknown => exact hc
  | sponsor => exact Pool.getElem?_append_of_some hc
  | enter _ _ _ _ hd hq => exact hframe hd (by rw [hq]; rfl)
  | abandon hd hq => exact hframe hd (by rw [hq]; rfl)
  | evaluate _ hd hq => exact hframe hd (by rw [hq]; rfl)
  | refuse hd hq => exact hframe hd (by rw [hq]; rfl)
  | compensate hd hq => exact hframe hd (by rw [hq]; rfl)
  | attest _ hd hq => exact hframe hd (by rw [hq]; rfl)
  | record outcome hd hq => cases outcome <;> exact hframe hd (by rw [hq]; rfl)

end Paymaster
