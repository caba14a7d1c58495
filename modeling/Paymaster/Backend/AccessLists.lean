import Paymaster.Backend.CallData
import Paymaster.Backend.Conservation
import Paymaster.Backend.PaymasterAndData
import Paymaster.Backend.PolicyFactory

/-!
# Access lists

What the rules without budgets decide, each on the calls that were decoded for
it, and what their approval says about the calls that the account goes on to
make. An attested operation keeps to every list of the policy it was attested
under, whatever call data it carries.
-/

namespace Paymaster

open Bytes

/-! ## The rules -/

/-- How a denial prints what it is about: the sender and the selectors as the
request spells them, the other addresses as viem does. -/
structure Spellings where
  sender : String
  selector : Data → String
  address : Address → String

structure AccessContext where
  chainId : Nat
  sender : Address
  calls : Option (List DecodedCall)
  spellings : Spellings

def evaluateCalls (rule undecodable : String) (objection : Spellings → DecodedCall → Option PolicyDenial)
    (context : AccessContext) : PolicyDecision :=
  match context.calls with
  | none => .deny ⟨rule, .callDataUndecodable, undecodable⟩
  | some calls =>
    match calls.findSome? (objection context.spellings) with
    | some denial => .deny denial
    | none => .allow

namespace SenderAllowlistRule

def evaluate (allowed : List Address) (context : AccessContext) : PolicyDecision :=
  if context.sender ∈ allowed then .allow
  else .deny ⟨"sender-allowlist", .senderNotAllowed, "sender " ++ context.spellings.sender ++ " is not on the allowlist"⟩

end SenderAllowlistRule

namespace SenderBlocklistRule

def evaluate (blocked : List Address) (context : AccessContext) : PolicyDecision :=
  if context.sender ∈ blocked then
    .deny ⟨"sender-blocklist", .senderBlocked, "sender " ++ context.spellings.sender ++ " is blocked"⟩
  else .allow

end SenderBlocklistRule

namespace TargetAllowlistRule

def objection (allowed : List Address) (spellings : Spellings) (call : DecodedCall) : Option PolicyDenial :=
  if call.target ∈ allowed then none
  else some ⟨"target-allowlist", .targetNotAllowed, "target " ++ spellings.address call.target ++ " is not on the allowlist"⟩

def evaluate (allowed : List Address) : AccessContext → PolicyDecision :=
  evaluateCalls "target-allowlist"
    "callData does not match a known account interface, so its targets cannot be checked" (objection allowed)

end TargetAllowlistRule

namespace MethodAllowlistRule

def objection (allowed : List (BitVec 32)) (allowBareValueTransfer : Bool) (spellings : Spellings) (call : DecodedCall) :
    Option PolicyDenial :=
  match call.selector with
  | none =>
    if allowBareValueTransfer then none
    else some ⟨"method-allowlist", .methodNotAllowed, "bare value transfers are not sponsored"⟩
  | some selector =>
    if selector ∈ allowed.map hexOf then none
    else some ⟨"method-allowlist", .methodNotAllowed,
      "method " ++ spellings.selector selector ++ " is not on the allowlist"⟩

def evaluate (allowed : List (BitVec 32)) (allowBareValueTransfer : Bool) : AccessContext → PolicyDecision :=
  evaluateCalls "method-allowlist"
    "callData does not match a known account interface, so its methods cannot be checked"
    (objection allowed allowBareValueTransfer)

end MethodAllowlistRule

namespace NoValueTransferRule

def objection (spellings : Spellings) (call : DecodedCall) : Option PolicyDenial :=
  if 0 < call.value.toNat then
    some ⟨"no-value-transfer", .valueNotAllowed,
      "call to " ++ spellings.address call.target ++ " transfers " ++ toString call.value.toNat ++ " wei"⟩
  else none

def evaluate : AccessContext → PolicyDecision :=
  evaluateCalls "no-value-transfer" "callData could not be decoded to check for value transfers" objection

end NoValueTransferRule

def TokenStandard.text : TokenStandard → String
  | .erc20 => "erc20"
  | .erc721 => "erc721"

namespace TokenOwnershipRule

def tokenOn (config : TokenOwnershipConfig) (chainId : Nat) : Option Address :=
  (config.tokenByChain.lookup chainId).or config.token

/-- `balanceOf` answers for a chain, a token and an account, or throws. -/
def evaluate (config : TokenOwnershipConfig) (balanceOf : Nat → Address → Address → Except String Nat)
    (context : AccessContext) : PolicyDecision :=
  match tokenOn config context.chainId with
  | none => .deny ⟨"token-ownership", .tokenBalanceInsufficient,
      "no " ++ config.standard.text ++ " token address is configured for chain " ++ toString context.chainId⟩
  | some token =>
    match balanceOf context.chainId token context.sender with
    | .error message => .deny ⟨"token-ownership", .ruleError,
        "could not read " ++ config.standard.text ++ " balance of " ++ context.spellings.address token ++ " for " ++
          context.spellings.sender ++ ": " ++ message⟩
    | .ok balance =>
      if config.minBalance ≤ balance then .allow
      else .deny ⟨"token-ownership", .tokenBalanceInsufficient,
        "sender " ++ context.spellings.sender ++ " holds " ++ toString balance ++ " of " ++
          context.spellings.address token ++ ", below the required " ++ toString config.minBalance⟩

end TokenOwnershipRule

namespace BuiltRule

def verdict (balanceOf : Nat → Address → Address → Except String Nat) (context : AccessContext) : BuiltRule → Verdict
  | .senderAllowlist addresses => .decided (SenderAllowlistRule.evaluate addresses context)
  | .senderBlocklist addresses => .decided (SenderBlocklistRule.evaluate addresses context)
  | .targetAllowlist addresses => .decided (TargetAllowlistRule.evaluate addresses context)
  | .methodAllowlist selectors allowBare => .decided (MethodAllowlistRule.evaluate selectors allowBare context)
  | .noValueTransfer => .decided (NoValueTransferRule.evaluate context)
  | .tokenOwnership config => .decided (TokenOwnershipRule.evaluate config balanceOf context)
  -- These two read nothing of the environment.
  | .chainEnabled _ => .decided .allow
  | .quota _ => .decided .allow

/-- What a rule asks of an operation and of the calls that its account makes. -/
def Admits (balanceOf : Nat → Address → Address → Except String Nat) (chainId : Nat) (sender : Address)
    (calls : List AccountCall) : BuiltRule → Prop
  | .chainEnabled chainIds => chainId ∈ chainIds
  | .senderAllowlist addresses => sender ∈ addresses
  | .senderBlocklist addresses => sender ∉ addresses
  | .targetAllowlist addresses => ∀ call ∈ calls, call.dest ∈ addresses
  | .methodAllowlist selectors allowBare =>
    ∀ call ∈ calls, if 4 ≤ call.func.length then call.func.take 4 ∈ selectors.map hexOf else allowBare = true
  | .noValueTransfer => ∀ call ∈ calls, call.value = 0
  | .tokenOwnership config => ∃ token balance, TokenOwnershipRule.tokenOn config chainId = some token ∧
      balanceOf chainId token sender = .ok balance ∧ config.minBalance ≤ balance
  | .quota _ => True

def readsCalls : BuiltRule → Bool
  | .targetAllowlist _ | .methodAllowlist _ _ | .noValueTransfer => true
  | _ => false

end BuiltRule

/-! ## What an approval says -/

section
variable {context : AccessContext} {calls : List AccountCall} {rule undecodable : String}
  {objection : Spellings → DecodedCall → Option PolicyDenial} {spellings : Spellings}

theorem evaluateCalls_allow_iff : evaluateCalls rule undecodable objection context = .allow ↔
    ∃ calls, context.calls = some calls ∧ ∀ call ∈ calls, objection context.spellings call = none := by
  unfold evaluateCalls
  cases hcalls : context.calls with
  | none => simp
  | some calls =>
    simp only [Option.some.injEq, exists_eq_left']
    rw [← List.findSome?_eq_none_iff]
    cases calls.findSome? (objection context.spellings) <;> simp

theorem evaluateCalls_decoded (h : context.calls = some (calls.map AccountCall.decoded)) :
    evaluateCalls rule undecodable objection context = .allow ↔
      ∀ call ∈ calls, objection context.spellings call.decoded = none := by
  rw [evaluateCalls_allow_iff, h]
  simp

theorem target_objection (allowed : List Address) (call : AccountCall) :
    TargetAllowlistRule.objection allowed spellings call.decoded = none ↔ call.dest ∈ allowed := by
  have htarget : call.decoded.target = call.dest := rfl
  unfold TargetAllowlistRule.objection
  rw [htarget]
  by_cases h : call.dest ∈ allowed <;> simp [h]

theorem method_objection (allowed : List (BitVec 32)) (allowBare : Bool) (call : AccountCall) :
    MethodAllowlistRule.objection allowed allowBare spellings call.decoded = none ↔
      if 4 ≤ call.func.length then call.func.take 4 ∈ allowed.map hexOf else allowBare = true := by
  unfold MethodAllowlistRule.objection AccountCall.decoded
  by_cases hsize : 4 ≤ call.func.length
  · simp only [if_pos hsize]
    split
    · rename_i h
      exact iff_of_true rfl h
    · rename_i h
      exact iff_of_false nofun h
  · simp only [if_neg hsize]
    cases allowBare <;> simp

theorem value_objection (call : AccountCall) :
    NoValueTransferRule.objection spellings call.decoded = none ↔ call.value = 0 := by
  have hvalue : call.decoded.value = call.value := rfl
  unfold NoValueTransferRule.objection
  rw [hvalue]
  by_cases h : call.value = 0
  · simp [h]
  · have hpos : 0 < call.value.toNat := by
      apply Nat.pos_of_ne_zero
      intro hzero
      exact h (BitVec.eq_of_toNat_eq (by simpa using hzero))
    rw [if_pos hpos]
    exact iff_of_false nofun h

theorem tokenOwnership_allow_iff (config : TokenOwnershipConfig) (balanceOf : Nat → Address → Address → Except String Nat) :
    TokenOwnershipRule.evaluate config balanceOf context = .allow ↔
      ∃ token balance, TokenOwnershipRule.tokenOn config context.chainId = some token ∧
        balanceOf context.chainId token context.sender = .ok balance ∧ config.minBalance ≤ balance := by
  unfold TokenOwnershipRule.evaluate
  cases htoken : TokenOwnershipRule.tokenOn config context.chainId with
  | none => simp
  | some token =>
    cases hbalance : balanceOf context.chainId token context.sender with
    | error message => simp [hbalance]
    | ok balance =>
      by_cases h : config.minBalance ≤ balance
      · simp [hbalance, h]
      · simp [hbalance, h]

def BuiltRule.decide (counters : Counters) (balanceOf : Nat → Address → Address → Except String Nat) (access : AccessContext)
    (context : PolicyContext) (built : BuiltRule) : PolicyDecision :=
  (evaluateRule counters built.toPolicyRule (built.verdict balanceOf access) context).1

/-- On calls that were decoded, a rule without a budget allows exactly what it admits. -/
theorem decide_allow_iff {counters : Counters} {balanceOf : Nat → Address → Address → Except String Nat}
    {policyContext : PolicyContext} {built : BuiltRule} (hchain : policyContext.chainId = context.chainId)
    (hquota : ∀ quota, built ≠ .quota quota) (h : context.calls = some (calls.map AccountCall.decoded)) :
    built.decide counters balanceOf context policyContext = .allow ↔
      built.Admits balanceOf context.chainId context.sender calls := by
  unfold BuiltRule.decide
  cases built with
  | chainEnabled chainIds =>
    simp only [BuiltRule.toPolicyRule, evaluateRule, BuiltRule.Admits, hchain]
    by_cases hmem : context.chainId ∈ chainIds <;> simp [hmem]
  | senderAllowlist addresses =>
    simp only [BuiltRule.toPolicyRule, evaluateRule, BuiltRule.verdict, BuiltRule.Admits, SenderAllowlistRule.evaluate]
    by_cases hmem : context.sender ∈ addresses <;> simp [hmem]
  | senderBlocklist addresses =>
    simp only [BuiltRule.toPolicyRule, evaluateRule, BuiltRule.verdict, BuiltRule.Admits, SenderBlocklistRule.evaluate]
    by_cases hmem : context.sender ∈ addresses <;> simp [hmem]
  | targetAllowlist addresses =>
    simp only [BuiltRule.toPolicyRule, evaluateRule, BuiltRule.verdict, BuiltRule.Admits, TargetAllowlistRule.evaluate,
      evaluateCalls_decoded h, target_objection]
  | methodAllowlist selectors allowBare =>
    simp only [BuiltRule.toPolicyRule, evaluateRule, BuiltRule.verdict, BuiltRule.Admits, MethodAllowlistRule.evaluate,
      evaluateCalls_decoded h, method_objection]
  | noValueTransfer =>
    simp only [BuiltRule.toPolicyRule, evaluateRule, BuiltRule.verdict, BuiltRule.Admits, NoValueTransferRule.evaluate,
      evaluateCalls_decoded h, value_objection]
  | tokenOwnership config =>
    simp only [BuiltRule.toPolicyRule, evaluateRule, BuiltRule.verdict, BuiltRule.Admits, tokenOwnership_allow_iff]
  | quota quota => exact absurd rfl (hquota quota)

/-- What could not be decoded is allowed by the rules that ask nothing of the calls. -/
theorem decide_undecoded_iff {counters : Counters} {balanceOf : Nat → Address → Address → Except String Nat}
    {policyContext : PolicyContext} {built : BuiltRule} (hchain : policyContext.chainId = context.chainId)
    (hquota : ∀ quota, built ≠ .quota quota) (h : context.calls = none) :
    built.decide counters balanceOf context policyContext = .allow ↔
      built.readsCalls = false ∧ ∀ calls, built.Admits balanceOf context.chainId context.sender calls := by
  have hdenied : ∀ {rule undecodable : String} {objection : Spellings → DecodedCall → Option PolicyDenial},
      evaluateCalls rule undecodable objection context ≠ .allow := by
    intro rule undecodable objection
    unfold evaluateCalls
    simp [h]
  unfold BuiltRule.decide
  cases built with
  | chainEnabled chainIds =>
    simp only [BuiltRule.toPolicyRule, evaluateRule, BuiltRule.Admits, BuiltRule.readsCalls, hchain]
    by_cases hmem : context.chainId ∈ chainIds <;> simp [hmem]
  | senderAllowlist addresses =>
    simp only [BuiltRule.toPolicyRule, evaluateRule, BuiltRule.verdict, BuiltRule.Admits, BuiltRule.readsCalls,
      SenderAllowlistRule.evaluate]
    by_cases hmem : context.sender ∈ addresses <;> simp [hmem]
  | senderBlocklist addresses =>
    simp only [BuiltRule.toPolicyRule, evaluateRule, BuiltRule.verdict, BuiltRule.Admits, BuiltRule.readsCalls,
      SenderBlocklistRule.evaluate]
    by_cases hmem : context.sender ∈ addresses <;> simp [hmem]
  | targetAllowlist addresses => exact iff_of_false hdenied (by simp [BuiltRule.readsCalls])
  | methodAllowlist selectors allowBare => exact iff_of_false hdenied (by simp [BuiltRule.readsCalls])
  | noValueTransfer => exact iff_of_false hdenied (by simp [BuiltRule.readsCalls])
  | tokenOwnership config =>
    simp only [BuiltRule.toPolicyRule, evaluateRule, BuiltRule.verdict, BuiltRule.Admits, BuiltRule.readsCalls,
      tokenOwnership_allow_iff, true_and, forall_const]
  | quota quota => exact absurd rfl (hquota quota)

end

/-! ## Attested operations -/

def SponsorLabel.evaluation? : SponsorLabel → Option (Nat × Verdict)
  | .evaluate i verdict => some (i, verdict)
  | _ => none

/-- What the environment of a run knows that the service's own state leaves out. -/
structure Admission where
  viem : AbiDecoder
  /-- The rules that the policy was built from which a call of `sponsor` resolved. -/
  built : Nat → List BuiltRule
  /-- The call data that a call of `sponsor` was made for. -/
  callData : Nat → Data
  /-- What `balanceOf` answers when a call evaluates its rule at a position. -/
  balanceOf : Nat → Nat → Nat → Address → Address → Except String Nat
  spellings : Nat → Spellings

namespace Admission

variable (a : Admission)

def BuiltBefore (x y : BuiltRule × Nat) : Prop := RuleBefore (x.1.toPolicyRule, x.2) (y.1.toPolicyRule, y.2)

instance : DecidableRel BuiltBefore := fun x y =>
  inferInstanceAs (Decidable (RuleBefore (x.1.toPolicyRule, x.2) (y.1.toPolicyRule, y.2)))

def rulesOf (i : Nat) : List BuiltRule := ((a.built i).zipIdx.insertionSort BuiltBefore).map Prod.fst

def expected (s : Service) (i : Nat) : Option Verdict := do
  let c ← s.calls[i]?
  match c.phase with
  | .evaluating evaluated _ =>
    let built ← (a.rulesOf i)[evaluated.length]?
    let calls ← (decodeCallTargets a.viem (a.callData i)).toOption
    some (built.verdict (a.balanceOf i evaluated.length) ⟨c.request.chainId, c.request.sender, calls, a.spellings i⟩)
  | _ => none

def Judged (s : Service) (l : SponsorLabel) : Prop :=
  ∀ e ∈ l.evaluation?, ∀ verdict ∈ a.expected s e.1, e.2 = verdict

instance (s : Service) (l : SponsorLabel) : Decidable (a.Judged s l) :=
  inferInstanceAs (Decidable (∀ e ∈ l.evaluation?, ∀ verdict ∈ a.expected s e.1, e.2 = verdict))

theorem rulesOf_map {i : Nat} {rules : List PolicyRule} (h : (a.built i).map BuiltRule.toPolicyRule = rules) :
    (a.rulesOf i).map BuiltRule.toPolicyRule = orderRules rules := by
  have hsort := List.map_insertionSort BuiltBefore RuleBefore (Prod.map BuiltRule.toPolicyRule id)
    (a.built i).zipIdx fun _ _ _ _ => Iff.rfl
  unfold rulesOf orderRules
  rw [← h, List.zipIdx_map, ← hsort, List.map_map, List.map_map]
  rfl

theorem mem_rulesOf {i : Nat} {built : BuiltRule} : built ∈ a.rulesOf i ↔ built ∈ a.built i := by
  have hperm := (List.perm_insertionSort BuiltBefore (a.built i).zipIdx).map Prod.fst
  rw [List.zipIdx_map_fst] at hperm
  exact hperm.mem_iff

end Admission

/-- How many of its rules have allowed a call that is still on its way. -/
def SponsorCall.passed (c : SponsorCall) : Nat :=
  match c.phase with
  | .evaluating evaluated _ => evaluated.length
  | .attesting | .recording | .attested => c.policy.rules.length
  | _ => 0

section
variable {a : Admission} {deps : SponsorServiceDeps} {s s' : Service} {l : SponsorLabel} {i : Nat} {c c' : SponsorCall}

/-- Every rule that a call has passed allowed what was decoded for it. -/
def Approving (a : Admission) (i : Nat) (c : SponsorCall) : Prop :=
  (a.built i).map BuiltRule.toPolicyRule = c.policy.rules →
    ∀ k built calls, k < c.passed → (a.rulesOf i)[k]? = some built →
      decodeCallTargets a.viem (a.callData i) = .ok calls →
      ∃ counters policyContext, policyContext.chainId = c.request.chainId ∧
        built.decide counters (a.balanceOf i k) ⟨c.request.chainId, c.request.sender, calls, a.spellings i⟩ policyContext = .allow

theorem Approving.of_le (h : Approving a i c) (hpolicy : c'.policy = c.policy) (hrequest : c'.request = c.request)
    (hpassed : c'.passed ≤ c.passed) : Approving a i c' := by
  intro hbuilt k built calls hk hrule hdecoded
  rw [hpolicy] at hbuilt
  rw [hrequest]
  exact h hbuilt k built calls (Nat.lt_of_lt_of_le hk hpassed) hrule hdecoded

theorem passed_refuse (denial : PolicyDenial) (pending : List QuotaRule) (history : List Deed) :
    SponsorCall.passed { c with phase := .refuse denial pending, history := history } = 0 := by
  cases pending <;> rfl

theorem passed_compensate (pending : List QuotaRule) (history : List Deed) :
    SponsorCall.passed { c with phase := .compensate pending, history := history } = 0 := by
  cases pending <;> rfl

theorem approving_compensate (h : Approving a i c) :
    Approving a i { c with phase := .compensate (reservingOf c.policy.rules) } :=
  h.of_le rfl rfl (by
    rw [passed_compensate]
    exact Nat.zero_le _)

theorem approving_enter (kind : PaymasterKind) (subscription : Option SubscriptionStatus) (balance : Option Nat)
    (now : Nat) : Approving a i (c.enter kind subscription balance now) := by
  intro hbuilt k built calls hk
  have hzero : (c.enter kind subscription balance now).passed = 0 := by
    unfold SponsorCall.enter
    cases precheck kind subscription balance c.request.maxCost with
    | some denial => rfl
    | none =>
      cases hrules : orderRules c.policy.rules with
      | nil =>
        have hnil : c.policy.rules = [] := List.Perm.eq_nil (hrules ▸ (orderRules_perm c.policy.rules).symm)
        simp [SponsorCall.passed, Phase.proceed, hnil]
      | cons rule ahead => rfl
  omega

/-- An allowed rule is the one at the next position. -/
theorem approving_allow {evaluated ahead : List PolicyRule} {rule : PolicyRule} {verdict : Verdict} {counters : Counters}
    (h : Approving a i c) (hphase : c.phase = .evaluating evaluated (rule :: ahead))
    (hsplit : orderRules c.policy.rules = evaluated ++ rule :: ahead)
    (hverdict : ∀ built calls, (a.rulesOf i)[evaluated.length]? = some built →
      decodeCallTargets a.viem (a.callData i) = .ok calls →
      verdict = built.verdict (a.balanceOf i evaluated.length) ⟨c.request.chainId, c.request.sender, calls, a.spellings i⟩)
    (hallow : (evaluateRule counters rule verdict c.context).1 = .allow) :
    Approving a i (c.afterRule evaluated rule ahead .allow) := by
  intro hbuilt k built calls hk hrule hdecoded
  have hlength := (orderRules_perm c.policy.rules).length_eq
  rw [hsplit, List.length_append, List.length_cons] at hlength
  have hpassed : (c.afterRule evaluated rule ahead .allow).passed = evaluated.length + 1 := by
    cases ahead with
    | nil =>
      simp only [List.length_nil] at hlength
      simp [SponsorCall.afterRule, SponsorCall.passed, Phase.proceed]
      omega
    | cons next ahead => simp [SponsorCall.afterRule, SponsorCall.passed, Phase.proceed]
  by_cases hlast : k = evaluated.length
  · subst hlast
    have hmap := a.rulesOf_map hbuilt
    have hpos : (orderRules c.policy.rules)[evaluated.length]? = some rule := by simp [hsplit]
    have htoRule : built.toPolicyRule = rule := by
      rw [show c.policy = (c.afterRule evaluated rule ahead .allow).policy from rfl, ← hmap, List.getElem?_map,
        hrule] at hpos
      simpa using hpos
    refine ⟨counters, c.context, rfl, ?_⟩
    unfold BuiltRule.decide
    rw [htoRule]
    rw [hverdict built calls hrule hdecoded] at hallow
    exact hallow
  · have hpassedOld : c.passed = evaluated.length := by simp [SponsorCall.passed, hphase]
    exact h hbuilt k built calls (by omega) hrule hdecoded

theorem approving_step (hsound : ∀ c ∈ s.calls, c.Sound) (h : ∀ i c, s.calls[i]? = some c → Approving a i c)
    (hjudged : a.Judged s l) (hstep : SponsorStep deps s l s') :
    ∀ i c, s'.calls[i]? = some c → Approving a i c := by
  have hset : ∀ {j : Nat} {d : SponsorCall}, Approving a j d → ∀ i c, (s.calls.set j d)[i]? = some c → Approving a i c := by
    intro j d hd i c hc
    rcases Pool.getElem?_set_cases hc with ⟨rfl, rfl⟩ | ⟨-, hc⟩
    · exact hd
    · exact h i c hc
  cases hstep with
  | reload => exact h
  | unknown => exact h
  | sponsor replica request caller hpolicy =>
    intro i c hc
    rcases Pool.getElem?_append_cases hc with ⟨-, rfl⟩ | hc
    · intro hbuilt k built calls hk
      exact absurd hk (Nat.not_lt_zero k)
    · exact h i c hc
  | enter kind subscription balance now hc hphase => exact hset (approving_enter kind subscription balance now)
  | abandon hc hphase => exact hset ((h _ _ hc).of_le rfl rfl (Nat.zero_le _))
  | @evaluate j d evaluated ahead rule verdict hc hphase =>
    have hsplit := (hsound d (List.mem_of_getElem? hc)).split _ _ hphase
    cases hdecision : (evaluateRule s.counters rule verdict d.context).1 with
    | allow =>
      have hallow := approving_allow (h j d hc) hphase hsplit
        (fun built calls hrule hdecoded => hjudged (j, verdict) rfl _
          (by simp [Admission.expected, hc, hphase, hrule, hdecoded, Except.toOption])) hdecision
      unfold Service.evaluate
      simp only [hdecision]
      exact hset hallow
    | deny denial =>
      unfold Service.evaluate
      simp only [hdecision]
      exact hset ((h j d hc).of_le rfl rfl (by
        rw [SponsorCall.afterRule, passed_refuse]
        exact Nat.zero_le _))
  | @refuse j k d denial pending rule hc hphase hrule =>
    exact hset ((h j d hc).of_le rfl rfl (by
      rw [SponsorCall.afterRelease, passed_refuse]
      exact Nat.zero_le _))
  | @compensate j k d pending rule hc hphase hrule =>
    exact hset ((h j d hc).of_le rfl rfl (by
      rw [SponsorCall.afterRelease, passed_compensate]
      exact Nat.zero_le _))
  | @attest j d signed hc hphase =>
    cases signed with
    | true => exact hset ((h j d hc).of_le rfl rfl (by simp [SponsorCall.passed, hphase]))
    | false => exact hset (approving_compensate (h j d hc))
  | @record j d outcome hc hphase =>
    have hattested : Approving a j { d with phase := .attested } :=
      (h j d hc).of_le rfl rfl (by simp [SponsorCall.passed, hphase])
    cases outcome with
    | inserted createdAt => exact hset hattested
    | lost createdAt => exact hset (approving_compensate (h j d hc))
    | failed => exact hset (approving_compensate (h j d hc))
    | unconfigured => exact hset hattested

end

/-- An account with the interface: it makes the calls that its call data says,
where the arrays of a batch are parallel. -/
def Implements (account : Data → Option (List AccountCall)) : Prop :=
  ∀ callData performed, account callData = some performed →
    ∃ e, AccountExecution.read callData = some e ∧ ∀ calls, e.calls = some calls → performed = calls

/-- An operation that was attested under a policy makes no call that a rule of
the policy does not admit. -/
theorem attested_admitted {a : Admission} {deps : SponsorServiceDeps} {policies : Nat → PolicySource}
    {counters : Counters} {ls : List SponsorLabel} {s : Service} {i : Nat} {c : SponsorCall}
    {account : Data → Option (List AccountCall)} {performed : List AccountCall}
    (hrun : Runs.run (Service.step deps) (.start policies counters) ls = some s)
    (hjudged : Runs.Meets (Service.step deps) a.Judged (.start policies counters) ls)
    (hc : s.calls[i]? = some c) (hattested : c.phase = .attested)
    (hbuilt : (a.built i).map BuiltRule.toPolicyRule = c.policy.rules)
    (haccount : Implements account) (hperformed : account (a.callData i) = some performed) :
    ∀ built ∈ a.built i, ∃ k,
      built.Admits (a.balanceOf i k) c.request.chainId c.request.sender performed := by
  have hstart : Conserved counters (.start policies counters) :=
    ⟨by simp [Service.start], by simp [Service.start], fun slot => Nat.le_refl _⟩
  have happroving := Runs.invariant_of_meets
    (P := fun s => Conserved counters s ∧ ∀ i c, s.calls[i]? = some c → Approving a i c)
    (fun h hjudged hstep => ⟨conserved_step (sponsorStep_cases hstep) h.1,
      approving_step h.1.sound h.2 hjudged (sponsorStep_cases hstep)⟩)
    ⟨hstart, fun i c hc => by simp [Service.start] at hc⟩ hjudged hrun
  intro built hmem
  obtain ⟨k, hk⟩ := List.getElem?_of_mem (a.mem_rulesOf.mpr hmem)
  have hlt : k < c.passed := by
    have hlength := congrArg List.length (a.rulesOf_map hbuilt)
    rw [List.length_map, (orderRules_perm c.policy.rules).length_eq] at hlength
    have hbound := (List.getElem?_eq_some_iff.mp hk).1
    simp only [SponsorCall.passed, hattested]
    omega
  refine ⟨k, ?_⟩
  by_cases hquota : ∃ quota, built = .quota quota
  · obtain ⟨quota, rfl⟩ := hquota
    trivial
  have hquota : ∀ quota, built ≠ .quota quota := fun quota h => hquota ⟨quota, h⟩
  cases hdecoded : decodeCallTargets a.viem (a.callData i) with
  | error thrown =>
    rw [decodeCallTargets_eq] at hdecoded
    cases hdecoded
  | ok calls =>
    obtain ⟨counters', policyContext, hchain, hallow⟩ := happroving.2 i c hc hbuilt k built calls hlt hk hdecoded
    cases calls with
    | none => exact ((decide_undecoded_iff hchain hquota rfl).mp hallow).2 performed
    | some decoded =>
      obtain ⟨e, calls, hread, hcalls, rfl⟩ := decodeCallTargets_some hdecoded
      obtain ⟨e', hread', hagrees⟩ := haccount _ _ hperformed
      obtain rfl : e = e' := Option.some.inj (hread.symm.trans hread')
      obtain rfl := hagrees calls hcalls
      exact (decide_allow_iff hchain hquota rfl).mp hallow

def listedPolicy : Policy := ⟨"default", "standard", [.check "target-allowlist" .pure, .check "no-value-transfer" .pure]⟩

def listedBatch : AccountExecution := .executeBatch [7, 7] [0, 0] [[], [0x09, 0x5e, 0xa7, 0xb3, 0xff]]

def listedAdmission : Admission where
  viem := abiDecoderOf fun _ => 0
  built _ := [.targetAllowlist [7], .noValueTransfer]
  callData _ := listedBatch.encode
  balanceOf _ _ _ _ _ := .ok 0
  spellings _ := ⟨lowerHex 4, Signature.hexText, lowerHex⟩

def listedSponsorship : List SponsorLabel :=
  [.sponsor 0 ⟨1, 4, 0, none, some [7, 7], 3000000000⟩ sampleCaller, .enter 0 none none 1700000000,
    .evaluate 0 (.decided .allow), .evaluate 0 (.decided .allow), .attest 0 true, .record 0 .unconfigured]

theorem attested_admitted_listed :
    (∃ k, (BuiltRule.targetAllowlist [7]).Admits (listedAdmission.balanceOf 0 k) 1 4
      [⟨7, 0, []⟩, ⟨7, 0, [0x09, 0x5e, 0xa7, 0xb3, 0xff]⟩]) ∧
    ∃ k, BuiltRule.noValueTransfer.Admits (listedAdmission.balanceOf 0 k) 1 4
      [⟨7, 0, []⟩, ⟨7, 0, [0x09, 0x5e, 0xa7, 0xb3, 0xff]⟩] := by
  have hrun : (Runs.run (Service.step sampleDeps) (.start (fun _ => ⟨[listedPolicy], by simp⟩) fun _ => none)
      listedSponsorship).bind (fun s => s.calls[0]?.map fun c =>
        (c.phase, c.policy, c.request.chainId, c.request.sender)) = some (.attested, listedPolicy, 1, 4) := by
    decide +kernel
  obtain ⟨s, hs, hcall⟩ := Option.bind_eq_some_iff.mp hrun
  obtain ⟨c, hc, hfields⟩ := Option.map_eq_some_iff.mp hcall
  simp only [Prod.mk.injEq] at hfields
  obtain ⟨hphase, hpolicy, hchain, hsender⟩ := hfields
  have hjudged : Runs.Meets (Service.step sampleDeps) listedAdmission.Judged
      (.start (fun _ => ⟨[listedPolicy], by simp⟩) fun _ => none) listedSponsorship := by
    decide +kernel
  have haccount : Implements fun callData => (AccountExecution.read callData).bind AccountExecution.calls := by
    intro callData performed h
    obtain ⟨e, hread, hcalls⟩ := Option.bind_eq_some_iff.mp h
    exact ⟨e, hread, fun calls h => Option.some.inj (hcalls.symm.trans h)⟩
  have hperformed : (AccountExecution.read (listedAdmission.callData 0)).bind AccountExecution.calls =
      some [⟨7, 0, []⟩, ⟨7, 0, [0x09, 0x5e, 0xa7, 0xb3, 0xff]⟩] := by
    decide +kernel
  have hadmitted := attested_admitted hs hjudged hc hphase (by rw [hpolicy]; rfl) haccount hperformed
  rw [hchain, hsender] at hadmitted
  exact ⟨hadmitted (.targetAllowlist [7]) List.mem_cons_self,
    hadmitted .noValueTransfer (List.mem_cons_of_mem _ List.mem_cons_self)⟩

/-- Encoded calls are decoded to themselves, and a rule without a budget allows
them exactly if it admits them; a batch whose arrays are not parallel is
unknown, and only allowed by the rules that ask nothing of the calls. -/
theorem decided_as_encoded (viem : AbiDecoder) (e : AccountExecution) (h : e.encode.length < 2 ^ 53) :
    decodeCallTargets viem e.encode = .ok (e.calls.map (List.map AccountCall.decoded)) ∧
      ∀ (built : BuiltRule) (counters : Counters) (balanceOf : Nat → Address → Address → Except String Nat)
        (policyContext : PolicyContext) (spellings : Spellings), (∀ quota, built ≠ .quota quota) →
        (built.decide counters balanceOf
            ⟨policyContext.chainId, policyContext.sender, e.calls.map (List.map AccountCall.decoded), spellings⟩
            policyContext = .allow ↔
          match e.calls with
          | some calls => built.Admits balanceOf policyContext.chainId policyContext.sender calls
          | none => built.readsCalls = false ∧
              ∀ calls, built.Admits balanceOf policyContext.chainId policyContext.sender calls) := by
  refine ⟨decodeCallTargets_encode h, ?_⟩
  intro built counters balanceOf policyContext spellings hquota
  cases e.calls with
  | none => exact decide_undecoded_iff rfl hquota rfl
  | some calls => exact decide_allow_iff rfl hquota rfl

theorem decided_as_encoded_listed :
    decodeCallTargets (abiDecoderOf fun _ => 0) listedBatch.encode =
      .ok (some [⟨7, 0, none, []⟩, ⟨7, 0, some [0x09, 0x5e, 0xa7, 0xb3], [0x09, 0x5e, 0xa7, 0xb3, 0xff]⟩]) ∧
      BuiltRule.decide (fun _ => none) (fun _ _ _ => .ok 0)
        ⟨1, 4, listedBatch.calls.map (List.map AccountCall.decoded), listedAdmission.spellings 0⟩ ⟨⟨1, 4, none, none, none⟩, 0, 0⟩
        (.methodAllowlist [0x095ea7b3] true) = .allow := by
  obtain ⟨hdecoded, hdecide⟩ := decided_as_encoded (abiDecoderOf fun _ => 0) listedBatch (by decide +kernel)
  have hadmits := hdecide (.methodAllowlist [0x095ea7b3] true) (fun _ => none) (fun _ _ _ => .ok 0)
    ⟨⟨1, 4, none, none, none⟩, 0, 0⟩ (listedAdmission.spellings 0) nofun
  refine ⟨hdecoded, hadmits.mpr ?_⟩
  intro call hcall
  have hcalls : call ∈ [(⟨7, 0, []⟩ : AccountCall), ⟨7, 0, [0x09, 0x5e, 0xa7, 0xb3, 0xff]⟩] := hcall
  rcases List.mem_pair.mp hcalls with rfl | rfl
  · rfl
  · decide

end Paymaster
