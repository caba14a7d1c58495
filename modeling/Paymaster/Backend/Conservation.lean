import Paymaster.Backend.SponsorService
import Paymaster.Lib.Pool
import Paymaster.Lib.Run

/-!
# Quotas are conserved

Every counter is what it started from plus what the calls in progress and the
issued attestations hold. What a call holds can be read off its phase: the
charges of the reserving rules it has passed, or of those it still has to
release.
-/

namespace Paymaster

open Function Pool

/-! ## What a call holds -/

namespace SponsorCall

variable (c : SponsorCall) (slot : String)

def reservations : List QuotaRule :=
  match c.phase with
  | .evaluating evaluated _ => reservingOf evaluated
  | .refusing _ pending => pending
  | .compensating pending => pending
  | .attesting | .recording | .attested => reservingOf c.policy.rules
  | _ => []

def held : Nat := total (fun rule => rule.chargeAt c.context slot) c.reservations

end SponsorCall

def Deed.chargeAt (slot : String) : Deed → Nat
  | .consumed s amount _ => if s = slot then amount else 0
  | _ => 0

def Deed.releaseAt (slot : String) : Deed → Nat
  | .released s amount => if s = slot then amount else 0
  | _ => 0

def Deed.refundAt (slot : String) : Deed → Nat
  | .refunded s amount => if s = slot then amount else 0
  | _ => 0

/-- What a call charged to a slot, what it released there, and what the
reconciler refunded there on behalf of its row. -/
def SponsorCall.charged (c : SponsorCall) (slot : String) : Nat := total (Deed.chargeAt slot) c.history

def SponsorCall.returned (c : SponsorCall) (slot : String) : Nat := total (Deed.releaseAt slot) c.history

def SponsorCall.refunded (c : SponsorCall) (slot : String) : Nat := total (Deed.refundAt slot) c.history

def SponsorCall.approved (c : SponsorCall) : List PolicyRule :=
  match c.phase with
  | .evaluating evaluated _ => evaluated
  | .attesting | .recording | .attested => c.policy.rules
  | _ => []

structure SponsorCall.Sound (c : SponsorCall) : Prop where
  fresh : c.phase = .admitting → c.history = []
  split : ∀ evaluated ahead, c.phase = .evaluating evaluated ahead → orderRules c.policy.rules = evaluated ++ ahead
  allowed : ∀ rule ∈ c.approved, .decided rule .allow ∈ c.history
  balance : ∀ slot, c.charged slot = c.returned slot + c.held slot
  kept : c.phase = .attested ∨ c.phase = .recording ∨ c.phase = .attesting ∨
    (∃ evaluated ahead, c.phase = .evaluating evaluated ahead) → ∀ slot, c.returned slot = 0
  /-- As long as only pure rules were evaluated, the call did nothing but let them decide. -/
  passed : ∀ evaluated ahead, c.phase = .evaluating evaluated ahead → (∀ rule ∈ evaluated, rule.cost = .pure) →
    ∀ d ∈ c.history, ∃ rule decision, d = .decided rule decision ∧ rule.cost = .pure
  undenied : (∀ denial pending, c.phase ≠ .refusing denial pending) → (∀ denial, c.phase ≠ .denied denial) →
    ∀ rule denial, .decided rule (.deny denial) ∉ c.history
  /-- A denial by a pure rule ends the call. -/
  cheap : ∀ rule denial, .decided rule (.deny denial) ∈ c.history → rule.cost = .pure →
    (∃ denial, c.phase = .denied denial) ∧
      ∀ d ∈ c.history, ∃ rule decision, d = .decided rule decision ∧ rule.cost = .pure

/-! ## Steps of a call -/

section
variable {c : SponsorCall} {evaluated ahead : List PolicyRule}

theorem reservingOf_append (rules : List PolicyRule) (rule : PolicyRule) :
    reservingOf (rules ++ [rule]) = reservingOf rules ++ rule.reserving?.toList := by
  unfold reservingOf
  rw [List.filterMap_append]
  cases h : rule.reserving? <;> simp [h]

theorem reservingOf_pure {rules : List PolicyRule} (h : ∀ rule ∈ rules, rule.cost = .pure) : reservingOf rules = [] := by
  refine List.filterMap_eq_nil_iff.mpr fun rule hr => ?_
  cases rule with
  | quota q => cases h _ hr
  | chainEnabled chainIds => rfl
  | check name cost => rfl

def SponsorCall.share (c : SponsorCall) (rule : PolicyRule) (slot : String) : Nat :=
  total (fun q => q.chargeAt c.context slot) rule.reserving?.toList

theorem total_reservingOf_append (c : SponsorCall) (rules : List PolicyRule) (rule : PolicyRule) (slot : String) :
    total (fun q => q.chargeAt c.context slot) (reservingOf (rules ++ [rule])) =
      total (fun q => q.chargeAt c.context slot) (reservingOf rules) + c.share rule slot := by
  rw [reservingOf_append, total_append]
  rfl

theorem total_reservingOf_policy {rules : List PolicyRule} (h : orderRules c.policy.rules = rules) (slot : String) :
    total (fun q => q.chargeAt c.context slot) (reservingOf c.policy.rules) =
      total (fun q => q.chargeAt c.context slot) (reservingOf rules) :=
  total_perm ((h ▸ orderRules_perm c.policy.rules).filterMap _).symm

theorem charge_taken (rule : PolicyRule) (decision : PolicyDecision) (slot : String) :
    total (Deed.chargeAt slot) (((c.taken rule decision).map fun (slot, amount, limit) =>
      Deed.consumed slot amount limit).toList) = if decision = .allow then c.share rule slot else 0 := by
  cases rule with
  | chainEnabled chainIds => cases decision <;> simp [SponsorCall.taken, SponsorCall.share, PolicyRule.reserving?]
  | check name cost => cases decision <;> simp [SponsorCall.taken, SponsorCall.share, PolicyRule.reserving?]
  | quota q =>
    cases decision with
    | deny denial => simp [SponsorCall.taken]
    | allow =>
      cases hs : q.slotFor c.context with
      | none => simp [SponsorCall.taken, SponsorCall.share, PolicyRule.reserving?, QuotaRule.chargeAt, hs]
      | some slot' =>
        simp [SponsorCall.taken, SponsorCall.share, PolicyRule.reserving?, QuotaRule.chargeAt, hs, Deed.chargeAt]

theorem held_proceed (hsplit : orderRules c.policy.rules = evaluated ++ ahead) (history : List Deed) (slot : String) :
    SponsorCall.held { c with phase := .proceed evaluated ahead, history := history } slot =
      total (fun q => q.chargeAt c.context slot) (reservingOf evaluated) := by
  cases ahead with
  | nil =>
    rw [List.append_nil] at hsplit
    exact total_reservingOf_policy hsplit slot
  | cons rule ahead => rfl

theorem held_refuse (denial : PolicyDenial) (pending : List QuotaRule) (history : List Deed) (slot : String) :
    SponsorCall.held { c with phase := .refuse denial pending, history := history } slot =
      total (fun q => q.chargeAt c.context slot) pending := by
  cases pending <;> rfl

theorem held_compensate (pending : List QuotaRule) (history : List Deed) (slot : String) :
    SponsorCall.held { c with phase := .compensate pending, history := history } slot =
      total (fun q => q.chargeAt c.context slot) pending := by
  cases pending <;> rfl

/-- The `catch` holds what was held until its releases are made. -/
theorem held_compensation (hp : c.phase = .attesting ∨ c.phase = .recording) (slot : String) :
    SponsorCall.held { c with phase := .compensate (reservingOf c.policy.rules) } slot = c.held slot := by
  rw [held_compensate (c := c) (reservingOf c.policy.rules) c.history, SponsorCall.held]
  rcases hp with hp | hp <;> simp [SponsorCall.reservations, hp]

theorem recorded_compensate (pending : List QuotaRule) : (Phase.compensate pending).recorded = true := by
  cases pending <;> rfl

/-- Nothing but decisions that allow, and what they took, until a rule denies. -/
theorem SponsorCall.Sound.undenied_of_approving (hs : c.Sound)
    (hp : c.phase = .attested ∨ c.phase = .recording ∨ c.phase = .attesting ∨
      ∃ evaluated ahead, c.phase = .evaluating evaluated ahead) (rule : PolicyRule) (denial : PolicyDenial) :
    .decided rule (.deny denial) ∉ c.history := by
  refine hs.undenied (fun _ _ h => ?_) (fun _ h => ?_) rule denial <;>
    rcases hp with hp | hp | hp | ⟨_, _, hp⟩ <;> rw [hp] at h <;> cases h

theorem SponsorCall.Sound.enter (hs : c.Sound) (hp : c.phase = .admitting) (kind : PaymasterKind)
    (subscription : Option SubscriptionStatus) (balance : Option Nat) (now : Nat) :
    (c.enter kind subscription balance now).Sound := by
  have hh : c.history = [] := hs.fresh hp
  unfold SponsorCall.enter
  split
  · constructor <;> simp [SponsorCall.approved, SponsorCall.held, SponsorCall.reservations, SponsorCall.charged,
      SponsorCall.returned, hh]
  · cases ho : orderRules c.policy.rules with
    | nil =>
      have hnil : c.policy.rules = [] := List.Perm.eq_nil (ho ▸ (orderRules_perm c.policy.rules).symm)
      constructor <;> simp [SponsorCall.approved, SponsorCall.held, SponsorCall.reservations, SponsorCall.charged,
        SponsorCall.returned, hh, Phase.proceed, hnil, reservingOf]
    | cons rule ahead =>
      constructor <;> simp [SponsorCall.approved, SponsorCall.held, SponsorCall.reservations, SponsorCall.charged,
        SponsorCall.returned, hh, Phase.proceed, ho, reservingOf]

theorem SponsorCall.Sound.abandon (hs : c.Sound) (hp : c.phase = .admitting) :
    SponsorCall.Sound { c with phase := .failed } := by
  have hh : c.history = [] := hs.fresh hp
  constructor <;> simp [SponsorCall.approved, SponsorCall.held, SponsorCall.reservations, SponsorCall.charged,
    SponsorCall.returned, hh]

theorem held_allow {evaluated ahead : List PolicyRule} {rule : PolicyRule} (hs : c.Sound)
    (hp : c.phase = .evaluating evaluated (rule :: ahead)) (slot : String) :
    (c.afterRule evaluated rule ahead .allow).held slot = c.held slot + c.share rule slot := by
  have hsplit : orderRules c.policy.rules = (evaluated ++ [rule]) ++ ahead := by
    rw [hs.split _ _ hp, List.append_assoc, List.singleton_append]
  rw [SponsorCall.afterRule, held_proceed hsplit, total_reservingOf_append]
  simp only [SponsorCall.held, SponsorCall.reservations, hp]

theorem held_deny {evaluated ahead : List PolicyRule} {rule : PolicyRule}
    (hp : c.phase = .evaluating evaluated (rule :: ahead)) (denial : PolicyDenial) (slot : String) :
    (c.afterRule evaluated rule ahead (.deny denial)).held slot = c.held slot := by
  rw [SponsorCall.afterRule, held_refuse]
  simp only [SponsorCall.held, SponsorCall.reservations, hp]

theorem SponsorCall.Sound.allow {rule : PolicyRule} (hs : c.Sound)
    (hp : c.phase = .evaluating evaluated (rule :: ahead)) : (c.afterRule evaluated rule ahead .allow).Sound := by
  have hsplit : orderRules c.policy.rules = (evaluated ++ [rule]) ++ ahead := by
    rw [hs.split _ _ hp, List.append_assoc, List.singleton_append]
  have hmem : ∀ r ∈ evaluated ++ [rule], Deed.decided r .allow ∈ (c.afterRule evaluated rule ahead .allow).history := by
    intro r hr
    rcases List.mem_append.mp hr with hr | hr
    · have := hs.allowed r (by simpa only [SponsorCall.approved, hp] using hr)
      simp [SponsorCall.afterRule, this]
    · simp [SponsorCall.afterRule, List.mem_singleton.mp hr]
  have hcharged : ∀ slot, (c.afterRule evaluated rule ahead .allow).charged slot = c.charged slot + c.share rule slot := by
    intro slot
    simp only [SponsorCall.charged, SponsorCall.afterRule, List.cons_append, total_cons, total_append, charge_taken, ite_true,
      Deed.chargeAt]
    omega
  have hreturned : ∀ slot, (c.afterRule evaluated rule ahead .allow).returned slot = c.returned slot := by
    intro slot
    have ht : total (Deed.releaseAt slot) (((c.taken rule .allow).map fun (slot, amount, limit) =>
        Deed.consumed slot amount limit).toList) = 0 := by
      cases c.taken rule .allow <;> simp [Deed.releaseAt]
    simp only [SponsorCall.returned, SponsorCall.afterRule, List.cons_append, total_cons, total_append, ht, Deed.releaseAt]
    omega
  have hden : ∀ r denial, Deed.decided r (.deny denial) ∉ (c.afterRule evaluated rule ahead .allow).history := by
    intro r denial h
    have hold := hs.undenied_of_approving (.inr (.inr (.inr ⟨_, _, hp⟩))) r denial
    cases ht : c.taken rule .allow <;> simp [SponsorCall.afterRule, ht, hold] at h
  constructor
  · intro h
    cases ahead <;> cases h
  · intro e a h
    cases ahead with
    | nil => cases h
    | cons r rs =>
      cases h
      exact hsplit
  · intro r hr
    refine hmem r ?_
    cases ahead with
    | nil =>
      rw [List.append_nil] at hsplit
      exact hsplit ▸ (orderRules_perm c.policy.rules).symm.subset hr
    | cons r' rs => exact hr
  · intro slot
    rw [hcharged, hreturned, held_allow hs hp, hs.balance slot, Nat.add_assoc]
  · intro _ slot
    rw [hreturned]
    exact hs.kept (.inr (.inr (.inr ⟨_, _, hp⟩))) slot
  · intro e a h hpure d hd
    cases ahead with
    | nil => cases h
    | cons r rs =>
      cases h
      have hrule : rule.cost = .pure := hpure rule (by simp)
      have hcheck : c.taken rule .allow = none := by
        cases rule with
        | quota q => cases hrule
        | chainEnabled chainIds => rfl
        | check name cost => rfl
      simp only [SponsorCall.afterRule, hcheck, Option.map_none, Option.toList_none, List.mem_cons,
        List.singleton_append] at hd
      rcases hd with rfl | hd
      · exact ⟨rule, _, rfl, hrule⟩
      · exact hs.passed _ _ hp (fun r hr => hpure r (by simp [hr])) d hd
  · intro _ _
    exact hden
  · intro r denial h
    exact absurd h (hden r denial)

theorem SponsorCall.Sound.deny {rule : PolicyRule} (hs : c.Sound)
    (hp : c.phase = .evaluating evaluated (rule :: ahead)) (denial : PolicyDenial) :
    (c.afterRule evaluated rule ahead (.deny denial)).Sound := by
  have hhist : (c.afterRule evaluated rule ahead (.deny denial)).history = .decided rule (.deny denial) :: c.history := by
    cases rule <;> rfl
  have hold := hs.undenied_of_approving (.inr (.inr (.inr ⟨_, _, hp⟩)))
  -- The phase is one of the two of a denial, whatever is pending.
  have hphase : (∃ pending, (c.afterRule evaluated rule ahead (.deny denial)).phase = .refusing denial pending) ∨
      (c.afterRule evaluated rule ahead (.deny denial)).phase = .denied denial := by
    simp only [SponsorCall.afterRule]
    cases reservingOf evaluated with
    | nil => exact .inr rfl
    | cons q qs => exact .inl ⟨_, rfl⟩
  constructor
  · intro h
    rcases hphase with ⟨_, hq⟩ | hq <;> rw [hq] at h <;> cases h
  · intro e a h
    rcases hphase with ⟨_, hq⟩ | hq <;> rw [hq] at h <;> cases h
  · intro r hr
    rcases hphase with ⟨_, hq⟩ | hq <;> simp [SponsorCall.approved, hq] at hr
  · intro slot
    have := hs.balance slot
    rw [held_deny hp]
    simp only [SponsorCall.charged, SponsorCall.returned, hhist, total_cons, Deed.chargeAt, Deed.releaseAt] at this ⊢
    omega
  · intro h
    rcases hphase with ⟨_, hq⟩ | hq <;> rcases h with h | h | h | ⟨_, _, h⟩ <;> rw [hq] at h <;> cases h
  · intro e a h
    rcases hphase with ⟨_, hq⟩ | hq <;> rw [hq] at h <;> cases h
  · intro h1 h2
    rcases hphase with ⟨p, hq⟩ | hq
    · exact absurd hq (h1 denial p)
    · exact absurd hq (h2 denial)
  · intro r d hd hr
    rw [hhist] at hd ⊢
    rcases List.mem_cons.mp hd with he | hd
    · -- Everything before a pure rule is pure, so nothing is pending.
      cases he
      have hsorted := orderRules_sorted c.policy.rules
      rw [hs.split _ _ hp] at hsorted
      have hpure : ∀ r ∈ evaluated, r.cost = .pure := by
        intro r' hr'
        have := (List.pairwise_append.mp hsorted).2.2 r' hr' rule List.mem_cons_self
        rw [hr] at this
        cases hc : r'.cost <;> simp [hc, RuleCost.order] at this ⊢
      refine ⟨⟨denial, ?_⟩, fun d' hd' => ?_⟩
      · simp only [SponsorCall.afterRule, reservingOf_pure hpure, Phase.refuse]
      · rcases List.mem_cons.mp hd' with rfl | hd'
        · exact ⟨rule, _, rfl, hr⟩
        · exact hs.passed _ _ hp hpure d' hd'
    · exact absurd hd (hold r d)

/-- A release of one of the pending reservations, into a phase that holds the others. -/
theorem SponsorCall.afterRelease_accounts {pending : List QuotaRule} {j : Nat} {rule : QuotaRule} {phase : Phase}
    (hp : c.reservations = pending) (hj : pending[j]? = some rule)
    (hphase : (c.afterRelease rule phase).reservations = pending.eraseIdx j) (slot : String) :
    (c.afterRelease rule phase).charged slot = c.charged slot ∧
    (c.afterRelease rule phase).returned slot = c.returned slot + rule.chargeAt c.context slot ∧
    (c.afterRelease rule phase).held slot + rule.chargeAt c.context slot = c.held slot := by
  refine ⟨?_, ?_, ?_⟩
  · unfold SponsorCall.charged SponsorCall.afterRelease
    cases rule.slotFor c.context <;> simp [Deed.chargeAt]
  · unfold SponsorCall.returned SponsorCall.afterRelease QuotaRule.chargeAt
    cases rule.slotFor c.context <;> simp [Deed.releaseAt, Nat.add_comm]
  · unfold SponsorCall.held
    rw [hphase, hp]
    exact total_eraseIdx hj

/-- Once a call is being refused or compensated, only its balance matters. -/
theorem SponsorCall.Sound.release {pending : List QuotaRule} {j : Nat} {rule : QuotaRule} {phase : Phase}
    (hs : c.Sound) (hp : c.reservations = pending) (hj : pending[j]? = some rule)
    (hphase : (c.afterRelease rule phase).reservations = pending.eraseIdx j)
    (hnext : (∃ denial, (phase = .denied denial ∨ ∃ p, phase = .refusing denial p) ∧ ∃ p, c.phase = .refusing denial p) ∨
      ((phase = .failed ∨ ∃ p, phase = .compensating p) ∧ ∃ p, c.phase = .compensating p)) :
    (c.afterRelease rule phase).Sound := by
  have hden : ∀ r denial, Deed.decided r (.deny denial) ∈ (c.afterRelease rule phase).history →
      .decided r (.deny denial) ∈ c.history := by
    intro r denial h
    unfold SponsorCall.afterRelease at h
    cases hslot : rule.slotFor c.context <;> simpa [hslot] using h
  have happroved : (c.afterRelease rule phase).approved = [] := by
    rcases hnext with ⟨_, rfl | ⟨_, rfl⟩, _⟩ | ⟨rfl | ⟨_, rfl⟩, _⟩ <;> rfl
  constructor
  · intro h
    rcases hnext with ⟨_, rfl | ⟨_, rfl⟩, _⟩ | ⟨rfl | ⟨_, rfl⟩, _⟩ <;> cases h
  · intro e a h
    rcases hnext with ⟨_, rfl | ⟨_, rfl⟩, _⟩ | ⟨rfl | ⟨_, rfl⟩, _⟩ <;> cases h
  · intro r hr
    rw [happroved] at hr
    cases hr
  · intro slot
    obtain ⟨h1, h2, h3⟩ := c.afterRelease_accounts hp hj hphase slot
    have := hs.balance slot
    omega
  · intro h
    rcases hnext with ⟨_, rfl | ⟨_, rfl⟩, _⟩ | ⟨rfl | ⟨_, rfl⟩, _⟩ <;>
      rcases h with h | h | h | ⟨_, _, h⟩ <;> cases h
  · intro e a h
    rcases hnext with ⟨_, rfl | ⟨_, rfl⟩, _⟩ | ⟨rfl | ⟨_, rfl⟩, _⟩ <;> cases h
  · intro h1 h2 r denial h
    rcases hnext with ⟨d, rfl | ⟨p, rfl⟩, _⟩ | ⟨-, p, hc⟩
    · exact h2 d rfl
    · exact h1 d p rfl
    · refine hs.undenied ?_ ?_ r denial (hden r denial h) <;> simp [hc]
  · intro r denial h hr
    -- A call whose denial was cheap had nothing to release.
    obtain ⟨⟨d, hd⟩, -⟩ := hs.cheap r denial (hden r denial h) hr
    rcases hnext with ⟨_, _, p, hc⟩ | ⟨_, p, hc⟩ <;> rw [hd] at hc <;> cases hc

/-- Signing and recording leave the history alone. -/
theorem SponsorCall.Sound.forward {phase : Phase} (hs : c.Sound) (hp : c.phase = .attesting ∨ c.phase = .recording)
    (hphase : phase = .recording ∨ phase = .attested) : SponsorCall.Sound { c with phase := phase } := by
  have hpol : c.approved = c.policy.rules ∧ c.reservations = reservingOf c.policy.rules := by
    rcases hp with hp | hp <;> simp [SponsorCall.approved, SponsorCall.reservations, hp]
  have hpol' : SponsorCall.approved { c with phase := phase } = c.policy.rules ∧
      SponsorCall.reservations { c with phase := phase } = reservingOf c.policy.rules := by
    rcases hphase with rfl | rfl <;> exact ⟨rfl, rfl⟩
  have hden := hs.undenied_of_approving (by rcases hp with hp | hp <;> simp [hp])
  constructor
  · intro h
    rcases hphase with rfl | rfl <;> cases h
  · intro e a h
    rcases hphase with rfl | rfl <;> cases h
  · rw [hpol'.1]
    exact hpol.1 ▸ hs.allowed
  · intro slot
    have := hs.balance slot
    unfold SponsorCall.held at this ⊢
    rwa [hpol'.2, ← hpol.2]
  · intro _ slot
    exact hs.kept (by rcases hp with hp | hp <;> simp [hp]) slot
  · intro e a h
    rcases hphase with rfl | rfl <;> cases h
  · intro _ _ r denial
    exact hden r denial
  · intro r denial h
    exact absurd h (hden r denial)

theorem SponsorCall.Sound.compensate (hs : c.Sound) (hp : c.phase = .attesting ∨ c.phase = .recording) :
    SponsorCall.Sound { c with phase := .compensate (reservingOf c.policy.rules) } := by
  have hden := hs.undenied_of_approving (by rcases hp with hp | hp <;> simp [hp])
  constructor
  · intro h
    cases hq : reservingOf c.policy.rules <;> rw [hq] at h <;> cases h
  · intro e a h
    cases hq : reservingOf c.policy.rules <;> rw [hq] at h <;> cases h
  · intro r hr
    cases hq : reservingOf c.policy.rules <;> rw [hq] at hr <;> cases hr
  · intro slot
    rw [held_compensation hp]
    exact hs.balance slot
  · intro h
    cases hq : reservingOf c.policy.rules <;> rw [hq] at h <;> rcases h with h | h | h | ⟨_, _, h⟩ <;> cases h
  · intro e a h
    cases hq : reservingOf c.policy.rules <;> rw [hq] at h <;> cases h
  · intro _ _ r denial
    exact hden r denial
  · intro r denial h
    exact absurd h (hden r denial)

end

/-! ## Steps of the service -/

section
variable {deps : SponsorServiceDeps} {s s' : Service} {c : SponsorCall} {l : SponsorLabel}

/-- A rule leaves the counters alone, or takes what it says from one slot, within its limit. -/
theorem evaluateRule_cases {counters counters' : Counters} {rule : PolicyRule} {verdict : Verdict}
    {decision : PolicyDecision} (h : evaluateRule counters rule verdict c.context = (decision, counters')) :
    (c.taken rule decision = none ∧ counters' = counters) ∨
    ∃ slot amount limit, decision = .allow ∧ c.taken rule decision = some (slot, amount, limit) ∧
      counters.at slot + amount ≤ limit ∧ counters' = update counters slot (some (counters.at slot + amount)) := by
  cases rule with
  | chainEnabled chainIds =>
    simp only [evaluateRule] at h
    split at h <;> cases h <;> exact .inl ⟨rfl, rfl⟩
  | check name cost =>
    cases verdict <;> cases h <;> exact .inl ⟨rfl, rfl⟩
  | quota q =>
    rcases q.evaluate_cases h with ⟨denial, rfl, rfl⟩ | ⟨rfl, hs, rfl⟩ | ⟨slot, rfl, hs, hle, rfl⟩
    · exact .inl ⟨rfl, rfl⟩
    · exact .inl ⟨by simp [SponsorCall.taken, hs], rfl⟩
    · exact .inr ⟨slot, _, _, rfl, by simp [SponsorCall.taken, hs], hle, rfl⟩

theorem share_of_taken_none {rule : PolicyRule} (h : c.taken rule .allow = none) (slot : String) :
    c.share rule slot = 0 := by
  have := charge_taken (c := c) rule .allow slot
  rw [h] at this
  simpa using this.symm

theorem share_of_taken {rule : PolicyRule} {slot' : String} {amount limit : Nat}
    (h : c.taken rule .allow = some (slot', amount, limit)) (slot : String) :
    c.share rule slot = if slot' = slot then amount else 0 := by
  have := charge_taken (c := c) rule .allow slot
  rw [h] at this
  simpa [Deed.chargeAt] using this.symm

/-- What stays of a call that steps: what it was asked and what it resolved;
its history, which only grows, and not by refunds; its time, once it has one. -/
structure SponsorCall.Continues (c c' : SponsorCall) : Prop where
  request : c'.request = c.request
  caller : c'.caller = c.caller
  policyId : c'.policyId = c.policyId
  policy : c'.policy = c.policy
  now : c.phase ≠ .admitting → c'.now = c.now
  history : ∃ new, c'.history = new ++ c.history ∧ ∀ slot amount, .refunded slot amount ∉ new
  recorded : c.phase.recorded = true → c'.phase.recorded = true

/-- One call stepped: it stays sound, the counters move by as much as what it
holds (or less far down, if a release was clamped), a counter that rose is
within the limit it was last consumed against, and a row is inserted by
`record` only. -/
structure CallStep (s : Service) (l : SponsorLabel) (s' : Service) (i : Nat) (c c' : SponsorCall) : Prop where
  before : s.calls[i]? = some c
  after : s'.calls = s.calls.set i c'
  sound : c'.Sound
  continues : c.Continues c'
  floor : ∀ slot, s.counters.at slot + c'.held slot ≤ s'.counters.at slot + c.held slot
  exact : ∀ slot, c.held slot ≤ s.counters.at slot →
    s.counters.at slot + c'.held slot = s'.counters.at slot + c.held slot
  limit : ∀ slot, (s'.consumedAgainst slot = s.consumedAgainst slot ∧ s'.counters.at slot ≤ s.counters.at slot) ∨
    ∃ limit, s'.consumedAgainst slot = some limit ∧ s'.counters.at slot ≤ limit
  policies : s'.policies = s.policies
  rows : s'.rows = s.rows ∨ ∃ createdAt, (l = .record i (.inserted createdAt) ∨ l = .record i (.lost createdAt)) ∧
    c.phase = .recording ∧ c'.phase.recorded = true ∧ s'.rows = s.rows ++ [c.row i createdAt]

theorem CallStep.quiet {i : Nat} {phase : Phase} {now : Nat} (l : SponsorLabel) (hc : s.calls[i]? = some c)
    (hs : SponsorCall.Sound { c with phase := phase, now := now })
    (hheld : ∀ slot, SponsorCall.held { c with phase := phase, now := now } slot = c.held slot)
    (hnow : c.phase ≠ .admitting → now = c.now) (hrec : c.phase.recorded = true → phase.recorded = true) :
    CallStep s l (s.setCall i { c with phase := phase, now := now }) i c { c with phase := phase, now := now } where
  before := hc
  after := rfl
  sound := hs
  continues := ⟨rfl, rfl, rfl, rfl, hnow, ⟨[], rfl, by simp⟩, hrec⟩
  floor slot := by rw [hheld]; exact Nat.le_refl _
  exact slot _ := by rw [hheld]; rfl
  limit _ := .inl ⟨rfl, Nat.le_refl _⟩
  policies := rfl
  rows := .inl rfl

theorem CallStep.evaluate {i : Nat} {evaluated ahead : List PolicyRule} {rule : PolicyRule} (verdict : Verdict)
    (hc : s.calls[i]? = some c) (hs : c.Sound) (hp : c.phase = .evaluating evaluated (rule :: ahead)) :
    ∃ c', CallStep s l (s.evaluate i c evaluated rule ahead verdict) i c c' := by
  cases he : evaluateRule s.counters rule verdict c.context with
  | mk decision counters' =>
    refine ⟨c.afterRule evaluated rule ahead decision, ?_⟩
    have hsound : (c.afterRule evaluated rule ahead decision).Sound := by
      cases decision with
      | allow => exact hs.allow hp
      | deny denial => exact hs.deny hp denial
    have hcont : c.Continues (c.afterRule evaluated rule ahead decision) := by
      refine ⟨rfl, rfl, rfl, rfl, fun _ => rfl, ⟨_, rfl, fun slot amount h => ?_⟩, fun h => by simp [hp, Phase.recorded] at h⟩
      cases ht : c.taken rule decision <;> simp [ht] at h
    rcases evaluateRule_cases he with ⟨ht, rfl⟩ | ⟨slot', amount, limit, rfl, ht, hle, rfl⟩
    · have hheld : ∀ slot, (c.afterRule evaluated rule ahead decision).held slot = c.held slot := by
        intro slot
        cases decision with
        | allow => rw [held_allow hs hp, share_of_taken_none ht, Nat.add_zero]
        | deny denial => exact held_deny hp denial slot
      have hstep : s.evaluate i c evaluated rule ahead verdict =
          s.setCall i (c.afterRule evaluated rule ahead decision) := by
        simp only [Service.evaluate, he, ht, Service.setCall]
      rw [hstep]
      exact ⟨hc, rfl, hsound, hcont, fun slot => by rw [hheld]; exact Nat.le_refl _,
        fun slot _ => by rw [hheld]; rfl, fun _ => .inl ⟨rfl, Nat.le_refl _⟩, rfl, .inl rfl⟩
    · have hstep : s.evaluate i c evaluated rule ahead verdict =
          { s with
            counters := update s.counters slot' (some (s.counters.at slot' + amount))
            consumedAgainst := update s.consumedAgainst slot' (some limit)
            calls := s.calls.set i (c.afterRule evaluated rule ahead .allow) } := by
        simp only [Service.evaluate, he, ht]
      have hat : ∀ slot, Counters.at (update s.counters slot' (some (s.counters.at slot' + amount))) slot =
          s.counters.at slot + c.share rule slot := by
        intro slot
        rw [share_of_taken ht slot]
        by_cases hs' : slot' = slot
        · subst hs'
          simp
        · rw [Counters.at_update_of_ne (Ne.symm hs'), if_neg hs', Nat.add_zero]
      rw [hstep]
      refine ⟨hc, rfl, hsound, hcont, fun slot => ?_, fun slot _ => ?_, fun slot => ?_, rfl, .inl rfl⟩
      · simp only [hat, held_allow hs hp]
        omega
      · simp only [hat, held_allow hs hp]
        omega
      · by_cases hs' : slot = slot'
        · subst hs'
          exact .inr ⟨limit, update_self .., by simpa using hle⟩
        · refine .inl ⟨update_of_ne hs' .., ?_⟩
          simp only [Counters.at_update_of_ne hs', Nat.le_refl]

theorem CallStep.release {i j : Nat} {pending : List QuotaRule} {rule : QuotaRule} {phase : Phase}
    (hc : s.calls[i]? = some c) (hsound : (c.afterRelease rule phase).Sound) (hp : c.reservations = pending)
    (hj : pending[j]? = some rule) (hphase : (c.afterRelease rule phase).reservations = pending.eraseIdx j)
    (hrec : c.phase.recorded = true → phase.recorded = true) :
    CallStep s l (s.release i c rule phase) i c (c.afterRelease rule phase) := by
  have hat : ∀ slot, (s.release i c rule phase).counters.at slot =
      s.counters.at slot - rule.chargeAt c.context slot := fun slot => rule.at_release
  have hheld := fun slot => (c.afterRelease_accounts hp hj hphase slot).2.2
  have hcont : c.Continues (c.afterRelease rule phase) := by
    refine ⟨rfl, rfl, rfl, rfl, fun _ => rfl, ⟨_, rfl, fun slot amount h => ?_⟩, hrec⟩
    cases hslot : rule.slotFor c.context <;> simp [hslot] at h
  refine ⟨hc, rfl, hsound, hcont, fun slot => ?_, fun slot hle => ?_, fun slot => .inl ⟨rfl, ?_⟩, rfl, .inl rfl⟩
  · have := hheld slot
    rw [hat]
    omega
  · have := hheld slot
    rw [hat]
    omega
  · rw [hat]
    exact Nat.sub_le ..

/-- `record` inserts the call's row, whatever becomes of the call. -/
theorem CallStep.insert {i createdAt : Nat} {phase : Phase} (hl : l = .record i (.inserted createdAt) ∨
      l = .record i (.lost createdAt)) (hc : s.calls[i]? = some c) (hp : c.phase = .recording)
    (hs : SponsorCall.Sound { c with phase := phase })
    (hheld : ∀ slot, SponsorCall.held { c with phase := phase } slot = c.held slot)
    (hrec : phase.recorded = true) :
    CallStep s l { s with calls := s.calls.set i { c with phase := phase }, rows := s.rows ++ [c.row i createdAt] }
      i c { c with phase := phase } where
  before := hc
  after := rfl
  sound := hs
  continues := ⟨rfl, rfl, rfl, rfl, fun _ => rfl, ⟨[], rfl, by simp⟩, fun _ => hrec⟩
  floor slot := by rw [hheld]
  exact slot _ := by rw [hheld]
  limit _ := .inl ⟨rfl, Nat.le_refl _⟩
  policies := rfl
  rows := .inr ⟨createdAt, hl, hp, hrec, rfl⟩

structure Admitted (s : Service) (c : SponsorCall) : Prop where
  phase : c.phase = .admitting
  history : c.history = []
  resolved : ∃ replica, (s.policies replica).get c.caller.tenantId c.policyId = some c.policy

/-- What a step of the service does: a reload or nothing, a new call, or a step of one call. -/
theorem service_step (h : SponsorStep deps s l s') (hs : ∀ c ∈ s.calls, c.Sound) :
    (∃ policies, s' = { s with policies := policies } ∧
      (policies = s.policies ∨ ∃ replica loaded, l = .reload replica loaded)) ∨
    (∃ c, s' = { s with calls := s.calls ++ [c] } ∧ Admitted s c) ∨
    ∃ i c c', CallStep s l s' i c c' := by
  have hsound : ∀ {i : Nat} {c : SponsorCall}, s.calls[i]? = some c → c.Sound := fun hc =>
    hs _ (List.mem_of_getElem? hc)
  cases h with
  | reload replica loaded => exact .inl ⟨_, rfl, .inr ⟨replica, loaded, rfl⟩⟩
  | unknown => exact .inl ⟨_, rfl, .inl rfl⟩
  | sponsor replica request caller hp => exact .inr (.inl ⟨_, rfl, rfl, rfl, replica, hp⟩)
  | @enter i c kind subscription balance now hc hp =>
    have hadmit : ∃ phase now', c.enter kind subscription balance now = { c with phase := phase, now := now' } := by
      unfold SponsorCall.enter
      split
      · exact ⟨_, c.now, rfl⟩
      · exact ⟨_, _, rfl⟩
    have hheld : ∀ slot, (c.enter kind subscription balance now).held slot = c.held slot := by
      intro slot
      have h0 : c.held slot = 0 := by simp [SponsorCall.held, SponsorCall.reservations, hp]
      have h1 := ((hsound hc).enter hp kind subscription balance now).balance slot
      have h2 : (c.enter kind subscription balance now).history = [] := by
        unfold SponsorCall.enter
        split <;> exact (hsound hc).fresh hp
      simp [SponsorCall.charged, SponsorCall.returned, h2] at h1
      rw [h0, ← h1]
    have hsound' := (hsound hc).enter hp kind subscription balance now
    obtain ⟨phase, now', he⟩ := hadmit
    rw [he] at hheld hsound' ⊢
    exact .inr (.inr ⟨i, c, _, .quiet _ hc hsound' hheld (fun h => absurd hp h) (by simp [hp, Phase.recorded])⟩)
  | @abandon i c hc hp =>
    refine .inr (.inr ⟨i, c, _, .quiet _ hc ((hsound hc).abandon hp) (fun slot => ?_) (fun _ => rfl) (fun _ => rfl)⟩)
    simp [SponsorCall.held, SponsorCall.reservations, hp]
  | @evaluate i c evaluated ahead rule verdict hc hp =>
    obtain ⟨c', h⟩ := CallStep.evaluate verdict hc (hsound hc) hp
    exact .inr (.inr ⟨i, c, c', h⟩)
  | @refuse i j c denial pending rule hc hp hj =>
    have hres : c.reservations = pending := by simp [SponsorCall.reservations, hp]
    have hphase : (c.afterRelease rule (.refuse denial (pending.eraseIdx j))).reservations = pending.eraseIdx j := by
      simp only [SponsorCall.afterRelease, SponsorCall.reservations]
      cases pending.eraseIdx j <;> rfl
    refine .inr (.inr ⟨i, c, _, .release hc ((hsound hc).release hres hj hphase (.inl ⟨denial, ?_, pending, hp⟩))
      hres hj hphase (by simp [hp, Phase.recorded])⟩)
    cases pending.eraseIdx j with
    | nil => exact .inl rfl
    | cons q qs => exact .inr ⟨_, rfl⟩
  | @compensate i j c pending rule hc hp hj =>
    have hres : c.reservations = pending := by simp [SponsorCall.reservations, hp]
    have hphase : (c.afterRelease rule (.compensate (pending.eraseIdx j))).reservations = pending.eraseIdx j := by
      simp only [SponsorCall.afterRelease, SponsorCall.reservations]
      cases pending.eraseIdx j <;> rfl
    refine .inr (.inr ⟨i, c, _, .release hc ((hsound hc).release hres hj hphase (.inr ⟨?_, pending, hp⟩))
      hres hj hphase (fun _ => recorded_compensate _)⟩)
    cases pending.eraseIdx j with
    | nil => exact .inl rfl
    | cons q qs => exact .inr ⟨_, rfl⟩
  | @attest i c signed hc hp =>
    cases signed with
    | true =>
      refine .inr (.inr ⟨i, c, _, .quiet _ hc ((hsound hc).forward (.inl hp) (.inl rfl)) (fun slot => ?_)
        (fun _ => rfl) (by simp [hp, Phase.recorded])⟩)
      simp [SponsorCall.held, SponsorCall.reservations, SponsorCall.context, hp]
    | false =>
      refine .inr (.inr ⟨i, c, _, .quiet _ hc ((hsound hc).compensate (.inl hp)) (fun slot => ?_)
        (fun _ => rfl) (by simp [hp, Phase.recorded])⟩)
      exact held_compensation (.inl hp) slot
  | @record i c outcome hc hp =>
    have hforward : ∀ slot, SponsorCall.held { c with phase := .attested } slot = c.held slot := fun slot => by
      simp [SponsorCall.held, SponsorCall.reservations, SponsorCall.context, hp]
    cases outcome with
    | inserted createdAt =>
      exact .inr (.inr ⟨i, c, _, .insert (.inl rfl) hc hp ((hsound hc).forward (.inr hp) (.inr rfl)) hforward rfl⟩)
    | lost createdAt =>
      exact .inr (.inr ⟨i, c, _, .insert (.inr rfl) hc hp ((hsound hc).compensate (.inr hp))
        (held_compensation (.inr hp)) (recorded_compensate _)⟩)
    | failed =>
      exact .inr (.inr ⟨i, c, _, .quiet _ hc ((hsound hc).compensate (.inr hp)) (held_compensation (.inr hp))
        (fun _ => rfl) (fun _ => recorded_compensate _)⟩)
    | unconfigured =>
      exact .inr (.inr ⟨i, c, _, .quiet _ hc ((hsound hc).forward (.inr hp) (.inr rfl)) hforward
        (fun _ => rfl) (fun _ => rfl)⟩)

end

/-! ## Runs -/

structure Conserved (start : Counters) (s : Service) : Prop where
  sound : ∀ c ∈ s.calls, c.Sound
  counters : ∀ slot, s.counters.at slot = start.at slot + total (fun c => c.held slot) s.calls
  limits : ∀ slot, s.counters.at slot ≤ (s.consumedAgainst slot).getD (start.at slot)

theorem Admitted.held {s : Service} {c : SponsorCall} (h : Admitted s c) (slot : String) : c.held slot = 0 := by
  simp [SponsorCall.held, SponsorCall.reservations, h.phase]

theorem Admitted.total_held {s : Service} {c : SponsorCall} (h : Admitted s c) (slot : String) :
    total (fun d => d.held slot) (s.calls ++ [c]) = total (fun d => d.held slot) s.calls :=
  total_concat_of_zero (h.held slot)

theorem Admitted.total_refunded {s : Service} {c : SponsorCall} (h : Admitted s c) (slot : String) :
    total (fun d => d.refunded slot) (s.calls ++ [c]) = total (fun d => d.refunded slot) s.calls := by
  refine total_concat_of_zero ?_
  rw [SponsorCall.refunded, h.history, total_nil]

theorem Admitted.sound {s : Service} {c : SponsorCall} (h : Admitted s c) : c.Sound := by
  constructor <;> simp [h.phase, h.history, SponsorCall.approved, SponsorCall.held, SponsorCall.reservations,
    SponsorCall.charged, SponsorCall.returned]

theorem conserved_step {deps : SponsorServiceDeps} {start : Counters} {s s' : Service} {l : SponsorLabel}
    (h : SponsorStep deps s l s') (hc : Conserved start s) : Conserved start s' := by
  rcases service_step h hc.sound with ⟨policies, rfl, -⟩ | ⟨c, rfl, hnew⟩ | ⟨i, c, c', hstep⟩
  · exact ⟨hc.sound, hc.counters, hc.limits⟩
  · refine ⟨fun d hd => ?_, fun slot => ?_, hc.limits⟩
    · rcases List.mem_append.mp hd with hd | hd
      · exact hc.sound d hd
      · exact List.mem_singleton.mp hd ▸ hnew.sound
    · show s.counters.at slot = start.at slot + total _ (s.calls ++ [c])
      rw [hnew.total_held]
      exact hc.counters slot
  · refine ⟨?_, fun slot => ?_, fun slot => ?_⟩
    · rw [hstep.after]
      exact forall_set hc.sound hstep.sound
    · have hle : c.held slot ≤ s.counters.at slot := by
        rw [hc.counters slot]
        exact Nat.le_trans (le_total (f := fun c => c.held slot) hstep.before) (Nat.le_add_left _ _)
      have hmove := hstep.exact slot hle
      have htotal := total_set (f := fun c => c.held slot) (q := c') hstep.before
      have hsum := hc.counters slot
      rw [hstep.after]
      omega
    · rcases hstep.limit slot with ⟨hlim, hle⟩ | ⟨limit, hlim, hle⟩
      · rw [hlim]
        exact Nat.le_trans hle (hc.limits slot)
      · rw [hlim]
        exact hle

/-- **Quota conservation.** In every run of the service, over any policies and
with any failures: once all calls have finished, every counter is its start
value plus what the attested calls charged to it; at every moment a counter is
within the limit it was last consumed against; an attested call was allowed by
every rule of its policy; and a call that a pure rule denied did nothing but
let pure rules decide. -/
theorem quota_conserved {deps : SponsorServiceDeps} {policies : Nat → PolicySource} {start : Counters}
    {ls : List SponsorLabel} {s : Service}
    (h : Runs.run (Service.step deps) (.start policies start) ls = some s) :
    ((∀ c ∈ s.calls, c.phase.finished = true) → ∀ slot, s.counters.at slot =
      start.at slot + total (fun c => if c.phase = .attested then c.charged slot else 0) s.calls) ∧
    (∀ slot, s.counters.at slot ≤ (s.consumedAgainst slot).getD (start.at slot)) ∧
    (∀ c ∈ s.calls, c.phase = .attested → ∀ rule ∈ c.policy.rules, .decided rule .allow ∈ c.history) ∧
    (∀ c ∈ s.calls, ∀ rule denial, .decided rule (.deny denial) ∈ c.history → rule.cost = .pure →
      ∀ d ∈ c.history, ∃ rule decision, d = .decided rule decision ∧ rule.cost = .pure) := by
  have h0 : Conserved start (.start policies start) := ⟨by simp [Service.start], by simp [Service.start],
    fun slot => Nat.le_refl _⟩
  have hc : Conserved start s := Runs.invariant (P := Conserved start)
    (fun hc hstep => conserved_step (sponsorStep_cases hstep) hc) h0 h
  refine ⟨fun hfin slot => ?_, hc.limits, fun c hmem hatt rule hr => ?_, fun c hmem rule denial hd hr => ?_⟩
  · rw [hc.counters slot]
    congr 1
    refine total_congr fun c hmem => ?_
    have hsound := hc.sound c hmem
    have hbalance := hsound.balance slot
    by_cases hatt : c.phase = .attested
    · rw [if_pos hatt, hbalance, hsound.kept (.inl hatt) slot, Nat.zero_add]
    · rw [if_neg hatt]
      have := hfin c hmem
      cases hp : c.phase <;> simp_all [Phase.finished, SponsorCall.held, SponsorCall.reservations]
  · refine (hc.sound c hmem).allowed rule ?_
    simpa only [SponsorCall.approved, hatt] using hr
  · exact ((hc.sound c hmem).cheap rule denial hd hr).2

/-! ## A run with a failure, a denial and a reload -/

def dailySpend (limit : Nat) : QuotaRule where
  name := "daily"
  subject := .apiKey
  unit := .wei
  limit := limit
  windowSeconds := 86400
  onMissingSubject := .skip
  tenantNamespace := ""
  windowSeconds_pos := by decide

def hourlyOperations : QuotaRule where
  name := "hourly"
  subject := .wallet
  unit := .operations
  limit := 2
  windowSeconds := 3600
  onMissingSubject := .deny
  tenantNamespace := ""
  windowSeconds_pos := by decide

def sampleSource (limit : Nat) : PolicySource :=
  ⟨[⟨"default", "standard", [.quota (dailySpend limit), .quota hourlyOperations, .check "sender-allowlist" .pure]⟩],
    by simp⟩

def sampleDeps : SponsorServiceDeps := ⟨fun _ => some .verifying, "standard"⟩

def sampleRequest (nonce : Uint256) (maxCost : Nat) : SponsorRequest := ⟨1, 4, nonce, none, none, maxCost⟩

def sampleCaller : CallerIdentity := ⟨"default", none, some "key"⟩

/-- Three calls under a cap of 5 gwei: the first fails to sign, the second is
attested, the third is denied by the cap, which was lowered in the meantime. -/
def sampleSponsorships : List SponsorLabel :=
  [.sponsor 0 (sampleRequest 0 3000000000) sampleCaller, .enter 0 none none 1700000000,
    .sponsor 0 (sampleRequest 1 2000000000) sampleCaller, .evaluate 0 (.decided .allow),
    .evaluate 0 (.decided .allow), .enter 1 none none 1700000001, .evaluate 1 (.decided .allow),
    .evaluate 0 (.decided .allow), .evaluate 1 (.decided .allow), .evaluate 1 (.decided .allow),
    .attest 0 false, .release 0 1, .attest 1 true, .reload 0 (sampleSource 2000000000).policies,
    .release 0 0, .record 1 (.inserted 1700000001500000),
    .sponsor 0 (sampleRequest 2 1000000000) sampleCaller, .enter 2 none none 1700000002,
    .evaluate 2 (.decided .allow), .evaluate 2 (.decided .allow)]

theorem quota_conserved_sample :
    ∃ s, Runs.run (Service.step sampleDeps) (.start (fun _ => sampleSource 5000000000) fun _ => none)
        sampleSponsorships = some s ∧
      s.counters.at (windowedKey "quota:daily:key" 86400 1700000000) =
        0 + total (fun c => if c.phase = .attested then
          c.charged (windowedKey "quota:daily:key" 86400 1700000000) else 0) s.calls ∧
      s.counters.at (windowedKey "quota:daily:key" 86400 1700000000) ≤ 5 := by
  have hrun : (Runs.run (Service.step sampleDeps) (.start (fun _ => sampleSource 5000000000) fun _ => none)
      sampleSponsorships).map (fun s => (s.calls.all fun c => c.phase.finished,
        s.consumedAgainst (windowedKey "quota:daily:key" 86400 1700000000))) = some (true, some 5) := by
    decide +kernel
  obtain ⟨s, hs, he⟩ := Option.map_eq_some_iff.mp hrun
  obtain ⟨hfin, hlim⟩ := Prod.mk.inj he
  obtain ⟨hsum, hle, -, -⟩ := quota_conserved hs
  refine ⟨s, hs, hsum (fun c hc => List.all_eq_true.mp hfin c hc) _, ?_⟩
  have := hle (windowedKey "quota:daily:key" 86400 1700000000)
  rwa [hlim] at this

end Paymaster
