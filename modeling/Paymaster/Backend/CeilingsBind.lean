import Paymaster.Backend.CounterKeys
import Paymaster.Backend.Refunds

/-!
# Plan ceilings bind

The ceilings of a tenant are in every policy it can have resolved, and count on
one counter by day. What its calls hold of that counter is within the ceiling,
up to what the reconciler gave back; and an attested call holds its charge.
-/

namespace Paymaster

open Function Pool Runs

/-- No other rule of a policy counts on the counter of a ceiling. -/
def Exclusive (plan : Plan) (tenant : TenantId) (policy : Policy) : Prop :=
  ∀ rule ∈ reservingOf policy.rules, ∀ ceiling ∈ reservingOf (ceilingRules plan tenant.value),
    ∀ context context' slot, rule.slotFor context = some slot → ceiling.slotFor context' = some slot → rule = ceiling

/-- What is loaded as long as a tenant's plan stays: any policies, with their ceilings. -/
def LoadsUnder (catalogue : PlanCatalogue) (plan : Plan) (tenant : TenantId) : BackendLabel → Prop
  | .sponsor (.reload _ loaded) =>
    (∃ planIds inner, loaded = catalogue.withCeilings planIds inner ∧ catalogue.planFor tenant.value planIds = some plan) ∧
      ∀ policy ∈ loaded, tenantIdPattern policy.tenantId = true ∧ Exclusive plan tenant policy
  | _ => True

structure Ceilinged (plan : Plan) (tenant : TenantId) (policy : Policy) : Prop where
  owner : tenantIdPattern policy.tenantId = true
  ceilings : policy.tenantId = tenant.value → ∃ rules, policy.rules = rules ++ ceilingRules plan tenant.value
  exclusive : Exclusive plan tenant policy

def SponsorCall.Checked (c : SponsorCall) : Prop :=
  ∀ chainIds, .decided (.chainEnabled chainIds) .allow ∈ c.history → c.request.chainId ∈ chainIds

def PolicySource.empty : PolicySource := ⟨[], by simp⟩

section
variable {deps : SponsorServiceDeps} {options : SpendReconcilerOptions} {plan : Plan} {tenant : TenantId}
  {b b' : Backend} {s s' : Service} {c : SponsorCall} {slot : String}

/-! ## Policies -/

theorem get_ceilinged {source : PolicySource} {tenantId id : String} {policy : Policy}
    (hsource : ∀ p ∈ source.policies, Ceilinged plan tenant p) (h : source.get tenantId id = some policy) :
    Ceilinged plan tenant policy ∧ (tenantId = tenant.value → policy.tenantId = tenant.value) := by
  have hpolicy := hsource policy (List.mem_of_find?_eq_some h)
  refine ⟨hpolicy, fun htenant => ?_⟩
  have hkey : keyOf policy.tenantId policy.id = keyOf tenantId id := by
    simpa using List.find?_some h
  rw [(keyOf_inj hpolicy.owner (htenant ▸ tenant.valid) hkey).1, htenant]

theorem reload_ceilinged {catalogue : PlanCatalogue} {source : PolicySource} {replica : Nat} {loaded : List Policy}
    (hload : LoadsUnder catalogue plan tenant (.sponsor (.reload replica loaded)))
    (hsource : ∀ p ∈ source.policies, Ceilinged plan tenant p) :
    ∀ p ∈ (source.reload loaded).policies, Ceilinged plan tenant p := by
  obtain ⟨⟨planIds, inner, hloaded, hplan⟩, hpolicies⟩ := hload
  unfold PolicySource.reload
  split
  · intro p hp
    obtain ⟨howner, hexclusive⟩ := hpolicies p hp
    refine ⟨howner, fun htenant => ?_, hexclusive⟩
    have hmem : p ∈ catalogue.withCeilings planIds inner := hloaded ▸ hp
    have := mem_withCeilings (htenant ▸ hplan) hmem
    rwa [htenant] at this
  · exact hsource

theorem sponsorStep_policies {l : SponsorLabel} (h : SponsorStep deps s l s') :
    s'.policies = s.policies ∨ ∃ replica loaded, l = .reload replica loaded ∧
      s'.policies = update s.policies replica ((s.policies replica).reload loaded) := by
  cases h with
  | reload replica loaded => exact .inr ⟨replica, loaded, rfl, rfl⟩
  | record outcome => cases outcome <;> exact .inl rfl
  | _ => exact .inl rfl

/-! ## Calls -/

/-- What a counter was last consumed against is the limit of a rule of some call. -/
theorem sponsorStep_consumedAgainst {l : SponsorLabel} (h : SponsorStep deps s l s') (hs : ∀ c ∈ s.calls, c.Sound) :
    s'.consumedAgainst = s.consumedAgainst ∨
      ∃ c ∈ s.calls, ∃ rule ∈ reservingOf c.policy.rules, ∃ slot, rule.slotFor c.context = some slot ∧
        s'.consumedAgainst = update s.consumedAgainst slot (some rule.countedLimit) := by
  cases h with
  | @evaluate i c evaluated ahead rule verdict hc hp =>
    have hmem := List.mem_of_getElem? hc
    have hrule : rule ∈ c.policy.rules := by
      refine (orderRules_perm c.policy.rules).subset ?_
      rw [(hs c hmem).split _ _ hp]
      simp
    unfold Service.evaluate
    cases hd : evaluateRule s.counters rule verdict c.context with
    | mk decision counters =>
      cases htaken : c.taken rule decision with
      | none => simp [htaken]
      | some target =>
        obtain ⟨slot, amount, limit⟩ := target
        right
        unfold SponsorCall.taken at htaken
        split at htaken
        · rename_i q
          obtain ⟨slot', hslot, heq⟩ := Option.map_eq_some_iff.mp htaken
          cases heq
          refine ⟨c, hmem, q, List.mem_filterMap.mpr ⟨_, hrule, rfl⟩, slot, hslot, ?_⟩
          simp [SponsorCall.taken, hslot]
        · cases htaken
  | record outcome => cases outcome <;> exact .inl rfl
  | _ => exact .inl rfl

theorem SponsorCall.Checked.afterRelease {c : SponsorCall} (hc : c.Checked) (rule : QuotaRule) (phase : Phase) :
    (c.afterRelease rule phase).Checked := by
  intro chainIds hmem
  simp only [SponsorCall.afterRelease, List.mem_append, Option.mem_toList, Option.map_eq_some_iff] at hmem
  rcases hmem with ⟨target, -, heq⟩ | hmem
  · cases heq
  · exact hc chainIds hmem

theorem checked_step {l : SponsorLabel} (h : SponsorStep deps s l s') (hs : ∀ c ∈ s.calls, c.Checked) :
    ∀ c ∈ s'.calls, c.Checked := by
  have hkeep : ∀ {i : Nat} {c : SponsorCall}, s.calls[i]? = some c → c.Checked :=
    fun hc => hs _ (List.mem_of_getElem? hc)
  cases h with
  | reload => exact hs
  | unknown => exact hs
  | sponsor replica request caller hp =>
    intro c hc
    rcases List.mem_append.mp hc with hc | hc
    · exact hs c hc
    · have hnone : c.history = [] := by rw [List.mem_singleton.mp hc]
      intro chainIds hmem
      rw [hnone] at hmem
      cases hmem
  | @enter i c kind subscription balance now hc hp =>
    have hc' : c.Checked := hkeep hc
    refine forall_set hs ?_
    unfold SponsorCall.enter
    split <;> exact hc'
  | @abandon i c hc hp =>
    have hc' : c.Checked := hkeep hc
    exact forall_set hs hc'
  | @evaluate i c evaluated ahead rule verdict hc hp =>
    unfold Service.evaluate
    cases hd : evaluateRule s.counters rule verdict c.context with
    | mk decision counters =>
      refine forall_set hs fun chainIds hmem => ?_
      simp only [SponsorCall.afterRule, List.mem_cons, List.mem_append, Option.mem_toList, Option.map_eq_some_iff] at hmem
      rcases hmem with (heq | ⟨target, -, heq⟩) | hmem
      · cases heq
        simp only [evaluateRule] at hd
        split at hd
        · assumption
        · cases hd
      · cases heq
      · exact hkeep hc chainIds hmem
  | @refuse i j c denial pending rule hc hp hj =>
    have hc' : c.Checked := hkeep hc
    exact forall_set hs (hc'.afterRelease rule _)
  | @compensate i j c pending rule hc hp hj =>
    have hc' : c.Checked := hkeep hc
    exact forall_set hs (hc'.afterRelease rule _)
  | @attest i c signed hc hp =>
    have hc' : c.Checked := hkeep hc
    exact forall_set hs hc'
  | @record i c outcome hc hp =>
    have hc' : c.Checked := hkeep hc
    cases outcome <;> exact forall_set hs hc'

/-! ## The invariant -/

def heldOf (slot : String) (s : Service) : Nat := total (fun c => c.held slot) s.calls

def refundedOf (slot : String) (s : Service) : Nat := total (fun c => c.refunded slot) s.calls

/-- For the counter of a ceiling: it covers what the calls hold, which is within
the ceiling, but for what was given back; and only spend is given back. -/
structure Room (ceiling : QuotaRule) (s : Service) : Prop where
  covers : ∀ context slot, ceiling.slotFor context = some slot → heldOf slot s ≤ s.counters.at slot + refundedOf slot s
  within : ∀ context slot, ceiling.slotFor context = some slot →
    heldOf slot s ≤ ceiling.countedLimit + refundedOf slot s
  against : ∀ context slot limit, ceiling.slotFor context = some slot → s.consumedAgainst slot = some limit →
    limit = ceiling.countedLimit
  spend : ceiling.unit = .operations → ∀ context slot, ceiling.slotFor context = some slot → refundedOf slot s = 0

structure Capped (plan : Plan) (tenant : TenantId) (b : Backend) : Prop where
  books : Books b.service
  sources : ∀ replica, ∀ policy ∈ (b.service.policies replica).policies, Ceilinged plan tenant policy
  resolved : ∀ c ∈ b.service.calls, Ceilinged plan tenant c.policy ∧
    (c.caller.tenantId = tenant.value → c.policy.tenantId = tenant.value)
  checked : ∀ c ∈ b.service.calls, c.Checked
  ticks : ∀ t ∈ b.ticks, ∀ w events r reservation rules, t.phase = .refunding w events r reservation rules →
    ∃ policy, Ceilinged plan tenant policy ∧ ∀ rule ∈ rules, rule ∈ reservingOf policy.rules
  room : ∀ ceiling ∈ reservingOf (ceilingRules plan tenant.value), Room ceiling b.service

theorem Room.call {ceiling : QuotaRule} {l : SponsorLabel} {i : Nat} {c c' : SponsorCall} (hr : Room ceiling s)
    (hstep : CallStep s l s' i c c')
    (hagainst : ∀ context slot limit, ceiling.slotFor context = some slot → s'.consumedAgainst slot = some limit →
      limit = ceiling.countedLimit) : Room ceiling s' := by
  have hheld : ∀ slot, heldOf slot s' + c.held slot = heldOf slot s + c'.held slot := by
    intro slot
    unfold heldOf
    rw [hstep.after]
    exact total_set hstep.before
  have hrefunded : ∀ slot, refundedOf slot s' = refundedOf slot s := by
    intro slot
    unfold refundedOf
    rw [hstep.after]
    exact total_set_eq hstep.before (hstep.continues.refunded slot)
  have hcovers : ∀ context slot, ceiling.slotFor context = some slot →
      heldOf slot s' ≤ s'.counters.at slot + refundedOf slot s' := by
    intro context slot hslot
    have hbefore := hr.covers context slot hslot
    have hfloor := hstep.floor slot
    have hmove := hheld slot
    rw [hrefunded]
    omega
  refine ⟨hcovers, fun context slot hslot => ?_, hagainst, fun hunit context slot hslot => ?_⟩
  · -- Either the counter did not rise, and no more is held, or it was consumed from within the ceiling.
    rcases hstep.limit slot with ⟨-, hle⟩ | ⟨limit, hlimit, hle⟩
    · have hbefore := hr.within context slot hslot
      have hfloor := hstep.floor slot
      have hmove := hheld slot
      rw [hrefunded]
      omega
    · have hafter := hcovers context slot hslot
      rw [hagainst context slot limit hslot hlimit] at hle
      omega
  · rw [hrefunded]
    exact hr.spend hunit context slot hslot

theorem capped_service_step {l : SponsorLabel} {catalogue : PlanCatalogue} (h : SponsorStep deps b.service l s')
    (hl : LoadsUnder catalogue plan tenant (.sponsor l)) (hc : Capped plan tenant b) :
    Capped plan tenant { b with service := s' } := by
  have hbooks := books_service_step h hc.books
  have hchecked := checked_step h hc.checked
  have hagainst : ∀ ceiling ∈ reservingOf (ceilingRules plan tenant.value), ∀ context slot limit,
      ceiling.slotFor context = some slot → s'.consumedAgainst slot = some limit → limit = ceiling.countedLimit := by
    intro ceiling hceiling context slot limit hslot hlimit
    rcases sponsorStep_consumedAgainst h hc.books.sound with heq | ⟨c, hmem, rule, hrule, slot', hslot', heq⟩
    · rw [heq] at hlimit
      exact (hc.room ceiling hceiling).against context slot limit hslot hlimit
    · rw [heq] at hlimit
      by_cases hsame : slot = slot'
      · subst hsame
        rw [update_self] at hlimit
        have hown : rule = ceiling :=
          (hc.resolved c hmem).1.exclusive rule hrule ceiling hceiling c.context context slot hslot' hslot
        rw [← Option.some.inj hlimit, hown]
      · rw [update_of_ne hsame] at hlimit
        exact (hc.room ceiling hceiling).against context slot limit hslot hlimit
  have hsources : ∀ replica, ∀ policy ∈ (s'.policies replica).policies, Ceilinged plan tenant policy := by
    intro replica policy hmem
    rcases sponsorStep_policies h with heq | ⟨replica', loaded, rfl, heq⟩
    · rw [heq] at hmem
      exact hc.sources replica policy hmem
    · rw [heq] at hmem
      by_cases hsame : replica = replica'
      · subst hsame
        rw [update_self] at hmem
        exact reload_ceilinged hl (hc.sources replica) policy hmem
      · rw [update_of_ne hsame] at hmem
        exact hc.sources replica policy hmem
  rcases service_step h hc.books.sound with ⟨policies, rfl, -⟩ | ⟨c, rfl, hnew⟩ | ⟨i, c, c', hstep⟩
  · refine ⟨hbooks, hsources, hc.resolved, hchecked, hc.ticks, fun ceiling hceiling => ?_⟩
    obtain ⟨hcovers, hwithin, hag, hspend⟩ := hc.room ceiling hceiling
    exact ⟨hcovers, hwithin, hag, hspend⟩
  · refine ⟨hbooks, hsources, fun d hd => ?_, hchecked, hc.ticks, fun ceiling hceiling => ?_⟩
    · rcases List.mem_append.mp hd with hd | hd
      · exact hc.resolved d hd
      · rw [List.mem_singleton.mp hd]
        obtain ⟨replica, hget⟩ := hnew.resolved
        exact get_ceilinged (hc.sources replica) hget
    · have hheld : ∀ slot, heldOf slot { b.service with calls := b.service.calls ++ [c] } = heldOf slot b.service := by
        intro slot
        exact hnew.total_held slot
      have hrefunded : ∀ slot,
          refundedOf slot { b.service with calls := b.service.calls ++ [c] } = refundedOf slot b.service := by
        intro slot
        exact hnew.total_refunded slot
      obtain ⟨hcovers, hwithin, hag, hspend⟩ := hc.room ceiling hceiling
      constructor
      · simpa only [hheld, hrefunded] using hcovers
      · simpa only [hheld, hrefunded] using hwithin
      · exact hag
      · simpa only [hrefunded] using hspend
  · refine ⟨hbooks, hsources, ?_, hchecked, hc.ticks, fun ceiling hceiling => ?_⟩
    · rw [hstep.after]
      refine forall_set hc.resolved ?_
      rw [hstep.continues.policy, hstep.continues.caller]
      exact hc.resolved c (List.mem_of_getElem? hstep.before)
    · exact (hc.room ceiling hceiling).call hstep (hagainst ceiling hceiling)

/-- A tick goes on with rules it has, and the service stays. -/
theorem Capped.of_tick {k : Nat} {t : Tick} {phase : TickPhase} (hc : Capped plan tenant b)
    (hphase : ∀ w events r reservation rules, phase = .refunding w events r reservation rules →
      ∃ policy, Ceilinged plan tenant policy ∧ ∀ rule ∈ rules, rule ∈ reservingOf policy.rules)
    (hservice : b'.service = b.service) (hticks : b'.ticks = b.ticks.set k { t with phase := phase }) :
    Capped plan tenant b' := by
  have hticks' : ∀ t' ∈ b'.ticks, ∀ w events r reservation rules,
      t'.phase = .refunding w events r reservation rules →
      ∃ policy, Ceilinged plan tenant policy ∧ ∀ rule ∈ rules, rule ∈ reservingOf policy.rules := by
    rw [hticks]
    exact forall_set hc.ticks hphase
  obtain ⟨hbooks, hsources, hresolved, hchecked, -, hroom⟩ := hc
  exact ⟨hservice ▸ hbooks, hservice ▸ hsources, hservice ▸ hresolved, hservice ▸ hchecked, hticks', hservice ▸ hroom⟩

/-- Of the rules of a tick, one that counts on a ceiling is the ceiling. -/
theorem refund_exclusive {ceiling rule : QuotaRule} {policy : Policy} {reservation : SpendTrueUp} {context : PolicyContext}
    {amount : Nat} (hpolicy : Ceilinged plan tenant policy) (hrule : rule ∈ reservingOf policy.rules)
    (hceiling : ceiling ∈ reservingOf (ceilingRules plan tenant.value))
    (htarget : rule.trueUpTarget reservation = some (slot, amount)) (hslot : ceiling.slotFor context = some slot) :
    ceiling.unit = .wei := by
  obtain ⟨key, hunit, hkey, hs, -, -⟩ := rule.trueUpTarget_cases htarget
  have hown : rule = ceiling := by
    refine hpolicy.exclusive rule hrule ceiling hceiling
      ⟨⟨reservation.chainId, reservation.sender, none, reservation.apiKeyId, none⟩, 0, reservation.reservedAt⟩
      context slot ?_ hslot
    rw [QuotaRule.slotFor, hkey, hs]
    rfl
  rw [← hown, hunit]

theorem Room.refund {ceiling : QuotaRule} {i amount : Nat} {refundSlot : String} {counters : Counters}
    (hr : Room ceiling s) (hc : s.calls[i]? = some c)
    (hcounters : ∀ slot, counters.at slot + (if refundSlot = slot then amount else 0) ≥ s.counters.at slot)
    (hspend : ∀ context, ceiling.slotFor context = some refundSlot → ceiling.unit = .wei) :
    Room ceiling { s with counters := counters, calls := s.calls.set i (c.refund refundSlot amount) } := by
  have hheld : ∀ slot, total (fun c => c.held slot) (s.calls.set i (c.refund refundSlot amount)) =
      total (fun c => c.held slot) s.calls := by
    intro slot
    exact total_set_eq (f := fun c : SponsorCall => c.held slot) hc rfl
  have hrefunded : ∀ slot, total (fun c => c.refunded slot) (s.calls.set i (c.refund refundSlot amount)) =
      total (fun c => c.refunded slot) s.calls + (if refundSlot = slot then amount else 0) := by
    intro slot
    have hmove := total_set (f := fun c : SponsorCall => c.refunded slot) (q := c.refund refundSlot amount) hc
    simp only [SponsorCall.refunded_refund] at hmove
    omega
  constructor
  · intro context slot hslot
    have hbefore := hr.covers context slot hslot
    have hcount := hcounters slot
    simp only [heldOf, refundedOf, hheld, hrefunded] at hbefore ⊢
    omega
  · intro context slot hslot
    have hbefore := hr.within context slot hslot
    simp only [heldOf, refundedOf, hheld, hrefunded] at hbefore ⊢
    omega
  · exact hr.against
  · intro hunit context slot hslot
    have hbefore := hr.spend hunit context slot hslot
    have hother : refundSlot ≠ slot := by
      rintro rfl
      rw [hspend context hslot] at hunit
      cases hunit
    simp only [refundedOf, hrefunded, if_neg hother] at hbefore ⊢
    omega

theorem capped_trueUp {k r : Nat} {t : Tick} {w : Window} {events : List UserOperationEvent} {row : Sponsorship}
    {reservation : SpendTrueUp} {rule : QuotaRule} {rules : List QuotaRule} (stored : Bool) (hc : Capped plan tenant b)
    (ht : b.ticks[k]? = some t) (hp : t.phase = .refunding w events r reservation (rule :: rules))
    (hr : b.service.rows[r]? = some row) :
    Capped plan tenant (b.trueUp k t w events r row reservation rule rules stored) := by
  obtain ⟨policy, hpolicy, hmem⟩ := hc.ticks t (List.mem_of_getElem? ht) w events r reservation _ hp
  have hphase : ∀ w' events' r' reservation' rules', TickPhase.refund w events r reservation rules =
      .refunding w' events' r' reservation' rules' →
      ∃ policy, Ceilinged plan tenant policy ∧ ∀ rule ∈ rules', rule ∈ reservingOf policy.rules := by
    intro w' events' r' reservation' rules' heq
    cases rules with
    | nil => cases heq
    | cons q qs =>
      cases heq
      exact ⟨policy, hpolicy, fun rule' hrule' => hmem rule' (List.mem_cons_of_mem _ hrule')⟩
  have hquiet : Capped plan tenant (b.setTick k t (.refund w events r reservation rules)) := hc.of_tick hphase rfl rfl
  unfold Backend.trueUp
  cases stored with
  | false => exact hquiet
  | true =>
    cases hn : rule.trueUpTarget reservation with
    | none =>
      have hcounters : rule.trueUp b.service.counters reservation = b.service.counters := by
        simp only [QuotaRule.trueUp, hn]
      simp only [ite_true, hcounters, Backend.noteRefund]
      exact hquiet
    | some target =>
      obtain ⟨slot, amount⟩ := target
      obtain ⟨c, hcall, hissued⟩ := hc.books.issued r row hr
      obtain ⟨-, -, -, -, -, hpos⟩ := rule.trueUpTarget_cases hn
      simp only [ite_true, noteRefund_some hcall]
      have hmemcall := List.mem_of_getElem? hcall
      refine ⟨books_refund hc.books hr hcall hpos _, hc.sources, forall_set hc.resolved (hc.resolved c hmemcall),
        forall_set hc.checked fun chainIds hm => ?_, hquiet.ticks, fun ceiling hceiling => ?_⟩
      · rcases List.mem_cons.mp hm with heq | hm
        · cases heq
        · exact hc.checked c hmemcall chainIds hm
      · refine (hc.room ceiling hceiling).refund hcall (fun slot' => ?_) fun context hslot =>
          refund_exclusive hpolicy (hmem rule List.mem_cons_self) hceiling hn hslot
        rw [rule.at_trueUp]
        simp only [QuotaRule.refundAt, hn]
        omega

theorem capped_step {l : BackendLabel} {catalogue : PlanCatalogue} (h : BackendStep deps options b l b')
    (hl : LoadsUnder catalogue plan tenant l) (hc : Capped plan tenant b) : Capped plan tenant b' := by
  have hidle : ∀ {phase : TickPhase}, (∀ w events r reservation rules,
      phase ≠ .refunding w events r reservation rules) → ∀ w events r reservation rules,
      phase = .refunding w events r reservation rules →
      ∃ policy, Ceilinged plan tenant policy ∧ ∀ rule ∈ rules, rule ∈ reservingOf policy.rules :=
    fun hne w events r reservation rules heq => absurd heq (hne w events r reservation rules)
  cases h with
  | sponsor hs => exact capped_service_step hs hl hc
  | advance => exact ⟨hc.books, hc.sources, hc.resolved, hc.checked, hc.ticks, hc.room⟩
  | reconcile replica chainId =>
    refine ⟨hc.books, hc.sources, hc.resolved, hc.checked, fun t ht => ?_, hc.room⟩
    rcases List.mem_append.mp ht with ht | ht
    · exact hc.ticks t ht
    · rw [List.mem_singleton.mp ht]
      intro w events r reservation rules heq
      cases heq
  | measured => exact hc.of_tick (hidle (by simp)) rfl rfl
  | fetching => exact hc.of_tick (hidle (by simp)) rfl rfl
  | fetched => exact hc.of_tick (hidle (by simp)) rfl rfl
  | unclaimed => exact hc.of_tick (hidle (by simp)) rfl rfl
  | @claimed k r locked t w event events row ht hp hr hchosen =>
    have hquiet : Capped plan tenant (b.setTick k t (.claimed w events event r)) := hc.of_tick (hidle (by simp)) rfl rfl
    simp only [Backend.claim, hr]
    exact ⟨books_reconcile hc.books hr event, hc.sources, hc.resolved, hc.checked, hquiet.ticks, fun ceiling hceiling => by
      obtain ⟨hcovers, hwithin, hag, hspend⟩ := hc.room ceiling hceiling
      exact ⟨hcovers, hwithin, hag, hspend⟩⟩
  | skipped => exact hc.of_tick (hidle (by simp)) rfl rfl
  | @lookup k r t w event events row policy ht hp hr hget =>
    refine hc.of_tick (fun w' events' r' reservation' rules' heq => ?_) rfl rfl
    have hpolicy := (get_ceilinged (hc.sources t.replica) hget).1
    refine ⟨policy, hpolicy, fun rule hrule => ?_⟩
    cases hrules : reservingOf policy.rules with
    | nil =>
      rw [hrules] at heq
      cases heq
    | cons q qs =>
      rw [hrules] at heq
      cases heq
      exact hrule
  | trueUp stored ht hp hr => exact capped_trueUp stored hc ht hp hr
  | saved => exact hc.of_tick (hidle (by simp)) rfl rfl
  | finished => exact hc.of_tick (hidle (by simp)) rfl rfl

theorem capped_start (counters : Counters) : Capped plan tenant (.start (fun _ => .empty) counters) := by
  refine ⟨(owes_start _ _).books, ?_, ?_, ?_, ?_, fun ceiling _ => ⟨?_, ?_, ?_, ?_⟩⟩ <;>
    simp [Backend.start, Service.start, PolicySource.empty, heldOf, refundedOf]

/-! ## What is issued -/

def issuedTo (tenant : TenantId) (day : Nat) (s : Service) : List SponsorCall :=
  s.calls.filter fun c => c.phase = .attested ∧ c.caller.tenantId = tenant.value ∧
    windowStart c.now daySeconds = windowStart day daySeconds

def ceilingSlot (ceiling : QuotaRule) (day : Nat) : String := windowedKey ceiling.keyPrefix daySeconds day

theorem slotFor_ceiling {ceiling : QuotaRule} (h : ceiling ∈ reservingOf (ceilingRules plan tenant.value))
    (context : PolicyContext) : ceiling.slotFor context = some (ceilingSlot ceiling context.now) := by
  rcases reservingOf_ceilingRules h with ⟨limit, -, rfl⟩ | ⟨limit, -, rfl⟩ <;> rfl

theorem mem_policy {rule : PolicyRule} (hc : Capped plan tenant b) (hmem : c ∈ b.service.calls)
    (htenant : c.caller.tenantId = tenant.value) (hrule : rule ∈ ceilingRules plan tenant.value) :
    rule ∈ c.policy.rules := by
  obtain ⟨hpolicy, howner⟩ := hc.resolved c hmem
  obtain ⟨rules, hrules⟩ := hpolicy.ceilings (howner htenant)
  rw [hrules]
  exact List.mem_append_right rules hrule

/-- What was issued on a day was charged to every ceiling. -/
theorem charged_le {ceiling : QuotaRule} (hc : Capped plan tenant b)
    (hceiling : ceiling ∈ reservingOf (ceilingRules plan tenant.value)) (day : Nat) :
    total (fun c => ceiling.amountFor c.context) (issuedTo tenant day b.service) ≤
      ceiling.countedLimit + refundedOf (ceilingSlot ceiling day) b.service := by
  have hwithin := (hc.room ceiling hceiling).within ⟨⟨0, 0, none, none, none⟩, 0, day⟩ _ (slotFor_ceiling hceiling _)
  refine Nat.le_trans ?_ hwithin
  unfold issuedTo
  rw [total_filter]
  refine total_le_total fun c hmem => ?_
  by_cases hissued : c.phase = .attested ∧ c.caller.tenantId = tenant.value ∧
      windowStart c.now daySeconds = windowStart day daySeconds
  · obtain ⟨hphase, htenant, hday⟩ := hissued
    have hslot : ceiling.slotFor c.context = some (ceilingSlot ceiling day) := by
      rw [slotFor_ceiling hceiling, ceilingSlot, ceilingSlot, windowedKey, windowedKey]
      exact congrArg _ (by rw [show c.context.now = c.now from rfl, hday])
    obtain ⟨rule, hrule, hreserving⟩ := List.mem_filterMap.mp hceiling
    have hmem' : ceiling ∈ reservingOf c.policy.rules :=
      List.mem_filterMap.mpr ⟨rule, mem_policy hc hmem htenant hrule, hreserving⟩
    obtain ⟨j, hj⟩ := List.getElem?_of_mem hmem'
    have hcharge : ceiling.chargeAt c.context (ceilingSlot ceiling day) = ceiling.amountFor c.context := if_pos hslot
    have hle := le_total (f := fun rule : QuotaRule => rule.chargeAt c.context (ceilingSlot ceiling day)) hj
    simp only [hphase, htenant, hday, and_self, decide_true, if_true]
    rw [← hcharge]
    simpa only [SponsorCall.held, SponsorCall.reservations, hphase] using hle
  · simp only [hissued, decide_false, Bool.false_eq_true, if_false]
    exact Nat.zero_le _

end

/-- Whatever a tenant's policies say, and however its calls interleave: on every
day it gets no more attestations than its plan has operations, they cost no more
than the plan's spend and what was refunded that day, and all are for chains of
the plan. The store is the port: it forgets no counter that a request of its day
can still reach. -/
theorem ceilings_bind {deps : SponsorServiceDeps} {options : SpendReconcilerOptions} {catalogue : PlanCatalogue}
    {plan : Plan} {tenant : TenantId} {counters : Counters} {ls : List BackendLabel} {b : Backend}
    (hls : ∀ l ∈ ls, LoadsUnder catalogue plan tenant l)
    (h : run (Backend.step deps options) (.start (fun _ => .empty) counters) ls = some b) :
    (∀ limit, plan.limits.operationsPerDay = some limit → ∀ day, (issuedTo tenant day b.service).length ≤ limit) ∧
    (∀ limit, plan.limits.weiPerDay = some limit → ∀ day,
      total (fun c => ceilDivGwei c.request.maxCost) (issuedTo tenant day b.service) ≤
        limit / weiPerGwei + refundedOf (ceilingSlot (weiCeiling tenant.value limit) day) b.service) ∧
    (∀ chainIds, plan.chainIds = some chainIds → ∀ c ∈ b.service.calls, c.phase = .attested →
      c.caller.tenantId = tenant.value → c.request.chainId ∈ chainIds) := by
  have hc : Capped plan tenant b := by
    refine invariant_on (P := Capped plan tenant) (C := LoadsUnder catalogue plan tenant) (fun hc hl hstep => ?_)
      (capped_start counters) hls h
    exact capped_step (backendStep_cases hstep) hl hc
  refine ⟨fun limit hlimit day => ?_, fun limit hlimit day => ?_, fun chainIds hids c hmem hphase htenant => ?_⟩
  · have hceiling : operationsCeiling tenant.value limit ∈ reservingOf (ceilingRules plan tenant.value) :=
      List.mem_filterMap.mpr ⟨.quota (operationsCeiling tenant.value limit), by simp [ceilingRules, hlimit], rfl⟩
    have hle := charged_le hc hceiling day
    have hspend := (hc.room _ hceiling).spend rfl ⟨⟨0, 0, none, none, none⟩, 0, day⟩ _ (slotFor_ceiling hceiling _)
    have hcount : total (fun c => (operationsCeiling tenant.value limit).amountFor c.context)
        (issuedTo tenant day b.service) = (issuedTo tenant day b.service).length := by
      simp [QuotaRule.amountFor, operationsCeiling, total]
    change refundedOf (ceilingSlot (operationsCeiling tenant.value limit) day) b.service = 0 at hspend
    rw [hcount, hspend] at hle
    exact hle
  · have hceiling : weiCeiling tenant.value limit ∈ reservingOf (ceilingRules plan tenant.value) :=
      List.mem_filterMap.mpr ⟨.quota (weiCeiling tenant.value limit), by simp [ceilingRules, hlimit], rfl⟩
    exact charged_le hc hceiling day
  · have hrule : PolicyRule.chainEnabled chainIds ∈ c.policy.rules :=
      mem_policy hc hmem htenant (by simp [ceilingRules, hids])
    refine hc.checked c hmem chainIds ((hc.books.sound c hmem).allowed _ ?_)
    simpa only [SponsorCall.approved, hphase] using hrule

/-! ## A capped tenant -/

def basicPlan : Plan := ⟨"basic", 2592000, [(1, 10 ^ 16)], ⟨some 2, some (10 ^ 18)⟩, some [1]⟩

def basicCatalogue : PlanCatalogue := ⟨[basicPlan], none, by decide, by simp⟩

def acme : TenantId := ⟨"acme", by decide +kernel⟩

def acmePolicies : List Policy :=
  basicCatalogue.withCeilings (fun _ => some "basic") [⟨"acme", "standard", [.check "sender-allowlist" .pure]⟩]

theorem acmePolicies_exclusive : ∀ policy ∈ acmePolicies, Exclusive basicPlan acme policy := by
  have hpolicies : acmePolicies =
      [⟨"acme", "standard", .check "sender-allowlist" .pure :: ceilingRules basicPlan "acme"⟩] := by rfl
  intro policy hmem rule hrule ceiling hceiling context context' slot hslot hslot'
  rw [hpolicies, List.mem_singleton] at hmem
  subst hmem
  have hown : rule ∈ reservingOf (ceilingRules basicPlan acme.value) := hrule
  rw [slotFor_ceiling hown, Option.some.injEq] at hslot
  rw [slotFor_ceiling hceiling, Option.some.injEq, ← hslot] at hslot'
  have hkeys := (windowedKey_inj hslot').1
  have hall : ∀ rule ∈ reservingOf (ceilingRules basicPlan acme.value),
      ∀ ceiling ∈ reservingOf (ceilingRules basicPlan acme.value), ceiling.keyPrefix = rule.keyPrefix → rule = ceiling := by
    decide +kernel
  exact hall rule hown ceiling hceiling hkeys

def acmeCeilingRun : List BackendLabel :=
  ([.reload 0 acmePolicies, .sponsor 0 (sampleRequest 0 (10 ^ 15)) ⟨"acme", none, some "key"⟩,
    .enter 0 none none 1700000000, .evaluate 0 (.decided .allow), .evaluate 0 (.decided .allow),
    .evaluate 0 (.decided .allow), .evaluate 0 (.decided .allow), .attest 0 true,
    .record 0 (.inserted 1700000000500000)] : List SponsorLabel).map .sponsor

theorem ceilings_bind_acme : ∃ b,
    run (Backend.step sampleDeps ⟨2, 100, 100, by decide⟩) (.start (fun _ => .empty) fun _ => none) acmeCeilingRun = some b ∧
      (issuedTo acme 1700000000 b.service).length = 1 ∧ (issuedTo acme 1700000000 b.service).length ≤ 2 := by
  have hlen : (run (Backend.step sampleDeps ⟨2, 100, 100, by decide⟩) (.start (fun _ => .empty) fun _ => none) acmeCeilingRun).map
      (fun b => (issuedTo acme 1700000000 b.service).length) = some 1 := by
    decide +kernel
  obtain ⟨b, hb, hone⟩ := Option.map_eq_some_iff.mp hlen
  have hls : ∀ l ∈ acmeCeilingRun, LoadsUnder basicCatalogue basicPlan acme l := by
    intro l hl
    simp only [acmeCeilingRun, List.map_cons, List.map_nil, List.mem_cons, List.not_mem_nil, or_false] at hl
    rcases hl with rfl | rfl | rfl | rfl | rfl | rfl | rfl | rfl | rfl
    · refine ⟨⟨fun _ => some "basic", _, rfl, rfl⟩, fun policy hmem => ⟨?_, acmePolicies_exclusive policy hmem⟩⟩
      have howner : ∀ policy ∈ acmePolicies, tenantIdPattern policy.tenantId = true := by decide +kernel
      exact howner policy hmem
    all_goals trivial
  exact ⟨b, hb, hone, (ceilings_bind hls hb).1 2 rfl 1700000000⟩

end Paymaster
