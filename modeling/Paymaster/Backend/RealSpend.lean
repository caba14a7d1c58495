import Paymaster.Backend.Coverage
import Paymaster.Backend.Refunds

/-!
# Counters stay above real spend

A reservation is at least the realised cost of the operation it was made for,
and a refund leaves at least the realised cost in the counter. So as long as
refunds go back to the window they were charged to, every counter covers what
the landed operations that were charged to it really cost.
-/

namespace Paymaster

open Function Pool

/-! ## What is assumed of the chain, the database and the clocks -/

def UserOperationEvent.operation (e : UserOperationEvent) : Nat × Address × Uint256 := (e.chainId, e.sender, e.nonce)

def SponsorCall.operation (c : SponsorCall) : Nat × Address × Uint256 :=
  (c.request.chainId, c.request.sender, c.request.nonce)

def Sponsorship.operation (row : Sponsorship) : Nat × Address × Uint256 := (row.chainId, row.sender, row.nonce)

/-- An operation landed with the attestation of a call, at no more than its cost limit. -/
def Landed (s : Service) (e : UserOperationEvent) : Prop :=
  ∃ c ∈ s.calls[e.carried]?, c.phase = .attested ∧ c.operation = e.operation ∧ e.actualGasCostWei ≤ c.request.maxCost

instance (s : Service) (e : UserOperationEvent) : Decidable (Landed s e) :=
  inferInstanceAs (Decidable (∃ c ∈ s.calls[e.carried]?, _))

/-- The policies stay; a record inserts a row, created in the windows of the
reservation, or fails; operations land with an attestation, and once. -/
def Assumed (options : SpendReconcilerOptions) (b : Backend) : BackendLabel → Prop
  | .sponsor (.reload _ _) => False
  | .sponsor (.record _ (.lost _)) => False
  | .sponsor (.record i (.inserted createdAt)) => ∀ c ∈ b.service.calls[i]?, ∀ rule ∈ reservingOf c.policy.rules,
      rule.unit = .wei → windowStart (createdAt / 1000000) rule.windowSeconds = windowStart c.now rule.windowSeconds
  | .advance chainId newHead events => (∀ e ∈ events, Landed b.service e) ∧
      ((b.advance options chainId newHead events).chain.map UserOperationEvent.operation).Nodup
  | _ => True

/-- The time of creation, rounded to seconds, does not leave the windows that
the row can be refunded in, and a rule on API keys is not met without one. -/
def RoundsInWindow (b : Backend) : BackendLabel → Prop
  | .sponsor (.record i (.inserted createdAt)) => ∀ c ∈ b.service.calls[i]?, ∀ rule ∈ spendRules c.policy.rules,
      windowStart ((createdAt + 500000) / 1000000) rule.windowSeconds =
        windowStart (createdAt / 1000000) rule.windowSeconds ∧
      (rule.subject = .apiKey → c.caller.apiKeyId.isSome = true)
  | _ => True

instance (options : SpendReconcilerOptions) (b : Backend) : (l : BackendLabel) → Decidable (Assumed options b l)
  | .sponsor (.reload _ _) => isFalse id
  | .sponsor (.record _ (.lost _)) => isFalse id
  | .sponsor (.record i (.inserted _)) => inferInstanceAs (Decidable (∀ c ∈ b.service.calls[i]?, _))
  | .advance .. => inferInstanceAs (Decidable (_ ∧ _))
  | .sponsor (.record _ .failed) | .sponsor (.record _ .unconfigured) | .sponsor (.sponsor ..) | .sponsor (.enter ..)
  | .sponsor (.abandon _) | .sponsor (.evaluate ..) | .sponsor (.release ..) | .sponsor (.attest ..) | .reconcile ..
  | .latestBlock .. | .getCheckpoint _ | .fetch _ | .claim .. | .lookup _ | .trueUp .. | .saveCheckpoint _
  | .crash _ => isTrue trivial

instance (b : Backend) : (l : BackendLabel) → Decidable (RoundsInWindow b l)
  | .sponsor (.record i (.inserted _)) => inferInstanceAs (Decidable (∀ c ∈ b.service.calls[i]?, _))
  | .sponsor (.reload ..) | .sponsor (.record _ (.lost _)) | .advance .. | .sponsor (.record _ .failed)
  | .sponsor (.record _ .unconfigured) | .sponsor (.sponsor ..) | .sponsor (.enter ..) | .sponsor (.abandon _)
  | .sponsor (.evaluate ..) | .sponsor (.release ..) | .sponsor (.attest ..) | .reconcile .. | .latestBlock ..
  | .getCheckpoint _ | .fetch _ | .claim .. | .lookup _ | .trueUp .. | .saveCheckpoint _ | .crash _ => isTrue trivial

/-! ## The invariant -/

def InWindow (c : SponsorCall) (row : Sponsorship) : Prop :=
  ∀ rule ∈ spendRules c.policy.rules,
    windowStart row.reservedAt rule.windowSeconds = windowStart c.now rule.windowSeconds ∧
      (rule.subject = .apiKey → c.caller.apiKeyId.isSome = true)

def Settles (options : SpendReconcilerOptions) (b : Backend) (row : Sponsorship) (settlement : Settlement) : Prop :=
  ∃ e ∈ b.chain, b.settled options e = true ∧ e.operation = row.operation ∧
    settlement.actualGasCostWei = e.actualGasCostWei

structure Spends (options : SpendReconcilerOptions) (source : PolicySource) (b : Backend) : Prop where
  owes : Owes b
  scans : Scans options b
  policies : b.service.policies = fun _ => source
  resolved : ∀ c ∈ b.service.calls, source.get c.caller.tenantId c.policyId = some c.policy
  floor : ∀ slot, total (fun c => c.held slot) b.service.calls ≤
    b.service.counters.at slot + total (fun c => c.refunded slot) b.service.calls
  paid : ∀ (r : Nat) (row : Sponsorship), b.service.rows[r]? = some row →
    ∃ c, b.service.calls[row.issuedBy]? = some c ∧ c.phase = .attested ∧ InWindow c row
  landed : ∀ e ∈ b.chain, Landed b.service e
  once : (b.chain.map UserOperationEvent.operation).Nodup
  settled : ∀ (r : Nat) (row : Sponsorship) (settlement : Settlement), b.service.rows[r]? = some row →
    row.reconciled = some settlement → Settles options b row settlement
  claimed : ∀ r ∈ b.claims, ∃ row, b.service.rows[r]? = some row ∧ row.reconciled ≠ none
  claims : b.claims.Nodup

/-! ## Steps of the service -/

section
variable {deps : SponsorServiceDeps} {options : SpendReconcilerOptions} {source : PolicySource} {b b' : Backend}
  {s s' : Service} {c : SponsorCall}

theorem sponsorStep_attested {l : SponsorLabel} {i : Nat} (h : SponsorStep deps s l s') (hc : s.calls[i]? = some c)
    (hp : c.phase = .attested) : s'.calls[i]? = some c :=
  sponsorStep_finished h hc (by rw [hp]; rfl)

/-- Rows stay, and a new one is the row of a call that `record` attested, unless the record was lost. -/
theorem sponsorStep_rows {l : SponsorLabel} (h : SponsorStep deps s l s') (hlost : ∀ i createdAt, l ≠ .record i (.lost createdAt)) :
    s'.rows = s.rows ∨ ∃ i createdAt c, l = .record i (.inserted createdAt) ∧ s.calls[i]? = some c ∧
      s'.calls[i]? = some { c with phase := .attested } ∧ s'.rows = s.rows ++ [c.row i createdAt] := by
  cases h with
  | @record i c outcome hd hq =>
    cases outcome with
    | inserted createdAt => exact .inr ⟨i, createdAt, c, rfl, hd, getElem?_set_self_of_some hd, rfl⟩
    | lost createdAt => exact absurd rfl (hlost i createdAt)
    | failed => exact .inl rfl
    | unconfigured => exact .inl rfl
  | reload => exact .inl rfl
  | unknown => exact .inl rfl
  | sponsor => exact .inl rfl
  | enter => exact .inl rfl
  | abandon => exact .inl rfl
  | evaluate => exact .inl rfl
  | refuse => exact .inl rfl
  | compensate => exact .inl rfl
  | attest => exact .inl rfl

theorem landed_service_step {l : SponsorLabel} {e : UserOperationEvent} (h : SponsorStep deps s l s') (hl : Landed s e) :
    Landed s' e := by
  obtain ⟨c, hc, hp, hrest⟩ := hl
  exact ⟨c, sponsorStep_attested h hc hp, hp, hrest⟩

theorem spends_service_step {l : SponsorLabel} {s : Service} (h : SponsorStep deps b.service l s) (hs : Spends options source b)
    (hassumed : Assumed options b (.sponsor l)) (hrounds : RoundsInWindow b (.sponsor l)) :
    Spends options source { b with service := s } := by
  have howes := owes_service_step h hs.owes
  have hscans : Scans options { b with service := s } := scans_step (.sponsor h) hs.scans
  have hlost : ∀ i createdAt, l ≠ .record i (.lost createdAt) := by
    rintro i createdAt rfl
    exact hassumed
  have hrows := sponsorStep_rows h hlost
  have hpaid : ∀ (r : Nat) (row : Sponsorship), s.rows[r]? = some row →
      ∃ c, s.calls[row.issuedBy]? = some c ∧ c.phase = .attested ∧ InWindow c row := by
    intro r row hr
    have hold : b.service.rows[r]? = some row → ∃ c, s.calls[row.issuedBy]? = some c ∧ c.phase = .attested ∧ InWindow c row := by
      intro hr
      obtain ⟨c, hc, hp, hw⟩ := hs.paid r row hr
      exact ⟨c, sponsorStep_attested h hc hp, hp, hw⟩
    rcases hrows with hrows | ⟨i, createdAt, c, rfl, hc, hc', hrows⟩
    · exact hold (hrows ▸ hr)
    · rw [hrows] at hr
      rcases getElem?_append_cases hr with ⟨-, rfl⟩ | hr
      · refine ⟨_, hc', rfl, fun rule hrule => ?_⟩
        obtain ⟨hround, hkey⟩ := hrounds c hc rule hrule
        obtain ⟨rule', hrule', rfl⟩ := List.mem_map.mp hrule
        obtain ⟨hmem, hl⟩ := List.mem_filter.mp hrule'
        exact ⟨hround.trans (hassumed c hc rule' hmem (rule'.unit_of_locatable hl)), hkey⟩
      · exact hold hr
  have hsettled : ∀ (r : Nat) (row : Sponsorship) (settlement : Settlement), s.rows[r]? = some row →
      row.reconciled = some settlement → Settles options { b with service := s } row settlement := by
    intro r row settlement hr hrec
    rcases hrows with hrows | ⟨i, createdAt, c, -, -, -, hrows⟩
    · exact hs.settled r row settlement (hrows ▸ hr) hrec
    · rw [hrows] at hr
      rcases getElem?_append_cases hr with ⟨-, rfl⟩ | hr
      · cases hrec
      · exact hs.settled r row settlement hr hrec
  have hclaimed : ∀ r ∈ b.claims, ∃ row, s.rows[r]? = some row ∧ row.reconciled ≠ none := by
    intro r hr
    obtain ⟨row, hrow, hne⟩ := hs.claimed r hr
    rcases hrows with hrows | ⟨i, createdAt, c, -, -, -, hrows⟩
    · exact ⟨row, hrows ▸ hrow, hne⟩
    · exact ⟨row, hrows ▸ getElem?_append_of_some hrow, hne⟩
  have hlanded : ∀ e ∈ b.chain, Landed s e := fun e he => landed_service_step h (hs.landed e he)
  have hcommon : s.policies = (fun _ => source) →
      (∀ c ∈ s.calls, source.get c.caller.tenantId c.policyId = some c.policy) →
      (∀ slot, total (fun c => c.held slot) s.calls ≤ s.counters.at slot + total (fun c => c.refunded slot) s.calls) →
      Spends options source { b with service := s } :=
    fun hpolicies hresolved hfloor =>
      ⟨howes, hscans, hpolicies, hresolved, hfloor, hpaid, hlanded, hs.once, hsettled, hclaimed, hs.claims⟩
  rcases service_step h hs.owes.books.sound with ⟨policies, rfl, rfl | ⟨replica, loaded, rfl⟩⟩ | ⟨c, rfl, hnew⟩ | ⟨i, c, c', hstep⟩
  · exact hcommon hs.policies hs.resolved hs.floor
  · exact absurd hassumed id
  · refine hcommon hs.policies (fun d hd => ?_) fun slot => ?_
    · rcases List.mem_append.mp hd with hd | hd
      · exact hs.resolved d hd
      · obtain ⟨replica, hget⟩ := hnew.resolved
        rw [List.mem_singleton.mp hd]
        rwa [hs.policies] at hget
    · show total _ (b.service.calls ++ [c]) ≤ b.service.counters.at slot + total _ (b.service.calls ++ [c])
      rw [hnew.total_held, hnew.total_refunded]
      exact hs.floor slot
  · refine hcommon (hstep.policies.trans hs.policies) ?_ fun slot => ?_
    · rw [hstep.after]
      refine forall_set hs.resolved ?_
      rw [hstep.continues.caller, hstep.continues.policyId, hstep.continues.policy]
      exact hs.resolved c (List.mem_of_getElem? hstep.before)
    · have hfloor := hs.floor slot
      have hmove := hstep.floor slot
      have hheld := total_set (f := fun c => c.held slot) (q := c') hstep.before
      have hrefunded := total_set_eq (f := fun c => c.refunded slot) hstep.before (hstep.continues.refunded slot)
      rw [hstep.after]
      omega

/-! ## Steps of the reconciler -/

/-- The policy that is loaded is the policy that the call resolved. -/
theorem Spends.refundsCharged (hs : Spends options source b) (l : BackendLabel) : RefundsCharged b l := by
  cases l with
  | lookup k =>
    rintro t ht ⟨event, r⟩ hclaim row hr c hc policy hpolicy
    obtain ⟨d, hd, hissued⟩ := hs.owes.books.issued r row hr
    obtain rfl := Option.some.inj (hc.symm.trans hd)
    obtain ⟨d, hd, -, hwindow⟩ := hs.paid r row hr
    obtain rfl := Option.some.inj (hc.symm.trans hd)
    have hget : source.get row.tenantId row.policyId = some policy := by rw [hs.policies] at hpolicy; exact hpolicy
    rw [hissued.tenantId, hissued.policyId, hs.resolved c (List.mem_of_getElem? hc)] at hget
    obtain rfl := Option.some.inj hget
    exact .inr ⟨List.Subperm.refl _, hwindow⟩
  | sponsor | advance | reconcile | latestBlock | getCheckpoint | fetch | claim | trueUp | saveCheckpoint | crash =>
    trivial

/-- A step that moves ticks, checkpoints and what is recorded of them only. -/
theorem Spends.of_tick (hs : Spends options source b) (howes : Owes b') (hscans : Scans options b')
    (hservice : b'.service = b.service) (hchain : b'.chain = b.chain) (hhead : b'.head = b.head)
    (hclaims : b'.claims = b.claims) : Spends options source b' where
  owes := howes
  scans := hscans
  policies := hservice ▸ hs.policies
  resolved := hservice ▸ hs.resolved
  floor := hservice ▸ hs.floor
  paid := hservice ▸ hs.paid
  landed := by rw [hchain, hservice]; exact hs.landed
  once := hchain ▸ hs.once
  settled r row settlement hr hrec := by
    rw [hservice] at hr
    obtain ⟨e, he, hdeep, hrest⟩ := hs.settled r row settlement hr hrec
    refine ⟨e, hchain ▸ he, ?_, hrest⟩
    unfold Backend.settled at hdeep ⊢
    rwa [hhead]
  claimed := by rw [hclaims, hservice]; exact hs.claimed
  claims := hclaims ▸ hs.claims

theorem spends_advance {chainId newHead : Nat} {events : List UserOperationEvent} (hs : Spends options source b)
    (hg : b.Grows options chainId newHead events) (hassumed : Assumed options b (.advance chainId newHead events)) :
    Spends options source (b.advance options chainId newHead events) where
  owes := ⟨hs.owes.books, hs.owes.claimed, hs.owes.known, hs.owes.bounded⟩
  scans := @scans_step ⟨fun _ => none, ""⟩ _ _ _ _ (.advance hg) hs.scans
  policies := hs.policies
  resolved := hs.resolved
  floor := hs.floor
  paid := hs.paid
  landed e he := by
    rcases List.mem_append.mp he with he | he
    · exact hs.landed e (List.mem_of_mem_filter he)
    · exact hassumed.1 e he
  once := hassumed.2
  settled r row settlement hr hrec := by
    obtain ⟨e, he, hdeep, hrest⟩ := hs.settled r row settlement hr hrec
    refine ⟨e, List.mem_append_left _ (List.mem_filter.mpr ⟨he, ?_⟩), ?_, hrest⟩
    · rw [hdeep]
      simp
    · have hhead := (@later_step ⟨fun _ => none, ""⟩ _ _ _ _ (.advance hg)).head e.chainId
      unfold Backend.settled at hdeep ⊢
      rw [decide_eq_true_eq] at hdeep ⊢
      exact Nat.le_trans hdeep hhead
  claimed := hs.claimed
  claims := hs.claims

theorem spends_claim {k r : Nat} {t : Tick} {w : Window} {event : UserOperationEvent} {events : List UserOperationEvent}
    {locked : List Nat} {row : Sponsorship} (hs : Spends options source b) (ht : b.ticks[k]? = some t)
    (hp : t.phase = .offering w (event :: events)) (hr : b.service.rows[r]? = some row)
    (hc : Chosen b.service.rows locked t.chainId event.sender event.nonce (some r)) :
    Spends options source (b.claim k t w event events (some r)) := by
  have howes := owes_claim hs.owes ht hp hr hc
  have hscans := @scans_step ⟨fun _ => none, ""⟩ _ _ _ _ (.claimed ht hp hr hc) hs.scans
  obtain ⟨row', hr', hmatch, -⟩ := mem_candidates.mp hc.1
  obtain rfl := Option.some.inj (hr.symm.trans hr')
  have hm : row.chainId = t.chainId ∧ row.sender = event.sender ∧ row.nonce = event.nonce ∧ row.reconciled = none := by
    simpa [Sponsorship.matches] using hmatch
  obtain ⟨hchain, hsender, hnonce, hfree⟩ := hm
  -- The event was fetched from a settled block.
  have hevent : event ∈ b.chain ∧ event.chainId = t.chainId ∧ b.settled options event = true := by
    obtain ⟨-, done, hdone, -⟩ := (hs.scans.ticks k t ht).offered w (event :: events) (by rw [hp]; rfl)
    have hmem : event ∈ getUserOperationEvents b.chain t.chainId w.fromBlock w.toBlock := by
      rw [hdone]
      exact List.mem_append_right _ List.mem_cons_self
    obtain ⟨he, hce, -, hle⟩ := mem_getUserOperationEvents.mp hmem
    have hdeep := ((hs.scans.ticks k t ht).window w (by rw [hp]; rfl)).1.settled
    refine ⟨he, hce, ?_⟩
    simp only [Backend.settled, hce, decide_eq_true_eq]
    omega
  simp only [Backend.claim, hr] at howes hscans ⊢
  refine ⟨howes, hscans, hs.policies, hs.resolved, hs.floor, fun r' row' hr' => ?_, hs.landed, hs.once,
    fun r' row' settlement hr' hrec => ?_, fun r' hr' => ?_, ?_⟩
  · rcases getElem?_set_cases hr' with ⟨rfl, rfl⟩ | ⟨-, hr'⟩
    · exact hs.paid r' row hr
    · exact hs.paid r' row' hr'
  · rcases getElem?_set_cases hr' with ⟨rfl, rfl⟩ | ⟨-, hr'⟩
    · cases hrec
      refine ⟨event, hevent.1, hevent.2.2, ?_, rfl⟩
      simp only [UserOperationEvent.operation, Sponsorship.operation, Sponsorship.reconcile, hevent.2.1, hchain, hsender,
        hnonce]
    · exact hs.settled r' row' settlement hr' hrec
  · rcases List.mem_cons.mp hr' with rfl | hr'
    · exact ⟨_, getElem?_set_self_of_some hr, by simp [Sponsorship.reconcile]⟩
    · obtain ⟨row', hrow', hne⟩ := hs.claimed r' hr'
      have hne' : r ≠ r' := by
        rintro rfl
        obtain rfl := Option.some.inj (hr.symm.trans hrow')
        exact hne hfree
      exact ⟨row', by rw [List.getElem?_set_ne hne']; exact hrow', hne⟩
  · refine List.nodup_cons.mpr ⟨fun hmem => ?_, hs.claims⟩
    obtain ⟨row', hrow', hne⟩ := hs.claimed r hmem
    obtain rfl := Option.some.inj (hr.symm.trans hrow')
    exact hne hfree

theorem spends_trueUp {k r : Nat} {t : Tick} {w : Window} {events : List UserOperationEvent} {row : Sponsorship}
    {reservation : SpendTrueUp} {rule : QuotaRule} {rules : List QuotaRule} (stored : Bool)
    (hs : Spends options source b) (ht : b.ticks[k]? = some t)
    (hp : t.phase = .refunding w events r reservation (rule :: rules)) (hr : b.service.rows[r]? = some row) :
    Spends options source (b.trueUp k t w events r row reservation rule rules stored) := by
  have howes := owes_trueUp stored hs.owes ht hp hr
  have hscans := @scans_step ⟨fun _ => none, ""⟩ _ _ _ _ (.trueUp stored ht hp hr) hs.scans
  unfold Backend.trueUp at howes hscans ⊢
  cases stored with
  | false => exact hs.of_tick howes hscans rfl rfl rfl rfl
  | true =>
    cases hn : rule.trueUpTarget reservation with
    | none =>
      have hcounters : rule.trueUp b.service.counters reservation = b.service.counters := by
        simp only [QuotaRule.trueUp, hn]
      simp only [ite_true, hn, hcounters, Backend.noteRefund] at howes hscans ⊢
      exact hs.of_tick howes hscans rfl rfl rfl rfl
    | some target =>
      obtain ⟨slot', amount⟩ := target
      obtain ⟨c, hc, hissued⟩ := hs.owes.books.issued r row hr
      simp only [ite_true, hn, noteRefund_some hc] at howes hscans ⊢
      -- The call of the row changes in its history only.
      have hkept : ∀ (i : Nat) (d : SponsorCall), b.service.calls[i]? = some d →
          ∃ d', (b.service.calls.set row.issuedBy (c.refund slot' amount))[i]? = some d' ∧ d'.phase = d.phase ∧
            d'.request = d.request ∧ d'.caller = d.caller ∧ d'.policy = d.policy ∧ d'.now = d.now := by
        intro i d hd
        by_cases he : row.issuedBy = i
        · subst he
          obtain rfl := Option.some.inj (hc.symm.trans hd)
          exact ⟨_, getElem?_set_self_of_some hc, rfl, rfl, rfl, rfl, rfl⟩
        · exact ⟨d, by rw [List.getElem?_set_ne he]; exact hd, rfl, rfl, rfl, rfl, rfl⟩
      refine ⟨howes, hscans, hs.policies, forall_set hs.resolved (hs.resolved c (List.mem_of_getElem? hc)),
        fun slot => ?_, fun r' row' hr' => ?_, fun e he => ?_, hs.once, hs.settled, hs.claimed, hs.claims⟩
      · have hheld : total (fun d => d.held slot) (b.service.calls.set row.issuedBy (c.refund slot' amount)) =
            total (fun d => d.held slot) b.service.calls := total_set_eq hc rfl
        have hrefunded := total_set (f := fun d => d.refunded slot) (q := c.refund slot' amount) hc
        have hfloor := hs.floor slot
        have hat : (rule.trueUp b.service.counters reservation).at slot =
            b.service.counters.at slot - if slot' = slot then amount else 0 := by
          rw [QuotaRule.at_trueUp, QuotaRule.refundAt, hn]
        simp only [SponsorCall.refunded_refund] at hrefunded
        simp only [hheld, hat]
        omega
      · obtain ⟨d, hd, hphase, hwindow⟩ := hs.paid r' row' hr'
        obtain ⟨d', hd', hphase', -, hcaller, hpolicy, hnow⟩ := hkept _ d hd
        refine ⟨d', hd', hphase'.trans hphase, ?_⟩
        unfold InWindow
        rw [hcaller, hpolicy, hnow]
        exact hwindow
      · obtain ⟨d, hd, hphase, hop, hcost⟩ := hs.landed e he
        obtain ⟨d', hd', hphase', hrequest, -⟩ := hkept _ d hd
        refine ⟨d', hd', hphase'.trans hphase, ?_, ?_⟩
        · unfold SponsorCall.operation at hop ⊢
          rwa [hrequest]
        · rwa [hrequest]

theorem spends_step {l : BackendLabel} (h : BackendStep deps options b l b') (hs : Spends options source b)
    (hassumed : Assumed options b l) (hrounds : RoundsInWindow b l) : Spends options source b' := by
  have howes := owes_step h hs.owes (hs.refundsCharged l)
  have hscans := scans_step h hs.scans
  cases h with
  | sponsor hstep => exact spends_service_step hstep hs hassumed hrounds
  | advance hg => exact spends_advance hs hg hassumed
  | reconcile => exact hs.of_tick howes hscans rfl rfl rfl rfl
  | measured => exact hs.of_tick howes hscans rfl rfl rfl rfl
  | fetching => exact hs.of_tick howes hscans rfl rfl rfl rfl
  | fetched => exact hs.of_tick howes hscans rfl rfl rfl rfl
  | unclaimed => exact hs.of_tick howes hscans rfl rfl rfl rfl
  | claimed ht hp hr hc => exact spends_claim hs ht hp hr hc
  | skipped => exact hs.of_tick howes hscans rfl rfl rfl rfl
  | lookup => exact hs.of_tick howes hscans rfl rfl rfl rfl
  | trueUp stored ht hp hr => exact spends_trueUp stored hs ht hp hr
  | saved => exact hs.of_tick howes hscans rfl rfl rfl rfl
  | finished => exact hs.of_tick howes hscans rfl rfl rfl rfl

theorem spends_start (counters : Counters) : Spends options source (.start (fun _ => source) counters) := by
  refine ⟨owes_start _ _, scans_start _ _, rfl, ?_, ?_, ?_, ?_, ?_, ?_, ?_, ?_⟩ <;> simp [Backend.start, Service.start]

/-! ## What the counters cover -/

theorem ceilDivGwei_mono {m n : Nat} (h : m ≤ n) : ceilDivGwei m ≤ ceilDivGwei n :=
  Nat.div_le_div_right (by omega)

def Backend.realSpend (b : Backend) (slot : String) (e : UserOperationEvent) : Nat :=
  (b.service.calls[e.carried]?).elim 0 (fun c => c.weight slot) * ceilDivGwei e.actualGasCostWei

theorem Backend.realSpend_of_carried (b : Backend) {e : UserOperationEvent} (hc : b.service.calls[e.carried]? = some c)
    (slot : String) : b.realSpend slot e = c.weight slot * ceilDivGwei e.actualGasCostWei := by
  rw [Backend.realSpend, hc, Option.elim_some]

theorem Spends.held_eq_planned (hs : Spends options source b) {r : Nat} {row : Sponsorship}
    (hr : b.service.rows[r]? = some row) (hc : b.service.calls[row.issuedBy]? = some c) (slot : String) :
    c.held slot = c.planned slot := by
  obtain ⟨d, hd, hp, -⟩ := hs.paid r row hr
  obtain rfl := Option.some.inj (hc.symm.trans hd)
  simp only [SponsorCall.held, SponsorCall.reservations, hp, SponsorCall.planned]

theorem Spends.refunded_le_held (hs : Spends options source b) (hc : c ∈ b.service.calls) (slot : String) :
    c.refunded slot ≤ c.held slot := by
  obtain ⟨i, hi⟩ := List.getElem?_of_mem hc
  by_cases hrow : ∃ row ∈ b.service.rows, row.issuedBy = i
  · obtain ⟨row, hrow, rfl⟩ := hrow
    obtain ⟨r, hr⟩ := List.getElem?_of_mem hrow
    rw [hs.held_eq_planned hr hi]
    exact hs.owes.refunded_le_planned hr hi slot
  · have hnone := hs.owes.books.unissued i c hi fun row hr he => hrow ⟨row, hr, he⟩
    rw [SponsorCall.refunded_eq_zero hnone]
    exact Nat.zero_le _

/-- What the call of a landed operation still holds covers what it cost. -/
theorem Spends.cost_le_rest (hs : Spends options source b) {e : UserOperationEvent} (he : e ∈ b.chain)
    (hc : b.service.calls[e.carried]? = some c) (slot : String) :
    c.weight slot * ceilDivGwei e.actualGasCostWei ≤ c.held slot - c.refunded slot := by
  obtain ⟨d, hd, hp, hop, hcost⟩ := hs.landed e he
  obtain rfl := Option.some.inj (hc.symm.trans hd)
  have hmono := ceilDivGwei_mono hcost
  have hheld : c.held slot = c.planned slot := by
    simp only [SponsorCall.held, SponsorCall.reservations, hp, SponsorCall.planned]
  have hplanned : c.weight slot * ceilDivGwei c.request.maxCost ≤ c.planned slot := weight_le_planned
  have hbound : c.refunded slot ≤
      c.weight slot * (ceilDivGwei c.request.maxCost - ceilDivGwei e.actualGasCostWei) := by
    by_cases hrow : ∃ row ∈ b.service.rows, row.issuedBy = e.carried
    · obtain ⟨row, hrow, hi⟩ := hrow
      obtain ⟨r, hr⟩ := List.getElem?_of_mem hrow
      have hc' : b.service.calls[row.issuedBy]? = some c := hi ▸ hc
      have hle := Nat.le_trans (Nat.le_add_right ..) (hs.owes.bounded r row c hr hc' slot)
      obtain ⟨d, hd, hissued⟩ := hs.owes.books.issued r row hr
      obtain rfl := Option.some.inj (hc'.symm.trans hd)
      rw [← hissued.maxCostWei]
      refine Nat.le_trans hle (Nat.mul_le_mul_left _ ?_)
      unfold Sponsorship.excess
      cases hrec : row.reconciled with
      | none => exact Nat.zero_le _
      | some settlement =>
        -- The operation landed once, so the row was settled by this event.
        obtain ⟨e', he', -, hop', hactual⟩ := hs.settled r row settlement hr hrec
        have hrowop : row.operation = c.operation := by
          simp only [Sponsorship.operation, SponsorCall.operation, hissued.chainId, hissued.sender, hissued.nonce]
        have heq : e' = e := List.inj_on_of_nodup_map hs.once he' he (hop'.trans (hrowop.trans hop))
        simp only [hactual, heq, Nat.le_refl]
    · have hnone := hs.owes.books.unissued _ c hc fun row hr hi => hrow ⟨row, hr, hi⟩
      rw [SponsorCall.refunded_eq_zero hnone]
      exact Nat.zero_le _
  rw [Nat.mul_sub] at hbound
  have hweight := Nat.mul_le_mul_left (c.weight slot) hmono
  generalize c.weight slot * ceilDivGwei e.actualGasCostWei = actual at hbound hweight ⊢
  generalize c.weight slot * ceilDivGwei c.request.maxCost = reserved at hbound hweight hplanned
  omega

/-- Every operation landed with an attestation of its own. -/
theorem Spends.carried_nodup (hs : Spends options source b) : (b.chain.map UserOperationEvent.carried).Nodup := by
  have hmap : (b.chain.map UserOperationEvent.carried).map
      (fun i => (b.service.calls[i]?).map SponsorCall.operation) =
      (b.chain.map UserOperationEvent.operation).map some := by
    rw [List.map_map, List.map_map]
    refine List.map_congr_left fun e he => ?_
    obtain ⟨c, hc, -, hop, -⟩ := hs.landed e he
    have hc' : b.service.calls[e.carried]? = some c := hc
    simp only [Function.comp, hc', Option.map_some, hop]
  refine List.Nodup.of_map (fun i => (b.service.calls[i]?).map SponsorCall.operation) ?_
  rw [hmap]
  exact hs.once.map fun _ _ he => Option.some.inj he

theorem Spends.realSpend_le (hs : Spends options source b) (slot : String) :
    (b.chain.map (b.realSpend slot)).sum ≤ b.service.counters.at slot := by
  have hclaims : (b.chain.map (b.realSpend slot)).sum ≤
      total (fun c => c.held slot - c.refunded slot) b.service.calls := by
    refine @claims_le_total _ _ _ _ _ UserOperationEvent.carried _ hs.carried_nodup fun e he => ?_
    obtain ⟨c, hc, -⟩ := hs.landed e he
    have hc' : b.service.calls[e.carried]? = some c := hc
    refine ⟨c, hc', ?_⟩
    rw [b.realSpend_of_carried hc']
    exact hs.cost_le_rest he hc' slot
  have hrest : total (fun c => c.held slot - c.refunded slot) b.service.calls +
      total (fun c => c.refunded slot) b.service.calls = total (fun c => c.held slot) b.service.calls := by
    rw [← total_add]
    exact total_congr fun c hc => Nat.sub_add_cancel (hs.refunded_le_held hc slot)
  have hfloor := hs.floor slot
  omega

/-- **Real spend.** In every run of the backend under the assumptions, in which
no time of creation is rounded out of its window: every row is claimed at most
once and given back at most what it reserved above the realised cost, and every
counter is at least what the landed operations charged to it really cost. -/
theorem real_spend_covered {counters : Counters} {ls : List BackendLabel}
    (hassumed : Runs.Meets (Backend.step deps options) (Assumed options) (.start (fun _ => source) counters) ls)
    (hrounds : Runs.Meets (Backend.step deps options) RoundsInWindow (.start (fun _ => source) counters) ls)
    (h : Runs.run (Backend.step deps options) (.start (fun _ => source) counters) ls = some b) :
    b.claims.Nodup ∧
    (∀ (r : Nat) (row : Sponsorship) (c : SponsorCall), b.service.rows[r]? = some row →
      b.service.calls[row.issuedBy]? = some c → ∀ slot, c.refunded slot ≤ c.weight slot * row.excess) ∧
    ∀ slot, (b.chain.map (b.realSpend slot)).sum ≤ b.service.counters.at slot := by
  have hs : Spends options source b := Runs.invariant_of_meets (P := Spends options source)
    (C := fun b l => Assumed options b l ∧ RoundsInWindow b l)
    (fun hs hl hstep => spends_step (backendStep_cases hstep) hs hl.1 hl.2) (spends_start counters)
    (Runs.meets_and hassumed hrounds) h
  exact ⟨hs.claims, fun r row c hr hc slot => Nat.le_trans (Nat.le_add_right ..) (hs.owes.bounded r row c hr hc slot),
    hs.realSpend_le⟩

end

/-! ## The last half second of a window -/

theorem real_spend_covered_settledRun :
    ∃ b, Runs.run (Backend.step sampleDeps reconcileOptions) (.start (fun _ => sampleSource 5000000000) fun _ => none)
        settledRun = some b ∧
      ((b.chain.map (b.realSpend dailySlot)).sum, b.service.counters.at dailySlot) = (1, 1) ∧ b.claims.Nodup ∧
      ∀ slot, (b.chain.map (b.realSpend slot)).sum ≤ b.service.counters.at slot := by
  have hrun : (Runs.run (Backend.step sampleDeps reconcileOptions)
      (.start (fun _ => sampleSource 5000000000) fun _ => none) settledRun).map (fun b =>
        ((b.chain.map (b.realSpend dailySlot)).sum, b.service.counters.at dailySlot)) = some (1, 1) := by
    decide +kernel
  have hassumed : Runs.Meets (Backend.step sampleDeps reconcileOptions) (Assumed reconcileOptions)
      (.start (fun _ => sampleSource 5000000000) fun _ => none) settledRun := by
    decide +kernel
  have hrounds : Runs.Meets (Backend.step sampleDeps reconcileOptions) RoundsInWindow
      (.start (fun _ => sampleSource 5000000000) fun _ => none) settledRun := by
    decide +kernel
  obtain ⟨b, hb, he⟩ := Option.map_eq_some_iff.mp hrun
  obtain ⟨hclaims, -, hspend⟩ := real_spend_covered hassumed hrounds hb
  exact ⟨b, hb, he, hclaims, hspend⟩

/-- The first call is made in the last second of the day and its row created 0.7
seconds later, the second is made at the start of the next day. Both operations
land; the first one cost 1 gwei and is reconciled. -/
def lastSecondRun : List BackendLabel :=
  sponsored 0 0 3000000000 1700006399 1700006399700000 3 ++ sponsored 1 1 3000000000 1700006400 1700006400100000 3 ++
    [.advance 1 10 [⟨1, 3, 4, 0, 1000000000, true, 0⟩, ⟨1, 3, 4, 1, 3000000000, true, 1⟩],
      .reconcile 0 1, .latestBlock 0 10, .getCheckpoint 0, .fetch 0, .claim 0 [] (some 0), .lookup 0, .trueUp 0 true]

def nextDailySlot : String := windowedKey "quota:daily:key" 86400 1700006400

/-- The first row is refunded from the next day's counter, which is left below
what the second operation cost. -/
theorem lastSecondRun_undercounts :
    (Runs.run (Backend.step sampleDeps reconcileOptions) (.start (fun _ => sampleSource 5000000000) fun _ => none)
      lastSecondRun).map (fun b => ((b.chain.map (b.realSpend nextDailySlot)).sum,
        b.service.counters.at nextDailySlot)) = some (3, 1) ∧
    ¬ ∀ b, Runs.Meets (Backend.step sampleDeps reconcileOptions) (Assumed reconcileOptions)
        (.start (fun _ => sampleSource 5000000000) fun _ => none) lastSecondRun →
      Runs.run (Backend.step sampleDeps reconcileOptions) (.start (fun _ => sampleSource 5000000000) fun _ => none)
        lastSecondRun = some b →
      ∀ slot, (b.chain.map (b.realSpend slot)).sum ≤ b.service.counters.at slot := by
  have hrun : (Runs.run (Backend.step sampleDeps reconcileOptions)
      (.start (fun _ => sampleSource 5000000000) fun _ => none) lastSecondRun).map (fun b =>
        ((b.chain.map (b.realSpend nextDailySlot)).sum, b.service.counters.at nextDailySlot)) = some (3, 1) := by
    decide +kernel
  have hassumed : Runs.Meets (Backend.step sampleDeps reconcileOptions) (Assumed reconcileOptions)
      (.start (fun _ => sampleSource 5000000000) fun _ => none) lastSecondRun := by
    decide +kernel
  refine ⟨hrun, fun hall => ?_⟩
  obtain ⟨b, hb, he⟩ := Option.map_eq_some_iff.mp hrun
  have hle := hall b hassumed hb nextDailySlot
  rw [(Prod.mk.inj he).1, (Prod.mk.inj he).2] at hle
  omega

end Paymaster
