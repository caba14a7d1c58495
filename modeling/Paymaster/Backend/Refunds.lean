import Paymaster.Backend.Conservation
import Paymaster.Backend.Reconciler

/-!
# What the reconciler gives back

A row belongs to the call that inserted it, and a refund made for it belongs to
that call too. The call charged its counters by the policy it had resolved and
at its own time; the refund is made by the policy that is loaded then, and at
the row's time of creation. It stays within what the call charged as long as
the two policies address the same counters.
-/

namespace Paymaster

open Function Pool

/-! ## Spend rules -/

namespace QuotaRule

variable (rule : QuotaRule)

def locatable : Bool := rule.unit = .wei ∧ rule.subject ≠ .ip ∧ rule.subject ≠ .target

def shape : QuotaRule := { rule with limit := 0, onMissingSubject := .deny }

def refundAt (reservation : SpendTrueUp) (slot : String) : Nat :=
  match rule.trueUpTarget reservation with
  | some (s, amount) => if s = slot then amount else 0
  | none => 0

end QuotaRule

def spendRules (rules : List PolicyRule) : List QuotaRule :=
  ((reservingOf rules).filter QuotaRule.locatable).map QuotaRule.shape

namespace SponsorCall

variable (c : SponsorCall) (slot : String)

def planned : Nat := total (fun rule => rule.chargeAt c.context slot) (reservingOf c.policy.rules)

def weight : Nat :=
  total (fun rule => if rule.unit = .wei ∧ rule.slotFor c.context = some slot then 1 else 0) (reservingOf c.policy.rules)

/-- A refund is made on behalf of the call's row. -/
def refund (amount : Nat) : SponsorCall := { c with history := .refunded slot amount :: c.history }

end SponsorCall

def Sponsorship.excess (row : Sponsorship) : Nat :=
  match row.reconciled with
  | none => 0
  | some settlement => ceilDivGwei row.maxCostWei - ceilDivGwei settlement.actualGasCostWei

section
variable {rule : QuotaRule} {reservation : SpendTrueUp} {c : SponsorCall} {slot : String}

theorem QuotaRule.slotFor_shape (context : PolicyContext) : rule.shape.slotFor context = rule.slotFor context := rfl

theorem QuotaRule.unit_of_locatable (h : rule.locatable = true) : rule.unit = .wei := by
  have h' : rule.unit = .wei ∧ rule.subject ≠ .ip ∧ rule.subject ≠ .target := by simpa [QuotaRule.locatable] using h
  exact h'.1

theorem QuotaRule.at_trueUp {counters : Counters} :
    (rule.trueUp counters reservation).at slot = counters.at slot - rule.refundAt reservation slot := by
  unfold QuotaRule.trueUp QuotaRule.refundAt
  cases ht : rule.trueUpTarget reservation with
  | none => rfl
  | some target =>
    obtain ⟨s, amount⟩ := target
    simp only
    by_cases hs : s = slot
    · rw [if_pos hs, ← hs, at_releaseSlot_self]
    · rw [if_neg hs, at_releaseSlot_of_ne (Ne.symm hs), Nat.sub_zero]

/-- A refund is what a spend rule reserved above the realised cost, and is made
to the slot of the time of reservation. -/
theorem QuotaRule.trueUpTarget_cases {s : String} {amount : Nat} (h : rule.trueUpTarget reservation = some (s, amount)) :
    ∃ key, rule.unit = .wei ∧
      rule.keyFor ⟨reservation.chainId, reservation.sender, none, reservation.apiKeyId, none⟩ = some key ∧
      s = windowedKey key rule.windowSeconds reservation.reservedAt ∧
      amount = ceilDivGwei reservation.reservedMaxCostWei - ceilDivGwei reservation.actualCostWei ∧ 0 < amount := by
  unfold QuotaRule.trueUpTarget at h
  split at h
  · cases h
  · rename_i hu
    split at h
    · cases h
    · rename_i key hk
      split at h
      · cases h
      · cases h
        exact ⟨key, hu, hk, rfl, rfl, by omega⟩

theorem QuotaRule.refundAt_cases (rule : QuotaRule) (reservation : SpendTrueUp) (slot : String) :
    rule.refundAt reservation slot = 0 ∨
      ∃ amount, rule.trueUpTarget reservation = some (slot, amount) ∧ rule.refundAt reservation slot = amount := by
  unfold QuotaRule.refundAt
  cases ht : rule.trueUpTarget reservation with
  | none => exact .inl rfl
  | some target =>
    obtain ⟨s, amount⟩ := target
    by_cases hs : s = slot
    · subst hs
      exact .inr ⟨amount, rfl, if_pos rfl⟩
    · exact .inl (if_neg hs)

theorem QuotaRule.refundAt_eq_zero
    (h : ceilDivGwei reservation.reservedMaxCostWei ≤ ceilDivGwei reservation.actualCostWei) :
    rule.refundAt reservation slot = 0 := by
  rcases rule.refundAt_cases reservation slot with h0 | ⟨amount, ht, -⟩
  · exact h0
  · obtain ⟨-, -, -, -, rfl, hpos⟩ := rule.trueUpTarget_cases ht
    omega

/-- A spend rule charges the whole reservation. -/
theorem weight_le_planned : c.weight slot * ceilDivGwei c.request.maxCost ≤ c.planned slot := by
  unfold SponsorCall.weight SponsorCall.planned
  rw [← total_mul]
  refine total_le_total fun rule _ => ?_
  unfold QuotaRule.chargeAt
  by_cases h : rule.unit = .wei ∧ rule.slotFor c.context = some slot
  · rw [if_pos h, if_pos h.2, Nat.one_mul, QuotaRule.amountFor, h.1]
    exact Nat.le_refl _
  · rw [if_neg h, Nat.zero_mul]
    exact Nat.zero_le _

end

/-! ## The books of the service -/

namespace SponsorCall.Continues

variable {c c' : SponsorCall}

theorem refl (c : SponsorCall) : c.Continues c :=
  ⟨rfl, rfl, rfl, rfl, fun _ => rfl, ⟨[], rfl, by simp⟩, id⟩

theorem context (h : c.Continues c') (hp : c.phase ≠ .admitting) : c'.context = c.context := by
  unfold SponsorCall.context
  rw [h.request, h.caller, h.now hp]

theorem weight (h : c.Continues c') (hp : c.phase ≠ .admitting) (slot : String) : c'.weight slot = c.weight slot := by
  unfold SponsorCall.weight
  rw [h.context hp, h.policy]

theorem planned (h : c.Continues c') (hp : c.phase ≠ .admitting) (slot : String) : c'.planned slot = c.planned slot := by
  unfold SponsorCall.planned
  rw [h.context hp, h.policy]

theorem mem_refunded (h : c.Continues c') {slot : String} {amount : Nat} :
    .refunded slot amount ∈ c'.history ↔ .refunded slot amount ∈ c.history := by
  obtain ⟨new, hnew, hno⟩ := h.history
  rw [hnew, List.mem_append]
  exact ⟨fun hm => hm.resolve_left (hno slot amount), .inr⟩

theorem refunded (h : c.Continues c') (slot : String) : c'.refunded slot = c.refunded slot := by
  obtain ⟨new, hnew, hno⟩ := h.history
  unfold SponsorCall.refunded
  rw [hnew, total_append, total_eq_zero, Nat.zero_add]
  intro d hd
  cases d with
  | refunded s amount => exact absurd hd (hno s amount)
  | decided | consumed | released => rfl

theorem charged (h : c.Continues c') (slot : String) : c.charged slot ≤ c'.charged slot := by
  obtain ⟨new, hnew, -⟩ := h.history
  unfold SponsorCall.charged
  rw [hnew, total_append]
  exact Nat.le_add_left ..

end SponsorCall.Continues

theorem Phase.ne_admitting {phase : Phase} (h : phase.recorded = true) : phase ≠ .admitting := by
  rintro rfl
  cases h

/-- A row is the row of a call that got past `record`, having charged all that its policy says. -/
structure Issued (c : SponsorCall) (row : Sponsorship) : Prop where
  recorded : c.phase.recorded = true
  row : { c.row row.issuedBy row.createdAt with reconciled := row.reconciled } = row
  charged : ∀ slot, c.planned slot ≤ c.charged slot

section
variable {c c' : SponsorCall} {row : Sponsorship}

theorem Issued.continues (h : Issued c row) (hc : c.Continues c') : Issued c' row where
  recorded := hc.recorded h.recorded
  row := by
    rw [← h.row]
    simp only [SponsorCall.row, hc.request, hc.caller, hc.policyId]
  charged slot := by
    rw [hc.planned (Phase.ne_admitting h.recorded)]
    exact Nat.le_trans (h.charged slot) (hc.charged slot)

theorem Issued.reconcile (h : Issued c row) (event : UserOperationEvent) : Issued c (row.reconcile event) where
  recorded := h.recorded
  row := by
    have := h.row
    unfold Sponsorship.reconcile
    rw [← this]
    rfl
  charged := h.charged

theorem Issued.refund (h : Issued c row) (slot : String) (amount : Nat) : Issued (c.refund slot amount) row where
  recorded := h.recorded
  row := h.row
  charged slot' := by
    refine Nat.le_trans (h.charged slot') ?_
    simp [SponsorCall.charged, SponsorCall.refund, Deed.chargeAt]

/-- A refund is no deed of the call itself. -/
theorem SponsorCall.Sound.refund (hs : c.Sound) (hp : c.phase.recorded = true) (slot : String) (amount : Nat) :
    (c.refund slot amount).Sound := by
  have hden : ∀ rule denial, .decided rule (.deny denial) ∉ c.history := by
    refine hs.undenied (fun denial pending h => ?_) (fun denial h => ?_) <;> rw [h] at hp <;> cases hp
  constructor
  · intro h
    exact absurd h (Phase.ne_admitting hp)
  · exact hs.split
  · exact fun rule hr => List.mem_cons_of_mem _ (hs.allowed rule hr)
  · intro slot'
    have hheld : (c.refund slot amount).held slot' = c.held slot' := rfl
    have := hs.balance slot'
    rw [hheld]
    simpa [SponsorCall.charged, SponsorCall.returned, SponsorCall.refund, Deed.chargeAt, Deed.releaseAt] using this
  · intro h slot'
    have := hs.kept h slot'
    simpa [SponsorCall.returned, SponsorCall.refund, Deed.releaseAt] using this
  · intro evaluated ahead h
    have h' : c.phase = .evaluating evaluated ahead := h
    rw [h'] at hp
    cases hp
  · intro _ _ rule denial h
    rcases List.mem_cons.mp h with h | h
    · cases h
    · exact hden rule denial h
  · intro rule denial h
    rcases List.mem_cons.mp h with h | h
    · cases h
    · exact absurd h (hden rule denial)

end

/-- Every row is the row of a call of its own, and only calls with a row get refunds. -/
structure Books (s : Service) : Prop where
  sound : ∀ c ∈ s.calls, c.Sound
  issued : ∀ (r : Nat) (row : Sponsorship), s.rows[r]? = some row → ∃ c, s.calls[row.issuedBy]? = some c ∧ Issued c row
  issuers : (s.rows.map Sponsorship.issuedBy).Nodup
  unissued : ∀ (i : Nat) (c : SponsorCall), s.calls[i]? = some c → (∀ row ∈ s.rows, row.issuedBy ≠ i) →
    ∀ slot amount, .refunded slot amount ∉ c.history
  positive : ∀ c ∈ s.calls, ∀ slot amount, .refunded slot amount ∈ c.history → 0 < amount

section
variable {deps : SponsorServiceDeps} {s s' : Service} {l : SponsorLabel} {c c' : SponsorCall}

theorem Books.unique (h : Books s) {r r' : Nat} {row row' : Sponsorship} (hr : s.rows[r]? = some row)
    (hr' : s.rows[r']? = some row') (hi : row.issuedBy = row'.issuedBy) : r = r' :=
  eq_of_nodup_map h.issuers hr hr' hi

theorem CallStep.carry {i j : Nat} {d : SponsorCall} (h : CallStep s l s' i c c') (hd : s.calls[j]? = some d) :
    ∃ d', s'.calls[j]? = some d' ∧ d.Continues d' := by
  rw [h.after]
  by_cases hij : i = j
  · subst hij
    obtain rfl := Option.some.inj (h.before.symm.trans hd)
    exact ⟨c', getElem?_set_self_of_some hd, h.continues⟩
  · exact ⟨d, by rw [List.getElem?_set_ne hij]; exact hd, .refl d⟩

theorem CallStep.uncarry {i j : Nat} {d' : SponsorCall} (h : CallStep s l s' i c c') (hd : s'.calls[j]? = some d') :
    ∃ d, s.calls[j]? = some d ∧ d.Continues d' := by
  rw [h.after] at hd
  rcases getElem?_set_cases hd with ⟨rfl, rfl⟩ | ⟨-, hd⟩
  · exact ⟨c, h.before, h.continues⟩
  · exact ⟨d', hd, .refl d'⟩

theorem service_carry {i : Nat} (h : SponsorStep deps s l s') (hs : ∀ d ∈ s.calls, d.Sound)
    (hc : s.calls[i]? = some c) : ∃ c', s'.calls[i]? = some c' ∧ c.Continues c' := by
  rcases service_step h hs with ⟨policies, rfl, -⟩ | ⟨d, rfl, -⟩ | ⟨j, d, d', hstep⟩
  · exact ⟨c, hc, .refl c⟩
  · exact ⟨c, getElem?_append_of_some hc, .refl c⟩
  · exact hstep.carry hc

theorem sound_step (h : SponsorStep deps s l s') (hs : ∀ d ∈ s.calls, d.Sound) : ∀ d ∈ s'.calls, d.Sound := by
  rcases service_step h hs with ⟨policies, rfl, -⟩ | ⟨c, rfl, hnew⟩ | ⟨i, c, c', hstep⟩
  · exact hs
  · intro d hd
    rcases List.mem_append.mp hd with hd | hd
    · exact hs d hd
    · exact List.mem_singleton.mp hd ▸ hnew.sound
  · rw [hstep.after]
    exact forall_set hs hstep.sound

theorem Books.fresh (h : Books s) {i : Nat} (hc : s.calls[i]? = some c) (hp : c.phase = .recording) :
    ∀ row ∈ s.rows, row.issuedBy ≠ i := by
  rintro row hrow rfl
  obtain ⟨r, hr⟩ := List.getElem?_of_mem hrow
  obtain ⟨d, hd, hissued⟩ := h.issued r row hr
  obtain rfl := Option.some.inj (hc.symm.trans hd)
  have := hissued.recorded
  rw [hp] at this
  cases this

theorem CallStep.issues {i createdAt : Nat} (h : CallStep s l s' i c c') (hs : c.Sound) (hp : c.phase = .recording)
    (hrec : c'.phase.recorded = true) : Issued c' (c.row i createdAt) where
  recorded := hrec
  row := by simp only [SponsorCall.row, h.continues.request, h.continues.caller, h.continues.policyId]
  charged slot := by
    have hbalance := hs.balance slot
    have hkept := hs.kept (.inr (.inl hp)) slot
    have hheld : c.held slot = c.planned slot := by simp [SponsorCall.held, SponsorCall.reservations, hp, SponsorCall.planned]
    have hcharged := h.continues.charged slot
    rw [h.continues.planned (by rw [hp]; simp)]
    omega

theorem books_service_step (h : SponsorStep deps s l s') (hb : Books s) : Books s' := by
  have hsound : ∀ d ∈ s'.calls, d.Sound := sound_step h hb.sound
  rcases service_step h hb.sound with ⟨policies, rfl, -⟩ | ⟨c, rfl, hnew⟩ | ⟨i, c, c', hstep⟩
  · exact ⟨hb.sound, hb.issued, hb.issuers, hb.unissued, hb.positive⟩
  · refine ⟨hsound, fun r row hr => ?_, hb.issuers, fun j d hd hno => ?_, fun d hd => ?_⟩
    · obtain ⟨d, hd, hissued⟩ := hb.issued r row hr
      exact ⟨d, getElem?_append_of_some hd, hissued⟩
    · rcases getElem?_append_cases hd with ⟨-, rfl⟩ | hd
      · simp [hnew.history]
      · exact hb.unissued j d hd hno
    · rcases List.mem_append.mp hd with hd | hd
      · exact hb.positive d hd
      · simp [List.mem_singleton.mp hd, hnew.history]
  · have hissued : ∀ (r : Nat) (row : Sponsorship), s.rows[r]? = some row → ∃ d, s'.calls[row.issuedBy]? = some d ∧ Issued d row := by
      intro r row hr
      obtain ⟨d, hd, hi⟩ := hb.issued r row hr
      obtain ⟨d', hd', hcont⟩ := hstep.carry hd
      exact ⟨d', hd', hi.continues hcont⟩
    have hunissued : ∀ (j : Nat) (d : SponsorCall), s'.calls[j]? = some d → (∀ row ∈ s.rows, row.issuedBy ≠ j) →
        ∀ slot amount, .refunded slot amount ∉ d.history := by
      intro j d hd hno slot amount
      obtain ⟨d₀, hd₀, hcont⟩ := hstep.uncarry hd
      rw [hcont.mem_refunded]
      exact hb.unissued j d₀ hd₀ hno slot amount
    have hpositive : ∀ d ∈ s'.calls, ∀ slot amount, .refunded slot amount ∈ d.history → 0 < amount := by
      intro d hd slot amount hm
      obtain ⟨j, hj⟩ := List.getElem?_of_mem hd
      obtain ⟨d₀, hd₀, hcont⟩ := hstep.uncarry hj
      exact hb.positive d₀ (List.mem_of_getElem? hd₀) slot amount (hcont.mem_refunded.mp hm)
    rcases hstep.rows with hrows | ⟨createdAt, -, hp, hrec, hrows⟩
    · exact ⟨hsound, hrows ▸ hissued, hrows ▸ hb.issuers, hrows ▸ hunissued, hpositive⟩
    · have hfresh := hb.fresh hstep.before hp
      refine ⟨hsound, fun r row hr => ?_, ?_, fun j d hd hno => ?_, hpositive⟩
      · rw [hrows] at hr
        rcases getElem?_append_cases hr with ⟨-, rfl⟩ | hr
        · refine ⟨c', ?_, hstep.issues (hb.sound c (List.mem_of_getElem? hstep.before)) hp hrec⟩
          rw [hstep.after]
          exact getElem?_set_self_of_some hstep.before
        · exact hissued r row hr
      · rw [hrows, List.map_append]
        refine List.nodup_append.mpr ⟨hb.issuers, by simp, fun i' hi' j' hj' => ?_⟩
        obtain ⟨row, hrow, rfl⟩ := List.mem_map.mp hi'
        rw [List.map_singleton, List.mem_singleton] at hj'
        exact hj' ▸ hfresh row hrow
      · exact hunissued j d hd fun row hrow => hno row (hrows ▸ List.mem_append_left _ hrow)

theorem books_reconcile {r : Nat} {row : Sponsorship} (hb : Books s) (hr : s.rows[r]? = some row)
    (event : UserOperationEvent) : Books { s with rows := s.rows.set r (row.reconcile event) } := by
  have hmap : (s.rows.set r (row.reconcile event)).map Sponsorship.issuedBy = s.rows.map Sponsorship.issuedBy := by
    rw [List.map_set]
    refine set_of_getElem? ?_
    rw [List.getElem?_map, hr]
    rfl
  refine ⟨hb.sound, fun r' row' hr' => ?_, by rw [hmap]; exact hb.issuers, fun i c hc hno => ?_, hb.positive⟩
  · rcases getElem?_set_cases hr' with ⟨-, rfl⟩ | ⟨-, hr'⟩
    · obtain ⟨c, hc, hi⟩ := hb.issued r row hr
      exact ⟨c, hc, hi.reconcile event⟩
    · exact hb.issued r' row' hr'
  · refine hb.unissued i c hc fun row' hrow' => ?_
    have hmem : row'.issuedBy ∈ (s.rows.set r (row.reconcile event)).map Sponsorship.issuedBy :=
      hmap ▸ List.mem_map_of_mem hrow'
    obtain ⟨row'', hrow'', he⟩ := List.mem_map.mp hmem
    exact he ▸ hno row'' hrow''

theorem books_refund {r : Nat} {row : Sponsorship} {slot : String} {amount : Nat} (hb : Books s)
    (hr : s.rows[r]? = some row) (hc : s.calls[row.issuedBy]? = some c) (hpos : 0 < amount) (counters : Counters) :
    Books { s with counters := counters, calls := s.calls.set row.issuedBy (c.refund slot amount) } := by
  have hissued : Issued c row := by
    obtain ⟨d, hd, hi⟩ := hb.issued r row hr
    exact Option.some.inj (hc.symm.trans hd) ▸ hi
  refine ⟨forall_set hb.sound ((hb.sound c (List.mem_of_getElem? hc)).refund hissued.recorded slot amount),
    fun r' row' hr' => ?_, hb.issuers, fun i d hd hno => ?_, forall_set hb.positive fun slot' amount' hm => ?_⟩
  · obtain ⟨d, hd, hi⟩ := hb.issued r' row' hr'
    by_cases he : row.issuedBy = row'.issuedBy
    · rw [← he] at hd ⊢
      obtain rfl := Option.some.inj (hc.symm.trans hd)
      exact ⟨_, getElem?_set_self_of_some hc, hi.refund slot amount⟩
    · exact ⟨d, by simp only [List.getElem?_set_ne he]; exact hd, hi⟩
  · rcases getElem?_set_cases hd with ⟨rfl, -⟩ | ⟨-, hd⟩
    · exact absurd rfl (hno row (List.mem_of_getElem? hr))
    · exact hb.unissued i d hd hno
  · rcases List.mem_cons.mp hm with he | hm
    · cases he
      exact hpos
    · exact hb.positive c (List.mem_of_getElem? hc) slot' amount' hm

end

/-! ## Which refunds go back where they came from -/

/-- The spend rules that are loaded at the refund are, up to their limits, among
those of the policy that the call resolved, the row was created in the windows
that the call charged, and no key was made up. -/
def RefundsOwn (c : SponsorCall) (row : Sponsorship) (loaded : Policy) : Prop :=
  (spendRules loaded.rules).Subperm (spendRules c.policy.rules) ∧
  ∀ rule ∈ spendRules loaded.rules,
    windowStart row.reservedAt rule.windowSeconds = windowStart c.now rule.windowSeconds ∧
      (rule.subject = .apiKey → c.caller.apiKeyId.isSome = true)

instance (c : SponsorCall) (row : Sponsorship) (loaded : Policy) : Decidable (RefundsOwn c row loaded) :=
  inferInstanceAs (Decidable (_ ∧ _))

def TickPhase.claim? : TickPhase → Option (UserOperationEvent × Nat)
  | .claimed _ _ event r => some (event, r)
  | _ => none

def RefundsCharged (b : Backend) : BackendLabel → Prop
  | .lookup k => ∀ t ∈ b.ticks[k]?, ∀ claim ∈ t.phase.claim?, ∀ row ∈ b.service.rows[claim.2]?,
      ∀ c ∈ b.service.calls[row.issuedBy]?,
      ∀ policy ∈ (b.service.policies t.replica).get row.tenantId row.policyId,
        ceilDivGwei row.maxCostWei ≤ ceilDivGwei claim.1.actualGasCostWei ∨ RefundsOwn c row policy
  | _ => True

instance (b : Backend) : (l : BackendLabel) → Decidable (RefundsCharged b l)
  | .lookup k => inferInstanceAs (Decidable (∀ t ∈ b.ticks[k]?, _))
  | .sponsor _ | .advance .. | .reconcile .. | .latestBlock .. | .getCheckpoint _ | .fetch _ | .claim .. | .trueUp ..
  | .saveCheckpoint _ | .crash _ => isTrue trivial

section
variable {c : SponsorCall} {row : Sponsorship}

theorem Issued.chainId (h : Issued c row) : row.chainId = c.request.chainId := (congrArg Sponsorship.chainId h.row).symm

theorem Issued.sender (h : Issued c row) : row.sender = c.request.sender := (congrArg Sponsorship.sender h.row).symm

theorem Issued.nonce (h : Issued c row) : row.nonce = c.request.nonce := (congrArg Sponsorship.nonce h.row).symm

theorem Issued.apiKeyId (h : Issued c row) : row.apiKeyId = c.caller.apiKeyId.getD "anonymous" :=
  (congrArg Sponsorship.apiKeyId h.row).symm

theorem Issued.maxCostWei (h : Issued c row) : row.maxCostWei = c.request.maxCost :=
  (congrArg Sponsorship.maxCostWei h.row).symm

theorem Issued.tenantId (h : Issued c row) : row.tenantId = c.caller.tenantId :=
  (congrArg Sponsorship.tenantId h.row).symm

theorem Issued.policyId (h : Issued c row) : row.policyId = c.policyId := (congrArg Sponsorship.policyId h.row).symm

theorem Issued.keyFor (h : Issued c row) {rule : QuotaRule} (hl : rule.locatable = true)
    (hkey : rule.subject = .apiKey → c.caller.apiKeyId.isSome = true) :
    rule.keyFor ⟨row.chainId, row.sender, none, some row.apiKeyId, none⟩ =
      rule.keyFor c.context.toQuotaSubjectFields := by
  have hl' : rule.unit = .wei ∧ rule.subject ≠ .ip ∧ rule.subject ≠ .target := by simpa [QuotaRule.locatable] using hl
  rw [h.chainId, h.sender, h.apiKeyId]
  unfold QuotaRule.keyFor SponsorCall.context
  cases hs : rule.subject with
  | wallet | chain | global => rfl
  | ip => exact absurd hs hl'.2.1
  | target => exact absurd hs hl'.2.2
  | apiKey =>
    obtain ⟨id, hid⟩ := Option.isSome_iff_exists.mp (hkey hs)
    simp only [hid, Option.getD_some]

/-- Per-IP and per-target quotas, and operation counts, are not trued up. -/
theorem locatable_of_trueUpTarget {rule : QuotaRule} {chainId : Nat} {event : UserOperationEvent}
    {target : String × Nat} (h : rule.trueUpTarget (reservationOf chainId event row) = some target) :
    rule.locatable = true := by
  obtain ⟨key, hu, hk, -⟩ := rule.trueUpTarget_cases h
  have hsubject : rule.subject ≠ .ip ∧ rule.subject ≠ .target := by
    constructor <;> intro hs <;> rw [QuotaRule.keyFor, hs] at hk <;> cases hk
  simp [QuotaRule.locatable, hu, hsubject]

/-- A rule gives back to the slot that it counts the call in. -/
theorem refundAt_le {rule : QuotaRule} {chainId : Nat} {event : UserOperationEvent} (h : Issued c row)
    (hchain : row.chainId = chainId) (hsender : row.sender = event.sender)
    (hown : rule.locatable = true →
      windowStart row.reservedAt rule.windowSeconds = windowStart c.now rule.windowSeconds ∧
        (rule.subject = .apiKey → c.caller.apiKeyId.isSome = true)) (slot : String) :
    rule.refundAt (reservationOf chainId event row) slot ≤ if rule.locatable then
      if rule.slotFor c.context = some slot then ceilDivGwei row.maxCostWei - ceilDivGwei event.actualGasCostWei else 0
      else 0 := by
  rcases rule.refundAt_cases (reservationOf chainId event row) slot with h0 | ⟨amount, ht, hamount⟩
  · rw [h0]
    exact Nat.zero_le _
  · have hl := locatable_of_trueUpTarget ht
    obtain ⟨hwindow, hkey⟩ := hown hl
    obtain ⟨key, -, hk, hslot, he, -⟩ := rule.trueUpTarget_cases ht
    have hk' := h.keyFor hl hkey
    rw [hchain, hsender] at hk'
    have hmine : rule.slotFor c.context = some slot := by
      rw [QuotaRule.slotFor, hk'.symm.trans hk, hslot, Option.map_some, windowedKey, windowedKey]
      exact congrArg (fun start => some (key ++ ":" ++ toString rule.windowSeconds ++ ":" ++ toString start)) hwindow.symm
    rw [if_pos hl, if_pos hmine, hamount]
    exact he.le

theorem total_spendRules (rules : List PolicyRule) (f : QuotaRule → Nat) :
    total f (spendRules rules) = total (fun rule => if rule.locatable then f rule.shape else 0) (reservingOf rules) := by
  unfold spendRules
  rw [total_map, total_filter]

/-- A rule that a row locates is one of those that count. -/
theorem share_le_weight (rule : QuotaRule) (slot : String) (excess : Nat) :
    (if rule.locatable then if rule.shape.slotFor c.context = some slot then excess else 0 else 0) ≤
      (if rule.unit = .wei ∧ rule.slotFor c.context = some slot then 1 else 0) * excess := by
  rw [QuotaRule.slotFor_shape]
  cases hl : rule.locatable with
  | false => exact Nat.zero_le _
  | true =>
    by_cases hs : rule.slotFor c.context = some slot
    · rw [if_pos rfl, if_pos hs, if_pos ⟨rule.unit_of_locatable hl, hs⟩, Nat.one_mul]
    · rw [if_pos rfl, if_neg hs]
      exact Nat.zero_le _

/-- Rules among those of the call count the call no more often in a slot. -/
theorem total_share_le {loaded : Policy} (hsub : (spendRules loaded.rules).Subperm (spendRules c.policy.rules))
    (slot : String) (excess : Nat) :
    total (fun rule => if rule.locatable then if rule.slotFor c.context = some slot then excess else 0 else 0)
      (reservingOf loaded.rules) ≤ c.weight slot * excess :=
  calc total (fun rule => if rule.locatable then if rule.slotFor c.context = some slot then excess else 0 else 0)
        (reservingOf loaded.rules)
      = total (fun rule => if rule.slotFor c.context = some slot then excess else 0) (spendRules loaded.rules) :=
        (total_spendRules loaded.rules fun rule => if rule.slotFor c.context = some slot then excess else 0).symm
    _ ≤ total (fun rule => if rule.slotFor c.context = some slot then excess else 0) (spendRules c.policy.rules) :=
        total_subperm hsub
    _ = total (fun rule => if rule.locatable then if rule.shape.slotFor c.context = some slot then excess else 0 else 0)
          (reservingOf c.policy.rules) := total_spendRules c.policy.rules _
    _ ≤ total (fun rule => (if rule.unit = .wei ∧ rule.slotFor c.context = some slot then 1 else 0) * excess)
          (reservingOf c.policy.rules) := total_le_total fun rule _ => share_le_weight rule slot excess
    _ = c.weight slot * excess := total_mul excess

/-- What the loaded policy gives back for a row is within what the call's policy
reserved above the realised cost. -/
theorem refund_le_weight {chainId : Nat} {event : UserOperationEvent} {loaded : Policy} (h : Issued c row)
    (hchain : row.chainId = chainId) (hsender : row.sender = event.sender)
    (hown : ceilDivGwei row.maxCostWei ≤ ceilDivGwei event.actualGasCostWei ∨ RefundsOwn c row loaded) (slot : String) :
    total (fun rule => rule.refundAt (reservationOf chainId event row) slot) (reservingOf loaded.rules) ≤
      c.weight slot * (ceilDivGwei row.maxCostWei - ceilDivGwei event.actualGasCostWei) := by
  rcases hown with hcheap | ⟨hsub, hrules⟩
  · rw [total_eq_zero fun rule _ => QuotaRule.refundAt_eq_zero hcheap]
    exact Nat.zero_le _
  · refine Nat.le_trans (total_le_total fun rule hr => ?_) (total_share_le hsub slot _)
    refine refundAt_le h hchain hsender (fun hl => ?_) slot
    have hmem : rule.shape ∈ spendRules loaded.rules := List.mem_map_of_mem (List.mem_filter.mpr ⟨hr, hl⟩)
    exact hrules rule.shape hmem

end

/-! ## What is still to be given back -/

/-- What a tick has still to give back to a slot for row `r`, which counts
`weight` times in it and reserved `reserved`. -/
def Tick.owed (weight reserved r : Nat) (slot : String) (t : Tick) : Nat :=
  match t.phase with
  | .claimed _ _ event r' => if r' = r then weight * (reserved - ceilDivGwei event.actualGasCostWei) else 0
  | .refunding _ _ r' reservation rules => if r' = r then total (fun rule => rule.refundAt reservation slot) rules else 0
  | _ => 0

def TickPhase.row? : TickPhase → Option Nat
  | .claimed _ _ _ r | .refunding _ _ r _ _ => some r
  | _ => none

/-- For every row, what was given back and what is still to be given back is
within what its call reserved above the realised cost. -/
structure Owes (b : Backend) : Prop where
  books : Books b.service
  claimed : ∀ t ∈ b.ticks, ∀ w events event r, t.phase = .claimed w events event r →
    ∃ row, b.service.rows[r]? = some row ∧ row.chainId = t.chainId ∧ row.sender = event.sender
  known : ∀ t ∈ b.ticks, ∀ r, t.phase.row? = some r → r < b.service.rows.length
  bounded : ∀ (r : Nat) (row : Sponsorship) (c : SponsorCall), b.service.rows[r]? = some row →
    b.service.calls[row.issuedBy]? = some c → ∀ slot,
      c.refunded slot + total (Tick.owed (c.weight slot) (ceilDivGwei row.maxCostWei) r slot) b.ticks ≤
        c.weight slot * row.excess

section
variable {deps : SponsorServiceDeps} {options : SpendReconcilerOptions} {b b' : Backend} {weight reserved r : Nat}
  {slot : String}

theorem Tick.owed_of_row_ne {t : Tick} (h : t.phase.row? ≠ some r) : t.owed weight reserved r slot = 0 := by
  unfold Tick.owed
  cases hp : t.phase with
  | claimed w events event r' =>
    rw [hp] at h
    exact if_neg fun he => h (congrArg some he)
  | refunding w events r' reservation rules =>
    rw [hp] at h
    exact if_neg fun he => h (congrArg some he)
  | reading | measured | fetching | offering | finished => rfl

theorem Tick.owed_of_idle {t : Tick} (h : t.phase.row? = none) : t.owed weight reserved r slot = 0 :=
  t.owed_of_row_ne (by rw [h]; simp)

/-- A tick that goes on refunding owes what the rules that are left give back. -/
theorem Tick.owed_refund (t : Tick) (w : Window) (events : List UserOperationEvent) (r' : Nat)
    (reservation : SpendTrueUp) (rules : List QuotaRule) :
    Tick.owed weight reserved r slot { t with phase := .refund w events r' reservation rules } =
      if r' = r then total (fun rule => rule.refundAt reservation slot) rules else 0 := by
  cases rules with
  | nil => simp [Tick.owed, TickPhase.refund]
  | cons rule rules => rfl

theorem TickPhase.row?_refund {w : Window} {events : List UserOperationEvent} {r' : Nat} {reservation : SpendTrueUp}
    {rules : List QuotaRule} (h : (TickPhase.refund w events r' reservation rules).row? = some r) : r' = r := by
  cases rules <;> cases h
  rfl

theorem SponsorCall.refunded_eq_zero {c : SponsorCall} (h : ∀ slot amount, .refunded slot amount ∉ c.history)
    (slot : String) : c.refunded slot = 0 := by
  refine total_eq_zero fun d hd => ?_
  cases d with
  | refunded s amount => exact absurd hd (h s amount)
  | decided | consumed | released => rfl

theorem Owes.of_tick {k : Nat} {t : Tick} {phase : TickPhase} (h : Owes b) (ht : b.ticks[k]? = some t)
    (hticks : b'.ticks = b.ticks.set k { t with phase := phase }) (hservice : b'.service = b.service)
    (hclaimed : ∀ w events event r, phase ≠ .claimed w events event r)
    (hrow : ∀ r, phase.row? = some r → t.phase.row? = some r)
    (howed : ∀ (r : Nat) (row : Sponsorship) (c : SponsorCall) (slot : String), b.service.rows[r]? = some row →
      b.service.calls[row.issuedBy]? = some c →
      Tick.owed (c.weight slot) (ceilDivGwei row.maxCostWei) r slot { t with phase := phase } ≤
        t.owed (c.weight slot) (ceilDivGwei row.maxCostWei) r slot) : Owes b' where
  books := hservice ▸ h.books
  claimed := by
    rw [hticks, hservice]
    exact forall_set h.claimed fun w events event r hp => absurd hp (hclaimed w events event r)
  known := by
    rw [hticks, hservice]
    exact forall_set h.known fun r hr => h.known t (List.mem_of_getElem? ht) r (hrow r hr)
  bounded r row c hr hc slot := by
    rw [hservice] at hr hc
    have hle := howed r row c slot hr hc
    have htotal := total_set (f := Tick.owed (c.weight slot) (ceilDivGwei row.maxCostWei) r slot)
      (q := { t with phase := phase }) ht
    have hbound := h.bounded r row c hr hc slot
    rw [hticks]
    omega

theorem Owes.of_idle {k : Nat} {t : Tick} {phase : TickPhase} (h : Owes b) (ht : b.ticks[k]? = some t)
    (hticks : b'.ticks = b.ticks.set k { t with phase := phase }) (hservice : b'.service = b.service)
    (hphase : phase.row? = none) : Owes b' := by
  refine h.of_tick ht hticks hservice (fun w events event r hp => ?_) (fun r hr => ?_) fun r row c slot _ _ => ?_
  · rw [hp] at hphase
    cases hphase
  · rw [hphase] at hr
    cases hr
  · rw [Tick.owed_of_idle (t := { t with phase := phase }) hphase]
    exact Nat.zero_le _

theorem owes_service_step {l : SponsorLabel} {s : Service} (h : SponsorStep deps b.service l s) (ho : Owes b) :
    Owes { b with service := s } := by
  -- A row that was there before still belongs to the same call, which got no refund by the step.
  have hold : ∀ (r : Nat) (row : Sponsorship) (c' : SponsorCall), b.service.rows[r]? = some row →
      (∃ c, b.service.calls[row.issuedBy]? = some c ∧ c.Continues c') → ∀ slot,
      c'.refunded slot + total (Tick.owed (c'.weight slot) (ceilDivGwei row.maxCostWei) r slot) b.ticks ≤
        c'.weight slot * row.excess := by
    rintro r row c' hr ⟨c, hc, hcont⟩ slot
    obtain ⟨d, hd, hissued⟩ := ho.books.issued r row hr
    obtain rfl := Option.some.inj (hc.symm.trans hd)
    rw [hcont.refunded, hcont.weight (Phase.ne_admitting hissued.recorded)]
    exact ho.bounded r row c hr hc slot
  have hbooks := books_service_step h ho.books
  rcases service_step h ho.books.sound with ⟨policies, rfl, -⟩ | ⟨c, rfl, -⟩ | ⟨i, c, c', hstep⟩
  · exact ⟨hbooks, ho.claimed, ho.known, ho.bounded⟩
  · refine ⟨hbooks, ho.claimed, ho.known, fun r row d hr hd => hold r row d hr ?_⟩
    obtain ⟨d', hd', -⟩ := ho.books.issued r row hr
    obtain rfl := Option.some.inj ((getElem?_append_of_some hd').symm.trans hd)
    exact ⟨d', hd', .refl d'⟩
  · rcases hstep.rows with hrows | ⟨createdAt, -, hp, -, hrows⟩
    · refine ⟨hbooks, ?_, ?_, fun r row d hr hd => ?_⟩
      · simpa only [hrows] using ho.claimed
      · simpa only [hrows] using ho.known
      · simp only [hrows] at hr
        exact hold r row d hr (hstep.uncarry hd)
    · refine ⟨hbooks, fun t ht w events event r hphase => ?_, fun t ht r hr => ?_, fun r row d hr hd slot => ?_⟩
      · obtain ⟨row, hr, hrow⟩ := ho.claimed t ht w events event r hphase
        exact ⟨row, by simp only [hrows]; exact getElem?_append_of_some hr, hrow⟩
      · simp only [hrows, List.length_append]
        exact Nat.lt_add_right _ (ho.known t ht r hr)
      · simp only [hrows] at hr
        rcases getElem?_append_cases hr with ⟨rfl, rfl⟩ | hr
        · -- The new row is not claimed, and its call has no refunds.
          obtain ⟨d₀, hd₀, hcont⟩ := hstep.uncarry hd
          have hnone := ho.books.unissued i d₀ hd₀ (ho.books.fresh hstep.before hp)
          have hidle : total (Tick.owed (d.weight slot) (ceilDivGwei (c.row i createdAt).maxCostWei)
              b.service.rows.length slot) b.ticks = 0 := by
            refine total_eq_zero fun t ht => t.owed_of_row_ne fun hr' => ?_
            exact absurd (ho.known t ht _ hr') (Nat.lt_irrefl _)
          rw [hcont.refunded, SponsorCall.refunded_eq_zero hnone, hidle]
          exact Nat.zero_le _
        · exact hold r row d hr (hstep.uncarry hd) slot

theorem Sponsorship.excess_reconcile (row : Sponsorship) (event : UserOperationEvent) :
    (row.reconcile event).excess = ceilDivGwei row.maxCostWei - ceilDivGwei event.actualGasCostWei := by
  simp only [Sponsorship.excess, Sponsorship.reconcile]

theorem Sponsorship.maxCostWei_reconcile (row : Sponsorship) (event : UserOperationEvent) :
    (row.reconcile event).maxCostWei = row.maxCostWei := rfl

theorem Tick.owed_claimed (t : Tick) (w : Window) (event : UserOperationEvent) (events : List UserOperationEvent) (r : Nat) :
    Tick.owed weight reserved r slot { t with phase := .claimed w events event r } =
      weight * (reserved - ceilDivGwei event.actualGasCostWei) := if_pos rfl

/-- A claim: what is now owed for the row is what it reserved above the realised cost. -/
theorem owes_claim {k : Nat} {t : Tick} {w : Window} {event : UserOperationEvent} {events : List UserOperationEvent}
    {locked : List Nat} {row : Sponsorship} (ho : Owes b) (ht : b.ticks[k]? = some t)
    (hp : t.phase = .offering w (event :: events)) (hr : b.service.rows[r]? = some row)
    (hc : Chosen b.service.rows locked t.chainId event.sender event.nonce (some r)) :
    Owes (b.claim k t w event events (some r)) := by
  obtain ⟨row', hr', hmatch, -⟩ := mem_candidates.mp hc.1
  obtain rfl := Option.some.inj (hr.symm.trans hr')
  have hm : row.chainId = t.chainId ∧ row.sender = event.sender ∧ row.nonce = event.nonce ∧ row.reconciled = none := by
    simpa [Sponsorship.matches] using hmatch
  obtain ⟨hchain, hsender, -, hfree⟩ := hm
  have hidle : ∀ weight reserved r' slot, t.owed weight reserved r' slot = 0 := fun _ _ _ _ =>
    t.owed_of_idle (by rw [hp]; rfl)
  simp only [Backend.claim, hr]
  refine ⟨books_reconcile ho.books hr event, forall_set (fun t' ht' w' events' event' r' hp' => ?_) ?_,
    forall_set (fun t' ht' r' hr' => ?_) ?_, fun r' row' c hr' hc' slot => ?_⟩
  · obtain ⟨row', hr', hrow'⟩ := ho.claimed t' ht' w' events' event' r' hp'
    by_cases he : r = r'
    · subst he
      obtain rfl := Option.some.inj (hr.symm.trans hr')
      exact ⟨_, getElem?_set_self_of_some hr, hrow'⟩
    · exact ⟨row', by simp only [List.getElem?_set_ne he]; exact hr', hrow'⟩
  · rintro w' events' event' r' hp'
    cases hp'
    exact ⟨_, getElem?_set_self_of_some hr, hchain, hsender⟩
  · simp only [List.length_set]
    exact ho.known t' ht' r' hr'
  · rintro r' hr'
    cases hr'
    simp only [List.length_set]
    exact lt_of_getElem? hr
  · rcases getElem?_set_cases hr' with ⟨rfl, rfl⟩ | ⟨hne, hr'⟩
    · have htotal := total_set (f := Tick.owed (c.weight slot) (ceilDivGwei row.maxCostWei) r' slot)
        (q := { t with phase := .claimed w events event r' }) ht
      have hbound := ho.bounded r' row c hr hc' slot
      have hexcess : row.excess = 0 := by simp only [Sponsorship.excess, hfree]
      rw [hidle, t.owed_claimed w event events r'] at htotal
      rw [hexcess, Nat.mul_zero] at hbound
      rw [row.excess_reconcile event, row.maxCostWei_reconcile event]
      generalize c.weight slot * (ceilDivGwei row.maxCostWei - ceilDivGwei event.actualGasCostWei) = bound at htotal ⊢
      simp only [Backend.setTick]
      omega
    · have htotal := total_set (f := Tick.owed (c.weight slot) (ceilDivGwei row'.maxCostWei) r' slot)
        (q := { t with phase := .claimed w events event r }) ht
      have howed : Tick.owed (c.weight slot) (ceilDivGwei row'.maxCostWei) r' slot
          { t with phase := .claimed w events event r } = 0 :=
        Tick.owed_of_row_ne (t := { t with phase := .claimed w events event r })
          (by simp [TickPhase.row?, Ne.symm hne])
      rw [hidle, howed] at htotal
      have hbound := ho.bounded r' row' c hr' hc' slot
      simp only [Backend.setTick]
      omega

/-- The lookup of a policy that gives back what the call took. -/
theorem owes_lookup {k : Nat} {t : Tick} {w : Window} {event : UserOperationEvent} {events : List UserOperationEvent}
    {row : Sponsorship} {policy : Policy} (ho : Owes b) (ht : b.ticks[k]? = some t)
    (hp : t.phase = .claimed w events event r) (hr : b.service.rows[r]? = some row)
    (hown : ∀ c, b.service.calls[row.issuedBy]? = some c →
      ceilDivGwei row.maxCostWei ≤ ceilDivGwei event.actualGasCostWei ∨ RefundsOwn c row policy) :
    Owes (b.setTick k t (.refund w events r (reservationOf t.chainId event row) (reservingOf policy.rules))) := by
  refine ho.of_tick ht rfl rfl (fun w' events' event' r' h => ?_) (fun r' h => ?_) fun r' row' c slot hr' hc => ?_
  · cases hq : reservingOf policy.rules <;> rw [hq] at h <;> cases h
  · rw [hp, ← TickPhase.row?_refund h]
    rfl
  · rw [Tick.owed_refund]
    by_cases he : r = r'
    · subst he
      obtain rfl := Option.some.inj (hr.symm.trans hr')
      obtain ⟨row', hrow', hchain, hsender⟩ := ho.claimed t (List.mem_of_getElem? ht) w events event r hp
      obtain rfl := Option.some.inj (hr.symm.trans hrow')
      obtain ⟨d, hd, hissued⟩ := ho.books.issued r row hr
      obtain rfl := Option.some.inj (hc.symm.trans hd)
      have hle := refund_le_weight hissued hchain hsender (hown c hc) slot
      have howed : t.owed (c.weight slot) (ceilDivGwei row.maxCostWei) r slot =
          c.weight slot * (ceilDivGwei row.maxCostWei - ceilDivGwei event.actualGasCostWei) := by
        have htick : t = { t with phase := .claimed w events event r } := by rw [← hp]
        rw [htick]
        exact t.owed_claimed w event events r
      rw [if_pos rfl, howed]
      exact hle
    · rw [if_neg he]
      exact Nat.zero_le _

theorem noteRefund_some {s : Service} {row : Sponsorship} {c : SponsorCall} (hc : s.calls[row.issuedBy]? = some c)
    (slot : String) (amount : Nat) :
    Backend.noteRefund s row (some (slot, amount)) = s.calls.set row.issuedBy (c.refund slot amount) := by
  simp only [Backend.noteRefund, hc, SponsorCall.refund]

theorem SponsorCall.refunded_refund (c : SponsorCall) (s slot : String) (amount : Nat) :
    (c.refund s amount).refunded slot = (if s = slot then amount else 0) + c.refunded slot := by
  simp only [SponsorCall.refunded, SponsorCall.refund, total_cons, Deed.refundAt]

theorem SponsorCall.weight_refund (c : SponsorCall) (s slot : String) (amount : Nat) :
    (c.refund s amount).weight slot = c.weight slot := rfl

theorem owes_trueUp {k : Nat} {t : Tick} {w : Window} {events : List UserOperationEvent} {row : Sponsorship}
    {reservation : SpendTrueUp} {rule : QuotaRule} {rules : List QuotaRule} (stored : Bool) (ho : Owes b)
    (ht : b.ticks[k]? = some t) (hp : t.phase = .refunding w events r reservation (rule :: rules))
    (hr : b.service.rows[r]? = some row) : Owes (b.trueUp k t w events r row reservation rule rules stored) := by
  have hrow : ∀ r', (TickPhase.refund w events r reservation rules).row? = some r' → t.phase.row? = some r' := by
    intro r' h
    rw [hp, ← TickPhase.row?_refund h]
    rfl
  have hnot : ∀ w' events' event' r', TickPhase.refund w events r reservation rules ≠ .claimed w' events' event' r' := by
    intro w' events' event' r' h
    cases rules <;> cases h
  have hbefore : ∀ weight reserved r' slot, t.owed weight reserved r' slot =
      if r = r' then rule.refundAt reservation slot + total (fun rule => rule.refundAt reservation slot) rules else 0 := by
    intro weight reserved r' slot
    simp only [Tick.owed, hp, total_cons]
  have hquiet : Owes (b.setTick k t (.refund w events r reservation rules)) := by
    refine ho.of_tick ht rfl rfl hnot hrow fun r' row' c slot _ _ => ?_
    rw [Tick.owed_refund, hbefore]
    split
    · exact Nat.le_add_left ..
    · exact Nat.le_refl 0
  unfold Backend.trueUp
  cases stored with
  | false => exact hquiet
  | true =>
    cases hn : rule.trueUpTarget reservation with
    | none =>
      have hcounters : rule.trueUp b.service.counters reservation = b.service.counters := by
        simp only [QuotaRule.trueUp, hn]
      simp only [ite_true, hcounters, Backend.noteRefund]
      exact hquiet
    | some target =>
      obtain ⟨s, amount⟩ := target
      obtain ⟨c, hc, hissued⟩ := ho.books.issued r row hr
      obtain ⟨-, -, -, -, -, hpos⟩ := rule.trueUpTarget_cases hn
      have hrefund : ∀ slot, rule.refundAt reservation slot = if s = slot then amount else 0 := by
        intro slot
        simp only [QuotaRule.refundAt, hn]
      simp only [ite_true, noteRefund_some hc]
      refine ⟨books_refund ho.books hr hc hpos _, hquiet.claimed, hquiet.known, fun r' row' c' hr' hc' slot => ?_⟩
      have htotal := total_set (f := Tick.owed (c'.weight slot) (ceilDivGwei row'.maxCostWei) r' slot)
        (q := { t with phase := .refund w events r reservation rules }) ht
      rw [Tick.owed_refund, hbefore, hrefund] at htotal
      simp only [Backend.setTick]
      by_cases he : r = r'
      · subst he
        obtain rfl := Option.some.inj (hr.symm.trans hr')
        obtain rfl := Option.some.inj ((getElem?_set_self_of_some hc).symm.trans hc')
        have hbound := ho.bounded r row c hr hc slot
        rw [if_pos rfl, if_pos rfl, SponsorCall.weight_refund] at htotal
        rw [SponsorCall.refunded_refund, SponsorCall.weight_refund]
        omega
      · have hne : row.issuedBy ≠ row'.issuedBy := fun hi => he (ho.books.unique hr hr' hi)
        rw [List.getElem?_set_ne hne] at hc'
        have hbound := ho.bounded r' row' c' hr' hc' slot
        rw [if_neg he, if_neg he] at htotal
        omega

theorem owes_step {l : BackendLabel} (h : BackendStep deps options b l b') (ho : Owes b) (hl : RefundsCharged b l) :
    Owes b' := by
  cases h with
  | sponsor hs => exact owes_service_step hs ho
  | advance hg => exact ⟨ho.books, ho.claimed, ho.known, ho.bounded⟩
  | reconcile replica chainId =>
    have hidle : ∀ weight reserved r slot,
        Tick.owed weight reserved r slot ⟨replica, chainId, .reading⟩ = 0 := fun _ _ _ _ => rfl
    refine ⟨ho.books, fun t ht => ?_, fun t ht => ?_, fun r row c hr hc slot => ?_⟩
    · rcases List.mem_append.mp ht with ht | ht
      · exact ho.claimed t ht
      · simp [List.mem_singleton.mp ht]
    · rcases List.mem_append.mp ht with ht | ht
      · exact ho.known t ht
      · simp [List.mem_singleton.mp ht, TickPhase.row?]
    · rw [total_concat_of_zero (hidle _ _ r slot)]
      exact ho.bounded r row c hr hc slot
  | measured ht => exact ho.of_idle ht rfl rfl rfl
  | fetching ht => exact ho.of_idle ht rfl rfl rfl
  | fetched ht => exact ho.of_idle ht rfl rfl rfl
  | unclaimed ht => exact ho.of_idle ht rfl rfl rfl
  | claimed ht hp hr hc => exact owes_claim ho ht hp hr hc
  | skipped ht => exact ho.of_idle ht rfl rfl rfl
  | lookup ht hp hr hpol =>
    refine owes_lookup ho ht hp hr fun c hc => ?_
    exact hl _ ht _ (by rw [hp]; rfl) _ hr c hc _ hpol
  | trueUp stored ht hp hr => exact owes_trueUp stored ho ht hp hr
  | saved ht => exact ho.of_idle ht rfl rfl rfl
  | finished _ ht => exact ho.of_idle ht rfl rfl rfl

theorem owes_start (policies : Nat → PolicySource) (counters : Counters) : Owes (.start policies counters) := by
  refine ⟨⟨?_, ?_, ?_, ?_, ?_⟩, ?_, ?_, ?_⟩ <;> simp [Backend.start, Service.start]

/-- What the call of a row got back is within what its policy has it charge. -/
theorem Owes.refunded_le_planned (h : Owes b) {row : Sponsorship} {c : SponsorCall} (hr : b.service.rows[r]? = some row)
    (hc : b.service.calls[row.issuedBy]? = some c) (slot : String) : c.refunded slot ≤ c.planned slot := by
  obtain ⟨d, hd, hissued⟩ := h.books.issued r row hr
  obtain rfl := Option.some.inj (hc.symm.trans hd)
  have hexcess : row.excess ≤ ceilDivGwei c.request.maxCost := by
    rw [← hissued.maxCostWei]
    unfold Sponsorship.excess
    split
    · exact Nat.zero_le _
    · exact Nat.sub_le ..
  calc c.refunded slot
      ≤ c.weight slot * row.excess := Nat.le_trans (Nat.le_add_right ..) (h.bounded r row c hr hc slot)
    _ ≤ c.weight slot * ceilDivGwei c.request.maxCost := Nat.mul_le_mul_left _ hexcess
    _ ≤ c.planned slot := weight_le_planned

/-- What a call got back is within what it charged. -/
theorem Owes.refunded_le_charged (h : Owes b) {c : SponsorCall} (hc : c ∈ b.service.calls) (slot : String) :
    c.refunded slot ≤ c.charged slot := by
  obtain ⟨i, hi⟩ := List.getElem?_of_mem hc
  by_cases hrow : ∃ row ∈ b.service.rows, row.issuedBy = i
  · obtain ⟨row, hrow, rfl⟩ := hrow
    obtain ⟨r, hr⟩ := List.getElem?_of_mem hrow
    obtain ⟨d, hd, hissued⟩ := h.books.issued r row hr
    obtain rfl := Option.some.inj (hi.symm.trans hd)
    exact Nat.le_trans (h.refunded_le_planned hr hi slot) (hissued.charged slot)
  · have hnone := h.books.unissued i c hi fun row hr he => hrow ⟨row, hr, he⟩
    rw [SponsorCall.refunded_eq_zero hnone]
    exact Nat.zero_le _

theorem refund_le_refunded {c : SponsorCall} {amount : Nat} (h : .refunded slot amount ∈ c.history) :
    amount ≤ c.refunded slot := by
  obtain ⟨i, hi⟩ := List.getElem?_of_mem h
  exact Nat.le_trans (if_pos rfl).ge (le_total (f := Deed.refundAt slot) hi)

theorem consumed_of_charged {c : SponsorCall} (h : 0 < c.charged slot) :
    ∃ amount limit, .consumed slot amount limit ∈ c.history := by
  by_contra hno
  refine absurd (total_eq_zero fun d hd => ?_) (Nat.ne_of_gt h)
  cases d with
  | consumed s amount limit =>
    refine if_neg ?_
    rintro rfl
    exact hno ⟨amount, limit, hd⟩
  | decided | released | refunded => rfl

/-- **Refunds.** In every run of the backend in which, wherever a refund is due,
the policy that is loaded then gives back what the call took: a call is refunded
no more in a slot than it charged there, and only in slots it consumed from. -/
theorem refunds_within_charges {policies : Nat → PolicySource} {counters : Counters} {ls : List BackendLabel}
    (hmeets : Runs.Meets (Backend.step deps options) RefundsCharged (.start policies counters) ls)
    (h : Runs.run (Backend.step deps options) (.start policies counters) ls = some b) :
    ∀ c ∈ b.service.calls, ∀ slot, c.refunded slot ≤ c.charged slot ∧
      ∀ amount, .refunded slot amount ∈ c.history → ∃ taken limit, .consumed slot taken limit ∈ c.history := by
  have ho : Owes b := Runs.invariant_of_meets (P := Owes)
    (fun ho hl hstep => owes_step (backendStep_cases hstep) ho hl) (owes_start policies counters) hmeets h
  intro c hc slot
  have hle := ho.refunded_le_charged hc slot
  refine ⟨hle, fun amount hm => @consumed_of_charged slot _ ?_⟩
  have hpos := ho.books.positive c hc slot amount hm
  exact Nat.lt_of_lt_of_le hpos (Nat.le_trans (refund_le_refunded hm) hle)

end

/-! ## A rule that came later -/

def reconcileOptions : SpendReconcilerOptions := ⟨2, 100, 100, by decide⟩

def sponsored (i : Nat) (nonce : Uint256) (maxCost now createdAt evaluations : Nat) : List BackendLabel :=
  let ls : List SponsorLabel := [.sponsor 0 (sampleRequest nonce maxCost) sampleCaller, .enter i none none now] ++
    List.replicate evaluations (.evaluate i (.decided .allow)) ++ [.attest i true, .record i (.inserted createdAt)]
  ls.map .sponsor

def reconciled (k r : Nat) : List BackendLabel :=
  [.reconcile 0 1, .latestBlock k 10, .getCheckpoint k, .fetch k, .claim k [] (some r), .lookup k,
    .trueUp k true, .trueUp k true, .saveCheckpoint k]

def settledRun : List BackendLabel :=
  sponsored 0 0 3000000000 1700000000 1700000000000000 3 ++
    [.advance 1 10 [⟨1, 3, 4, 0, 1000000000, true, 0⟩]] ++ reconciled 0 0

def dailySlot : String := windowedKey "quota:daily:key" 86400 1700000000

theorem refunds_within_charges_settledRun :
    ∃ b, Runs.run (Backend.step sampleDeps reconcileOptions) (.start (fun _ => sampleSource 5000000000) fun _ => none)
        settledRun = some b ∧
      (b.service.calls[0]?).map (fun c => (c.refunded dailySlot, c.charged dailySlot)) = some (2, 3) ∧
      ∀ c ∈ b.service.calls, ∀ slot, c.refunded slot ≤ c.charged slot := by
  have hrun : (Runs.run (Backend.step sampleDeps reconcileOptions)
      (.start (fun _ => sampleSource 5000000000) fun _ => none) settledRun).map (fun b =>
        (b.service.calls[0]?).map (fun c => (c.refunded dailySlot, c.charged dailySlot))) = some (some (2, 3)) := by
    decide +kernel
  have hmeets : Runs.Meets (Backend.step sampleDeps reconcileOptions) RefundsCharged
      (.start (fun _ => sampleSource 5000000000) fun _ => none) settledRun := by
    decide +kernel
  obtain ⟨b, hb, he⟩ := Option.map_eq_some_iff.mp hrun
  exact ⟨b, hb, he, fun c hc slot => (refunds_within_charges hmeets hb c hc slot).1⟩

def checkOnlySource : PolicySource := ⟨[⟨"default", "standard", [.check "sender-allowlist" .pure]⟩], by simp⟩

def lateRuleRun : List BackendLabel :=
  sponsored 0 0 3000000000 1700000000 1700000000000000 1 ++
    [.sponsor (.reload 0 (sampleSource 5000000000).policies)] ++
    sponsored 1 1 3000000000 1700000000 1700000000000000 3 ++
    [.advance 1 10 [⟨1, 3, 4, 0, 1000000000, true, 0⟩]] ++ reconciled 0 0

/-- The first call is refunded from the counter that only the second charged,
which is left with 1 gwei of the 3 reserved. -/
theorem lateRuleRun_refunds_uncharged :
    (Runs.run (Backend.step sampleDeps reconcileOptions) (.start (fun _ => checkOnlySource) fun _ => none)
      lateRuleRun).map (fun b => (b.service.calls.map fun c => (c.refunded dailySlot, c.charged dailySlot),
        b.service.counters.at dailySlot)) = some ([(2, 0), (0, 3)], 1) ∧
    ¬ ∀ b, Runs.run (Backend.step sampleDeps reconcileOptions) (.start (fun _ => checkOnlySource) fun _ => none)
        lateRuleRun = some b →
      ∀ c ∈ b.service.calls, ∀ slot, c.refunded slot ≤ c.charged slot := by
  have hrun : (Runs.run (Backend.step sampleDeps reconcileOptions) (.start (fun _ => checkOnlySource) fun _ => none)
      lateRuleRun).map (fun b => (b.service.calls.map fun c => (c.refunded dailySlot, c.charged dailySlot),
        b.service.counters.at dailySlot)) = some ([(2, 0), (0, 3)], 1) := by
    decide +kernel
  refine ⟨hrun, fun hall => ?_⟩
  obtain ⟨b, hb, he⟩ := Option.map_eq_some_iff.mp hrun
  have hcalls := (Prod.mk.inj he).1
  have hmem : (2, 0) ∈ b.service.calls.map fun c => (c.refunded dailySlot, c.charged dailySlot) := by
    rw [hcalls]
    exact List.mem_cons_self
  obtain ⟨c, hc, heq⟩ := List.mem_map.mp hmem
  have hle := hall b hb c hc dailySlot
  rw [(Prod.mk.inj heq).1, (Prod.mk.inj heq).2] at hle
  omega

end Paymaster
