import Paymaster.Backend.Subscriptions

/-!
# Concurrent payments

While a transaction holds the row of a subscription, nobody else moves it, so
what it found is still there when it commits. A transaction that found no row
holds nothing: another may commit in between, and is overwritten. Apart from
that, payments are explained by the order in which they commit.
-/

namespace Paymaster

open Function

namespace BillingTables

variable {tables : BillingTables} {payment : SubscriptionPayment} {request : RecordPaymentRequest} {tenantId : String}

theorem paidThrough_publish :
    (tables.publish payment).paidThrough payment.request.tenantId = some payment.extendedTo := by
  simp only [paidThrough, publish, update_self, Option.map_some]

theorem paidThrough_publish_of_ne (h : tenantId ≠ payment.request.tenantId) :
    (tables.publish payment).paidThrough tenantId = tables.paidThrough tenantId := by
  simp only [paidThrough, publish, update_of_ne h]

theorem paymentsOf_publish :
    (tables.publish payment).paymentsOf payment.request.tenantId = tables.paymentsOf payment.request.tenantId ++ [payment] := by
  unfold paymentsOf publish
  rw [List.filter_append, List.filter_singleton]
  simp

theorem paymentsOf_publish_of_ne (h : tenantId ≠ payment.request.tenantId) :
    (tables.publish payment).paymentsOf tenantId = tables.paymentsOf tenantId := by
  unfold paymentsOf publish
  rw [List.filter_append, List.filter_singleton]
  simp [h.symm]

/-- A payment that starts where the subscription ends, or later, keeps what has been paid for. -/
theorem honoured_record (h : ∀ tenantId, tables.Honoured tenantId) :
    ∀ tenantId, (tables.record request).Honoured tenantId := by
  intro tenantId
  by_cases hne : tenantId = request.tenantId
  · subst hne
    have hpayments : (tables.record request).paymentsOf request.tenantId =
        tables.paymentsOf request.tenantId ++ [request.payment (tables.paidThrough request.tenantId)] :=
      paymentsOf_publish
    have hpaid : (tables.record request).paidThrough request.tenantId =
        some (request.payment (tables.paidThrough request.tenantId)).extendedTo := paidThrough_publish
    have hends : ∀ p ∈ tables.paymentsOf request.tenantId,
        p.extendedTo ≤ (request.payment (tables.paidThrough request.tenantId)).extendedFrom := by
      intro p hp
      cases hfound : tables.paidThrough request.tenantId with
      | none =>
        rw [(h request.tenantId).unpaid hfound] at hp
        cases hp
      | some paidThrough =>
        exact (((h request.tenantId).paid paidThrough hfound).2 p hp).trans (le_max_right _ _)
    refine ⟨?_, ?_, ?_, ?_⟩
    · rw [hpayments]
      intro p hp
      rcases List.mem_append.mp hp with hold | hnew
      · exact (h request.tenantId).lengths p hold
      · rw [List.mem_singleton.mp hnew]
        rfl
    · rw [hpayments, List.pairwise_append]
      refine ⟨(h request.tenantId).disjoint, List.pairwise_singleton _ _, ?_⟩
      intro p hp q hq
      rw [List.mem_singleton.mp hq]
      exact .inl (hends p hp)
    · intro paidThrough hpaidThrough
      rw [hpaid] at hpaidThrough
      obtain rfl := Option.some.inj hpaidThrough
      rw [hpayments]
      refine ⟨⟨_, List.mem_append_right _ (List.mem_singleton_self _), rfl⟩, fun p hp => ?_⟩
      rcases List.mem_append.mp hp with hold | hnew
      · exact (hends p hold).trans (Nat.le_add_right _ _)
      · rw [List.mem_singleton.mp hnew]
    · intro hnone
      rw [hpaid] at hnone
      cases hnone
  · have hpayments : (tables.record request).paymentsOf tenantId = tables.paymentsOf tenantId :=
      paymentsOf_publish_of_ne hne
    have hpaid : (tables.record request).paidThrough tenantId = tables.paidThrough tenantId :=
      paidThrough_publish_of_ne hne
    obtain ⟨hlengths, hdisjoint, hsome, hnone⟩ := h tenantId
    refine ⟨?_, ?_, ?_, ?_⟩
    · rwa [hpayments]
    · rwa [hpayments]
    · rwa [hpayments, hpaid]
    · rwa [hpayments, hpaid]

end BillingTables

def PaymentTransaction.found (t : PaymentTransaction) : Option Nat :=
  match t.phase with
  | .selected paidThrough | .inserted paidThrough | .upserted paidThrough => paidThrough
  | _ => none

theorem locksRow_of_found {t : PaymentTransaction} {paidThrough : Nat} (h : t.found = some paidThrough) :
    t.locksRow = true := by
  unfold PaymentTransaction.found at h
  unfold PaymentTransaction.locksRow
  cases hphase : t.phase with
  | selected found =>
    simp only [hphase] at h
    rw [h]
    rfl
  | inserted found =>
    simp only [hphase] at h
    rw [h]
    rfl
  | upserted found => rfl
  | _ =>
    rw [hphase] at h
    cases h

namespace Billing

/-- The invariant: no two transactions hold one row, and what was found is still there. -/
structure Isolated (s : Billing) : Prop where
  exclusive : ∀ (i j : Nat) (t u : PaymentTransaction), i ≠ j → s.transactions[i]? = some t →
    s.transactions[j]? = some u → t.request.tenantId = u.request.tenantId → t.locksRow = true → u.locksRow = false
  current : ∀ t ∈ s.transactions, ∀ paidThrough, t.found = some paidThrough →
    s.tables.paidThrough t.request.tenantId = some paidThrough

/-- A transaction that found no row does not commit once another payment has
extended the subscription past the time of its own request. -/
def keepsExtension (s : Billing) : BillingLabel → Bool
  | .commit i =>
    match s.transactions[i]? with
    | some ⟨request, .upserted none⟩ => (s.tables.paidThrough request.tenantId).all (· ≤ request.now)
    | _ => true
  | _ => true

end Billing

section
variable {s s' : Billing} {i : Nat} {t u : PaymentTransaction} {request : RecordPaymentRequest}

open Billing

theorem rowFree_iff {tenantId : String} : s.rowFree i tenantId = true ↔
    ∀ j u, j ≠ i → s.transactions[j]? = some u → u.request.tenantId = tenantId → u.locksRow = false := by
  unfold rowFree
  rw [List.all_eq_true]
  constructor
  · intro h j u hne hj htenant
    have hfree := h u (List.mem_eraseIdx_iff_getElem?.mpr ⟨j, hne, hj⟩)
    simpa [htenant] using hfree
  · intro h u hu
    obtain ⟨j, hne, hj⟩ := List.mem_eraseIdx_iff_getElem?.mp hu
    by_cases htenant : u.request.tenantId = tenantId
    · simp [h j u hne hj htenant]
    · simp [htenant]

theorem isolated_set (hs : s.Isolated) (hi : s.transactions[i]? = some t)
    (htenant : u.request.tenantId = t.request.tenantId)
    (hlock : u.locksRow = true → t.locksRow = true ∨ s.rowFree i t.request.tenantId = true)
    (hfound : ∀ paidThrough, u.found = some paidThrough → s.tables.paidThrough t.request.tenantId = some paidThrough) :
    ({ s with transactions := s.transactions.set i u } : Billing).Isolated := by
  have hself : (s.transactions.set i u)[i]? = some u := List.getElem?_set_self (List.getElem?_eq_some_iff.mp hi).1
  have hother : ∀ j, j ≠ i → (s.transactions.set i u)[j]? = s.transactions[j]? :=
    fun j hne => List.getElem?_set_ne hne.symm
  have hapart : ∀ (j : Nat) (v : PaymentTransaction), j ≠ i → s.transactions[j]? = some v →
      v.request.tenantId = t.request.tenantId → u.locksRow = true → v.locksRow = false := by
    intro j v hne hj hsame hlocks
    rcases hlock hlocks with hheld | hfree
    · exact hs.exclusive i j t v hne.symm hi hj hsame.symm hheld
    · exact rowFree_iff.mp hfree j v hne hj hsame
  refine ⟨?_, ?_⟩
  · intro j k v w hne hj hk hsame hlocks
    by_cases hji : j = i
    · subst hji
      obtain rfl := Option.some.inj (hself.symm.trans hj)
      rw [hother k hne.symm] at hk
      exact hapart k w hne.symm hk (hsame.symm.trans htenant) hlocks
    · rw [hother j hji] at hj
      by_cases hki : k = i
      · subst hki
        obtain rfl := Option.some.inj (hself.symm.trans hk)
        cases hu : u.locksRow with
        | false => rfl
        | true =>
          rw [hapart j v hji hj (hsame.trans htenant) hu] at hlocks
          cases hlocks
      · rw [hother k hki] at hk
        exact hs.exclusive j k v w hne hj hk hsame hlocks
  · intro v hv paidThrough hvfound
    rcases List.mem_or_eq_of_mem_set hv with hold | rfl
    · exact hs.current v hold paidThrough hvfound
    · rw [htenant]
      exact hfound paidThrough hvfound

theorem isolated_append (hs : s.Isolated) (hlock : u.locksRow = false) (hfound : u.found = none) :
    ({ s with transactions := s.transactions ++ [u] } : Billing).Isolated := by
  refine ⟨?_, ?_⟩
  · intro j k v w hne hj hk hsame hlocks
    rcases Pool.getElem?_append_cases hj with ⟨-, rfl⟩ | hj
    · rw [hlock] at hlocks
      cases hlocks
    · rcases Pool.getElem?_append_cases hk with ⟨-, rfl⟩ | hk
      · exact hlock
      · exact hs.exclusive j k v w hne hj hk hsame hlocks
  · intro v hv paidThrough hvfound
    rcases List.mem_append.mp hv with hold | hnew
    · exact hs.current v hold paidThrough hvfound
    · rw [List.mem_singleton.mp hnew, hfound] at hvfound
      cases hvfound

theorem isolated_commit (hs : s.Isolated) {paidThrough : Option Nat}
    (hi : s.transactions[i]? = some ⟨request, .upserted paidThrough⟩) : (s.commit i request paidThrough).Isolated := by
  have hset : (s.setPhase i request .committed).Isolated :=
    isolated_set hs hi rfl (fun h => by cases h) (fun _ h => by cases h)
  refine ⟨hset.exclusive, ?_⟩
  intro v hv found hvfound
  have hbefore := hset.current v hv found hvfound
  by_cases hsame : v.request.tenantId = request.tenantId
  · obtain ⟨j, hj⟩ := List.mem_iff_getElem?.mp hv
    have hself := Pool.getElem?_set_self_of_some (q := ⟨request, .committed⟩) hi
    by_cases hji : j = i
    · subst hji
      obtain rfl := Option.some.inj (hself.symm.trans hj)
      cases hvfound
    · have hold : s.transactions[j]? = some v := (List.getElem?_set_ne (Ne.symm hji)).symm.trans hj
      have hunlocked := hs.exclusive i j _ v (Ne.symm hji) hi hold hsame.symm rfl
      rw [locksRow_of_found hvfound] at hunlocked
      cases hunlocked
  · exact (BillingTables.paidThrough_publish_of_ne hsame).trans hbefore

theorem isolated_step (hs : s.Isolated) {l : BillingLabel} (h : BillingStep s l s') : s'.Isolated := by
  cases h with
  | begin request => exact isolated_append hs rfl rfl
  | selectNone hi hnone => exact isolated_set hs hi rfl (fun h => by cases h) (fun _ h => by cases h)
  | select hi hsome hfree =>
    refine isolated_set hs hi rfl (fun _ => .inr hfree) ?_
    rintro paidThrough ⟨⟩
    exact hsome
  | insert hi haccepted hnew hkey =>
    exact isolated_set hs hi rfl .inl fun paidThrough hfound => hs.current _ (List.mem_of_getElem? hi) paidThrough hfound
  | upsert hi hfree =>
    exact isolated_set hs hi rfl (fun _ => .inr hfree) fun paidThrough hfound =>
      hs.current _ (List.mem_of_getElem? hi) paidThrough hfound
  | commit hi => exact isolated_commit hs hi
  | rollback hi hphase => exact isolated_set hs hi rfl (fun h => by cases h) (fun _ h => by cases h)

/-- The step is explained: only a commit changes the tables, and it does what
the payment would do now. -/
theorem explains_step {start : BillingTables} {l : BillingLabel} (hs : s.Isolated) (hl : s.keepsExtension l = true)
    (hexplained : Serial.Explains BillingTables.record start s.committed s.tables) (h : BillingStep s l s') :
    Serial.Explains BillingTables.record start s'.committed s'.tables := by
  cases h with
  | begin request =>
    refine Serial.explains_perm hexplained ?_
    show List.Perm _ (List.filterMap _ (_ ++ [_]))
    rw [List.filterMap_append]
    exact List.Perm.of_eq (List.append_nil _).symm
  | selectNone hi hnone => exact Serial.explains_perm hexplained (Serial.done_same hi rfl)
  | select hi hsome hfree => exact Serial.explains_perm hexplained (Serial.done_same hi rfl)
  | insert hi haccepted hnew hkey => exact Serial.explains_perm hexplained (Serial.done_same hi rfl)
  | upsert hi hfree => exact Serial.explains_perm hexplained (Serial.done_same hi rfl)
  | rollback hi hphase =>
    refine Serial.explains_perm hexplained (Serial.done_same hi ?_)
    unfold PaymentTransaction.committed
    split
    · contradiction
    · rfl
  | commit hi =>
    rename_i i request paidThrough
    have hpayment : request.payment paidThrough = request.payment (s.tables.paidThrough request.tenantId) := by
      cases paidThrough with
      | some found => rw [hs.current _ (List.mem_of_getElem? hi) found rfl]
      | none =>
        simp only [keepsExtension, hi] at hl
        unfold RecordPaymentRequest.payment
        cases hcurrent : s.tables.paidThrough request.tenantId with
        | none => rfl
        | some current =>
          rw [hcurrent, Option.all_some, decide_eq_true_eq] at hl
          simp [hl]
    have hcommit : (s.commit i request paidThrough).tables = s.tables.record request := by
      show s.tables.publish (request.payment paidThrough) = _
      rw [hpayment]
      rfl
    rw [hcommit]
    exact Serial.explains_perm (Serial.explains_cons hexplained request) (Serial.done_commit hi rfl rfl)

theorem setPhase_concat {transactions : List PaymentTransaction} {tables : BillingTables} {t : PaymentTransaction}
    (phase : PaymentPhase) :
    (⟨tables, transactions ++ [t]⟩ : Billing).setPhase transactions.length request phase =
      ⟨tables, transactions ++ [⟨request, phase⟩]⟩ := by
  unfold setPhase
  rw [List.set_append_right _ _ (Nat.le_refl _), Nat.sub_self, List.set_cons_zero]

/-- A call that nothing else is in progress with does what `record` says. -/
theorem record_alone (hfinished : ∀ t ∈ s.transactions, t.finished = true) (htenant : request.tenantId ∈ s.tables.tenants)
    (haccepted : (request.payment (s.tables.paidThrough request.tenantId)).accepted = true)
    (hnew : s.recorded request.key = false) :
    Runs.run Billing.step s [.begin request, .select s.transactions.length, .insert s.transactions.length,
        .upsert s.transactions.length, .commit s.transactions.length] =
      some ⟨s.tables.record request, s.transactions ++ [⟨request, .committed⟩]⟩ := by
  obtain ⟨tables, transactions⟩ := s
  have hidle : ∀ t ∈ transactions, t.locksRow = false ∧ t.holdsKey = false := by
    intro t ht
    have hdone := hfinished t ht
    unfold PaymentTransaction.finished at hdone
    unfold PaymentTransaction.locksRow PaymentTransaction.holdsKey
    cases hphase : t.phase <;> simp_all
  have hat : ∀ t : PaymentTransaction, (transactions ++ [t])[transactions.length]? = some t :=
    fun t => List.getElem?_concat_length
  have herase : ∀ t : PaymentTransaction, (transactions ++ [t]).eraseIdx transactions.length = transactions := by
    intro t
    rw [List.eraseIdx_append_of_length_le (Nat.le_refl _), Nat.sub_self]
    simp
  have hfree : ∀ t : PaymentTransaction,
      (⟨tables, transactions ++ [t]⟩ : Billing).rowFree transactions.length request.tenantId = true := by
    intro t
    unfold rowFree
    rw [herase, List.all_eq_true]
    intro u hu
    simp [(hidle u hu).1]
  have hkey : ∀ t : PaymentTransaction,
      (⟨tables, transactions ++ [t]⟩ : Billing).keyFree transactions.length request.key = true := by
    intro t
    unfold keyFree
    rw [herase, Bool.or_eq_true, List.all_eq_true]
    exact .inr fun u hu => by simp [(hidle u hu).2]
  have hselect : (⟨tables, transactions ++ [⟨request, .begun⟩]⟩ : Billing).step (.select transactions.length) =
      some ⟨tables, transactions ++ [⟨request, .selected (tables.paidThrough request.tenantId)⟩]⟩ := by
    simp only [Billing.step, hat]
    cases hpaid : tables.paidThrough request.tenantId with
    | none => simp only [setPhase_concat]
    | some paidThrough => simp only [hfree, if_true, setPhase_concat]
  have hinsert : (⟨tables, transactions ++ [⟨request, .selected (tables.paidThrough request.tenantId)⟩]⟩ : Billing).step
      (.insert transactions.length) =
      some ⟨tables, transactions ++ [⟨request, .inserted (tables.paidThrough request.tenantId)⟩]⟩ := by
    have hchecks : ¬ ((request.payment (tables.paidThrough request.tenantId)).accepted = false ∨
        (⟨tables, transactions ++ [⟨request, .selected (tables.paidThrough request.tenantId)⟩]⟩ : Billing).recorded
          request.key = true) := by
      rintro (hrefused | hrecorded)
      · rw [haccepted] at hrefused
        cases hrefused
      · exact absurd (hrecorded.symm.trans hnew) (by decide)
    simp only [Billing.step, hat, Billing.insert]
    rw [if_neg hchecks, if_neg (by rw [hkey]; decide), if_neg (not_not.mpr htenant), setPhase_concat]
  have hupsert : (⟨tables, transactions ++ [⟨request, .inserted (tables.paidThrough request.tenantId)⟩]⟩ : Billing).step
      (.upsert transactions.length) =
      some ⟨tables, transactions ++ [⟨request, .upserted (tables.paidThrough request.tenantId)⟩]⟩ := by
    simp only [Billing.step, hat, hfree, if_true, setPhase_concat]
  have hcommit : (⟨tables, transactions ++ [⟨request, .upserted (tables.paidThrough request.tenantId)⟩]⟩ : Billing).step
      (.commit transactions.length) = some ⟨tables.record request, transactions ++ [⟨request, .committed⟩]⟩ := by
    simp only [Billing.step, hat, Billing.commit, setPhase_concat]
    rfl
  refine Runs.run_cons.mpr ⟨_, rfl, Runs.run_cons.mpr ⟨_, hselect, Runs.run_cons.mpr ⟨_, hinsert, ?_⟩⟩⟩
  exact Runs.run_cons.mpr ⟨_, hupsert, Runs.run_cons.mpr ⟨_, hcommit, rfl⟩⟩

/-- In every run in which no transaction that found no row commits over an
extension past its time, the committed payments have the effect of some order
of them, and every tenant has what it paid for. -/
theorem payments_honoured {ls : List BillingLabel} (hopen : s.transactions = [])
    (hhonoured : ∀ tenantId, s.tables.Honoured tenantId)
    (hls : Runs.Meets Billing.step (fun s l => s.keepsExtension l = true) s ls)
    (hrun : Runs.run Billing.step s ls = some s') :
    Serial.Explains BillingTables.record s.tables s'.committed s'.tables ∧ ∀ tenantId, s'.tables.Honoured tenantId := by
  have hstart : s.Isolated ∧ Serial.Explains BillingTables.record s.tables s.committed s.tables := by
    refine ⟨⟨?_, ?_⟩, ?_⟩
    · simp [hopen]
    · simp [hopen]
    · unfold committed
      rw [hopen]
      exact Serial.explains_nil
  obtain ⟨-, hexplained⟩ := Runs.invariant_of_meets
    (P := fun m => m.Isolated ∧ Serial.Explains BillingTables.record s.tables m.committed m.tables)
    (fun hs hl h => ⟨isolated_step hs.1 (billingStep_cases h), explains_step hs.1 hl hs.2 (billingStep_cases h)⟩)
    hstart hls hrun
  exact ⟨hexplained, Serial.explains_invariant (P := fun tables => ∀ tenantId, tables.Honoured tenantId)
    (fun _ _ h => BillingTables.honoured_record h) hhonoured hexplained⟩

end

/-! ## Two payments of a new customer -/

def unpaidTables : BillingTables := ⟨["acme"], fun _ => none, []⟩

def monthlyRequest (plan : String) (txHash : Option String) (now : Nat) : RecordPaymentRequest :=
  ⟨"acme", plan, 2592000, none, txHash.map fun _ => 1, txHash, "platform-key", none, now⟩

theorem honoured_unpaid (tenantId : String) : unpaidTables.Honoured tenantId :=
  ⟨fun _ hp => (List.not_mem_nil hp).elim, List.Pairwise.nil, fun _ hp => (Option.not_mem_none _ hp).elim, fun _ => rfl⟩

def paidInTurn : List BillingLabel :=
  [.begin (monthlyRequest "growth" none 1800000000), .begin (monthlyRequest "growth" none 1800000000),
    .select 0, .insert 0, .upsert 0, .commit 0, .select 1, .insert 1, .upsert 1, .commit 1]

theorem payments_honoured_acme : ∃ s, Runs.run Billing.step ⟨unpaidTables, []⟩ paidInTurn = some s ∧
    s.tables.paidThrough "acme" = some (1800000000 + 2 * 2592000) ∧ s.tables.Honoured "acme" := by
  have hrun : (Runs.run Billing.step ⟨unpaidTables, []⟩ paidInTurn).map (fun s => s.tables.paidThrough "acme") =
      some (some (1800000000 + 2 * 2592000)) := by
    decide +kernel
  obtain ⟨s, hs, hpaid⟩ := Option.map_eq_some_iff.mp hrun
  exact ⟨s, hs, hpaid, (payments_honoured rfl honoured_unpaid (by decide +kernel) hs).2 "acme"⟩

def paidAtOnce : List BillingLabel :=
  [.begin (monthlyRequest "growth" none 1800000000), .begin (monthlyRequest "growth" none 1800000000),
    .select 0, .select 1, .insert 0, .insert 1, .upsert 0, .commit 0, .upsert 1, .commit 1]

theorem payments_lost : ¬ ∀ (s s' : Billing) (ls : List BillingLabel), s.transactions = [] →
    (∀ tenantId, s.tables.Honoured tenantId) → Runs.run Billing.step s ls = some s' →
    Serial.Explains BillingTables.record s.tables s'.committed s'.tables ∧ ∀ tenantId, s'.tables.Honoured tenantId := by
  intro hall
  have hrun : (Runs.run Billing.step ⟨unpaidTables, []⟩ paidAtOnce).map (fun s =>
      (s.tables.paymentsOf "acme").map fun p => (p.extendedFrom, p.extendedTo)) =
      some [(1800000000, 1802592000), (1800000000, 1802592000)] := by
    decide +kernel
  obtain ⟨s, hs, hpayments⟩ := Option.map_eq_some_iff.mp hrun
  have hdisjoint := ((hall ⟨unpaidTables, []⟩ s paidAtOnce rfl honoured_unpaid hs).2 "acme").disjoint
  have hpairs : ((s.tables.paymentsOf "acme").map fun p => (p.extendedFrom, p.extendedTo)).Pairwise
      fun p q => p.2 ≤ q.1 ∨ q.2 ≤ p.1 :=
    List.pairwise_map.mpr hdisjoint
  rw [hpayments] at hpairs
  revert hpairs
  decide

end Paymaster
