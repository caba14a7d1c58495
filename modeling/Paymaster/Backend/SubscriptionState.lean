import Paymaster.Backend.Payments

/-!
# Subscription state

Whether a tenant may be sponsored is answered from a row of its subscription
that is cached for a while. A payment deletes the entry; but a read that started
before writes its row into the cache when it returns, whatever has been deleted
in the meantime.
-/

namespace Paymaster

open Function

inductive SubscriptionState
  | active
  | grace
  | lapsed
  | none
deriving DecidableEq

structure TenantSubscriptionStatus where
  state : SubscriptionState
  plan : Option String
  paidThrough : Option Nat
  graceEndsAt : Option Nat
  allowsSponsorship : Bool
  renewalDue : Bool
deriving DecidableEq

structure SubscriptionServiceOptions where
  unsubscribedAllows : Bool
  ttlMs : Nat
  noticeSeconds : Nat

def SubscriptionServiceOptions.describe (options : SubscriptionServiceOptions) (now : Nat) :
    Option Subscription → TenantSubscriptionStatus
  | none => ⟨.none, none, none, none, options.unsubscribedAllows, false⟩
  | some subscription =>
    let graceEndsAt := subscription.paidThrough + subscription.graceSeconds
    let state : SubscriptionState :=
      if now ≤ subscription.paidThrough then .active else if now ≤ graceEndsAt then .grace else .lapsed
    ⟨state, some subscription.plan, some subscription.paidThrough, some graceEndsAt, state ≠ .lapsed,
      state = .grace || (state = .active && subscription.paidThrough ≤ now + options.noticeSeconds)⟩

/-- A row as it was read, with the number of the tenant's payments then. -/
structure SubscriptionRow where
  subscription : Option Subscription
  payments : Nat

structure CacheEntry where
  row : SubscriptionRow
  readAt : Nat

/-- A call of `statusOf` that waits for its row: since which state of the database,
and how many payments the last invalidation before the call was for. -/
structure SubscriptionRead where
  tenantId : String
  readAt : Nat
  started : Nat
  invalidated : Nat

structure SubscriptionAnswer where
  read : SubscriptionRead
  row : SubscriptionRow
  status : TenantSubscriptionStatus

/-- The service of one process. `history` are the states of the database, the
last one now; `invalidated` counts, for each tenant, the payments that were
committed when it was invalidated last. -/
structure SubscriptionService where
  history : List BillingTables
  cache : String → Option CacheEntry
  reads : List SubscriptionRead
  invalidated : String → Nat
  answers : List SubscriptionAnswer

inductive SubscriptionLabel
  /-- A payment is committed, on this replica or another. -/
  | pay (request : RecordPaymentRequest)
  | invalidate (tenantId : String)
  /-- `statusOf` is called, with what the clock says in milliseconds and in seconds. -/
  | statusOf (tenantId : String) (nowMs now : Nat)
  /-- The repository returns the row as of some moment since it was asked. -/
  | finish (j moment now : Nat)
  | fail (j : Nat)

def BillingTables.subscriptionRow (tables : BillingTables) (tenantId : String) : SubscriptionRow :=
  ⟨tables.subscriptions tenantId, (tables.paymentsOf tenantId).length⟩

namespace SubscriptionService

variable (options : SubscriptionServiceOptions) (s : SubscriptionService)

def startRead (tenantId : String) (nowMs : Nat) : SubscriptionRead :=
  ⟨tenantId, nowMs, s.history.length - 1, s.invalidated tenantId⟩

def answer (read : SubscriptionRead) (row : SubscriptionRow) (now : Nat) : SubscriptionService :=
  { s with answers := s.answers ++ [⟨read, row, options.describe now row.subscription⟩] }

def step : SubscriptionLabel → Option SubscriptionService
  | .pay request => s.history.getLast?.map fun tables => { s with history := s.history ++ [tables.record request] }
  | .invalidate tenantId =>
    s.history.getLast?.map fun tables =>
      { s with
        cache := update s.cache tenantId none
        invalidated := update s.invalidated tenantId (tables.subscriptionRow tenantId).payments }
  | .statusOf tenantId nowMs now =>
    let read := s.startRead tenantId nowMs
    match s.cache tenantId with
    | some cached =>
      if nowMs < cached.readAt + options.ttlMs then some (s.answer options read cached.row now)
      else some { s with reads := s.reads ++ [read] }
    | none => some { s with reads := s.reads ++ [read] }
  | .finish j moment now =>
    match s.reads[j]?, s.history[moment]? with
    | some read, some tables =>
      if read.started ≤ moment then
        let row := tables.subscriptionRow read.tenantId
        some ({ s with
          reads := s.reads.eraseIdx j
          cache := update s.cache read.tenantId (some ⟨row, read.readAt⟩) }.answer options read row now)
      else none
    | _, _ => none
  | .fail j => s.reads[j]?.map fun _ => { s with reads := s.reads.eraseIdx j }

/-- Nothing is served from before a payment that it was invalidated for: neither
is it cached, nor has a call that came afterwards answered with it. -/
structure Current : Prop where
  cache : ∀ tenantId, ∀ entry ∈ s.cache tenantId, s.invalidated tenantId ≤ entry.row.payments
  answers : ∀ a ∈ s.answers, a.read.invalidated ≤ a.row.payments

/-- No read returns a row from before the payments for which its tenant has been
invalidated since. -/
def returnsCurrent : SubscriptionLabel → Bool
  | .finish j moment _ =>
    match s.reads[j]?, s.history[moment]? with
    | some read, some tables =>
      s.invalidated read.tenantId ≤ (tables.subscriptionRow read.tenantId).payments
    | _, _ => true
  | _ => true

/-- The invariant: payments are only added, and what is invalidated has been committed. -/
structure Invalidated (s : SubscriptionService) : Prop where
  committed : ∀ tables ∈ s.history.getLast?, ∀ tenantId,
    s.invalidated tenantId ≤ (tables.subscriptionRow tenantId).payments
  reads : ∀ read ∈ s.reads, read.invalidated ≤ s.invalidated read.tenantId

end SubscriptionService

section
variable {options : SubscriptionServiceOptions} {s s' : SubscriptionService} {l : SubscriptionLabel}

open SubscriptionService

theorem payments_record (tables : BillingTables) (request : RecordPaymentRequest) (tenantId : String) :
    (tables.subscriptionRow tenantId).payments ≤ ((tables.record request).subscriptionRow tenantId).payments := by
  show (tables.paymentsOf tenantId).length ≤ ((tables.record request).paymentsOf tenantId).length
  by_cases h : tenantId = request.tenantId
  · subst h
    have hpublish : (tables.record request).paymentsOf request.tenantId =
        tables.paymentsOf request.tenantId ++ [request.payment (tables.paidThrough request.tenantId)] :=
      BillingTables.paymentsOf_publish
    rw [hpublish, List.length_append]
    exact Nat.le_add_right _ _
  · have hpublish : (tables.record request).paymentsOf tenantId = tables.paymentsOf tenantId :=
      BillingTables.paymentsOf_publish_of_ne h
    rw [hpublish]

theorem invalidated_startRead (hs : s.Invalidated) (tenantId : String) (nowMs : Nat) :
    ({ s with reads := s.reads ++ [s.startRead tenantId nowMs] } : SubscriptionService).Invalidated := by
  refine ⟨hs.committed, ?_⟩
  intro read hread
  rcases List.mem_append.mp hread with hold | hnew
  · exact hs.reads read hold
  · rw [List.mem_singleton.mp hnew]
    exact Nat.le_refl _

theorem invalidated_step (hs : s.Invalidated) (h : s.step options l = some s') : s'.Invalidated := by
  cases l with
  | pay request =>
    obtain ⟨tables, htables, rfl⟩ := Option.map_eq_some_iff.mp h
    refine ⟨?_, hs.reads⟩
    intro last hlast tenantId
    change last ∈ (s.history ++ [tables.record request]).getLast? at hlast
    rw [List.getLast?_concat, Option.mem_some_iff] at hlast
    subst hlast
    exact (hs.committed tables htables tenantId).trans (payments_record tables request tenantId)
  | invalidate tenantId =>
    obtain ⟨tables, htables, rfl⟩ := Option.map_eq_some_iff.mp h
    have hgrown : ∀ other, s.invalidated other ≤
        update s.invalidated tenantId (tables.subscriptionRow tenantId).payments other := by
      intro other
      by_cases hother : other = tenantId
      · subst hother
        rw [update_self]
        exact hs.committed tables htables other
      · rw [update_of_ne hother]
    refine ⟨?_, fun read hread => (hs.reads read hread).trans (hgrown read.tenantId)⟩
    intro last hlast other
    have hsame : last = tables := Option.some.inj (hlast.symm.trans htables)
    subst hsame
    show update s.invalidated tenantId (last.subscriptionRow tenantId).payments other ≤ _
    by_cases hother : other = tenantId
    · subst hother
      rw [update_self]
    · rw [update_of_ne hother]
      exact hs.committed last htables other
  | statusOf tenantId nowMs now =>
    simp only [SubscriptionService.step] at h
    split at h
    · split at h
      · cases h
        exact ⟨hs.committed, hs.reads⟩
      · cases h
        exact invalidated_startRead hs tenantId nowMs
    · cases h
      exact invalidated_startRead hs tenantId nowMs
  | finish j moment now =>
    simp only [SubscriptionService.step] at h
    split at h
    · split at h
      · cases h
        exact ⟨hs.committed, fun read hread => hs.reads read (List.mem_of_mem_eraseIdx hread)⟩
      · cases h
    · cases h
  | fail j =>
    obtain ⟨read, hread, rfl⟩ := Option.map_eq_some_iff.mp h
    exact ⟨hs.committed, fun read hread => hs.reads read (List.mem_of_mem_eraseIdx hread)⟩

theorem current_answer {read : SubscriptionRead} {row : SubscriptionRow} (hs : s.Current) (now : Nat)
    (hrow : read.invalidated ≤ row.payments) : (s.answer options read row now).Current := by
  refine ⟨hs.cache, ?_⟩
  intro a ha
  rcases List.mem_append.mp ha with hold | hnew
  · exact hs.answers a hold
  · rw [List.mem_singleton.mp hnew]
    exact hrow

theorem current_startRead (hs : s.Current) (tenantId : String) (nowMs : Nat) :
    ({ s with reads := s.reads ++ [s.startRead tenantId nowMs] } : SubscriptionService).Current :=
  ⟨hs.cache, hs.answers⟩

/-- What a read writes into the cache is current exactly if its row is. -/
theorem current_finish {j moment now : Nat} (hs : s.Invalidated) (hcurrent : s.Current)
    (h : s.step options (.finish j moment now) = some s') :
    s'.Current ↔ s.returnsCurrent (.finish j moment now) = true := by
  simp only [SubscriptionService.step] at h
  split at h
  · rename_i read tables hread htables
    split at h
    · cases h
      have hcondition : s.returnsCurrent (.finish j moment now) = true ↔
          s.invalidated read.tenantId ≤ (tables.subscriptionRow read.tenantId).payments := by
        simp only [returnsCurrent, hread, htables, decide_eq_true_eq]
      rw [hcondition]
      constructor
      · intro hafter
        exact hafter.cache read.tenantId _ (update_self ..)
      · intro hrow
        apply current_answer
        · refine ⟨?_, hcurrent.answers⟩
          intro tenantId entry hentry
          change update s.cache read.tenantId _ tenantId = some entry at hentry
          by_cases htenant : tenantId = read.tenantId
          · subst htenant
            rw [update_self, Option.some.injEq] at hentry
            rw [← hentry]
            exact hrow
          · rw [update_of_ne htenant] at hentry
            exact hcurrent.cache tenantId entry hentry
        · exact (hs.reads read (List.mem_of_getElem? hread)).trans hrow
    · cases h
  · cases h

/-- A step leaves something outdated exactly if a read returns an outdated row. -/
theorem current_step (hs : s.Invalidated) (hcurrent : s.Current) (h : s.step options l = some s') :
    s'.Current ↔ s.returnsCurrent l = true := by
  cases l with
  | pay request =>
    obtain ⟨tables, htables, rfl⟩ := Option.map_eq_some_iff.mp h
    exact iff_of_true ⟨hcurrent.cache, hcurrent.answers⟩ rfl
  | invalidate tenantId =>
    obtain ⟨tables, htables, rfl⟩ := Option.map_eq_some_iff.mp h
    refine iff_of_true ⟨?_, hcurrent.answers⟩ rfl
    intro other entry hentry
    change update s.cache tenantId none other = some entry at hentry
    show update s.invalidated tenantId _ other ≤ _
    by_cases hother : other = tenantId
    · subst hother
      rw [update_self] at hentry
      cases hentry
    · rw [update_of_ne hother] at hentry ⊢
      exact hcurrent.cache other entry hentry
  | statusOf tenantId nowMs now =>
    refine iff_of_true ?_ rfl
    simp only [SubscriptionService.step] at h
    split at h
    · rename_i cached hcached
      split at h
      · cases h
        exact current_answer hcurrent now (hcurrent.cache tenantId cached hcached)
      · cases h
        exact current_startRead hcurrent tenantId nowMs
    · cases h
      exact current_startRead hcurrent tenantId nowMs
  | finish j moment now => exact current_finish hs hcurrent h
  | fail j =>
    obtain ⟨read, hread, rfl⟩ := Option.map_eq_some_iff.mp h
    exact iff_of_true ⟨hcurrent.cache, hcurrent.answers⟩ rfl

/-- Along a run nothing outdated is cached or answered, exactly if no read
returns a row from before the payments for which its tenant has been invalidated. -/
theorem answers_current {ls : List SubscriptionLabel} (hreads : s.reads = []) (hcache : s.cache = fun _ => none)
    (hinvalidated : s.invalidated = fun _ => 0) (hanswers : s.answers = [])
    (hrun : Runs.run (SubscriptionService.step options) s ls = some s') :
    Runs.Always (SubscriptionService.step options) Current s ls ↔
      Runs.Meets (SubscriptionService.step options) (fun s l => s.returnsCurrent l = true) s ls := by
  have hi : s.Invalidated := by
    refine ⟨?_, by simp [hreads]⟩
    intro tables _ tenantId
    rw [hinvalidated]
    exact Nat.zero_le _
  have hcurrent : s.Current := by
    refine ⟨?_, by simp [hanswers]⟩
    intro tenantId entry hentry
    rw [hcache] at hentry
    cases hentry
  exact Runs.always_iff_meets (I := Invalidated) (fun hs h => invalidated_step hs h)
    (fun hs hc h => current_step hs hc h) hi hcurrent hrun

end

/-! ## A payment while a row is being read -/

def defaultSubscriptionOptions : SubscriptionServiceOptions := ⟨true, 10000, 604800⟩

def startedService : SubscriptionService := ⟨[unpaidTables], fun _ => none, [], fun _ => 0, []⟩

def paidThenAsked : List SubscriptionLabel :=
  [.statusOf "acme" 0 1800000000, .finish 0 0 1800000000, .pay (monthlyRequest "small" none 1800000000),
    .invalidate "acme", .statusOf "acme" 100 1800000000, .finish 0 1 1800000000]

theorem answers_current_acme :
    Runs.Always (SubscriptionService.step defaultSubscriptionOptions) SubscriptionService.Current startedService
      paidThenAsked := by
  have hrun : (Runs.run (SubscriptionService.step defaultSubscriptionOptions) startedService paidThenAsked).isSome =
      true := by
    decide +kernel
  obtain ⟨s, hs⟩ := Option.isSome_iff_exists.mp hrun
  exact (answers_current rfl rfl rfl rfl hs).mpr (by decide +kernel)

/-- A row that was read before the payment answers a call that came after the invalidation. -/
theorem answers_outdated : ¬ ∀ (options : SubscriptionServiceOptions) (s s' : SubscriptionService)
    (ls : List SubscriptionLabel), s.reads = [] → (s.cache = fun _ => none) → (s.invalidated = fun _ => 0) →
    s.answers = [] → Runs.run (SubscriptionService.step options) s ls = some s' →
    Runs.Always (SubscriptionService.step options) SubscriptionService.Current s ls := by
  intro hall
  have hrun : (Runs.run (SubscriptionService.step defaultSubscriptionOptions) startedService
      [.statusOf "acme" 0 1800000000, .pay (monthlyRequest "small" none 1800000000), .invalidate "acme",
        .finish 0 0 1800000000, .statusOf "acme" 100 1800000000]).map
      (fun s => s.answers.map fun a => (a.read.invalidated, a.row.payments)) = some [(0, 0), (1, 0)] := by
    decide +kernel
  obtain ⟨s, hs, hanswers⟩ := Option.map_eq_some_iff.mp hrun
  have hcurrent := ((hall _ _ s _ rfl rfl rfl rfl hs).last hs).answers
  have hmem : ((1, 0) : Nat × Nat) ∈ s.answers.map fun a => (a.read.invalidated, a.row.payments) := by
    rw [hanswers]
    decide
  obtain ⟨a, ha, heq⟩ := List.mem_map.mp hmem
  obtain ⟨hinvalidated, hpayments⟩ := Prod.mk.inj heq
  have hle := hcurrent a ha
  rw [hinvalidated, hpayments] at hle
  cases hle

end Paymaster
