import Paymaster.Backend.SubscriptionState

/-!
# Subscription notices

A sweep finds the subscriptions that end soon or have ended, claims a notice for
each and sends those that it claimed. A notice is for a period of a subscription,
and stays claimed whatever becomes of it, so that no other sweep sends it again.
-/

namespace Paymaster

inductive NoticeKind
  | renewalDue
  | grace
deriving DecidableEq

structure NoticeKey where
  tenantId : String
  paidThrough : Nat
  kind : NoticeKind
deriving DecidableEq

structure DueSubscription where
  subscription : Subscription
  kind : NoticeKind
  tenantName : String
deriving DecidableEq

structure SubscriptionNotice where
  kind : NoticeKind
  tenantId : String
  tenantName : String
  plan : String
  paidThrough : Nat
  graceEndsAt : Nat
deriving DecidableEq

def DueSubscription.key (due : DueSubscription) : NoticeKey :=
  ⟨due.subscription.tenantId, due.subscription.paidThrough, due.kind⟩

def DueSubscription.notice (due : DueSubscription) : SubscriptionNotice where
  kind := due.kind
  tenantId := due.subscription.tenantId
  tenantName := due.tenantName
  plan := due.subscription.plan
  paidThrough := due.subscription.paidThrough
  graceEndsAt := due.subscription.paidThrough + due.subscription.graceSeconds

def SubscriptionNotice.key (notice : SubscriptionNotice) : NoticeKey := ⟨notice.tenantId, notice.paidThrough, notice.kind⟩

def Subscription.noticeKind (subscription : Subscription) (now : Nat) : NoticeKind :=
  if now ≤ subscription.paidThrough then .renewalDue else .grace

structure NoticeTables where
  billing : BillingTables
  tenants : List Tenant
  notices : List NoticeKey

def NoticeTables.dueOf (tables : NoticeTables) (now noticeSeconds : Nat) (tenant : Tenant) : Option DueSubscription :=
  match tables.billing.subscriptions tenant.id with
  | none => none
  | some subscription =>
    let due : DueSubscription := ⟨subscription, subscription.noticeKind now, tenant.name⟩
    if tenant.status = .active ∧ subscription.paidThrough ≤ now + noticeSeconds ∧
        now ≤ subscription.paidThrough + subscription.graceSeconds ∧ due.key ∉ tables.notices then some due
    else none

def NoticeTables.dueForNotice (tables : NoticeTables) (now noticeSeconds : Nat) : List DueSubscription :=
  (tables.tenants.filterMap (tables.dueOf now noticeSeconds)).insertionSort
    fun a b => a.subscription.paidThrough ≤ b.subscription.paidThrough

/-! ## Sweeps -/

/-- Where a sweep is: `notifying` has claimed a notice that is not sent yet. -/
inductive SweepPhase
  | claiming (due : List DueSubscription)
  | notifying (due : DueSubscription) (rest : List DueSubscription)
  | ended
deriving DecidableEq

/-- The database, the sweeps of all replicas, and what the notifier was called with. -/
structure NoticeSystem where
  tables : NoticeTables
  transactions : List PaymentTransaction
  sweeps : List SweepPhase
  sent : List SubscriptionNotice

inductive NoticeLabel
  | sweep (now noticeSeconds : Nat)
  /-- `claimNotice` for the next one. -/
  | claim (i : Nat)
  /-- The notifier is called; it delivers, or throws. -/
  | notify (i : Nat) (delivered : Bool)
  /-- A statement fails, or the replica crashes. -/
  | crash (i : Nat)
  | billing (label : BillingLabel)
  | setGraceSeconds (tenantId : String) (graceSeconds : Nat)
  | setTenants (tenants : List Tenant)

namespace NoticeSystem

variable (s : NoticeSystem)

def start (tables : NoticeTables) : NoticeSystem := ⟨tables, [], [], []⟩

def setSweep (i : Nat) (phase : SweepPhase) : NoticeSystem := { s with sweeps := s.sweeps.set i phase }

/-- `INSERT … ON CONFLICT DO NOTHING`, which throws for a tenant that is not there. -/
def claim (i : Nat) (due : DueSubscription) (rest : List DueSubscription) : NoticeSystem :=
  if due.key ∈ s.tables.notices then s.setSweep i (.claiming rest)
  else if s.tables.tenants.any fun tenant => tenant.id = due.key.tenantId then
    { s.setSweep i (.notifying due rest) with
      tables := { s.tables with notices := s.tables.notices ++ [due.key] } }
  else s.setSweep i .ended

def notify (i : Nat) (due : DueSubscription) (rest : List DueSubscription) (delivered : Bool) : NoticeSystem :=
  { s.setSweep i (if delivered then .claiming rest else .ended) with sent := s.sent ++ [due.notice] }

/-- A statement on the row of a subscription waits for the transaction that has it. -/
def setGraceSeconds (tenantId : String) (graceSeconds : Nat) : Option NoticeSystem :=
  if s.transactions.any fun t => t.locksRow && t.request.tenantId = tenantId then none
  else some { s with
    tables := { s.tables with
      billing := { s.tables.billing with
        subscriptions := Function.update s.tables.billing.subscriptions tenantId
          ((s.tables.billing.subscriptions tenantId).map fun row => { row with graceSeconds := graceSeconds }) } } }

def step (s : NoticeSystem) : NoticeLabel → Option NoticeSystem
  | .sweep now noticeSeconds =>
    some { s with sweeps := s.sweeps ++ [.claiming (s.tables.dueForNotice now noticeSeconds)] }
  | .claim i =>
    match s.sweeps[i]? with
    | some (.claiming (due :: rest)) => some (s.claim i due rest)
    | _ => none
  | .notify i delivered =>
    match s.sweeps[i]? with
    | some (.notifying due rest) => some (s.notify i due rest delivered)
    | _ => none
  | .crash i => some (s.setSweep i .ended)
  | .billing label =>
    ((⟨s.tables.billing, s.transactions⟩ : Billing).step label).map fun billing =>
      { s with tables := { s.tables with billing := billing.tables }, transactions := billing.transactions }
  | .setGraceSeconds tenantId graceSeconds => s.setGraceSeconds tenantId graceSeconds
  | .setTenants tenants => some { s with tables := { s.tables with tenants := tenants } }

/-! ## What a step can do -/

inductive NoticeStep (s : NoticeSystem) : NoticeLabel → NoticeSystem → Prop
  | sweep (now noticeSeconds : Nat) :
    NoticeStep s (.sweep now noticeSeconds)
      { s with sweeps := s.sweeps ++ [.claiming (s.tables.dueForNotice now noticeSeconds)] }
  | skip {l : NoticeLabel} {i : Nat} {due : DueSubscription} {rest : List DueSubscription} :
    s.sweeps[i]? = some (.claiming (due :: rest)) → NoticeStep s l (s.setSweep i (.claiming rest))
  | claim {i : Nat} {due : DueSubscription} {rest : List DueSubscription} :
    s.sweeps[i]? = some (.claiming (due :: rest)) → due.key ∉ s.tables.notices →
    NoticeStep s (.claim i)
      { s.setSweep i (.notifying due rest) with
        tables := { s.tables with notices := s.tables.notices ++ [due.key] } }
  | notify {i : Nat} {due : DueSubscription} {rest : List DueSubscription} (delivered : Bool) :
    s.sweeps[i]? = some (.notifying due rest) → NoticeStep s (.notify i delivered) (s.notify i due rest delivered)
  | crash {l : NoticeLabel} {i : Nat} : NoticeStep s l (s.setSweep i .ended)
  /-- The other tables only. -/
  | tables {l : NoticeLabel} {s' : NoticeSystem} :
    s'.tables.notices = s.tables.notices → s'.sweeps = s.sweeps → s'.sent = s.sent → NoticeStep s l s'

variable {s : NoticeSystem} {s' : NoticeSystem} {l : NoticeLabel}

theorem noticeStep_cases (h : s.step l = some s') : s.NoticeStep l s' := by
  cases l with
  | sweep now noticeSeconds =>
    cases h
    exact .sweep now noticeSeconds
  | claim i =>
    simp only [step] at h
    split at h
    · rename_i due rest hi
      unfold claim at h
      split at h
      · cases h
        exact .skip hi
      · rename_i hnew
        split at h
        · cases h
          exact .claim hi hnew
        · cases h
          exact .crash
    · cases h
  | notify i delivered =>
    simp only [step] at h
    split at h
    · rename_i due rest hi
      cases h
      exact .notify delivered hi
    · cases h
  | crash i =>
    cases h
    exact .crash
  | billing label =>
    obtain ⟨billing, -, rfl⟩ := Option.map_eq_some_iff.mp h
    exact .tables rfl rfl rfl
  | setGraceSeconds tenantId graceSeconds =>
    simp only [step, setGraceSeconds] at h
    split at h
    · cases h
    · cases h
      exact .tables rfl rfl rfl
  | setTenants tenants =>
    cases h
    exact .tables rfl rfl rfl

end NoticeSystem

/-! ## At most once -/

def SweepPhase.holds (key : NoticeKey) : SweepPhase → Nat
  | .notifying due _ => if due.key = key then 1 else 0
  | _ => 0

def SweepPhase.left : SweepPhase → List DueSubscription
  | .claiming due => due
  | .notifying due rest => due :: rest
  | .ended => []

def NoticeSystem.uses (s : NoticeSystem) (key : NoticeKey) : Nat :=
  (s.sent.map SubscriptionNotice.key).count key + Pool.total (SweepPhase.holds key) s.sweeps

/-- The invariant: a notice is used once it is claimed, and once only. -/
def NoticeSystem.ClaimedFirst (s : NoticeSystem) : Prop :=
  ∀ key, s.uses key ≤ if key ∈ s.tables.notices then 1 else 0

namespace NoticeSystem

variable {s s' : NoticeSystem} {l : NoticeLabel} {i : Nat} {key : NoticeKey}

/-- A sweep that goes to a phase where it holds nothing only gives up. -/
theorem uses_setSweep_le {phase : SweepPhase} (hphase : phase.holds key = 0) :
    (s.setSweep i phase).uses key ≤ s.uses key := by
  have htotal : Pool.total (SweepPhase.holds key) (s.sweeps.set i phase) ≤
      Pool.total (SweepPhase.holds key) s.sweeps := by
    cases hi : s.sweeps[i]? with
    | none =>
      rw [List.set_eq_of_length_le (List.getElem?_eq_none_iff.mp hi)]
    | some old =>
      have hset := Pool.total_set (f := SweepPhase.holds key) (q := phase) hi
      omega
  exact Nat.add_le_add_left htotal _

theorem claimedFirst_step (hs : s.ClaimedFirst) (h : s.step l = some s') : s'.ClaimedFirst := by
  intro key
  have hkey := hs key
  cases noticeStep_cases h with
  | sweep now noticeSeconds =>
    unfold uses at hkey ⊢
    rw [Pool.total_append, Pool.total_cons, Pool.total_nil]
    exact hkey
  | skip hi => exact (uses_setSweep_le rfl).trans hkey
  | @claim i due rest hi hnew =>
    have hset := Pool.total_set (f := SweepPhase.holds key) (q := .notifying due rest) hi
    simp only [SweepPhase.holds, Nat.add_zero] at hset
    unfold uses at hkey
    by_cases hdue : due.key = key
    · -- Nobody has used it, for it was not claimed.
      subst hdue
      rw [if_neg hnew] at hkey
      rw [if_pos rfl] at hset
      rw [if_pos (List.mem_append_right _ (List.mem_singleton_self _))]
      unfold uses setSweep
      dsimp only
      omega
    · rw [if_neg hdue] at hset
      have hmem : key ∈ s.tables.notices ++ [due.key] ↔ key ∈ s.tables.notices := by
        rw [List.mem_append, List.mem_singleton]
        exact or_iff_left fun heq => hdue heq.symm
      simp only [hmem]
      unfold uses setSweep
      dsimp only
      omega
  | @notify i due rest delivered hi =>
    -- What the sweep held goes into what was sent.
    have hholds : SweepPhase.holds key (if delivered then .claiming rest else .ended) = 0 := by
      cases delivered <;> rfl
    have hset := Pool.total_set (f := SweepPhase.holds key) (q := if delivered then .claiming rest else .ended) hi
    rw [hholds] at hset
    have hcount : ((s.sent ++ [due.notice]).map SubscriptionNotice.key).count key =
        (s.sent.map SubscriptionNotice.key).count key + if due.key = key then 1 else 0 := by
      rw [List.map_append, List.count_append, List.map_singleton, List.count_singleton]
      simp only [beq_iff_eq]
      rfl
    have hheld : SweepPhase.holds key (.notifying due rest) = if due.key = key then 1 else 0 := rfl
    unfold uses at hkey
    unfold notify uses setSweep
    dsimp only
    rw [hcount]
    omega
  | crash => exact (uses_setSweep_le rfl).trans hkey
  | tables hnotices hsweeps hsent =>
    unfold uses at hkey ⊢
    rwa [hnotices, hsweeps, hsent]

theorem claimedFirst_start (tables : NoticeTables) : (start tables).ClaimedFirst := fun _ => Nat.zero_le _

theorem nodup_of_claimedFirst (hs : s.ClaimedFirst) : (s.sent.map SubscriptionNotice.key).Nodup := by
  rw [List.nodup_iff_count_le_one]
  intro key
  have hkey := hs key
  unfold uses at hkey
  split at hkey <;> omega

/-! ## What is sent was due -/

def Found (s₀ : NoticeSystem) (ls : List NoticeLabel) (due : DueSubscription) : Prop :=
  ∃ ls₁ now noticeSeconds m, ls₁ ++ [.sweep now noticeSeconds] <+: ls ∧ Runs.run step s₀ ls₁ = some m ∧
    due ∈ m.tables.dueForNotice now noticeSeconds

structure AllDue (P : DueSubscription → Prop) (s : NoticeSystem) : Prop where
  sweeps : ∀ phase ∈ s.sweeps, ∀ due ∈ phase.left, P due
  sent : ∀ notice ∈ s.sent, ∃ due, P due ∧ due.notice = notice

theorem AllDue.setSweep {P : DueSubscription → Prop} {phase : SweepPhase} (hs : AllDue P s)
    (hphase : ∀ due ∈ phase.left, P due) : AllDue P (s.setSweep i phase) :=
  ⟨Pool.forall_set hs.sweeps hphase, hs.sent⟩

theorem allDue_step {P : DueSubscription → Prop} (hs : AllDue P s) (h : s.step l = some s')
    (hsweep : ∀ now noticeSeconds, l = .sweep now noticeSeconds → ∀ due ∈ s.tables.dueForNotice now noticeSeconds, P due) :
    AllDue P s' := by
  have hleft : ∀ {i : Nat} {phase : SweepPhase}, s.sweeps[i]? = some phase → ∀ due ∈ phase.left, P due :=
    fun hi => hs.sweeps _ (List.mem_of_getElem? hi)
  cases noticeStep_cases h with
  | sweep now noticeSeconds =>
    refine ⟨fun phase hphase => ?_, hs.sent⟩
    rcases List.mem_append.mp hphase with hold | hnew
    · exact hs.sweeps phase hold
    · rw [List.mem_singleton.mp hnew]
      exact hsweep now noticeSeconds rfl
  | skip hi => exact hs.setSweep fun due hdue => hleft hi due (List.mem_cons_of_mem _ hdue)
  | claim hi hnew => exact ⟨Pool.forall_set hs.sweeps fun due hdue => hleft hi due hdue, hs.sent⟩
  | @notify i due rest delivered hi =>
    refine ⟨Pool.forall_set hs.sweeps ?_, fun notice hnotice => ?_⟩
    · cases delivered with
      | true => exact fun due' hdue => hleft hi due' (List.mem_cons_of_mem _ hdue)
      | false => exact fun due' hdue => absurd hdue List.not_mem_nil
    · rcases List.mem_append.mp hnotice with hold | hnew
      · exact hs.sent notice hold
      · exact ⟨due, hleft hi due List.mem_cons_self, (List.mem_singleton.mp hnew).symm⟩
  | crash => exact hs.setSweep fun due hdue => absurd hdue List.not_mem_nil
  | tables hnotices hsweeps hsent =>
    constructor
    · rw [hsweeps]
      exact hs.sweeps
    · rw [hsent]
      exact hs.sent

theorem Found.mono {s₀ : NoticeSystem} {ls : List NoticeLabel} {due : DueSubscription} (h : Found s₀ ls due) :
    Found s₀ (ls ++ [l]) due := by
  obtain ⟨ls₁, now, noticeSeconds, m, hprefix, hm, hdue⟩ := h
  exact ⟨ls₁, now, noticeSeconds, m, hprefix.trans (List.prefix_append _ _), hm, hdue⟩

/-- By induction on the run, from its end. -/
theorem allDue_run {tables : NoticeTables} {ls : List NoticeLabel} :
    ∀ {s}, Runs.run step (start tables) ls = some s → AllDue (Found (start tables) ls) s := by
  induction ls using List.reverseRecOn with
  | nil =>
    intro s h
    cases h
    exact ⟨fun phase hphase => absurd hphase List.not_mem_nil, fun notice hnotice => absurd hnotice List.not_mem_nil⟩
  | append_singleton ls l ih =>
    intro s h
    obtain ⟨m, hm, hstep⟩ := Runs.run_snoc.mp h
    have hall := ih hm
    have hmono : AllDue (Found (start tables) (ls ++ [l])) m := by
      refine ⟨fun phase hphase due hdue => (hall.sweeps phase hphase due hdue).mono, fun notice hnotice => ?_⟩
      obtain ⟨due, hdue, heq⟩ := hall.sent notice hnotice
      exact ⟨due, hdue.mono, heq⟩
    refine allDue_step hmono hstep fun now noticeSeconds hl due hdue => ?_
    subst hl
    exact ⟨ls, now, noticeSeconds, m, List.prefix_rfl, hm, hdue⟩

end NoticeSystem

/-! ## What is due -/

namespace NoticeTables

variable {tables : NoticeTables} {now noticeSeconds : Nat} {tenant : Tenant} {due : DueSubscription}

theorem mem_dueForNotice :
    due ∈ tables.dueForNotice now noticeSeconds ↔ ∃ tenant ∈ tables.tenants, tables.dueOf now noticeSeconds tenant = some due := by
  unfold dueForNotice
  rw [(List.perm_insertionSort _ _).mem_iff, List.mem_filterMap]

theorem dueOf_eq_some :
    tables.dueOf now noticeSeconds tenant = some due ↔
      (tables.billing.subscriptions tenant.id = some due.subscription ∧ tenant.status = .active ∧ due.tenantName = tenant.name) ∧
        due.kind = due.subscription.noticeKind now ∧ due.subscription.paidThrough ≤ now + noticeSeconds ∧
          now ≤ due.subscription.paidThrough + due.subscription.graceSeconds ∧ due.key ∉ tables.notices := by
  obtain ⟨subscription, kind, name⟩ := due
  unfold dueOf
  cases tables.billing.subscriptions tenant.id with
  | none => simp
  | some row =>
    dsimp only
    rw [Option.ite_none_right_eq_some]
    constructor
    · rintro ⟨⟨hactive, hsoon, hgrace, hnew⟩, heq⟩
      cases heq
      exact ⟨⟨rfl, hactive, rfl⟩, rfl, hsoon, hgrace, hnew⟩
    · rintro ⟨⟨hrow, hactive, hname⟩, hkind, hsoon, hgrace, hnew⟩
      cases hrow
      obtain rfl : name = tenant.name := hname
      obtain rfl : kind = subscription.noticeKind now := hkind
      exact ⟨⟨hactive, hsoon, hgrace, hnew⟩, rfl⟩

end NoticeTables

section

variable {options : SubscriptionServiceOptions} {subscription : Subscription} {now : Nat}

/-- The two ways to write when a subscription is due are the same. -/
theorem renewalDue_describe :
    (options.describe now (some subscription)).renewalDue = true ↔
      subscription.paidThrough ≤ now + options.noticeSeconds ∧ now ≤ subscription.paidThrough + subscription.graceSeconds := by
  simp only [SubscriptionServiceOptions.describe]
  by_cases hactive : now ≤ subscription.paidThrough
  · have hgrace : now ≤ subscription.paidThrough + subscription.graceSeconds := hactive.trans (Nat.le_add_right _ _)
    simp [hactive, hgrace]
  · have hsoon : subscription.paidThrough ≤ now + options.noticeSeconds := by omega
    by_cases hgrace : now ≤ subscription.paidThrough + subscription.graceSeconds <;> simp [hactive, hgrace, hsoon]

theorem state_describe_grace (hgrace : now ≤ subscription.paidThrough + subscription.graceSeconds) :
    (options.describe now (some subscription)).state = .grace ↔ subscription.noticeKind now = .grace := by
  simp only [SubscriptionServiceOptions.describe, Subscription.noticeKind]
  by_cases hactive : now ≤ subscription.paidThrough <;> simp [hactive, hgrace]

end

theorem NoticeKind.eq_iff {a b : NoticeKind} : a = b ↔ (a = .grace ↔ b = .grace) := by
  cases a <;> cases b <;> simp

/-- Each notice is sent once at most, and only if a sweep found it due. A sweep
finds a subscription due when `describe` says so, and gives it the kind of notice
for the state that `describe` gives it. -/
theorem notices_sent_once_as_described :
    (∀ {tables : NoticeTables} {ls : List NoticeLabel} {s : NoticeSystem},
      Runs.run NoticeSystem.step (.start tables) ls = some s →
        (s.sent.map SubscriptionNotice.key).Nodup ∧
          ∀ notice ∈ s.sent, ∃ due, NoticeSystem.Found (.start tables) ls due ∧ due.notice = notice) ∧
    ∀ (options : SubscriptionServiceOptions) (tables : NoticeTables) (now : Nat),
      (∀ tenant ∈ tables.tenants, tenant.status = .active →
        ∀ subscription, tables.billing.subscriptions tenant.id = some subscription → ∀ kind : NoticeKind,
          ((⟨subscription, kind, tenant.name⟩ : DueSubscription) ∈ tables.dueForNotice now options.noticeSeconds ↔
            (⟨subscription.tenantId, subscription.paidThrough, kind⟩ : NoticeKey) ∉ tables.notices ∧
              (options.describe now (some subscription)).renewalDue = true ∧
                (kind = .grace ↔ (options.describe now (some subscription)).state = .grace))) ∧
      ∀ due ∈ tables.dueForNotice now options.noticeSeconds, ∃ tenant ∈ tables.tenants,
        tables.billing.subscriptions tenant.id = some due.subscription ∧ tenant.status = .active ∧
          due.tenantName = tenant.name := by
  refine ⟨fun h => ?_, fun options tables now => ⟨?_, fun due hdue => ?_⟩⟩
  · have hclaimed := Runs.invariant NoticeSystem.claimedFirst_step (NoticeSystem.claimedFirst_start _) h
    exact ⟨NoticeSystem.nodup_of_claimedFirst hclaimed, (NoticeSystem.allDue_run h).sent⟩
  · intro tenant htenant hactive subscription hrow kind
    rw [NoticeTables.mem_dueForNotice]
    constructor
    · rintro ⟨tenant', -, hdue⟩
      obtain ⟨-, hkind, hsoon, hgrace, hnew⟩ := NoticeTables.dueOf_eq_some.mp hdue
      refine ⟨hnew, renewalDue_describe.mpr ⟨hsoon, hgrace⟩, ?_⟩
      rw [state_describe_grace hgrace]
      exact NoticeKind.eq_iff.mp hkind
    · rintro ⟨hnew, hrenewal, hkind⟩
      obtain ⟨hsoon, hgrace⟩ := renewalDue_describe.mp hrenewal
      rw [state_describe_grace hgrace] at hkind
      exact ⟨tenant, htenant, NoticeTables.dueOf_eq_some.mpr
        ⟨⟨hrow, hactive, rfl⟩, NoticeKind.eq_iff.mpr hkind, hsoon, hgrace, hnew⟩⟩
  · obtain ⟨tenant, htenant, hdue⟩ := NoticeTables.mem_dueForNotice.mp hdue
    exact ⟨tenant, htenant, (NoticeTables.dueOf_eq_some.mp hdue).1⟩

def endingSoon : NoticeTables where
  billing := ⟨["acme"], fun tenantId => if tenantId = "acme" then some ⟨"acme", "pro", 1000, 300⟩ else none, []⟩
  tenants := [⟨"acme", "Acme", .active, 0⟩]
  notices := []

def racingSweeps : List NoticeLabel :=
  [.sweep 900 200, .sweep 900 200, .claim 1, .claim 0, .notify 1 true, .sweep 1100 200, .claim 2, .notify 2 false]

theorem racingSweeps_sent : (Runs.run NoticeSystem.step (.start endingSoon) racingSweeps).map NoticeSystem.sent =
    some [⟨.renewalDue, "acme", "Acme", "pro", 1000, 1300⟩, ⟨.grace, "acme", "Acme", "pro", 1000, 1300⟩] := by
  decide +kernel

theorem notices_sent_once_as_described_racing :
    (∃ s, Runs.run NoticeSystem.step (.start endingSoon) racingSweeps = some s ∧ s.sent.length = 2 ∧
      (s.sent.map SubscriptionNotice.key).Nodup) ∧
    (⟨⟨"acme", "pro", 1000, 300⟩, .grace, "Acme"⟩ : DueSubscription) ∈ endingSoon.dueForNotice 1100 200 := by
  constructor
  · obtain ⟨s, hs, hsent⟩ := Option.map_eq_some_iff.mp racingSweeps_sent
    exact ⟨s, hs, by rw [hsent]; rfl, (notices_sent_once_as_described.1 hs).1⟩
  · exact ((notices_sent_once_as_described.2 ⟨true, 0, 200⟩ endingSoon 1100).1 ⟨"acme", "Acme", .active, 0⟩
      (by decide) rfl ⟨"acme", "pro", 1000, 300⟩ rfl .grace).mpr (by decide)

end Paymaster
