import Paymaster.Lib.Pool
import Paymaster.Lib.Run

/-!
# The leader lock

Replicas compete for a lease that Redis lets expire. Each caches whether it
leads, by the answers to its commands; and these come when they come, also after
the lease that they are about has been released. What a replica may count on is
an answer to a command that it sent less than the time to live ago, as long as it
has not deleted the lease itself in the meantime.
-/

namespace Paymaster

/-- `since` is when the last command was sent that it leads by. -/
structure RedisLeaderLock where
  holder : String
  held : Bool
  since : Nat
deriving DecidableEq

inductive LockCommand
  /-- `SET … PX … NX`. -/
  | acquire
  | renew
  | release
deriving DecidableEq

inductive LockReply
  | null
  | ok
  | integer (n : Nat)
deriving DecidableEq

/-- A command that has been sent, with what Redis has made of it. It is settled
when the replica has an answer or has given up. -/
structure LockRequest where
  replica : Nat
  command : LockCommand
  sentAt : Nat
  reply : Option LockReply
  settled : Bool
deriving DecidableEq

def LockRequest.granted (request : LockRequest) : Bool :=
  match request.command, request.reply with
  | .acquire, some reply => reply ≠ .null
  | .renew, some reply => reply = .integer 1
  | _, _ => false

structure Lease where
  holder : String
  expiresAt : Nat
deriving DecidableEq

/-- The replicas and the key in Redis. `touched` are the leases that a command of
a replica has extended or deleted. -/
structure LeaderElection where
  now : Nat
  lease : Option Lease
  locks : List RedisLeaderLock
  requests : List LockRequest
  touched : List (Nat × String)

inductive LockLabel
  | wait (ms : Nat)
  | tryAcquire (i : Nat)
  | release (i : Nat)
  /-- Redis executes a command. -/
  | execute (j : Nat)
  | respond (j : Nat)
  /-- A replica gives up waiting, whether or not the command has been or will be executed. -/
  | fail (j : Nat)
deriving DecidableEq

namespace LeaderElection

variable (ttlMs : Nat) (s : LeaderElection)

def live : Option Lease := s.lease.filter fun lease => s.now < lease.expiresAt

def send (i : Nat) (command : LockCommand) : LeaderElection :=
  { s with requests := s.requests ++ [⟨i, command, s.now, none, false⟩] }

def reply (j : Nat) (request : LockRequest) (reply : LockReply) : LeaderElection :=
  { s with requests := s.requests.set j { request with reply := some reply } }

def execute (j : Nat) (request : LockRequest) (holder : String) : LeaderElection :=
  match request.command, s.live with
  | .acquire, none => { s.reply j request .ok with lease := some ⟨holder, s.now + ttlMs⟩ }
  | .acquire, some _ => s.reply j request .null
  | .renew, some lease =>
    if lease.holder = holder then
      { s.reply j request (.integer 1) with
        lease := some ⟨holder, s.now + ttlMs⟩
        touched := s.touched ++ [(request.replica, lease.holder)] }
    else s.reply j request (.integer 0)
  | .release, some lease =>
    if lease.holder = holder then
      { s.reply j request (.integer 1) with
        lease := none
        touched := s.touched ++ [(request.replica, lease.holder)] }
    else s.reply j request (.integer 0)
  | _, none => s.reply j request (.integer 0)

/-- The replica takes it that it leads or does not, unless what has settled is a release. -/
def settle (j : Nat) (request : LockRequest) (lock : RedisLeaderLock) (granted : Bool) : LeaderElection :=
  { s with
    requests := s.requests.set j { request with settled := true }
    locks :=
      match request.command with
      | .release => s.locks
      | _ =>
        s.locks.set request.replica
          { lock with held := granted, since := if granted then max lock.since request.sentAt else lock.since } }

def step : LockLabel → Option LeaderElection
  | .wait ms => some { s with now := s.now + ms }
  | .tryAcquire i => s.locks[i]?.map fun lock => s.send i (if lock.held then .renew else .acquire)
  | .release i =>
    s.locks[i]?.map fun lock =>
      if lock.held then { s with locks := s.locks.set i { lock with held := false } }.send i .release else s
  | .execute j =>
    match s.requests[j]? with
    | some request =>
      if request.reply.isNone then s.locks[request.replica]?.map fun lock => s.execute ttlMs j request lock.holder
      else none
    | none => none
  | .respond j =>
    match s.requests[j]? with
    | some request =>
      if request.reply.isSome ∧ request.settled = false then
        s.locks[request.replica]?.map fun lock => s.settle j request lock request.granted
      else none
    | none => none
  | .fail j =>
    match s.requests[j]? with
    | some request =>
      if request.settled then none else s.locks[request.replica]?.map fun lock => s.settle j request lock false
    | none => none

/-- `isLeader`, by a command that was sent less than the time to live ago. -/
def Leads (i : Nat) : Prop := ∃ lock ∈ s.locks[i]?, lock.held = true ∧ s.now < lock.since + ttlMs

structure Exclusive : Prop where
  leader : ∀ i j, s.Leads ttlMs i → s.Leads ttlMs j → i = j
  touched : ∀ touch ∈ s.touched, s.locks[touch.1]?.map RedisLeaderLock.holder = some touch.2

/-- When the commands were sent by which a replica leads, or is going to when the answer comes. -/
def claimed (i : Nat) (lock : RedisLeaderLock) : List Nat :=
  (if lock.held then [lock.since] else []) ++
    (s.requests.filter fun request => request.replica = i && request.granted && !request.settled).map fun request =>
      max lock.since request.sentAt

/-- No release of a replica is executed while it leads, or is going to when the
answer comes to a command that it sent less than the time to live ago. -/
def releasesUnled : LockLabel → Bool
  | .execute j =>
    s.requests[j]?.all fun request =>
      request.command ≠ .release || request.reply.isSome ||
        s.locks[request.replica]?.all fun lock =>
          s.live.all (fun lease => lease.holder ≠ lock.holder) ||
            (s.claimed request.replica lock).all fun time => time + ttlMs ≤ s.now
  | _ => true

def Holds (holder : String) (time : Nat) : Prop :=
  ∃ lease, s.lease = some lease ∧ lease.holder = holder ∧ time ≤ lease.expiresAt

/-- The invariant: for as long as a claim lasts, the lease does. -/
structure Leased (s : LeaderElection) : Prop where
  distinct : (s.locks.map RedisLeaderLock.holder).Nodup
  sent : ∀ request ∈ s.requests, request.sentAt ≤ s.now
  since : ∀ lock ∈ s.locks, lock.since ≤ s.now
  backed : ∀ i lock, s.locks[i]? = some lock → ∀ time ∈ s.claimed i lock, s.now < time + ttlMs →
    s.Holds lock.holder (time + ttlMs)
  touched : ∀ touch ∈ s.touched, s.locks[touch.1]?.map RedisLeaderLock.holder = some touch.2

end LeaderElection

/-! ## Claims -/

section
variable {ttlMs : Nat} {s s' : LeaderElection} {l : LockLabel} {i j : Nat} {lock : RedisLeaderLock} {request : LockRequest}

open LeaderElection

theorem mem_claimed {time : Nat} : time ∈ s.claimed i lock ↔ (lock.held = true ∧ time = lock.since) ∨
    ∃ request ∈ s.requests, request.replica = i ∧ request.granted = true ∧ request.settled = false ∧
      time = max lock.since request.sentAt := by
  unfold claimed
  rw [List.mem_append, List.mem_map]
  refine or_congr ?_ ?_
  · by_cases hheld : lock.held = true
    · simp [hheld]
    · simp [hheld]
  · refine exists_congr fun request => ?_
    simp only [List.mem_filter, Bool.and_eq_true, decide_eq_true_eq, Bool.not_eq_true']
    tauto

theorem claimed_le_now (hs : s.Leased ttlMs) (hlock : s.locks[i]? = some lock) {time : Nat}
    (htime : time ∈ s.claimed i lock) : time ≤ s.now := by
  have hsince := hs.since lock (List.mem_of_getElem? hlock)
  rcases mem_claimed.mp htime with ⟨-, rfl⟩ | ⟨request, hmem, -, -, -, rfl⟩
  · exact hsince
  · exact max_le hsince (hs.sent request hmem)

theorem eq_of_holder (hs : s.Leased ttlMs) {other : RedisLeaderLock} (hlock : s.locks[i]? = some lock)
    (hother : s.locks[j]? = some other) (h : lock.holder = other.holder) : i = j :=
  Pool.eq_of_nodup_map hs.distinct hlock hother h

theorem live_of_holds {holder : String} {time : Nat} (hholds : s.Holds holder time) (htime : s.now < time) :
    ∃ lease, s.live = some lease ∧ lease.holder = holder := by
  obtain ⟨lease, hlease, hholder, hexpires⟩ := hholds
  refine ⟨lease, ?_, hholder⟩
  unfold live
  rw [hlease, Option.filter_some, if_pos]
  exact decide_eq_true (htime.trans_le hexpires)

theorem leased_mono (hs : s.Leased ttlMs) (hnow : s.now ≤ s'.now) (hlease : s'.lease = s.lease)
    (hholders : s'.locks.map RedisLeaderLock.holder = s.locks.map RedisLeaderLock.holder)
    (hsent : ∀ request ∈ s'.requests, request.sentAt ≤ s'.now) (hsince : ∀ lock ∈ s'.locks, lock.since ≤ s'.now)
    (htouched : s'.touched = s.touched)
    (hclaimed : ∀ i lock', s'.locks[i]? = some lock' → ∃ lock, s.locks[i]? = some lock ∧ lock.holder = lock'.holder ∧
      ∀ time ∈ s'.claimed i lock', time ∈ s.claimed i lock) : s'.Leased ttlMs := by
  refine ⟨?_, hsent, hsince, ?_, ?_⟩
  · rw [hholders]
    exact hs.distinct
  · intro i lock' hlock' time htime hlasts
    obtain ⟨lock, hlock, hholder, hold⟩ := hclaimed i lock' hlock'
    have hholds := hs.backed i lock hlock time (hold time htime) (hnow.trans_lt hlasts)
    rw [← hholder]
    unfold Holds
    rw [hlease]
    exact hholds
  · intro touch htouch
    rw [htouched] at htouch
    rw [← List.getElem?_map, hholders, List.getElem?_map]
    exact hs.touched touch htouch

theorem claimed_send (i : Nat) (command : LockCommand) (k : Nat) : (s.send i command).claimed k lock = s.claimed k lock := by
  unfold claimed send
  rw [List.filter_append, List.map_append]
  simp [LockRequest.granted]

theorem leased_send (hs : s.Leased ttlMs) (i : Nat) (command : LockCommand) : (s.send i command).Leased ttlMs := by
  refine leased_mono hs (Nat.le_refl s.now) rfl rfl ?_ hs.since rfl ?_
  · intro request hrequest
    rcases List.mem_append.mp hrequest with hold | hnew
    · exact hs.sent request hold
    · rw [List.mem_singleton.mp hnew]
      exact Nat.le_refl s.now
  · intro k lock hlock
    refine ⟨lock, hlock, rfl, fun time htime => ?_⟩
    rw [claimed_send] at htime
    exact htime

theorem leased_stepDown (hs : s.Leased ttlMs) (hlock : s.locks[i]? = some lock) :
    ({ s with locks := s.locks.set i { lock with held := false } } : LeaderElection).Leased ttlMs := by
  refine leased_mono hs (Nat.le_refl s.now) rfl (Pool.map_set_eq hlock rfl) hs.sent ?_ rfl ?_
  · exact Pool.forall_set hs.since (hs.since lock (List.mem_of_getElem? hlock))
  · intro k other hother
    rcases Pool.getElem?_set_cases hother with ⟨rfl, rfl⟩ | ⟨-, hold⟩
    · refine ⟨lock, hlock, rfl, fun time htime => ?_⟩
      rcases mem_claimed.mp htime with ⟨hheld, -⟩ | hpending
      · cases hheld
      · exact mem_claimed.mpr (.inr hpending)
    · exact ⟨other, hold, rfl, fun time htime => mem_claimed.mpr (mem_claimed.mp htime)⟩

/-! ## Answers -/

theorem sent_set (hs : s.Leased ttlMs) {request' : LockRequest} (hrequest : s.requests[j]? = some request)
    (hsent : request'.sentAt = request.sentAt) : ∀ r ∈ s.requests.set j request', r.sentAt ≤ s.now := by
  apply Pool.forall_set hs.sent
  rw [hsent]
  exact hs.sent request (List.mem_of_getElem? hrequest)

/-- A request that has settled is no claim any more, and the others are what they were. -/
theorem claimed_settled {k : Nat} {other : RedisLeaderLock} {time : Nat}
    (h : ∃ r ∈ s.requests.set j { request with settled := true }, r.replica = k ∧ r.granted = true ∧ r.settled = false ∧
      time = max other.since r.sentAt) :
    ∃ r ∈ s.requests, r.replica = k ∧ r.granted = true ∧ r.settled = false ∧ time = max other.since r.sentAt := by
  obtain ⟨r, hr, hreplica, hgranted, hsettled, htime⟩ := h
  rcases List.mem_or_eq_of_mem_set hr with hold | rfl
  · exact ⟨r, hold, hreplica, hgranted, hsettled, htime⟩
  · cases hsettled

/-- An answer makes a claim of the replica's own of what was under way. -/
theorem leased_settle {granted : Bool} (hs : s.Leased ttlMs) (hrequest : s.requests[j]? = some request)
    (hlock : s.locks[request.replica]? = some lock) (hopen : request.settled = false)
    (hgranted : granted = true → request.granted = true) : (s.settle j request lock granted).Leased ttlMs := by
  have hmem := List.mem_of_getElem? hrequest
  have hsince := hs.since lock (List.mem_of_getElem? hlock)
  have hsent := hs.sent request hmem
  cases hcommand : request.command with
  | release =>
    have hlocks : (s.settle j request lock granted).locks = s.locks := by
      unfold settle
      simp only [hcommand]
    refine leased_mono hs (Nat.le_refl s.now) rfl (congrArg _ hlocks) (sent_set hs hrequest rfl) ?_ rfl ?_
    · rw [hlocks]
      exact hs.since
    · intro k other hother
      rw [hlocks] at hother
      refine ⟨other, hother, rfl, fun time htime => ?_⟩
      rcases mem_claimed.mp htime with hheld | hpending
      · exact mem_claimed.mpr (.inl hheld)
      · exact mem_claimed.mpr (.inr (claimed_settled hpending))
  | _ =>
    have hlocks : (s.settle j request lock granted).locks = s.locks.set request.replica
        { lock with held := granted, since := if granted then max lock.since request.sentAt else lock.since } := by
      unfold settle
      simp only [hcommand]
    refine leased_mono hs (Nat.le_refl s.now) rfl ?_ (sent_set hs hrequest rfl) ?_ rfl ?_
    · rw [hlocks]
      exact Pool.map_set_eq hlock rfl
    · rw [hlocks]
      apply Pool.forall_set hs.since
      cases granted with
      | true => exact max_le hsince hsent
      | false => exact hsince
    · intro k other hother
      rw [hlocks] at hother
      rcases Pool.getElem?_set_cases hother with ⟨rfl, rfl⟩ | ⟨-, hold⟩
      · refine ⟨lock, hlock, rfl, fun time htime => ?_⟩
        cases granted with
        | false =>
          rcases mem_claimed.mp htime with ⟨hheld, -⟩ | hpending
          · cases hheld
          · exact mem_claimed.mpr (.inr (claimed_settled hpending))
        | true =>
          have hown : max lock.since request.sentAt ∈ s.claimed request.replica lock :=
            mem_claimed.mpr (.inr ⟨request, hmem, rfl, hgranted rfl, hopen, rfl⟩)
          rcases mem_claimed.mp htime with ⟨-, rfl⟩ | hpending
          · exact hown
          · obtain ⟨r, hr, hreplica, hr', hsettled, rfl⟩ := claimed_settled hpending
            -- It is one of the two that were claimed before.
            rcases le_total r.sentAt (max lock.since request.sentAt) with hle | hle
            · show max (max lock.since request.sentAt) r.sentAt ∈ _
              rw [max_eq_left hle]
              exact hown
            · show max (max lock.since request.sentAt) r.sentAt ∈ _
              rw [max_eq_right hle]
              refine mem_claimed.mpr (.inr ⟨r, hr, hreplica, hr', hsettled, ?_⟩)
              exact (max_eq_right ((le_max_left _ _).trans hle)).symm
      · refine ⟨other, hold, rfl, fun time htime => ?_⟩
        rcases mem_claimed.mp htime with hheld | hpending
        · exact mem_claimed.mpr (.inl hheld)
        · exact mem_claimed.mpr (.inr (claimed_settled hpending))

/-! ## Commands -/

theorem claimed_reply {reply : LockReply} {k : Nat} {other : RedisLeaderLock} {time : Nat}
    (h : time ∈ (s.reply j request reply).claimed k other) : time ∈ s.claimed k other ∨
      k = request.replica ∧ ({ request with reply := some reply } : LockRequest).granted = true ∧
        time = max other.since request.sentAt := by
  rcases mem_claimed.mp h with hheld | ⟨r, hr, hreplica, hgranted, hsettled, htime⟩
  · exact .inl (mem_claimed.mpr (.inl hheld))
  · rcases List.mem_or_eq_of_mem_set hr with hold | rfl
    · exact .inl (mem_claimed.mpr (.inr ⟨r, hold, hreplica, hgranted, hsettled, htime⟩))
    · exact .inr ⟨hreplica.symm, hgranted, htime⟩

theorem leased_reply {reply : LockReply} (hs : s.Leased ttlMs) (hrequest : s.requests[j]? = some request)
    (hrefused : ({ request with reply := some reply } : LockRequest).granted = false) :
    (s.reply j request reply).Leased ttlMs := by
  refine leased_mono hs (Nat.le_refl s.now) rfl rfl (sent_set hs hrequest rfl) hs.since rfl ?_
  intro k other hother
  refine ⟨other, hother, rfl, fun time htime => ?_⟩
  rcases claimed_reply htime with hold | ⟨-, hgranted, -⟩
  · exact hold
  · rw [hrefused] at hgranted
    cases hgranted

/-- The lease becomes the replica's, or stays it: whoever has a claim that lasts is the replica. -/
theorem leased_extend {reply : LockReply} {touched : List (Nat × String)} (hs : s.Leased ttlMs)
    (hrequest : s.requests[j]? = some request) (hlock : s.locks[request.replica]? = some lock)
    (hown : ∀ k other, s.locks[k]? = some other → ∀ time ∈ s.claimed k other, s.now < time + ttlMs → k = request.replica)
    (htouched : ∀ touch ∈ touched, s.locks[touch.1]?.map RedisLeaderLock.holder = some touch.2) :
    ({ s.reply j request reply with lease := some ⟨lock.holder, s.now + ttlMs⟩, touched := touched } : LeaderElection).Leased
      ttlMs := by
  refine ⟨hs.distinct, sent_set hs hrequest rfl, hs.since, ?_, htouched⟩
  intro k other hother time htime hlasts
  have hbound : k = request.replica ∧ time ≤ s.now := by
    rcases claimed_reply htime with hold | ⟨hk, -, rfl⟩
    · exact ⟨hown k other hother time hold hlasts, claimed_le_now hs hother hold⟩
    · exact ⟨hk, max_le (hs.since other (List.mem_of_getElem? hother)) (hs.sent request (List.mem_of_getElem? hrequest))⟩
  obtain ⟨rfl, hbefore⟩ := hbound
  have hsame : lock = other := Option.some.inj (hlock.symm.trans hother)
  subst hsame
  exact ⟨_, rfl, rfl, Nat.add_le_add_right hbefore ttlMs⟩

/-- The lease is deleted: whoever has a claim that lasts is the replica, and it has none. -/
theorem leased_delete {reply : LockReply} {touched : List (Nat × String)} (hs : s.Leased ttlMs)
    (hrequest : s.requests[j]? = some request) (hlock : s.locks[request.replica]? = some lock)
    (hrefused : ({ request with reply := some reply } : LockRequest).granted = false)
    (hown : ∀ k other, s.locks[k]? = some other → ∀ time ∈ s.claimed k other, s.now < time + ttlMs → k = request.replica)
    (hnone : ∀ time ∈ s.claimed request.replica lock, time + ttlMs ≤ s.now)
    (htouched : ∀ touch ∈ touched, s.locks[touch.1]?.map RedisLeaderLock.holder = some touch.2) :
    ({ s.reply j request reply with lease := none, touched := touched } : LeaderElection).Leased ttlMs := by
  refine ⟨hs.distinct, sent_set hs hrequest rfl, hs.since, ?_, htouched⟩
  intro k other hother time htime hlasts
  rcases claimed_reply htime with hold | ⟨-, hgranted, -⟩
  · obtain rfl := hown k other hother time hold hlasts
    have hsame : lock = other := Option.some.inj (hlock.symm.trans hother)
    subst hsame
    exact absurd hlasts (Nat.not_lt_of_le (hnone time hold))
  · rw [hrefused] at hgranted
    cases hgranted

/-- A claim that lasts is on the lease that there is. -/
theorem owner_of_live (hs : s.Leased ttlMs) (hlock : s.locks[request.replica]? = some lock) {lease : Lease}
    (hlive : s.live = some lease) (hholder : lease.holder = lock.holder) :
    ∀ k other, s.locks[k]? = some other → ∀ time ∈ s.claimed k other, s.now < time + ttlMs → k = request.replica := by
  intro k other hother time htime hlasts
  obtain ⟨lease', hlive', hholder'⟩ := live_of_holds (hs.backed k other hother time htime hlasts) hlasts
  obtain rfl := Option.some.inj (hlive.symm.trans hlive')
  exact eq_of_holder hs hother hlock (hholder'.symm.trans hholder)

theorem touched_concat (hs : s.Leased ttlMs) (hlock : s.locks[request.replica]? = some lock) {lease : Lease}
    (hholder : lease.holder = lock.holder) : ∀ touch ∈ s.touched ++ [(request.replica, lease.holder)],
      s.locks[touch.1]?.map RedisLeaderLock.holder = some touch.2 := by
  intro touch htouch
  rcases List.mem_append.mp htouch with hold | hnew
  · exact hs.touched touch hold
  · rw [List.mem_singleton.mp hnew, hlock, Option.map_some, hholder]

theorem leased_execute (hs : s.Leased ttlMs) (hrequest : s.requests[j]? = some request)
    (hlock : s.locks[request.replica]? = some lock)
    (hreleases : request.command = .release → ∀ lease, s.live = some lease → lease.holder = lock.holder →
      ∀ time ∈ s.claimed request.replica lock, time + ttlMs ≤ s.now) :
    (s.execute ttlMs j request lock.holder).Leased ttlMs := by
  unfold LeaderElection.execute
  split
  · rename_i hcommand hlive
    apply leased_extend hs hrequest hlock
    · intro k other hother time htime hlasts
      obtain ⟨lease, hlease, -⟩ := live_of_holds (hs.backed k other hother time htime hlasts) hlasts
      cases hlive.symm.trans hlease
    · exact hs.touched
  · rename_i lease hcommand hlive
    apply leased_reply hs hrequest
    simp [LockRequest.granted, hcommand]
  · rename_i lease hcommand hlive
    split
    · rename_i hholder
      exact leased_extend hs hrequest hlock (owner_of_live hs hlock hlive hholder) (touched_concat hs hlock hholder)
    · apply leased_reply hs hrequest
      simp [LockRequest.granted, hcommand]
  · rename_i lease hcommand hlive
    split
    · rename_i hholder
      apply leased_delete hs hrequest hlock
      · simp [LockRequest.granted, hcommand]
      · exact owner_of_live hs hlock hlive hholder
      · exact hreleases hcommand lease hlive hholder
      · exact touched_concat hs hlock hholder
    · apply leased_reply hs hrequest
      simp [LockRequest.granted, hcommand]
  · rename_i hacquire
    apply leased_reply hs hrequest
    cases hcommand : request.command with
    | acquire => exact (hacquire hcommand).elim
    | renew => simp [LockRequest.granted]
    | release => simp [LockRequest.granted]

theorem leased_step (hs : s.Leased ttlMs) (hl : s.releasesUnled ttlMs l = true) (h : s.step ttlMs l = some s') :
    s'.Leased ttlMs := by
  cases l with
  | wait ms =>
    cases h
    have hlater : s.now ≤ s.now + ms := Nat.le_add_right _ _
    refine leased_mono hs hlater rfl rfl ?_ ?_ rfl ?_
    · exact fun request hrequest => (hs.sent request hrequest).trans hlater
    · exact fun lock hlock => (hs.since lock hlock).trans hlater
    · exact fun k other hother => ⟨other, hother, rfl, fun time htime => mem_claimed.mpr (mem_claimed.mp htime)⟩
  | tryAcquire i =>
    obtain ⟨lock, hlock, rfl⟩ := Option.map_eq_some_iff.mp h
    exact leased_send hs i _
  | release i =>
    obtain ⟨lock, hlock, rfl⟩ := Option.map_eq_some_iff.mp h
    split
    · exact leased_send (leased_stepDown hs hlock) i _
    · exact hs
  | execute j =>
    simp only [LeaderElection.step] at h
    split at h
    · rename_i request hrequest
      split at h
      · rename_i hpending
        obtain ⟨lock, hlock, rfl⟩ := Option.map_eq_some_iff.mp h
        apply leased_execute hs hrequest hlock
        intro hcommand lease hlive hholder time htime
        have hexpired : ∀ time ∈ s.claimed request.replica lock, time + ttlMs ≤ s.now := by
          simpa [releasesUnled, hrequest, hcommand, hlock, hlive, hholder, Option.isSome_eq_false_iff.mpr hpending] using hl
        exact hexpired time htime
      · cases h
    · cases h
  | respond j =>
    simp only [LeaderElection.step] at h
    split at h
    · rename_i request hrequest
      split at h
      · rename_i hopen
        obtain ⟨lock, hlock, rfl⟩ := Option.map_eq_some_iff.mp h
        exact leased_settle hs hrequest hlock hopen.2 id
      · cases h
    · cases h
  | fail j =>
    simp only [LeaderElection.step] at h
    split at h
    · rename_i request hrequest
      split at h
      · cases h
      · rename_i hopen
        obtain ⟨lock, hlock, rfl⟩ := Option.map_eq_some_iff.mp h
        exact leased_settle hs hrequest hlock (Bool.eq_false_of_not_eq_true hopen) (fun hfalse => by cases hfalse)
    · cases h

theorem exclusive_of_leased (hs : s.Leased ttlMs) : s.Exclusive ttlMs := by
  refine ⟨?_, hs.touched⟩
  intro i j hi hj
  obtain ⟨lock, hlock, hheld, hlasts⟩ := hi
  obtain ⟨other, hother, hheld', hlasts'⟩ := hj
  obtain ⟨lease, hlease, hholder, -⟩ := hs.backed i lock hlock lock.since (mem_claimed.mpr (.inl ⟨hheld, rfl⟩)) hlasts
  obtain ⟨lease', hlease', hholder', -⟩ :=
    hs.backed j other hother other.since (mem_claimed.mpr (.inl ⟨hheld', rfl⟩)) hlasts'
  obtain rfl := Option.some.inj (hlease.symm.trans hlease')
  exact eq_of_holder hs hlock hother (hholder.symm.trans hholder')

/-- One replica leads at most, along every run in which no release is executed
while its replica leads or is about to. -/
theorem leader_exclusive {ls : List LockLabel} (hdistinct : (s.locks.map RedisLeaderLock.holder).Nodup)
    (hlocks : ∀ lock ∈ s.locks, lock.held = false ∧ lock.since ≤ s.now) (hrequests : s.requests = [])
    (htouched : s.touched = [])
    (hmeets : Runs.Meets (LeaderElection.step ttlMs) (fun s l => s.releasesUnled ttlMs l = true) s ls)
    (hrun : Runs.run (LeaderElection.step ttlMs) s ls = some s') : s'.Exclusive ttlMs := by
  have hstart : s.Leased ttlMs := by
    refine ⟨hdistinct, by simp [hrequests], fun lock hlock => (hlocks lock hlock).2, ?_, by simp [htouched]⟩
    intro i lock hlock time htime
    rcases mem_claimed.mp htime with ⟨hheld, -⟩ | ⟨request, hrequest, -⟩
    · rw [(hlocks lock (List.mem_of_getElem? hlock)).1] at hheld
      cases hheld
    · rw [hrequests] at hrequest
      cases hrequest
  have hend : s'.Leased ttlMs :=
    Runs.invariant_of_meets (fun hs hl h => leased_step hs hl h) hstart hmeets hrun
  exact exclusive_of_leased hend

end

/-! ## A release and a renewal at once -/

def twoContenders : LeaderElection := ⟨0, none, [⟨"a", false, 0⟩, ⟨"b", false, 0⟩], [], []⟩

def handedOver : List LockLabel :=
  [.tryAcquire 0, .tryAcquire 1, .execute 0, .execute 1, .respond 1, .respond 0, .wait 10000, .tryAcquire 0, .execute 2,
    .respond 2, .release 0, .execute 3, .tryAcquire 1, .execute 4, .respond 4]

theorem leader_exclusive_handedOver : ∃ s, Runs.run (LeaderElection.step 30000) twoContenders handedOver = some s ∧
    s.locks = [⟨"a", false, 10000⟩, ⟨"b", true, 10000⟩] ∧ s.Exclusive 30000 := by
  have hrun : (Runs.run (LeaderElection.step 30000) twoContenders handedOver).map LeaderElection.locks =
      some [⟨"a", false, 10000⟩, ⟨"b", true, 10000⟩] := by
    decide +kernel
  obtain ⟨s, hs, hlocks⟩ := Option.map_eq_some_iff.mp hrun
  exact ⟨s, hs, hlocks, leader_exclusive (by decide) (by decide) rfl rfl (by decide +kernel) hs⟩

/-- The answer to a renewal comes after the release, and both replicas lead. -/
theorem two_leaders : ¬ ∀ (ttlMs : Nat) (s s' : LeaderElection) (ls : List LockLabel),
    (s.locks.map RedisLeaderLock.holder).Nodup → (∀ lock ∈ s.locks, lock.held = false ∧ lock.since ≤ s.now) →
    s.requests = [] → s.touched = [] → Runs.run (LeaderElection.step ttlMs) s ls = some s' → s'.Exclusive ttlMs := by
  intro hall
  have hrun : (Runs.run (LeaderElection.step 30000) twoContenders
      [.tryAcquire 0, .execute 0, .respond 0, .tryAcquire 0, .execute 1, .release 0, .execute 2, .respond 1,
        .tryAcquire 1, .execute 3, .respond 3]).map (fun s => (s.now, s.locks)) =
      some (0, [⟨"a", true, 0⟩, ⟨"b", true, 0⟩]) := by
    decide +kernel
  obtain ⟨s, hs, heq⟩ := Option.map_eq_some_iff.mp hrun
  obtain ⟨hnow, hlocks⟩ := Prod.mk.inj heq
  have hexclusive := hall _ _ s _ (by decide) (by decide) rfl rfl hs
  have hfirst : s.Leads 30000 0 := ⟨⟨"a", true, 0⟩, by rw [hlocks]; rfl, rfl, by rw [hnow]; decide⟩
  have hsecond : s.Leads 30000 1 := ⟨⟨"b", true, 0⟩, by rw [hlocks]; rfl, rfl, by rw [hnow]; decide⟩
  cases hexclusive.leader 0 1 hfirst hsecond

end Paymaster
