import Paymaster.Backend.LeaderLock

/-!
# Stopping a replica

A replica renews its lease on a timer. When it stops it cancels the timer and
releases the lease, for the others not to have to wait for it to expire. A
command of the last tick may still be under way then; and what it brings back is
not looked at again.
-/

namespace Paymaster

structure IntervalLoop where
  timer : Bool
  running : Bool
  stopped : Bool
deriving DecidableEq

def IntervalLoop.settle (loop : IntervalLoop) : IntervalLoop := { loop with running := false, timer := !loop.stopped }

structure LeadershipService where
  election : LeaderElection
  loop : IntervalLoop
  started : Bool

inductive LeadershipLabel
  | start
  | timer
  | stop
  /-- Time passes, another process does something, or a command goes on. -/
  | lock (l : LockLabel)
deriving DecidableEq

namespace LeadershipService

variable (ttlMs replica : Nat) (s : LeadershipService)

def tick : Option LeadershipService :=
  (s.election.step ttlMs (.tryAcquire replica)).map fun election =>
    { s with election := election, loop := { s.loop with timer := false, running := true } }

def ticking (j : Nat) : Bool :=
  s.election.requests[j]?.any fun request => request.replica = replica && request.command ≠ .release

def step : LeadershipLabel → Option LeadershipService
  | .start => if s.started ∨ s.loop.stopped then none else { s with started := true }.tick ttlMs replica
  | .timer => if s.loop.timer then if s.loop.running then some s else s.tick ttlMs replica else none
  | .stop =>
    if s.loop.stopped then none
    else
      (s.election.step ttlMs (.release replica)).map fun election =>
        { s with election := election, loop := { s.loop with timer := false, stopped := true } }
  | .lock l =>
    if l = .tryAcquire replica ∨ l = .release replica then none
    else
      (s.election.step ttlMs l).map fun election =>
        match l with
        | .respond j | .fail j =>
          { s with election := election, loop := if s.ticking replica j then s.loop.settle else s.loop }
        | _ => { s with election := election }

def Completed : Prop :=
  ∀ request ∈ s.election.requests, request.replica = replica → request.settled = true ∧ request.reply.isSome = true

def LeavesNothing : Prop :=
  s.loop.stopped = true → s.Completed replica → ∀ lock ∈ s.election.locks[replica]?,
    lock.held = false ∧ ∀ lease ∈ s.election.live, lease.holder ≠ lock.holder

/-- A process that is stopped knows of its lease, and no command of its last tick succeeds. -/
def stopsIdle : LeadershipLabel → Bool
  | .stop =>
    s.election.locks[replica]?.all fun lock =>
      lock.held || s.election.live.all fun lease => lease.holder ≠ lock.holder
  | .lock (.execute j) =>
    !s.loop.stopped || s.election.requests[j]?.all fun request =>
      request.replica ≠ replica || request.command ≠ .acquire || request.reply.isSome || s.election.live.isSome
  | .lock (.respond j) =>
    !s.loop.stopped || s.election.requests[j]?.all fun request => request.replica ≠ replica || !request.granted
  | _ => true

end LeadershipService

namespace LeaderElection

def Releasing (s : LeaderElection) (replica : Nat) (holder : String) : Prop :=
  (∃ request ∈ s.requests, request.replica = replica ∧ request.command = .release ∧ request.reply = none) ∨
    ∀ lease ∈ s.live, lease.holder ≠ holder

end LeaderElection

/-! ## Steps of the election -/

section
variable {ttlMs replica : Nat} {s s' : LeaderElection} {l : LockLabel} {j : Nat} {lock : RedisLeaderLock}
  {request : LockRequest}

open LeaderElection

theorem locks_execute {holder : String} : (s.execute ttlMs j request holder).locks = s.locks := by
  unfold LeaderElection.execute
  split
  · rfl
  · rfl
  · split <;> rfl
  · split <;> rfl
  · rfl

/-- A replica's own lock, when a command of its settles, or of another. -/
theorem locks_settle {granted : Bool} {k : Nat} {other : RedisLeaderLock} (hrequest : s.locks[request.replica]? = some lock)
    (hother : s.locks[k]? = some other) (hheld : other.held = false) (hgranted : request.replica = k → granted = false) :
    ∃ lock', (s.settle j request lock granted).locks[k]? = some lock' ∧ lock'.held = false ∧ lock'.holder = other.holder := by
  unfold settle
  dsimp only
  split
  · exact ⟨other, hother, hheld, rfl⟩
  · by_cases hk : request.replica = k
    · subst hk
      have hsame : lock = other := Option.some.inj (hrequest.symm.trans hother)
      subst hsame
      exact ⟨_, Pool.getElem?_set_self_of_some hother, hgranted rfl, rfl⟩
    · exact ⟨other, (List.getElem?_set_ne hk).trans hother, hheld, rfl⟩

theorem holders_settle {granted : Bool} (hlock : s.locks[request.replica]? = some lock) :
    (s.settle j request lock granted).locks.map RedisLeaderLock.holder = s.locks.map RedisLeaderLock.holder := by
  unfold settle
  dsimp only
  split
  · rfl
  · exact Pool.map_set_eq hlock rfl

theorem holders_step (h : s.step ttlMs l = some s') :
    s'.locks.map RedisLeaderLock.holder = s.locks.map RedisLeaderLock.holder := by
  cases l with
  | wait ms =>
    cases h
    rfl
  | tryAcquire i =>
    obtain ⟨lock, hlock, rfl⟩ := Option.map_eq_some_iff.mp h
    rfl
  | release i =>
    obtain ⟨lock, hlock, rfl⟩ := Option.map_eq_some_iff.mp h
    split
    · exact Pool.map_set_eq hlock rfl
    · rfl
  | execute j =>
    simp only [LeaderElection.step] at h
    split at h
    · split at h
      · obtain ⟨lock, hlock, rfl⟩ := Option.map_eq_some_iff.mp h
        rw [locks_execute]
      · cases h
    · cases h
  | respond j =>
    simp only [LeaderElection.step] at h
    split at h
    · split at h
      · obtain ⟨lock, hlock, rfl⟩ := Option.map_eq_some_iff.mp h
        exact holders_settle hlock
      · cases h
    · cases h
  | fail j =>
    simp only [LeaderElection.step] at h
    split at h
    · split at h
      · cases h
      · obtain ⟨lock, hlock, rfl⟩ := Option.map_eq_some_iff.mp h
        exact holders_settle hlock
    · cases h

theorem unheld_step (hlock : s.locks[replica]? = some lock) (hheld : lock.held = false)
    (hrelease : l ≠ .release replica)
    (hrefused : ∀ j request, l = .respond j → s.requests[j]? = some request → request.replica = replica →
      request.granted = false) (h : s.step ttlMs l = some s') :
    ∃ lock', s'.locks[replica]? = some lock' ∧ lock'.held = false ∧ lock'.holder = lock.holder := by
  cases l with
  | wait ms =>
    cases h
    exact ⟨lock, hlock, hheld, rfl⟩
  | tryAcquire i =>
    obtain ⟨other, hother, rfl⟩ := Option.map_eq_some_iff.mp h
    exact ⟨lock, hlock, hheld, rfl⟩
  | release i =>
    obtain ⟨other, hother, rfl⟩ := Option.map_eq_some_iff.mp h
    have hi : i ≠ replica := fun hi => hrelease (hi ▸ rfl)
    split
    · exact ⟨lock, (List.getElem?_set_ne hi).trans hlock, hheld, rfl⟩
    · exact ⟨lock, hlock, hheld, rfl⟩
  | execute j =>
    simp only [LeaderElection.step] at h
    split at h
    · split at h
      · obtain ⟨other, hother, rfl⟩ := Option.map_eq_some_iff.mp h
        rw [locks_execute]
        exact ⟨lock, hlock, hheld, rfl⟩
      · cases h
    · cases h
  | respond j =>
    simp only [LeaderElection.step] at h
    split at h
    · rename_i request hrequest
      split at h
      · obtain ⟨other, hother, rfl⟩ := Option.map_eq_some_iff.mp h
        exact locks_settle hother hlock hheld (hrefused j request rfl hrequest)
      · cases h
    · cases h
  | fail j =>
    simp only [LeaderElection.step] at h
    split at h
    · split at h
      · cases h
      · obtain ⟨other, hother, rfl⟩ := Option.map_eq_some_iff.mp h
        exact locks_settle hother hlock hheld fun _ => rfl
    · cases h

/-! ## Releasing -/

variable {holder : String}

theorem releasing_mono (hs : s.Releasing replica holder) (hlive : ∀ lease ∈ s'.live, lease ∈ s.live)
    (hrequests : ∀ request ∈ s.requests, request.replica = replica → request.command = .release → request.reply = none →
      ∃ request' ∈ s'.requests, request'.replica = replica ∧ request'.command = .release ∧ request'.reply = none) :
    s'.Releasing replica holder := by
  rcases hs with ⟨request, hrequest, hreplica, hcommand, hreply⟩ | hnone
  · exact .inl (hrequests request hrequest hreplica hcommand hreply)
  · exact .inr fun lease hlease => hnone lease (hlive lease hlease)

theorem releasing_set {request' : LockRequest} (hrequest : s.requests[j]? = some request)
    (hsame : request.command = .release → request.reply = none → request' = { request with settled := request'.settled }) :
    ∀ r ∈ s.requests, r.replica = replica → r.command = .release → r.reply = none →
      ∃ r' ∈ s.requests.set j request', r'.replica = replica ∧ r'.command = .release ∧ r'.reply = none := by
  intro r hr hreplica hcommand hreply
  obtain ⟨k, hk⟩ := List.mem_iff_getElem?.mp hr
  by_cases hkj : k = j
  · subst hkj
    obtain rfl := Option.some.inj (hrequest.symm.trans hk)
    refine ⟨request', List.mem_of_getElem? (Pool.getElem?_set_self_of_some hk), ?_⟩
    rw [hsame hcommand hreply]
    exact ⟨hreplica, hcommand, hreply⟩
  · exact ⟨r, List.mem_of_getElem? ((List.getElem?_set_ne (Ne.symm hkj)).trans hk), hreplica, hcommand, hreply⟩

theorem mem_live_wait {ms : Nat} {lease : Lease} (h : lease ∈ ({ s with now := s.now + ms } : LeaderElection).live) :
    lease ∈ s.live := by
  obtain ⟨hlease, hlasts⟩ := Option.filter_eq_some_iff.mp h
  refine Option.filter_eq_some_iff.mpr ⟨hlease, ?_⟩
  have hlater : s.now + ms < lease.expiresAt := of_decide_eq_true hlasts
  exact decide_eq_true ((Nat.le_add_right _ _).trans_lt hlater)

/-- A command of another replica, or one of the replica's own that takes nothing. -/
theorem releasing_execute (hdistinct : (s.locks.map RedisLeaderLock.holder).Nodup) {own : RedisLeaderLock}
    (hown : s.locks[replica]? = some own) (hs : s.Releasing replica own.holder) (hrequest : s.requests[j]? = some request)
    (hlock : s.locks[request.replica]? = some lock)
    (htaken : request.replica = replica → request.command = .acquire → s.live.isSome = true) :
    (s.execute ttlMs j request lock.holder).Releasing replica own.holder := by
  have hsame : ∀ reply : LockReply, request.command ≠ .release → (s.reply j request reply).Releasing replica own.holder := by
    intro reply hcommand
    exact releasing_mono hs (fun lease hlease => hlease) (releasing_set hrequest fun h => absurd h hcommand)
  have hholder : lock.holder = own.holder → request.replica = replica := by
    intro heq
    exact Pool.eq_of_nodup_map hdistinct hlock hown heq
  unfold LeaderElection.execute
  split
  · rename_i hcommand hlive
    refine .inr fun lease hlease => ?_
    have hnew : lease = ⟨lock.holder, s.now + ttlMs⟩ := by
      obtain ⟨hlease, -⟩ := Option.filter_eq_some_iff.mp hlease
      exact (Option.some.inj hlease).symm
    rw [hnew]
    intro heq
    have htaken := htaken (hholder heq) hcommand
    rw [hlive] at htaken
    cases htaken
  · rename_i lease hcommand hlive
    exact hsame _ (by rw [hcommand]; decide)
  · rename_i lease hcommand hlive
    split
    · rename_i hheld
      by_cases heq : lock.holder = own.holder
      · -- The lease stays the replica's, and the release is still to come.
        rcases hs with ⟨release, hrelease, hreplica, hrel, hpending⟩ | hnone
        · exact .inl (releasing_set hrequest (fun h => by rw [hcommand] at h; cases h) release hrelease hreplica hrel hpending)
        · exact absurd (hheld.trans heq) (hnone lease hlive)
      · refine .inr fun lease' hlease' => ?_
        obtain ⟨hlease', -⟩ := Option.filter_eq_some_iff.mp hlease'
        obtain rfl := Option.some.inj hlease'
        exact heq
    · exact hsame _ (by rw [hcommand]; decide)
  · rename_i lease hcommand hlive
    split
    · refine .inr fun lease' hlease' => ?_
      obtain ⟨hlease', -⟩ := Option.filter_eq_some_iff.mp hlease'
      cases hlease'
    · rename_i hother
      by_cases heq : lock.holder = own.holder
      · refine .inr fun lease' hlease' => ?_
        obtain rfl := Option.some.inj (hlive.symm.trans hlease')
        rw [← heq]
        exact hother
      · have hne : request.replica ≠ replica := by
          intro hreplica
          rw [hreplica] at hlock
          exact heq (congrArg RedisLeaderLock.holder (Option.some.inj (hlock.symm.trans hown)))
        rcases hs with ⟨release, hrelease, hreplica, hrel, hpending⟩ | hnone
        · refine .inl ⟨release, ?_, hreplica, hrel, hpending⟩
          obtain ⟨k, hk⟩ := List.mem_iff_getElem?.mp hrelease
          have hkj : j ≠ k := by
            rintro rfl
            obtain rfl := Option.some.inj (hrequest.symm.trans hk)
            exact hne hreplica
          exact List.mem_of_getElem? ((List.getElem?_set_ne hkj).trans hk)
        · exact .inr hnone
  · rename_i hlive _
    refine .inr fun lease hlease => ?_
    cases hlive.symm.trans hlease

theorem releasing_step (hdistinct : (s.locks.map RedisLeaderLock.holder).Nodup) {own : RedisLeaderLock}
    (hown : s.locks[replica]? = some own) (hs : s.Releasing replica own.holder)
    (htaken : ∀ j request, l = .execute j → s.requests[j]? = some request → request.replica = replica →
      request.command = .acquire → request.reply = none → s.live.isSome = true)
    (h : s.step ttlMs l = some s') : s'.Releasing replica own.holder := by
  have hsent : ∀ (i : Nat) (command : LockCommand) (locks : List RedisLeaderLock),
      (({ s with locks := locks } : LeaderElection).send i command).Releasing replica own.holder := by
    intro i command locks
    exact releasing_mono hs (fun lease hlease => hlease) fun request hrequest hreplica hcommand hreply =>
      ⟨request, List.mem_append_left _ hrequest, hreplica, hcommand, hreply⟩
  have hsettled : ∀ j request (lock : RedisLeaderLock) granted, s.requests[j]? = some request →
      (s.settle j request lock granted).Releasing replica own.holder := by
    intro j request lock granted hrequest
    exact releasing_mono hs (fun lease hlease => hlease) (releasing_set hrequest fun _ _ => rfl)
  cases l with
  | wait ms =>
    cases h
    exact releasing_mono hs (fun lease hlease => mem_live_wait hlease) fun request hrequest hreplica hcommand hreply =>
      ⟨request, hrequest, hreplica, hcommand, hreply⟩
  | tryAcquire i =>
    obtain ⟨lock, hlock, rfl⟩ := Option.map_eq_some_iff.mp h
    exact hsent i _ s.locks
  | release i =>
    obtain ⟨lock, hlock, rfl⟩ := Option.map_eq_some_iff.mp h
    split
    · exact hsent i _ _
    · exact hs
  | execute j =>
    simp only [LeaderElection.step] at h
    split at h
    · rename_i request hrequest
      split at h
      · rename_i hpending
        obtain ⟨lock, hlock, rfl⟩ := Option.map_eq_some_iff.mp h
        exact releasing_execute hdistinct hown hs hrequest hlock fun hreplica hcommand =>
          htaken j request rfl hrequest hreplica hcommand (Option.isNone_iff_eq_none.mp hpending)
      · cases h
    · cases h
  | respond j =>
    simp only [LeaderElection.step] at h
    split at h
    · rename_i request hrequest
      split at h
      · obtain ⟨lock, hlock, rfl⟩ := Option.map_eq_some_iff.mp h
        exact hsettled j request lock _ hrequest
      · cases h
    · cases h
  | fail j =>
    simp only [LeaderElection.step] at h
    split at h
    · rename_i request hrequest
      split at h
      · cases h
      · obtain ⟨lock, hlock, rfl⟩ := Option.map_eq_some_iff.mp h
        exact hsettled j request lock _ hrequest
    · cases h

end

/-! ## Steps of the service -/

section
variable {ttlMs replica : Nat} {s s' : LeadershipService} {l : LeadershipLabel}

open LeadershipService

namespace LeadershipService

/-- The invariant: a process that is stopped does not lead, and its lease is not
its own, or is going to be released. -/
structure Stopping (replica : Nat) (s : LeadershipService) : Prop where
  distinct : (s.election.locks.map RedisLeaderLock.holder).Nodup
  stopped : s.loop.stopped = true → ∃ lock, s.election.locks[replica]? = some lock ∧ lock.held = false ∧
    s.election.Releasing replica lock.holder

end LeadershipService

theorem stopping_election {election : LeaderElection} {el : LockLabel} (hs : s.Stopping replica)
    (hstopped : s.loop.stopped = true) (hrelease : el ≠ .release replica)
    (hrefused : ∀ j request, el = .respond j → s.election.requests[j]? = some request → request.replica = replica →
      request.granted = false)
    (htaken : ∀ j request, el = .execute j → s.election.requests[j]? = some request → request.replica = replica →
      request.command = .acquire → request.reply = none → s.election.live.isSome = true)
    (h : s.election.step ttlMs el = some election) :
    ∃ lock, election.locks[replica]? = some lock ∧ lock.held = false ∧ election.Releasing replica lock.holder := by
  obtain ⟨lock, hlock, hheld, hreleasing⟩ := hs.stopped hstopped
  obtain ⟨lock', hlock', hheld', hholder⟩ := unheld_step hlock hheld hrelease hrefused h
  refine ⟨lock', hlock', hheld', ?_⟩
  rw [hholder]
  exact releasing_step hs.distinct hlock hreleasing htaken h

theorem distinct_step {election : LeaderElection} {el : LockLabel} (hs : s.Stopping replica)
    (h : s.election.step ttlMs el = some election) : (election.locks.map RedisLeaderLock.holder).Nodup := by
  rw [holders_step h]
  exact hs.distinct

theorem stopping_tick (hs : s.Stopping replica) (h : s.tick ttlMs replica = some s') : s'.Stopping replica := by
  obtain ⟨election, helection, rfl⟩ := Option.map_eq_some_iff.mp h
  refine ⟨distinct_step hs helection, fun hstopped => ?_⟩
  exact stopping_election hs hstopped (by simp) (by simp) (by simp) helection

/-- Releasing a lease that the process knows of, or that it does not have. -/
theorem stopping_stop {election : LeaderElection} (hl : s.stopsIdle replica .stop = true)
    (h : s.election.step ttlMs (.release replica) = some election) :
    ∃ lock, election.locks[replica]? = some lock ∧ lock.held = false ∧ election.Releasing replica lock.holder := by
  obtain ⟨lock, hlock, rfl⟩ := Option.map_eq_some_iff.mp h
  split
  · refine ⟨_, Pool.getElem?_set_self_of_some hlock, rfl, .inl ⟨⟨replica, .release, s.election.now, none, false⟩, ?_, rfl, rfl, rfl⟩⟩
    exact List.mem_append_right _ (List.mem_singleton_self _)
  · rename_i hheld
    refine ⟨lock, hlock, Bool.eq_false_of_not_eq_true hheld, .inr fun lease hlease => ?_⟩
    have hlive : s.election.live = some lease := hlease
    simpa [stopsIdle, hlock, hheld, hlive] using hl

theorem stopping_step (hs : s.Stopping replica) (hl : s.stopsIdle replica l = true) (h : s.step ttlMs replica l = some s') :
    s'.Stopping replica := by
  cases l with
  | start =>
    simp only [LeadershipService.step] at h
    split at h
    · cases h
    · have hstarted : ({ s with started := true } : LeadershipService).Stopping replica := ⟨hs.distinct, hs.stopped⟩
      exact stopping_tick hstarted h
  | timer =>
    simp only [LeadershipService.step] at h
    split at h
    · split at h
      · cases h
        exact hs
      · exact stopping_tick hs h
    · cases h
  | stop =>
    simp only [LeadershipService.step] at h
    split at h
    · cases h
    · obtain ⟨election, helection, rfl⟩ := Option.map_eq_some_iff.mp h
      exact ⟨distinct_step hs helection, fun _ => stopping_stop hl helection⟩
  | lock el =>
    simp only [LeadershipService.step] at h
    split at h
    · cases h
    · rename_i hother
      obtain ⟨election, helection, rfl⟩ := Option.map_eq_some_iff.mp h
      have hkept : s.loop.stopped = true → ∃ lock, election.locks[replica]? = some lock ∧ lock.held = false ∧
          election.Releasing replica lock.holder := by
        intro hstopped
        refine stopping_election hs hstopped (not_or.mp hother).2 ?_ ?_ helection
        · rintro j request rfl hrequest hreplica
          simpa [stopsIdle, hstopped, hrequest, hreplica] using hl
        · rintro j request rfl hrequest hreplica hcommand hreply
          simpa [stopsIdle, hstopped, hrequest, hreplica, hcommand, hreply] using hl
      have hdistinct := distinct_step hs helection
      split
      · split
        · exact ⟨hdistinct, hkept⟩
        · exact ⟨hdistinct, hkept⟩
      · split
        · exact ⟨hdistinct, hkept⟩
        · exact ⟨hdistinct, hkept⟩
      · exact ⟨hdistinct, hkept⟩

theorem leavesNothing_of_stopping (hs : s.Stopping replica) : s.LeavesNothing replica := by
  intro hstopped hcompleted lock hlock
  obtain ⟨own, hown, hheld, hreleasing⟩ := hs.stopped hstopped
  obtain rfl := Option.some.inj (hown.symm.trans hlock)
  refine ⟨hheld, ?_⟩
  rcases hreleasing with ⟨request, hrequest, hreplica, -, hreply⟩ | hnone
  · have hexecuted := (hcompleted request hrequest hreplica).2
    rw [hreply] at hexecuted
    cases hexecuted
  · exact hnone

/-- A stopped process leaves nothing behind, along every run in which it knows of
its lease when it stops and no command of its last tick succeeds. -/
theorem stopped_leaves_nothing {ls : List LeadershipLabel}
    (hdistinct : (s.election.locks.map RedisLeaderLock.holder).Nodup) (hstopped : s.loop.stopped = false)
    (hmeets : Runs.Meets (LeadershipService.step ttlMs replica) (fun s l => s.stopsIdle replica l = true) s ls)
    (hrun : Runs.run (LeadershipService.step ttlMs replica) s ls = some s') : s'.LeavesNothing replica := by
  have hstart : s.Stopping replica := by
    refine ⟨hdistinct, fun h => ?_⟩
    rw [hstopped] at h
    cases h
  have hend : s'.Stopping replica :=
    Runs.invariant_of_meets (fun hs hl h => stopping_step hs hl h) hstart hmeets hrun
  exact leavesNothing_of_stopping hend

end

/-! ## Stopping during a tick -/

def startingService : LeadershipService := ⟨twoContenders, ⟨false, false, false⟩, false⟩

def stoppedBetweenTicks : List LeadershipLabel :=
  [.start, .lock (.execute 0), .lock (.respond 0), .stop, .lock (.execute 1), .lock (.respond 1), .lock (.tryAcquire 1),
    .lock (.execute 2), .lock (.respond 2)]

theorem stopped_leaves_nothing_between_ticks : ∃ s,
    Runs.run (LeadershipService.step 30000 0) startingService stoppedBetweenTicks = some s ∧
      s.election.lease = some ⟨"b", 30000⟩ ∧ s.LeavesNothing 0 := by
  have hrun : (Runs.run (LeadershipService.step 30000 0) startingService stoppedBetweenTicks).map
      (fun s => s.election.lease) = some (some ⟨"b", 30000⟩) := by
    decide +kernel
  obtain ⟨s, hs, hlease⟩ := Option.map_eq_some_iff.mp hrun
  exact ⟨s, hs, hlease, stopped_leaves_nothing (by decide) rfl (by decide +kernel) hs⟩

/-- The first acquisition is under way when the process stops: it leads, and the lease is its own. -/
theorem stopped_leads : ¬ ∀ (ttlMs replica : Nat) (s s' : LeadershipService) (ls : List LeadershipLabel),
    (s.election.locks.map RedisLeaderLock.holder).Nodup → s.loop.stopped = false →
    Runs.run (LeadershipService.step ttlMs replica) s ls = some s' → s'.LeavesNothing replica := by
  intro hall
  have hrun : (Runs.run (LeadershipService.step 30000 0) startingService
      [.start, .stop, .lock (.execute 0), .lock (.respond 0)]).map
      (fun s => (s.loop.stopped, s.election.requests, s.election.locks)) =
      some (true, [⟨0, .acquire, 0, some .ok, true⟩], [⟨"a", true, 0⟩, ⟨"b", false, 0⟩]) := by
    decide +kernel
  obtain ⟨s, hs, heq⟩ := Option.map_eq_some_iff.mp hrun
  obtain ⟨hstopped, heq⟩ := Prod.mk.inj heq
  obtain ⟨hrequests, hlocks⟩ := Prod.mk.inj heq
  have hcompleted : s.Completed 0 := by
    intro request hrequest _
    rw [hrequests, List.mem_singleton] at hrequest
    rw [hrequest]
    exact ⟨rfl, rfl⟩
  have hheld := (hall _ _ _ s _ (by decide) rfl hs hstopped hcompleted ⟨"a", true, 0⟩ (by rw [hlocks]; rfl)).1
  cases hheld

end Paymaster
