import Paymaster.Backend.Policy
import Paymaster.Lib.Pool
import Paymaster.Lib.Run

/-!
# Reloading policies

A reload loads the policies and installs them when they have arrived. The
reloader never has two of them in progress; the admin service reloads on its
own, beside the reloader and beside itself. A load that another one has overtaken
can bring back what was there before.
-/

namespace Paymaster

/-- Who asked for a load: an admin request, which wants a state of the database
to be served before it answers, or the reloader. -/
inductive LoadOrigin
  | admin (wanted : Nat)
  | reloader
deriving DecidableEq

/-- A load in progress, with the last state of the database and the number of
installations when it started. -/
structure PolicyLoad where
  origin : LoadOrigin
  started : Nat
  generation : Nat
deriving DecidableEq

/-- A replica. `history` are the states of the database, each as the policies
that a load of it builds; `installed` is the one that `source` was loaded from,
and `swaps` are the installations, with the states before and after. An admin
request is known by the state that it wants: `written` have not reloaded yet,
`loaded` have, and `returned` have answered. A call of the reloader is known by
the last state when it came: `waiting` calls came after the last attempt started,
`answered` ones before it, with the state that it started from, and `dropped`
ones were waiting when the reloader became idle. -/
structure PolicyReplica where
  history : List PolicySource
  source : PolicySource
  installed : Nat
  generation : Nat
  swaps : List (Nat × Nat)
  loads : List PolicyLoad
  reloading : Bool
  reloadAgain : Bool
  coalescing : Bool
  written : List Nat
  loaded : List Nat
  returned : List Nat
  waiting : List Nat
  answered : List (Nat × Nat)
  dropped : List Nat

inductive ReloadLabel
  /-- A change that another replica commits. -/
  | change (policies : PolicySource)
  /-- `upsertPolicy` or `deletePolicy` commits its change. -/
  | write (policies : PolicySource)
  | reloadPolicies
  /-- An admin request calls `reload`. -/
  | load (i : Nat)
  | respond (i : Nat)
  | tick
  | broadcast
  /-- The timer that collects broadcasts fires. -/
  | coalesced
  /-- A load returns a state of the database since it started. -/
  | finish (j state : Nat)
  | fail (j : Nat)

namespace PolicyReplica

variable (s : PolicyReplica)

def latest : Nat := s.history.length - 1

def startLoad (origin : LoadOrigin) : PolicyReplica :=
  { s with loads := s.loads ++ [⟨origin, s.latest, s.generation⟩] }

def attempt : PolicyReplica :=
  { s.startLoad .reloader with
    reloadAgain := false
    waiting := []
    answered := s.answered ++ s.waiting.map fun called => (called, s.latest) }

def idle : PolicyReplica :=
  { s with reloading := false, waiting := [], dropped := s.dropped ++ s.waiting }

def reloadNow : PolicyReplica :=
  let s := { s with waiting := s.waiting ++ [s.latest] }
  if s.reloading then { s with reloadAgain := true } else { s.attempt with reloading := true }

def install (j state : Nat) (policies : PolicySource) : PolicyReplica :=
  { s with
    source := policies
    installed := state
    generation := s.generation + 1
    swaps := s.swaps ++ [(s.installed, state)]
    loads := s.loads.eraseIdx j }

def resume : LoadOrigin → PolicyReplica
  | .admin wanted => { s with loaded := s.loaded ++ [wanted] }
  | .reloader =>
    if s.reloadAgain then s.attempt else s.idle

def step : ReloadLabel → Option PolicyReplica
  | .change policies => some { s with history := s.history ++ [policies] }
  | .write policies =>
    some { s with history := s.history ++ [policies], written := s.written ++ [s.history.length] }
  | .reloadPolicies => some { s with written := s.written ++ [s.latest] }
  | .load i =>
    s.written[i]?.map fun wanted => { s.startLoad (.admin wanted) with written := s.written.eraseIdx i }
  | .respond i =>
    s.loaded[i]?.map fun wanted => { s with loaded := s.loaded.eraseIdx i, returned := s.returned ++ [wanted] }
  | .tick => some s.reloadNow
  | .broadcast => some { s with coalescing := true }
  | .coalesced => if s.coalescing then some { s with coalescing := false }.reloadNow else none
  | .finish j state =>
    match s.loads[j]?, s.history[state]? with
    | some load, some policies =>
      if load.started ≤ state then some ((s.install j state policies).resume load.origin) else none
    | _, _ => none
  | .fail j =>
    match s.loads[j]? with
    -- The request fails with its load.
    | some ⟨.admin _, _, _⟩ => some { s with loads := s.loads.eraseIdx j }
    | some ⟨.reloader, _, _⟩ => some { s with loads := s.loads.eraseIdx j }.idle
    | none => none

structure Booted : Prop where
  loads : s.loads = []
  idle : s.reloading = false
  waiting : s.waiting = []
  answered : s.answered = []
  dropped : s.dropped = []
  swaps : s.swaps = []
  loaded : s.loaded = []
  returned : s.returned = []
  written : s.written = []
  source : s.history[s.installed]? = some s.source

/-- No installation went back, and every change that was answered for is served. -/
structure NeverBackwards : Prop where
  swaps : ∀ swap ∈ s.swaps, swap.1 ≤ swap.2
  returned : ∀ wanted ∈ s.returned, wanted ≤ s.installed

/-- A load is not installed once another one has overtaken it. -/
def notOvertaken : ReloadLabel → Bool
  | .finish j _ => s.loads[j]?.all fun load => load.generation = s.generation
  | _ => true

/-- The invariant: a load that has not been overtaken brings nothing older than
what is installed, and what its request wants. -/
structure Ordered (s : PolicyReplica) : Prop where
  source : s.history[s.installed]? = some s.source
  loads : ∀ load ∈ s.loads, load.started < s.history.length ∧ load.generation ≤ s.generation ∧
    (load.generation = s.generation → s.installed ≤ load.started)
  wanted : ∀ load ∈ s.loads, ∀ wanted, load.origin = .admin wanted → wanted ≤ load.started
  written : ∀ wanted ∈ s.written, wanted < s.history.length
  loaded : ∀ wanted ∈ s.loaded, wanted ≤ s.installed
  forward : s.NeverBackwards

/-- What the reloader by itself keeps: at most one load in progress, which nothing has overtaken. -/
structure Serialised (s : PolicyReplica) : Prop where
  current : ∀ load ∈ s.loads, load.origin = .reloader ∧ load.generation = s.generation
  single : s.loads.length = if s.reloading then 1 else 0

end PolicyReplica

/-! ## Steps -/

section
variable {s s' : PolicyReplica} {l : ReloadLabel}

open PolicyReplica

inductive ReloadStep (s : PolicyReplica) : ReloadLabel → PolicyReplica → Prop
  | change (policies : PolicySource) : ReloadStep s (.change policies) { s with history := s.history ++ [policies] }
  | write (policies : PolicySource) :
    ReloadStep s (.write policies) { s with history := s.history ++ [policies], written := s.written ++ [s.history.length] }
  | reloadPolicies : ReloadStep s .reloadPolicies { s with written := s.written ++ [s.latest] }
  | load {i wanted : Nat} : s.written[i]? = some wanted →
    ReloadStep s (.load i) { s.startLoad (.admin wanted) with written := s.written.eraseIdx i }
  | respond {i wanted : Nat} : s.loaded[i]? = some wanted →
    ReloadStep s (.respond i) { s with loaded := s.loaded.eraseIdx i, returned := s.returned ++ [wanted] }
  | tick : ReloadStep s .tick s.reloadNow
  | broadcast : ReloadStep s .broadcast { s with coalescing := true }
  | coalesced : ReloadStep s .coalesced { s with coalescing := false }.reloadNow
  | finish {j state : Nat} {load : PolicyLoad} {policies : PolicySource} : s.loads[j]? = some load →
    s.history[state]? = some policies → load.started ≤ state →
    ReloadStep s (.finish j state) ((s.install j state policies).resume load.origin)
  | failAdmin {j wanted started generation : Nat} : s.loads[j]? = some ⟨.admin wanted, started, generation⟩ →
    ReloadStep s (.fail j) { s with loads := s.loads.eraseIdx j }
  | failReloader {j started generation : Nat} : s.loads[j]? = some ⟨.reloader, started, generation⟩ →
    ReloadStep s (.fail j) { s with loads := s.loads.eraseIdx j }.idle

theorem reloadStep_cases (h : s.step l = some s') : ReloadStep s l s' := by
  cases l with
  | change policies =>
    cases h
    exact .change policies
  | write policies =>
    cases h
    exact .write policies
  | reloadPolicies =>
    cases h
    exact .reloadPolicies
  | load i =>
    obtain ⟨wanted, hwanted, rfl⟩ := Option.map_eq_some_iff.mp h
    exact .load hwanted
  | respond i =>
    obtain ⟨wanted, hwanted, rfl⟩ := Option.map_eq_some_iff.mp h
    exact .respond hwanted
  | tick =>
    cases h
    exact .tick
  | broadcast =>
    cases h
    exact .broadcast
  | coalesced =>
    simp only [PolicyReplica.step] at h
    split at h
    · cases h
      exact .coalesced
    · cases h
  | finish j state =>
    simp only [PolicyReplica.step] at h
    split at h
    · rename_i load policies hload hpolicies
      split at h
      · rename_i hstate
        cases h
        exact .finish hload hpolicies hstate
      · cases h
    · cases h
  | fail j =>
    simp only [PolicyReplica.step] at h
    split at h
    · rename_i wanted started generation hload
      cases h
      exact .failAdmin hload
    · rename_i started generation hload
      cases h
      exact .failReloader hload
    · cases h

theorem ordered_latest (hs : s.Ordered) : s.latest < s.history.length ∧ s.installed ≤ s.latest := by
  have hinstalled := (List.getElem?_eq_some_iff.mp hs.source).1
  unfold latest
  omega

theorem ordered_flags (hs : s.Ordered) (reloading reloadAgain coalescing : Bool) (waiting dropped : List Nat)
    (answered : List (Nat × Nat)) :
    ({ s with
      reloading := reloading, reloadAgain := reloadAgain, coalescing := coalescing, waiting := waiting,
      dropped := dropped, answered := answered } : PolicyReplica).Ordered :=
  ⟨hs.source, hs.loads, hs.wanted, hs.written, hs.loaded, ⟨hs.forward.swaps, hs.forward.returned⟩⟩

theorem ordered_startLoad (hs : s.Ordered) (origin : LoadOrigin)
    (hwanted : ∀ wanted, origin = .admin wanted → wanted ≤ s.latest) : (s.startLoad origin).Ordered := by
  obtain ⟨hlatest, hinstalled⟩ := ordered_latest hs
  refine ⟨hs.source, ?_, ?_, hs.written, hs.loaded, ⟨hs.forward.swaps, hs.forward.returned⟩⟩
  · intro load hload
    rcases List.mem_append.mp hload with hold | hnew
    · exact hs.loads load hold
    · rw [List.mem_singleton.mp hnew]
      exact ⟨hlatest, Nat.le_refl _, fun _ => hinstalled⟩
  · intro load hload wanted horigin
    rcases List.mem_append.mp hload with hold | hnew
    · exact hs.wanted load hold wanted horigin
    · rw [List.mem_singleton.mp hnew] at horigin ⊢
      exact hwanted wanted horigin

theorem ordered_attempt (hs : s.Ordered) : s.attempt.Ordered := by
  have hstarted := ordered_startLoad hs .reloader fun wanted heq => by cases heq
  exact ordered_flags hstarted _ _ _ _ _ _

theorem ordered_reloadNow (hs : s.Ordered) : s.reloadNow.Ordered := by
  have hcalled : ({ s with waiting := s.waiting ++ [s.latest] } : PolicyReplica).Ordered := ordered_flags hs _ _ _ _ _ _
  unfold reloadNow
  dsimp only
  split
  · exact ordered_flags hcalled _ _ _ _ _ _
  · exact ordered_flags (ordered_attempt hcalled) _ _ _ _ _ _

/-- A change of the database takes nothing back. -/
theorem ordered_change (hs : s.Ordered) (policies : PolicySource) :
    ({ s with history := s.history ++ [policies] } : PolicyReplica).Ordered := by
  have hlonger : s.history.length ≤ (s.history ++ [policies]).length := by simp
  refine ⟨?_, ?_, hs.wanted, ?_, hs.loaded, ⟨hs.forward.swaps, hs.forward.returned⟩⟩
  · show (s.history ++ [policies])[s.installed]? = some s.source
    rw [List.getElem?_append_left (List.getElem?_eq_some_iff.mp hs.source).1]
    exact hs.source
  · intro load hload
    obtain ⟨hstarted, hrest⟩ := hs.loads load hload
    exact ⟨hstarted.trans_le hlonger, hrest⟩
  · intro wanted hwanted
    exact (hs.written wanted hwanted).trans_le hlonger

variable {j state : Nat} {load : PolicyLoad} {policies : PolicySource}

/-- A load that nothing has overtaken moves the replica forward. -/
theorem ordered_install (hs : s.Ordered) (hload : s.loads[j]? = some load) (hcurrent : load.generation = s.generation)
    (hstate : load.started ≤ state) (hpolicies : s.history[state]? = some policies) :
    (s.install j state policies).Ordered := by
  obtain ⟨-, -, hold⟩ := hs.loads load (List.mem_of_getElem? hload)
  have hforward : s.installed ≤ state := (hold hcurrent).trans hstate
  refine ⟨hpolicies, ?_, ?_, hs.written, ?_, ⟨?_, ?_⟩⟩
  · intro other hother
    obtain ⟨hstarted, hgeneration, -⟩ := hs.loads other (List.mem_of_mem_eraseIdx hother)
    refine ⟨hstarted, hgeneration.trans (Nat.le_succ _), fun heq => ?_⟩
    -- Every other load has been overtaken now.
    change other.generation = s.generation + 1 at heq
    omega
  · intro other hother
    exact hs.wanted other (List.mem_of_mem_eraseIdx hother)
  · intro wanted hwanted
    exact (hs.loaded wanted hwanted).trans hforward
  · intro swap hswap
    rcases List.mem_append.mp hswap with hbefore | hnew
    · exact hs.forward.swaps swap hbefore
    · rw [List.mem_singleton.mp hnew]
      exact hforward
  · intro wanted hwanted
    exact (hs.forward.returned wanted hwanted).trans hforward

theorem ordered_resume (hs : s.Ordered) {origin : LoadOrigin}
    (hwanted : ∀ wanted, origin = .admin wanted → wanted ≤ s.installed) : (s.resume origin).Ordered := by
  cases origin with
  | admin wanted =>
    refine ⟨hs.source, hs.loads, hs.wanted, hs.written, ?_, ⟨hs.forward.swaps, hs.forward.returned⟩⟩
    intro other hother
    rcases List.mem_append.mp hother with hold | hnew
    · exact hs.loaded other hold
    · rw [List.mem_singleton.mp hnew]
      exact hwanted wanted rfl
  | reloader =>
    simp only [resume]
    split
    · exact ordered_attempt hs
    · exact ordered_flags hs _ _ _ _ _ _

theorem ordered_fail (hs : s.Ordered) (j : Nat) :
    ({ s with loads := s.loads.eraseIdx j } : PolicyReplica).Ordered :=
  ⟨hs.source, fun load hload => hs.loads load (List.mem_of_mem_eraseIdx hload),
    fun load hload => hs.wanted load (List.mem_of_mem_eraseIdx hload), hs.written, hs.loaded,
    ⟨hs.forward.swaps, hs.forward.returned⟩⟩

theorem ordered_step (hs : s.Ordered) (hl : s.notOvertaken l = true) (h : s.step l = some s') : s'.Ordered := by
  cases reloadStep_cases h with
  | change policies => exact ordered_change hs policies
  | write policies =>
    have hchanged := ordered_change hs policies
    refine ⟨hchanged.source, hchanged.loads, hs.wanted, ?_, hs.loaded, ⟨hs.forward.swaps, hs.forward.returned⟩⟩
    intro wanted hwanted
    rcases List.mem_append.mp hwanted with hold | hnew
    · exact hchanged.written wanted hold
    · rw [List.mem_singleton.mp hnew, List.length_append]
      exact Nat.lt_succ_self _
  | reloadPolicies =>
    refine ⟨hs.source, hs.loads, hs.wanted, ?_, hs.loaded, ⟨hs.forward.swaps, hs.forward.returned⟩⟩
    intro wanted hwanted
    rcases List.mem_append.mp hwanted with hold | hnew
    · exact hs.written wanted hold
    · rw [List.mem_singleton.mp hnew]
      exact (ordered_latest hs).1
  | @load i wanted hwanted =>
    have hbefore : wanted ≤ s.latest := by
      have hlt := hs.written wanted (List.mem_of_getElem? hwanted)
      unfold latest
      omega
    have hstarted := ordered_startLoad hs (.admin wanted) fun other heq => by
      cases heq
      exact hbefore
    exact ⟨hstarted.source, hstarted.loads, hstarted.wanted, fun other hother =>
      hs.written other (List.mem_of_mem_eraseIdx hother), hs.loaded, ⟨hs.forward.swaps, hs.forward.returned⟩⟩
  | @respond i wanted hwanted =>
    refine ⟨hs.source, hs.loads, hs.wanted, hs.written, fun other hother =>
      hs.loaded other (List.mem_of_mem_eraseIdx hother), ⟨hs.forward.swaps, ?_⟩⟩
    intro other hother
    rcases List.mem_append.mp hother with hold | hnew
    · exact hs.forward.returned other hold
    · rw [List.mem_singleton.mp hnew]
      exact hs.loaded wanted (List.mem_of_getElem? hwanted)
  | tick => exact ordered_reloadNow hs
  | broadcast => exact ordered_flags hs _ _ _ _ _ _
  | coalesced =>
    have hdisarmed : ({ s with coalescing := false } : PolicyReplica).Ordered := ordered_flags hs _ _ _ _ _ _
    exact ordered_reloadNow hdisarmed
  | finish hload hpolicies hstate =>
    simp only [notOvertaken, hload, Option.all_some, decide_eq_true_eq] at hl
    refine ordered_resume (ordered_install hs hload hl hstate hpolicies) fun wanted horigin => ?_
    exact (hs.wanted _ (List.mem_of_getElem? hload) wanted horigin).trans hstate
  | failAdmin => exact ordered_fail hs _
  | failReloader => exact ordered_flags (ordered_fail hs _) _ _ _ _ _ _

theorem ordered_booted (hs : s.Booted) : s.Ordered := by
  refine ⟨hs.source, ?_, ?_, ?_, ?_, ⟨?_, ?_⟩⟩
  · simp [hs.loads]
  · simp [hs.loads]
  · simp [hs.written]
  · simp [hs.loaded]
  · simp [hs.swaps]
  · simp [hs.returned]

/-- In every run in which no load is installed once another one has overtaken
it, no installation goes back, and what an admin request has answered for is
served from then on: the policies in force are those of the state installed. -/
theorem policies_advance {ls : List ReloadLabel} (hstart : s.Booted)
    (hls : Runs.Meets PolicyReplica.step (fun s l => s.notOvertaken l = true) s ls)
    (hrun : Runs.run PolicyReplica.step s ls = some s') :
    s'.NeverBackwards ∧ s'.history[s'.installed]? = some s'.source := by
  have hordered := Runs.invariant_of_meets (fun hs hl h => ordered_step hs hl h) (ordered_booted hstart) hls hrun
  exact ⟨hordered.forward, hordered.source⟩

/-! ## The reloader by itself -/

theorem serialised_notOvertaken (hs : s.Serialised) : s.notOvertaken l = true := by
  cases l with
  | finish j state =>
    simp only [notOvertaken]
    cases hload : s.loads[j]? with
    | none => rfl
    | some load => exact decide_eq_true (hs.current load (List.mem_of_getElem? hload)).2
  | _ => rfl

/-- Without a load in progress, the reloader may start one. -/
theorem serialised_attempt (hloads : s.loads = []) : ({ s.attempt with reloading := true } : PolicyReplica).Serialised := by
  have hone : s.attempt.loads = [⟨.reloader, s.latest, s.generation⟩] := by
    show s.loads ++ _ = _
    rw [hloads]
    rfl
  refine ⟨?_, ?_⟩
  · intro load hload
    change load ∈ s.attempt.loads at hload
    rw [hone, List.mem_singleton] at hload
    rw [hload]
    exact ⟨rfl, rfl⟩
  · show s.attempt.loads.length = 1
    rw [hone]
    rfl

theorem serialised_reloadNow (hs : s.Serialised) : s.reloadNow.Serialised := by
  unfold reloadNow
  dsimp only
  split
  · exact ⟨hs.current, hs.single⟩
  · rename_i hidle
    have hloads : s.loads = [] := List.length_eq_zero_iff.mp (hs.single.trans (if_neg hidle))
    exact serialised_attempt hloads

/-- The one load that is in progress is the last one when it ends. -/
theorem serialised_erase (hs : s.Serialised) {j : Nat} {load : PolicyLoad} (hload : s.loads[j]? = some load) :
    s.reloading = true ∧ load.origin = .reloader ∧ s.loads.eraseIdx j = [] := by
  have hmem := List.mem_of_getElem? hload
  have hreloading : s.reloading = true := by
    by_contra hidle
    have hnone := List.length_eq_zero_iff.mp (hs.single.trans (if_neg hidle))
    rw [hnone] at hmem
    cases hmem
  have hone := hs.single
  rw [if_pos hreloading] at hone
  refine ⟨hreloading, (hs.current load hmem).1, List.length_eq_zero_iff.mp ?_⟩
  rw [List.length_eraseIdx_of_lt (List.getElem?_eq_some_iff.mp hload).1, hone]

theorem serialised_none (hreloading : s.reloading = false) (hnone : s.loads = []) : s.Serialised := by
  refine ⟨?_, ?_⟩
  · intro other hother
    rw [hnone] at hother
    cases hother
  · rw [hreloading, hnone]
    rfl

theorem serialised_step (hs : s.Serialised) (hl : ∀ i, l ≠ .load i) (h : s.step l = some s') : s'.Serialised := by
  cases reloadStep_cases h with
  | load => exact absurd rfl (hl _)
  | tick => exact serialised_reloadNow hs
  | coalesced =>
    have hdisarmed : ({ s with coalescing := false } : PolicyReplica).Serialised := ⟨hs.current, hs.single⟩
    exact serialised_reloadNow hdisarmed
  | @finish j state load policies hload hpolicies hstate =>
    obtain ⟨hreloading, horigin, hnone⟩ := serialised_erase hs hload
    rw [horigin]
    simp only [resume]
    split
    · have hattempted := serialised_attempt (s := s.install j state policies) hnone
      have hreload : (s.install j state policies).attempt.reloading = true := hreloading
      refine ⟨hattempted.current, ?_⟩
      rw [hreload]
      exact hattempted.single
    · exact serialised_none rfl hnone
  | failAdmin hload =>
    obtain ⟨-, horigin, -⟩ := serialised_erase hs hload
    cases horigin
  | failReloader hload =>
    obtain ⟨-, -, hnone⟩ := serialised_erase hs hload
    exact serialised_none rfl hnone
  | _ => exact ⟨hs.current, hs.single⟩

theorem serialised_booted (hs : s.Booted) : s.Serialised := by
  refine ⟨?_, ?_⟩
  · simp [hs.loads]
  · simp [hs.loads, hs.idle]

/-- The reloader by itself never goes back, however its requests overlap. -/
theorem reloader_advances {ls : List ReloadLabel} (hstart : s.Booted) (hls : ∀ l ∈ ls, ∀ i, l ≠ .load i)
    (hrun : Runs.run PolicyReplica.step s ls = some s') : s'.NeverBackwards := by
  have hboth : s'.Ordered ∧ s'.Serialised :=
    Runs.invariant_on (P := fun m => m.Ordered ∧ m.Serialised) (C := fun l => ∀ i, l ≠ .load i)
      (fun hs hl h => ⟨ordered_step hs.1 (serialised_notOvertaken hs.2) h, serialised_step hs.2 hl h⟩)
      ⟨ordered_booted hstart, serialised_booted hstart⟩ hls hrun
  exact hboth.1.forward

end

/-! ## A blocklist entry -/

def listedPolicies (blocked : Bool) : List Policy :=
  [⟨"acme", "standard", if blocked then [.check "sender-blocklist" .pure] else []⟩]

theorem listedPolicies_distinct (blocked : Bool) : ((listedPolicies blocked).map fun p => keyOf p.tenantId p.id).Nodup :=
  List.nodup_singleton _

def bootedReplica : PolicyReplica where
  history := [⟨listedPolicies false, listedPolicies_distinct false⟩]
  source := ⟨listedPolicies false, listedPolicies_distinct false⟩
  installed := 0
  generation := 1
  swaps := []
  loads := []
  reloading := false
  reloadAgain := false
  coalescing := false
  written := []
  loaded := []
  returned := []
  waiting := []
  answered := []
  dropped := []

theorem bootedReplica_booted : bootedReplica.Booted := ⟨rfl, rfl, rfl, rfl, rfl, rfl, rfl, rfl, rfl, rfl⟩

def blockedBetweenTicks : List ReloadLabel :=
  [.tick, .finish 0 0, .write ⟨listedPolicies true, listedPolicies_distinct true⟩, .load 0, .finish 0 1, .respond 0,
    .tick, .finish 0 1]

theorem policies_advance_acme : ∃ s, Runs.run PolicyReplica.step bootedReplica blockedBetweenTicks = some s ∧
    s.returned = [1] ∧ s.NeverBackwards := by
  have hrun : (Runs.run PolicyReplica.step bootedReplica blockedBetweenTicks).map PolicyReplica.returned = some [1] := by
    decide +kernel
  obtain ⟨s, hs, hreturned⟩ := Option.map_eq_some_iff.mp hrun
  exact ⟨s, hs, hreturned, (policies_advance bootedReplica_booted (by decide +kernel) hs).1⟩

/-- A tick that started before takes the entry out again. -/
theorem policies_go_back : ¬ ∀ (s s' : PolicyReplica) (ls : List ReloadLabel), s.Booted →
    Runs.run PolicyReplica.step s ls = some s' → s'.NeverBackwards := by
  intro hall
  have hrun : (Runs.run PolicyReplica.step bootedReplica
      [.tick, .write ⟨listedPolicies true, listedPolicies_distinct true⟩, .load 0, .finish 1 1, .respond 0, .finish 0 0]).map
      (fun s => (s.returned, s.installed)) = some ([1], 0) := by
    decide +kernel
  obtain ⟨s, hs, heq⟩ := Option.map_eq_some_iff.mp hrun
  obtain ⟨hreturned, hinstalled⟩ := Prod.mk.inj heq
  have hserved := (hall _ s _ bootedReplica_booted hs).returned 1 (by rw [hreturned]; exact List.mem_singleton_self 1)
  rw [hinstalled] at hserved
  cases hserved

end Paymaster
