import Paymaster.Backend.PolicyReloads

/-!
# Requests for a reload

A call of `reloadNow` while the reloader is loading sets a flag, and the load is
repeated for it when it has finished. A load that fails is not repeated: the
flag stays, and whoever had set it waits for the next call.
-/

namespace Paymaster

def PolicyLoad.ofReloader (load : PolicyLoad) : Bool := load.origin = .reloader

namespace PolicyReplica

/-- Every call had an attempt before the reloader became idle, from a state of
the database that is no older than the call. -/
structure NoneDropped (s : PolicyReplica) : Prop where
  dropped : s.dropped = []
  answered : ∀ call ∈ s.answered, call.1 ≤ call.2

/-- A load of the reloader does not fail once another call has come. -/
def failsUnasked (s : PolicyReplica) : ReloadLabel → Bool
  | .fail j => s.loads[j]?.all fun load => !(load.ofReloader && s.reloadAgain)
  | _ => true

/-- The invariant: calls wait only for a load that is in progress, and the flag says so. -/
structure Flagged (s : PolicyReplica) : Prop where
  waiting : ∀ called ∈ s.waiting, called ≤ s.latest
  idle : s.reloading = false → s.waiting = []
  flag : s.reloading = true → (s.reloadAgain = true ↔ s.waiting ≠ [])
  single : s.loads.countP PolicyLoad.ofReloader = if s.reloading then 1 else 0

end PolicyReplica

section
variable {s s' : PolicyReplica} {l : ReloadLabel} {j : Nat} {load : PolicyLoad}

open PolicyReplica

/-- The load that ends is the reloader's only one, or none of its. -/
theorem countP_eraseIdx (hload : s.loads[j]? = some load) :
    s.loads.countP PolicyLoad.ofReloader =
      (s.loads.eraseIdx j).countP PolicyLoad.ofReloader + if load.ofReloader then 1 else 0 := by
  obtain ⟨hj, rfl⟩ := List.getElem?_eq_some_iff.mp hload
  rw [← (List.getElem_cons_eraseIdx_perm hj).countP_eq, List.countP_cons]

theorem flagged_attempt (hs : s.loads.countP PolicyLoad.ofReloader = 0) :
    ({ s.attempt with reloading := true } : PolicyReplica).Flagged := by
  refine ⟨?_, ?_, ?_, ?_⟩
  · intro called hcalled
    cases hcalled
  · intro hidle
    cases hidle
  · intro _
    constructor
    · intro hagain
      cases hagain
    · intro hne
      exact absurd rfl hne
  · show (s.loads ++ _).countP _ = 1
    rw [List.countP_append, hs]
    rfl

theorem flagged_reloadNow (hs : s.Flagged) : s.reloadNow.Flagged := by
  unfold reloadNow
  dsimp only
  split
  · rename_i hreloading
    refine ⟨?_, ?_, ?_, hs.single⟩
    · intro called hcalled
      rcases List.mem_append.mp hcalled with hold | hnew
      · exact hs.waiting called hold
      · rw [List.mem_singleton.mp hnew]
        exact Nat.le_refl _
    · intro hidle
      rw [hreloading] at hidle
      cases hidle
    · intro _
      exact iff_of_true rfl (by simp)
  · rename_i hidle
    exact flagged_attempt (hs.single.trans (if_neg hidle))

theorem flagged_idle (hs : s.loads.countP PolicyLoad.ofReloader = 0) : s.idle.Flagged := by
  refine ⟨?_, fun _ => rfl, ?_, hs⟩
  · intro called hcalled
    cases hcalled
  · intro hreloading
    cases hreloading

/-- The loads of the reloader, when one of them ends. -/
theorem flagged_ended (hs : s.Flagged) (hload : s.loads[j]? = some load) (horigin : load.origin = .reloader) :
    s.reloading = true ∧ (s.loads.eraseIdx j).countP PolicyLoad.ofReloader = 0 := by
  have hcount := countP_eraseIdx hload
  have hof : load.ofReloader = true := decide_eq_true horigin
  rw [if_pos hof, hs.single] at hcount
  cases hreloading : s.reloading with
  | false =>
    rw [hreloading] at hcount
    simp at hcount
  | true =>
    rw [hreloading] at hcount
    exact ⟨rfl, by simpa using hcount.symm⟩

theorem flagged_step (hs : s.Flagged) (h : s.step l = some s') : s'.Flagged := by
  have hlater : ∀ policies : PolicySource, s.latest ≤ (s.history ++ [policies]).length - 1 := by
    intro policies
    unfold latest
    rw [List.length_append]
    omega
  cases reloadStep_cases h with
  | change policies =>
    exact ⟨fun called hcalled => (hs.waiting called hcalled).trans (hlater policies), hs.idle, hs.flag, hs.single⟩
  | write policies =>
    exact ⟨fun called hcalled => (hs.waiting called hcalled).trans (hlater policies), hs.idle, hs.flag, hs.single⟩
  | load =>
    refine ⟨hs.waiting, hs.idle, hs.flag, ?_⟩
    show (s.loads ++ _).countP _ = _
    rw [List.countP_append, hs.single]
    rfl
  | tick => exact flagged_reloadNow hs
  | coalesced =>
    have hdisarmed : ({ s with coalescing := false } : PolicyReplica).Flagged := ⟨hs.waiting, hs.idle, hs.flag, hs.single⟩
    exact flagged_reloadNow hdisarmed
  | @finish j state load policies hload hpolicies hstate =>
    cases horigin : load.origin with
    | admin wanted =>
      have hcount := countP_eraseIdx hload
      rw [if_neg (by simp [PolicyLoad.ofReloader, horigin]), Nat.add_zero] at hcount
      exact ⟨hs.waiting, hs.idle, hs.flag, hcount.symm.trans hs.single⟩
    | reloader =>
      obtain ⟨hreloading, hnone⟩ := flagged_ended hs hload horigin
      simp only [resume]
      split
      · have hattempted := flagged_attempt (s := s.install j state policies) hnone
        have hsame : (s.install j state policies).attempt.reloading = true := hreloading
        refine ⟨hattempted.waiting, ?_, ?_, ?_⟩
        · intro hidle
          rw [hsame] at hidle
          cases hidle
        · intro _
          exact hattempted.flag rfl
        · rw [hsame]
          exact hattempted.single
      · exact flagged_idle hnone
  | failAdmin hload =>
    have hcount := countP_eraseIdx hload
    rw [if_neg (by simp [PolicyLoad.ofReloader]), Nat.add_zero] at hcount
    exact ⟨hs.waiting, hs.idle, hs.flag, hcount.symm.trans hs.single⟩
  | failReloader hload => exact flagged_idle (flagged_ended hs hload rfl).2
  | _ => exact ⟨hs.waiting, hs.idle, hs.flag, hs.single⟩

/-- What waits is answered by an attempt. -/
theorem answered_attempt (hs : ∀ call ∈ s.answered, call.1 ≤ call.2) (hwaiting : ∀ called ∈ s.waiting, called ≤ s.latest) :
    ∀ call ∈ s.attempt.answered, call.1 ≤ call.2 := by
  intro call hcall
  rcases List.mem_append.mp hcall with hold | hnew
  · exact hs call hold
  · obtain ⟨called, hcalled, rfl⟩ := List.mem_map.mp hnew
    exact hwaiting called hcalled

theorem noneDropped_reloadNow (hs : s.Flagged) (hnone : s.NoneDropped) : s.reloadNow.NoneDropped := by
  unfold reloadNow
  dsimp only
  split
  · exact ⟨hnone.dropped, hnone.answered⟩
  · refine ⟨hnone.dropped, answered_attempt (s := { s with waiting := s.waiting ++ [s.latest] }) hnone.answered ?_⟩
    intro called hcalled
    rcases List.mem_append.mp hcalled with hold | hnew
    · exact hs.waiting called hold
    · rw [List.mem_singleton.mp hnew]
      exact Nat.le_refl _

/-- Where the flag is not set, no call waits for the load that ends. -/
theorem noneDropped_idle (hs : s.Flagged) (hnone : s.NoneDropped) (hreloading : s.reloading = true)
    (hagain : ¬ s.reloadAgain = true) : s.dropped ++ s.waiting = [] := by
  have hwaiting : s.waiting = [] := not_not.mp fun hne => hagain ((hs.flag hreloading).mpr hne)
  rw [hwaiting, List.append_nil]
  exact hnone.dropped

/-- A step drops a call exactly if it is the failure of a load that another call waits for. -/
theorem noneDropped_step (hs : s.Flagged) (hnone : s.NoneDropped) (h : s.step l = some s') :
    s'.NoneDropped ↔ s.failsUnasked l = true := by
  cases reloadStep_cases h with
  | tick => exact iff_of_true (noneDropped_reloadNow hs hnone) rfl
  | coalesced =>
    have hdisarmed : ({ s with coalescing := false } : PolicyReplica).Flagged := ⟨hs.waiting, hs.idle, hs.flag, hs.single⟩
    exact iff_of_true (noneDropped_reloadNow hdisarmed ⟨hnone.dropped, hnone.answered⟩) rfl
  | @finish j state load policies hload hpolicies hstate =>
    refine iff_of_true ?_ rfl
    cases horigin : load.origin with
    | admin wanted => exact ⟨hnone.dropped, hnone.answered⟩
    | reloader =>
      obtain ⟨hreloading, -⟩ := flagged_ended hs hload horigin
      simp only [resume]
      split
      · exact ⟨hnone.dropped, answered_attempt (s := s.install j state policies) hnone.answered hs.waiting⟩
      · rename_i hagain
        have hkept : s.dropped ++ s.waiting = [] := noneDropped_idle hs hnone hreloading hagain
        exact ⟨hkept, hnone.answered⟩
  | failAdmin hload =>
    refine iff_of_true ⟨hnone.dropped, hnone.answered⟩ ?_
    simp [failsUnasked, hload, PolicyLoad.ofReloader]
  | @failReloader j started generation hload =>
    obtain ⟨hreloading, -⟩ := flagged_ended hs hload rfl
    have hcondition : s.failsUnasked (.fail j) = true ↔ ¬ s.reloadAgain = true := by
      simp [failsUnasked, hload, PolicyLoad.ofReloader]
    rw [hcondition]
    constructor
    · intro hafter hagain
      have hempty : s.dropped ++ s.waiting = [] := hafter.dropped
      exact (hs.flag hreloading).mp hagain (List.append_eq_nil_iff.mp hempty).2
    · intro hagain
      have hkept : s.dropped ++ s.waiting = [] := noneDropped_idle hs hnone hreloading hagain
      exact ⟨hkept, hnone.answered⟩
  | _ => exact iff_of_true ⟨hnone.dropped, hnone.answered⟩ rfl

/-- Along a run no call of the reloader is dropped, exactly if no load of its
fails once another call has come. -/
theorem requests_answered {ls : List ReloadLabel} (hstart : s.Booted)
    (hrun : Runs.run PolicyReplica.step s ls = some s') :
    Runs.Always PolicyReplica.step NoneDropped s ls ↔
      Runs.Meets PolicyReplica.step (fun s l => s.failsUnasked l = true) s ls := by
  have hflagged : s.Flagged := by
    refine ⟨?_, fun _ => hstart.waiting, ?_, ?_⟩
    · simp [hstart.waiting]
    · intro hreloading
      rw [hstart.idle] at hreloading
      cases hreloading
    · simp [hstart.loads, hstart.idle]
  have hnone : s.NoneDropped := ⟨hstart.dropped, by simp [hstart.answered]⟩
  exact Runs.always_iff_meets (I := Flagged) (fun hi h => flagged_step hi h) (fun hi hp h => noneDropped_step hi hp h)
    hflagged hnone hrun

end

/-! ## A call during a load that fails -/

/-- A call is answered by a second load. -/
theorem requests_answered_booted : Runs.Always PolicyReplica.step PolicyReplica.NoneDropped bootedReplica
    [.tick, .tick, .finish 0 0, .finish 0 0] := by
  have hrun : (Runs.run PolicyReplica.step bootedReplica [.tick, .tick, .finish 0 0, .finish 0 0]).isSome = true := by
    decide +kernel
  obtain ⟨s, hs⟩ := Option.isSome_iff_exists.mp hrun
  exact (requests_answered bootedReplica_booted hs).mpr (by decide +kernel)

theorem request_dropped : ¬ ∀ (s s' : PolicyReplica) (ls : List ReloadLabel), s.Booted →
    Runs.run PolicyReplica.step s ls = some s' → Runs.Always PolicyReplica.step PolicyReplica.NoneDropped s ls := by
  intro hall
  have hrun : (Runs.run PolicyReplica.step bootedReplica [.tick, .tick, .fail 0]).map PolicyReplica.dropped = some [0] := by
    decide +kernel
  obtain ⟨s, hs, hdropped⟩ := Option.map_eq_some_iff.mp hrun
  have hnone := ((hall _ s _ bootedReplica_booted hs).last hs).dropped
  rw [hdropped] at hnone
  cases hnone

end Paymaster
