import Paymaster.Backend.AlertGate

/-!
# Alerts on edges

A gate is told with every tick what is wrong, any key any number of times. Of each
key it fires the first time, fires again while that lasts, and resolves at the
first tick without it: its calls are those of a machine that knows the last fire.
-/

namespace Paymaster

open AlertGate

structure GateTick where
  now : Nat
  active : List Alert

def gateAfter (reAlertMs : Nat) (ticks : List GateTick) : Firing :=
  ticks.foldl (fun firing tick => (reconcile reAlertMs tick.now tick.active firing).1) []

def gateCalls (reAlertMs : Nat) (before : List GateTick) (tick : GateTick) : List AlerterCall :=
  (reconcile reAlertMs tick.now tick.active (gateAfter reAlertMs before)).2

def firingKeys (firing : Firing) : List String := firing.map Prod.fst

def keysBefore (before : List GateTick) : List String := before.getLast?.elim [] fun tick => alertKeys tick.active

/-! ## The calls for a key -/

inductive KeyCall
  | fired
  | resolved
deriving DecidableEq

def AlerterCall.ofKey (key : String) : AlerterCall → Option KeyCall
  | .fire alert => if alert.key = key then some .fired else none
  | .resolve k => if k = key then some .resolved else none

def keyCalls (key : String) (calls : List AlerterCall) : List KeyCall := calls.filterMap (AlerterCall.ofKey key)

/-- The calls for a key with their times, in the order of the ticks. -/
def keyHistory (reAlertMs : Nat) (key : String) : Firing → List GateTick → List (Nat × KeyCall)
  | _, [] => []
  | firing, tick :: ticks =>
    let (firing, calls) := reconcile reAlertMs tick.now tick.active firing
    (keyCalls key calls).map (Prod.mk tick.now) ++ keyHistory reAlertMs key firing ticks

/-- Runs of one fire, re-fires that are `reAlertMs` apart and one resolve, from and to
the last fire of a run that is still going on. -/
inductive EdgeRuns (reAlertMs : Nat) : Option Nat → List (Nat × KeyCall) → Option Nat → Prop
  | nil (last : Option Nat) : EdgeRuns reAlertMs last [] last
  | fire {t : Nat} {calls : List (Nat × KeyCall)} {last : Option Nat} :
    EdgeRuns reAlertMs (some t) calls last → EdgeRuns reAlertMs none ((t, .fired) :: calls) last
  | refire {t t' : Nat} {calls : List (Nat × KeyCall)} {last : Option Nat} :
    t + reAlertMs ≤ t' → EdgeRuns reAlertMs (some t') calls last →
    EdgeRuns reAlertMs (some t) ((t', .fired) :: calls) last
  | resolve {t t' : Nat} {calls : List (Nat × KeyCall)} {last : Option Nat} :
    EdgeRuns reAlertMs none calls last → EdgeRuns reAlertMs (some t) ((t', .resolved) :: calls) last

variable {reAlertMs now : Nat} {active : List Alert} {firing : Firing} {key : String} {before ticks : List GateTick}
  {tick : GateTick}

theorem EdgeRuns.append {calls calls' : List (Nat × KeyCall)} {last last' last'' : Option Nat}
    (h : EdgeRuns reAlertMs last calls last') (h' : EdgeRuns reAlertMs last' calls' last'') :
    EdgeRuns reAlertMs last (calls ++ calls') last'' := by
  induction h with
  | nil last => exact h'
  | fire _ ih => exact .fire (ih h')
  | refire hapart _ ih => exact .refire hapart (ih h')
  | resolve _ ih => exact .resolve (ih h')

/-! ## One tick -/

theorem keyCalls_append (key : String) (calls calls' : List AlerterCall) :
    keyCalls key (calls ++ calls') = keyCalls key calls ++ keyCalls key calls' := List.filterMap_append

theorem keyCalls_fire_cons (key : String) (alert : Alert) (calls : List AlerterCall) :
    keyCalls key (.fire alert :: calls) =
      if alert.key = key then .fired :: keyCalls key calls else keyCalls key calls := by
  by_cases hkey : alert.key = key
  · have hown : (AlerterCall.fire alert).ofKey key = some .fired := if_pos hkey
    rw [if_pos hkey]
    exact List.filterMap_cons_some hown
  · have hother : (AlerterCall.fire alert).ofKey key = none := if_neg hkey
    rw [if_neg hkey]
    exact List.filterMap_cons_none hother

/-- What is due is fired, and then was fired at this tick. -/
theorem fireDue_runs : ∀ {active : List Alert} {firing : Firing}, EdgeRuns reAlertMs (Assoc.get firing key)
    ((keyCalls key (fireDue reAlertMs now active firing).2).map (Prod.mk now))
    (Assoc.get (fireDue reAlertMs now active firing).1 key)
  | [], firing => .nil _
  | alert :: active, firing => by
    unfold fireDue
    cases hdue : due reAlertMs now firing alert with
    | false => exact fireDue_runs
    | true =>
      have hrest : EdgeRuns reAlertMs (Assoc.get (Assoc.set firing alert.key now) key)
          ((keyCalls key (fireDue reAlertMs now active (Assoc.set firing alert.key now)).2).map (Prod.mk now))
          (Assoc.get (fireDue reAlertMs now active (Assoc.set firing alert.key now)).1 key) := fireDue_runs
      rw [if_pos rfl]
      dsimp only
      rw [keyCalls_fire_cons]
      by_cases hkey : alert.key = key
      · subst hkey
        rw [if_pos rfl, List.map_cons]
        rw [Assoc.get_set_self] at hrest
        unfold due at hdue
        cases hget : Assoc.get firing alert.key with
        | none => exact .fire hrest
        | some last =>
          rw [hget] at hdue
          exact .refire (of_decide_eq_true hdue) hrest
      · rw [Assoc.get_set_of_ne (Ne.symm hkey)] at hrest
        rw [if_neg hkey]
        exact hrest

theorem nodup_fireDue : ∀ {active : List Alert} {firing : Firing}, (firingKeys firing).Nodup →
    (firingKeys (fireDue reAlertMs now active firing).1).Nodup
  | [], _, h => h
  | alert :: active, firing, h => by
    unfold fireDue
    split
    · exact nodup_fireDue (Assoc.nodup_keys_set h)
    · exact nodup_fireDue h

theorem firingKeys_restrict (firing : Firing) (keep : String → Bool) :
    firingKeys (Assoc.restrict firing keep) = (firingKeys firing).filter keep := by
  unfold firingKeys Assoc.restrict
  rw [List.filter_map]
  rfl

theorem nodup_reconcile (h : (firingKeys firing).Nodup) :
    (firingKeys (reconcile reAlertMs now active firing).1).Nodup := by
  unfold reconcile
  rw [firingKeys_restrict]
  exact (nodup_fireDue h).filter _

theorem keyCalls_resolves : ∀ {keys : List String}, keys.Nodup →
    keyCalls key (keys.map .resolve) = if key ∈ keys then [.resolved] else []
  | [], _ => rfl
  | k :: keys, h => by
    obtain ⟨hnew, hrest⟩ := List.nodup_cons.mp h
    have ih : keyCalls key (keys.map .resolve) = if key ∈ keys then [.resolved] else [] := keyCalls_resolves hrest
    rw [List.map_cons]
    by_cases hkey : k = key
    · subst hkey
      have hown : (AlerterCall.resolve k).ofKey k = some .resolved := if_pos rfl
      rw [if_neg hnew] at ih
      rw [if_pos List.mem_cons_self]
      exact (List.filterMap_cons_some hown).trans (congrArg (List.cons _) ih)
    · have hother : (AlerterCall.resolve k).ofKey key = none := if_neg hkey
      have hmem : key ∈ k :: keys ↔ key ∈ keys := List.mem_cons.trans (or_iff_right (Ne.symm hkey))
      rw [if_congr hmem rfl rfl]
      exact (List.filterMap_cons_none hother).trans ih

theorem keyCalls_cleared (h : (firingKeys firing).Nodup) :
    keyCalls key ((cleared active firing).map .resolve) =
      if key ∈ firingKeys firing ∧ key ∉ alertKeys active then [.resolved] else [] := by
  have hnodup : (cleared active firing).Nodup := h.filter _
  have hmem : key ∈ cleared active firing ↔ key ∈ firingKeys firing ∧ key ∉ alertKeys active := by
    unfold cleared
    rw [List.mem_filter, decide_eq_true_eq]
    rfl
  rw [keyCalls_resolves hnodup]
  exact if_congr hmem rfl rfl

theorem mem_firingKeys : key ∈ firingKeys firing ↔ ∃ last, Assoc.get firing key = some last := by
  rw [firingKeys, ← Assoc.get_isSome_iff, Option.isSome_iff_exists]

theorem keyCalls_fireDue_of_notMem (hkey : key ∉ alertKeys active) :
    keyCalls key (fireDue reAlertMs now active firing).2 = [] := by
  refine List.filterMap_eq_nil_iff.mpr fun call hcall => ?_
  obtain ⟨alert, halert, rfl⟩ := fireDue_calls hcall
  have hother : alert.key ≠ key := fun hown => hkey (hown ▸ List.mem_map_of_mem halert)
  exact if_neg hother

theorem keyCalls_reconcile (h : (firingKeys firing).Nodup) :
    keyCalls key (reconcile reAlertMs now active firing).2 =
      if key ∈ alertKeys active then keyCalls key (fireDue reAlertMs now active firing).2
      else if key ∈ firingKeys firing then [.resolved] else [] := by
  have hfired : key ∉ alertKeys active →
      (key ∈ firingKeys (fireDue reAlertMs now active firing).1 ↔ key ∈ firingKeys firing) := by
    intro hkey
    rw [mem_firingKeys, mem_firingKeys, get_fireDue_of_notMem hkey]
  unfold reconcile
  dsimp only
  rw [keyCalls_append, keyCalls_cleared (nodup_fireDue h)]
  by_cases hkey : key ∈ alertKeys active
  · rw [if_neg fun hcleared => hcleared.2 hkey, List.append_nil, if_pos hkey]
  · rw [keyCalls_fireDue_of_notMem hkey, List.nil_append, if_neg hkey]
    exact if_congr ((and_iff_left hkey).trans (hfired hkey)) rfl rfl

/-- Of each key, a tick goes on with a run, begins one, or ends it. -/
theorem reconcile_runs (h : (firingKeys firing).Nodup) : EdgeRuns reAlertMs (Assoc.get firing key)
    ((keyCalls key (reconcile reAlertMs now active firing).2).map (Prod.mk now))
    (Assoc.get (reconcile reAlertMs now active firing).1 key) := by
  rw [keyCalls_reconcile h]
  by_cases hkey : key ∈ alertKeys active
  · rw [if_pos hkey, reconcile_get hkey]
    exact fireDue_runs
  · have hgone : Assoc.get (reconcile reAlertMs now active firing).1 key = none := by
      rw [← Option.not_isSome_iff_eq_none, reconcile_firing]
      exact hkey
    rw [if_neg hkey, hgone]
    cases hget : Assoc.get firing key with
    | none =>
      rw [if_neg]
      · exact .nil none
      · rw [mem_firingKeys, hget]
        rintro ⟨last, hlast⟩
        cases hlast
    | some last =>
      rw [if_pos (mem_firingKeys.mpr ⟨last, hget⟩)]
      exact .resolve (.nil none)

/-! ## All ticks -/

theorem gateAfter_append (before ticks : List GateTick) : gateAfter reAlertMs (before ++ ticks) =
    ticks.foldl (fun firing tick => (reconcile reAlertMs tick.now tick.active firing).1) (gateAfter reAlertMs before) :=
  List.foldl_append

theorem gateAfter_snoc : gateAfter reAlertMs (before ++ [tick]) =
    (reconcile reAlertMs tick.now tick.active (gateAfter reAlertMs before)).1 := gateAfter_append before [tick]

theorem nodup_gateAfter : ∀ (ticks : List GateTick), (firingKeys (gateAfter reAlertMs ticks)).Nodup := by
  intro ticks
  induction ticks using List.reverseRecOn with
  | nil => exact List.nodup_nil
  | append_singleton ticks tick ih =>
    rw [gateAfter_snoc]
    exact nodup_reconcile ih

theorem mem_firingKeys_gateAfter (ticks : List GateTick) :
    key ∈ firingKeys (gateAfter reAlertMs ticks) ↔ key ∈ keysBefore ticks := by
  induction ticks using List.reverseRecOn with
  | nil => exact Iff.rfl
  | append_singleton ticks tick _ =>
    unfold keysBefore
    rw [gateAfter_snoc, List.getLast?_append, List.getLast?_singleton, firingKeys, ← Assoc.get_isSome_iff,
      reconcile_firing]
    rfl

theorem gateAfter_le (hclock : ticks.Pairwise fun tick tick' => tick.now ≤ tick'.now)
    (hle : ∀ tick ∈ ticks, tick.now ≤ now) (key : String) (last : Nat)
    (hget : Assoc.get (gateAfter reAlertMs ticks) key = some last) : last ≤ now := by
  induction ticks using List.reverseRecOn generalizing now key last with
  | nil => cases hget
  | append_singleton ticks tick ih =>
    obtain ⟨hbefore, -, hlast⟩ := List.pairwise_append.mp hclock
    have hle' : ∀ tick' ∈ ticks, tick'.now ≤ tick.now := fun tick' hmem => hlast tick' hmem tick (List.mem_singleton_self tick)
    rw [gateAfter_snoc] at hget
    have htick : last ≤ tick.now := reconcile_le (fun key last => ih hbefore hle' key last) key last hget
    exact htick.trans (hle tick (List.mem_append_right _ (List.mem_singleton_self tick)))

theorem keyHistory_runs : ∀ {ticks : List GateTick} {firing : Firing}, (firingKeys firing).Nodup →
    EdgeRuns reAlertMs (Assoc.get firing key) (keyHistory reAlertMs key firing ticks)
      (Assoc.get (ticks.foldl (fun firing tick => (reconcile reAlertMs tick.now tick.active firing).1) firing) key)
  | [], _, _ => .nil _
  | tick :: ticks, firing, h => by
    unfold keyHistory
    exact (reconcile_runs h).append (keyHistory_runs (nodup_reconcile h))

theorem runs_gateAfter (reAlertMs : Nat) (key : String) (ticks : List GateTick) :
    EdgeRuns reAlertMs none (keyHistory reAlertMs key [] ticks) (Assoc.get (gateAfter reAlertMs ticks) key) := by
  have hnone : (firingKeys []).Nodup := List.nodup_nil
  exact keyHistory_runs hnone

/-- A tick that finds a key wrong fires it, unless the run that is going on was fired not long ago. -/
theorem fired_or_recent (hclock : before.Pairwise fun tick tick' => tick.now ≤ tick'.now)
    (hle : ∀ tick' ∈ before, tick'.now ≤ tick.now) (hkey : key ∈ alertKeys tick.active) :
    .fired ∈ keyCalls key (gateCalls reAlertMs before tick) ∨
      ∃ last, EdgeRuns reAlertMs none (keyHistory reAlertMs key [] before) (some last) ∧ last ≤ tick.now ∧
        tick.now < last + reAlertMs := by
  rcases reconcile_cases reAlertMs tick.now (gateAfter reAlertMs before) hkey with
    ⟨alert, hown, -, hcall⟩ | ⟨last, hget, hrecent, -⟩
  · exact .inl (List.mem_filterMap.mpr ⟨_, hcall, if_pos hown⟩)
  · have hruns := runs_gateAfter reAlertMs key before
    rw [hget] at hruns
    exact .inr ⟨last, hruns, gateAfter_le hclock hle key last hget, hrecent⟩

theorem not_resolved (hkey : key ∈ alertKeys tick.active) : .resolved ∉ keyCalls key (gateCalls reAlertMs before tick) := by
  unfold gateCalls
  rw [keyCalls_reconcile (nodup_gateAfter before), if_pos hkey]
  intro hmem
  obtain ⟨call, hcall, hresolved⟩ := List.mem_filterMap.mp hmem
  obtain ⟨alert, -, rfl⟩ := fireDue_calls hcall
  unfold AlerterCall.ofKey at hresolved
  dsimp only at hresolved
  split at hresolved
  · cases hresolved
  · cases hresolved

/-- What is firing after each tick, how each key is called, and that no one waits too long for a call. -/
theorem alert_edges (reAlertMs : Nat) {ticks : List GateTick} (hclock : ticks.Pairwise fun tick tick' => tick.now ≤ tick'.now) :
    (∀ before tick after, ticks = before ++ tick :: after →
      (firingKeys (gateAfter reAlertMs (before ++ [tick]))).Nodup ∧
        ∀ key, key ∈ firingKeys (gateAfter reAlertMs (before ++ [tick])) ↔ key ∈ alertKeys tick.active) ∧
    (∀ key, ∃ last, EdgeRuns reAlertMs none (keyHistory reAlertMs key [] ticks) last) ∧
    (∀ before tick after key, ticks = before ++ tick :: after → key ∉ alertKeys tick.active →
      keyCalls key (gateCalls reAlertMs before tick) = if key ∈ keysBefore before then [.resolved] else []) ∧
    ∀ before tick after key, ticks = before ++ tick :: after → key ∈ alertKeys tick.active →
      .resolved ∉ keyCalls key (gateCalls reAlertMs before tick) ∧
        (.fired ∈ keyCalls key (gateCalls reAlertMs before tick) ∨
          ∃ last, EdgeRuns reAlertMs none (keyHistory reAlertMs key [] before) (some last) ∧ last ≤ tick.now ∧
            tick.now < last + reAlertMs) := by
  refine ⟨?_, ?_, ?_, ?_⟩
  · rintro before tick after -
    refine ⟨nodup_gateAfter _, fun key => ?_⟩
    rw [mem_firingKeys_gateAfter, keysBefore, List.getLast?_append, List.getLast?_singleton]
    rfl
  · intro key
    exact ⟨_, runs_gateAfter reAlertMs key ticks⟩
  · intro before tick after key _ hkey
    unfold gateCalls
    rw [keyCalls_reconcile (nodup_gateAfter before), if_neg hkey]
    exact if_congr (mem_firingKeys_gateAfter before) rfl rfl
  · rintro before tick after key rfl hkey
    obtain ⟨hbefore, -, hlast⟩ := List.pairwise_append.mp hclock
    refine ⟨not_resolved hkey, fired_or_recent hbefore ?_ hkey⟩
    intro tick' hmem
    exact hlast tick' hmem tick List.mem_cons_self

def drained : Alert := ⟨"funding-low:1", .critical, "paymaster deposit low", "deposit below threshold", none⟩

/-- Drained at two ticks, the first of which says so twice, and funded at the third. -/
theorem alert_edges_sample :
    keyCalls "funding-low:1" (gateCalls 60000 [⟨1000, [drained, drained]⟩, ⟨2000, [drained]⟩] ⟨3000, []⟩) = [.resolved] := by
  have hclock : List.Pairwise (fun tick tick' => tick.now ≤ tick'.now)
      [GateTick.mk 1000 [drained, drained], ⟨2000, [drained]⟩, ⟨3000, []⟩] := by decide
  obtain ⟨-, -, hresolved, -⟩ := alert_edges 60000 hclock
  rw [hresolved [⟨1000, [drained, drained]⟩, ⟨2000, [drained]⟩] ⟨3000, []⟩ [] "funding-low:1" rfl List.not_mem_nil]
  exact if_pos List.mem_cons_self

end Paymaster
