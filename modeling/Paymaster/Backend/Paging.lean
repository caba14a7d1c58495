import Paymaster.Backend.AlertGate

/-!
# Paging by several replicas

Every replica observes the same conditions and keeps its own books; the leader
pages. When another one leads at the end than at the beginning, it has never paged
the incident that it should resolve.
-/

namespace Paymaster

structure AlertingOptions where
  reAlertMs : Nat
  minSeverity : AlertSeverity

structure AlertingReplica where
  firing : Firing
  fired : List String
  clock : Nat

structure AlertLabel where
  active : List Alert
  leader : Option Nat
  now : Nat → Nat

structure AlertTick where
  label : AlertLabel
  messages : List PagerMessage

structure Alerting where
  replicas : List AlertingReplica
  ticks : List AlertTick

namespace AlertTick

def keys (t : AlertTick) : List String := alertKeys t.label.active

def Fires (t : AlertTick) (key : String) : Prop := ∃ alert, alert.key = key ∧ .fire alert ∈ t.messages

end AlertTick

def PagerMessage.opens (key : String) (isOpen : Bool) : PagerMessage → Bool
  | .fire alert => alert.key = key || isOpen
  | .resolve k => k ≠ key && isOpen

def isPaged (ticks : List AlertTick) (key : String) : Bool :=
  (ticks.flatMap AlertTick.messages).foldl (PagerMessage.opens key) false

def lastKeys (ticks : List AlertTick) : List String := (ticks.getLast?.map AlertTick.keys).getD []

def AlertingReplica.tick (options : AlertingOptions) (now : Nat) (active : List Alert) (isLeader : Bool)
    (replica : AlertingReplica) : AlertingReplica × List PagerMessage :=
  let reconciled := AlertGate.reconcile options.reAlertMs now active replica.firing
  let delivered := WebhookAlerter.deliver options.minSeverity isLeader replica.fired reconciled.2
  (⟨reconciled.1, delivered.1, now⟩, delivered.2)

namespace Alerting

variable (options : AlertingOptions) (s : Alerting)

def ticked (l : AlertLabel) : List (AlertingReplica × List PagerMessage) :=
  s.replicas.mapIdx fun i replica => replica.tick options (l.now i) l.active (l.leader = some i)

/-- The leader is a replica, and no clock goes back. -/
def enabled (l : AlertLabel) : Bool :=
  l.leader.all (· < s.replicas.length) && (s.replicas.mapIdx fun i replica => decide (replica.clock ≤ l.now i)).all id

def step (l : AlertLabel) : Option Alerting :=
  if s.enabled l then
    some ⟨(s.ticked options l).map Prod.fst, s.ticks ++ [⟨l, (s.ticked options l).flatMap Prod.snd⟩]⟩
  else none

/-- What was paged is resolved when its condition clears and there is a leader; and
what stays is paged, when a replica has been leading for as long as it takes to alert again. -/
structure Paged : Prop where
  resolved : ∀ ticks t, ticks ++ [t] <+: s.ticks → t.label.leader.isSome = true → ∀ key ∈ lastKeys ticks, key ∉ t.keys →
    isPaged ticks key = true → .resolve key ∈ t.messages
  fired : ∀ i key during first last, during <:+: s.ticks → during.head? = some first → during.getLast? = some last →
    (∀ t ∈ during, t.label.leader = some i ∧ key ∈ t.keys) → first.label.now i + options.reAlertMs ≤ last.label.now i →
    ∃ t ∈ during, t.Fires key

/-- When a condition clears that has been paged, the leader has paged it. -/
def leaderPaged (l : AlertLabel) : Bool :=
  (lastKeys s.ticks).all fun key =>
    key ∈ alertKeys l.active || !isPaged s.ticks key ||
      l.leader.all fun i => s.replicas[i]?.all fun replica => key ∈ replica.fired

def severe (l : AlertLabel) : Prop := ∀ alert ∈ l.active, options.minSeverity.rank ≤ alert.severity.rank

/-- The invariant: every gate is firing what was wrong at the last tick; and what
it has not fired since a replica has been leading, it fired before. -/
structure Observed (s : Alerting) : Prop where
  firing : ∀ replica ∈ s.replicas, ∀ key, (Assoc.get replica.firing key).isSome = true ↔ key ∈ lastKeys s.ticks
  past : ∀ replica ∈ s.replicas, ∀ key lastFired, Assoc.get replica.firing key = some lastFired → lastFired ≤ replica.clock
  clock : ∀ i replica, s.replicas[i]? = some replica → ∀ t ∈ s.ticks.getLast?, replica.clock = t.label.now i
  leading : ∀ i replica, s.replicas[i]? = some replica → ∀ key during first, during <:+ s.ticks →
    during.head? = some first → (∀ t ∈ during, t.label.leader = some i ∧ key ∈ t.keys ∧ ¬ t.Fires key) →
    ∃ lastFired, Assoc.get replica.firing key = some lastFired ∧ lastFired ≤ first.label.now i ∧
      replica.clock < lastFired + options.reAlertMs

end Alerting

/-! ## A tick -/

section
variable {options : AlertingOptions} {s s' : Alerting} {l : AlertLabel} {i : Nat} {replica : AlertingReplica}

open Alerting

theorem ticked_get (hi : s.replicas[i]? = some replica) :
    (s.ticked options l)[i]? = some (replica.tick options (l.now i) l.active (l.leader = some i)) := by
  unfold ticked
  rw [List.getElem?_mapIdx, hi, Option.map_some]

theorem replica_of_ticked {replica' : AlertingReplica} (h : ((s.ticked options l).map Prod.fst)[i]? = some replica') :
    ∃ replica, s.replicas[i]? = some replica ∧
      replica' = (replica.tick options (l.now i) l.active (l.leader = some i)).1 := by
  rw [List.getElem?_map] at h
  obtain ⟨after, hafter, rfl⟩ := Option.map_eq_some_iff.mp h
  unfold ticked at hafter
  rw [List.getElem?_mapIdx] at hafter
  obtain ⟨replica, hreplica, rfl⟩ := Option.map_eq_some_iff.mp hafter
  exact ⟨replica, hreplica, rfl⟩

theorem mem_messages {m : PagerMessage} : m ∈ (s.ticked options l).flatMap Prod.snd ↔
    ∃ i replica, l.leader = some i ∧ s.replicas[i]? = some replica ∧ m ∈ (replica.tick options (l.now i) l.active true).2 := by
  rw [List.mem_flatMap]
  constructor
  · rintro ⟨after, hafter, hm⟩
    obtain ⟨i, hi⟩ := List.mem_iff_getElem?.mp hafter
    unfold ticked at hi
    rw [List.getElem?_mapIdx] at hi
    obtain ⟨replica, hreplica, rfl⟩ := Option.map_eq_some_iff.mp hi
    by_cases hleader : l.leader = some i
    · rw [decide_eq_true hleader] at hm
      exact ⟨i, replica, hleader, hreplica, hm⟩
    · rw [decide_eq_false hleader] at hm
      simp only [AlertingReplica.tick, deliver_follower] at hm
      cases hm
  · rintro ⟨i, replica, hleader, hreplica, hm⟩
    refine ⟨_, List.mem_of_getElem? (ticked_get hreplica), ?_⟩
    rw [decide_eq_true hleader]
    exact hm

theorem resolve_mem_messages {key : String} (hs : s.Observed options) (hleader : l.leader = some i)
    (hreplica : s.replicas[i]? = some replica) (hlast : key ∈ lastKeys s.ticks) (hcleared : key ∉ alertKeys l.active) :
    .resolve key ∈ (s.ticked options l).flatMap Prod.snd ↔ key ∈ replica.fired := by
  have hfiring := (hs.firing replica (List.mem_of_getElem? hreplica) key).mpr hlast
  have hown : .resolve key ∈ (replica.tick options (l.now i) l.active true).2 ↔ key ∈ replica.fired := by
    apply resolve_mem_deliver
    · intro alert halert hkey
      exact hcleared (hkey ▸ List.mem_map_of_mem (reconcile_fires halert))
    · exact reconcile_resolves hcleared hfiring
  rw [mem_messages, ← hown]
  constructor
  · rintro ⟨j, other, hj, hother, hm⟩
    obtain rfl := Option.some.inj (hleader.symm.trans hj)
    obtain rfl := Option.some.inj (hreplica.symm.trans hother)
    exact hm
  · intro hm
    exact ⟨i, replica, hleader, hreplica, hm⟩

theorem lastKeys_concat (ticks : List AlertTick) (t : AlertTick) : lastKeys (ticks ++ [t]) = t.keys := by
  unfold lastKeys
  rw [List.getLast?_concat]
  rfl

theorem enabled_leader (h : s.enabled l = true) (hleader : l.leader = some i) : ∃ replica, s.replicas[i]? = some replica := by
  have hlt : i < s.replicas.length := by simpa [hleader] using (Bool.and_eq_true_iff.mp h).1
  exact ⟨_, List.getElem?_eq_getElem hlt⟩

theorem enabled_clock (h : s.enabled l = true) (hreplica : s.replicas[i]? = some replica) : replica.clock ≤ l.now i := by
  have hclock := List.all_eq_true.mp (Bool.and_eq_true_iff.mp h).2 (decide (replica.clock ≤ l.now i)) (by
    apply List.mem_of_getElem? (i := i)
    rw [List.getElem?_mapIdx, hreplica, Option.map_some])
  exact of_decide_eq_true hclock

theorem fires_or_recent {key : String} (hsevere : severe options l) (hleader : l.leader = some i)
    (hreplica : s.replicas[i]? = some replica) (hkey : key ∈ alertKeys l.active) :
    AlertTick.Fires ⟨l, (s.ticked options l).flatMap Prod.snd⟩ key ∨
      ∃ lastFired, Assoc.get replica.firing key = some lastFired ∧ l.now i < lastFired + options.reAlertMs ∧
        Assoc.get (replica.tick options (l.now i) l.active true).1.firing key = some lastFired := by
  rcases reconcile_cases options.reAlertMs (l.now i) replica.firing hkey with
    ⟨alert, halert, hmem, hcall⟩ | hrecent
  · refine .inl ⟨alert, halert, mem_messages.mpr ⟨i, replica, hleader, hreplica, ?_⟩⟩
    exact fire_mem_deliver (hsevere alert hmem) hcall
  · exact .inr hrecent

theorem observed_step (hs : s.Observed options) (hsevere : severe options l) (h : s.step options l = some s') :
    s'.Observed options := by
  unfold Alerting.step at h
  split at h
  · rename_i henabled
    cases h
    refine ⟨?_, ?_, ?_, ?_⟩
    · intro replica' hmem key
      obtain ⟨i, hi⟩ := List.mem_iff_getElem?.mp hmem
      obtain ⟨replica, -, rfl⟩ := replica_of_ticked hi
      rw [lastKeys_concat]
      exact reconcile_firing
    · intro replica' hmem key lastFired hget
      obtain ⟨i, hi⟩ := List.mem_iff_getElem?.mp hmem
      obtain ⟨replica, hreplica, rfl⟩ := replica_of_ticked hi
      refine reconcile_le (fun k t hkt => ?_) key lastFired hget
      exact (hs.past replica (List.mem_of_getElem? hreplica) k t hkt).trans (enabled_clock henabled hreplica)
    · intro i replica' hi t ht
      obtain ⟨replica, -, rfl⟩ := replica_of_ticked hi
      rw [List.getLast?_concat, Option.mem_some_iff] at ht
      subst ht
      rfl
    · intro i replica' hi key during first hsuffix hfirst hduring
      obtain ⟨replica, hreplica, rfl⟩ := replica_of_ticked hi
      rcases List.suffix_concat_iff.mp hsuffix with rfl | ⟨before, rfl, hbefore⟩
      · cases hfirst
      · obtain ⟨hleader, hkey, hquiet⟩ := hduring _ (List.mem_append_right _ (List.mem_singleton_self _))
        rcases fires_or_recent hsevere hleader hreplica hkey with hfires | ⟨lastFired, hget, hrecent, hafter⟩
        · exact absurd hfires hquiet
        · refine ⟨lastFired, ?_, ?_, hrecent⟩
          · rw [decide_eq_true hleader]
            exact hafter
          · cases before with
            | nil =>
              cases hfirst
              have hpast := hs.past replica (List.mem_of_getElem? hreplica) key lastFired hget
              exact hpast.trans (enabled_clock henabled hreplica)
            | cons t rest =>
              obtain ⟨last, hlast, hle, -⟩ := hs.leading i replica hreplica key (t :: rest) first hbefore hfirst
                fun t' ht' => hduring t' (List.mem_append_left _ ht')
              obtain rfl := Option.some.inj (hget.symm.trans hlast)
              exact hle
  · cases h

theorem leaderPaged_iff : s.leaderPaged l = true ↔ ∀ key ∈ lastKeys s.ticks, key ∉ alertKeys l.active →
    isPaged s.ticks key = true → ∀ i, l.leader = some i → ∀ replica, s.replicas[i]? = some replica → key ∈ replica.fired := by
  unfold leaderPaged
  rw [List.all_eq_true]
  refine forall₂_congr fun key _ => ?_
  simp only [Bool.or_eq_true, decide_eq_true_eq, Bool.not_eq_true', Option.all_eq_true]
  constructor
  · rintro ((hactive | hquiet) | hall) hcleared hpaged i hi replica hreplica
    · exact absurd hactive hcleared
    · rw [hquiet] at hpaged
      cases hpaged
    · exact hall i hi replica hreplica
  · intro h
    by_cases hactive : key ∈ alertKeys l.active
    · exact .inl (.inl hactive)
    · cases hpaged : isPaged s.ticks key with
      | false => exact .inl (.inr rfl)
      | true => exact .inr (h hactive hpaged)

/-- A tick leaves an incident open exactly if the leader has not paged it. -/
theorem paged_step (hs : s.Observed options) (hsevere : severe options l) (hpaged : s.Paged options)
    (h : s.step options l = some s') : s'.Paged options ↔ s.leaderPaged l = true := by
  have hafter := observed_step hs hsevere h
  unfold Alerting.step at h
  split at h
  · rename_i henabled
    cases h
    rw [leaderPaged_iff]
    constructor
    · intro hstill key hlast hcleared hopen i hleader replica hreplica
      apply (resolve_mem_messages hs hleader hreplica hlast hcleared).mp
      exact hstill.resolved s.ticks _ (List.prefix_refl _) (by rw [hleader]; rfl) key hlast hcleared hopen
    · intro hleaders
      refine ⟨?_, ?_⟩
      · intro ticks t hprefix hled key hlast hcleared hopen
        rcases List.prefix_concat_iff.mp hprefix with heq | hbefore
        · obtain ⟨rfl, hone⟩ := List.append_inj' heq rfl
          obtain rfl := List.singleton_inj.mp hone
          obtain ⟨i, hleader⟩ := Option.isSome_iff_exists.mp hled
          obtain ⟨replica, hreplica⟩ := enabled_leader henabled hleader
          apply (resolve_mem_messages hs hleader hreplica hlast hcleared).mpr
          exact hleaders key hlast hcleared hopen i hleader replica hreplica
        · exact hpaged.resolved ticks t hbefore hled key hlast hcleared hopen
      · intro i key during first last hwindow hfirst hlast hduring hlong
        rcases List.infix_concat_iff.mp hwindow with hsuffix | hbefore
        · by_contra hquiet
          have hquiet : ∀ t ∈ during, ¬ t.Fires key := fun t ht hfires => hquiet ⟨t, ht, hfires⟩
          have hlastmem : last ∈ during := List.mem_of_getLast? hlast
          have hnew : last = ⟨l, (s.ticked options l).flatMap Prod.snd⟩ := by
            obtain ⟨front, hfront⟩ := hsuffix
            have hends : (front ++ during).getLast? = some last := by
              rw [List.getLast?_append, hlast]
              rfl
            rw [hfront, List.getLast?_concat] at hends
            exact (Option.some.inj hends).symm
          have hleader : l.leader = some i := by
            have hled := (hduring last hlastmem).1
            rw [hnew] at hled
            exact hled
          obtain ⟨replica, hreplica⟩ := enabled_leader henabled hleader
          have hticked : (s.ticked options l)[i]? = some (replica.tick options (l.now i) l.active (l.leader = some i)) :=
            ticked_get hreplica
          have hreplica' : ((s.ticked options l).map Prod.fst)[i]? =
              some (replica.tick options (l.now i) l.active (l.leader = some i)).1 := by
            rw [List.getElem?_map, hticked, Option.map_some]
          obtain ⟨lastFired, -, hle, hrecent⟩ := hafter.leading i _ hreplica' key during first hsuffix hfirst
            fun t ht => ⟨(hduring t ht).1, (hduring t ht).2, hquiet t ht⟩
          rw [hnew] at hlong
          have hnow : l.now i < lastFired + options.reAlertMs := hrecent
          have hwaited : first.label.now i + options.reAlertMs ≤ l.now i := hlong
          omega
        · exact hpaged.fired i key during first last hbefore hfirst hlast hduring hlong
  · cases h

/-- Along a run every paged incident is resolved when it clears, exactly if the
replica that leads then has paged it; and what stays is paged in any case. -/
theorem incidents_resolved {ls : List AlertLabel} (hfresh : ∀ replica ∈ s.replicas, replica.firing = [])
    (hticks : s.ticks = []) (hsevere : ∀ l ∈ ls, severe options l)
    (hrun : Runs.run (Alerting.step options) s ls = some s') :
    Runs.Always (Alerting.step options) (Paged options) s ls ↔
      Runs.Meets (Alerting.step options) (fun s l => s.leaderPaged l = true) s ls := by
  have hobserved : s.Observed options := by
    refine ⟨?_, ?_, ?_, ?_⟩
    · intro replica hreplica key
      rw [hfresh replica hreplica, hticks]
      simp [Assoc.get, lastKeys]
    · intro replica hreplica key lastFired hget
      rw [hfresh replica hreplica] at hget
      cases hget
    · intro i replica _ t ht
      rw [hticks] at ht
      cases ht
    · intro i replica _ key during first hsuffix hfirst _
      rw [hticks, List.suffix_nil] at hsuffix
      rw [hsuffix] at hfirst
      cases hfirst
  have hpaged : s.Paged options := by
    refine ⟨?_, ?_⟩
    · intro ticks t hprefix
      rw [hticks, List.prefix_nil] at hprefix
      cases ticks with
      | nil => cases hprefix
      | cons => cases hprefix
    · intro i key during first last hwindow hfirst
      rw [hticks, List.infix_nil] at hwindow
      rw [hwindow] at hfirst
      cases hfirst
  exact Runs.always_iff_meets_on (fun hs hl h => observed_step hs hl h) (fun hs hl hp h => paged_step hs hl hp h)
    hobserved hpaged (Runs.meets_of_forall hsevere) hrun

end

/-! ## A handover -/

def depositLow : Alert :=
  ⟨"deposit-low:8453", .critical, "paymaster deposit below threshold",
    "chain 8453 deposit is 0 wei, below the configured minimum", some [("chainId", "8453"), ("deposit", "0")]⟩

def alertingOptions : AlertingOptions := ⟨900000, .warning⟩

def twoMonitors : Alerting := ⟨[⟨[], [], 0⟩, ⟨[], [], 0⟩], []⟩

def tickAt (time : Nat) (active : List Alert) (leader : Option Nat) : AlertLabel := ⟨active, leader, fun _ => time⟩

def ledByOne : List AlertLabel :=
  [tickAt 0 [depositLow] (some 0), tickAt 60000 [depositLow] (some 0), tickAt 120000 [] (some 0)]

theorem incidents_resolved_ledByOne :
    Runs.Always (Alerting.step alertingOptions) (Alerting.Paged alertingOptions) twoMonitors ledByOne := by
  have hrun : (Runs.run (Alerting.step alertingOptions) twoMonitors ledByOne).isSome = true := by decide +kernel
  obtain ⟨s, hs⟩ := Option.isSome_iff_exists.mp hrun
  exact (incidents_resolved (by decide) rfl (by unfold Alerting.severe; decide) hs).mpr (by decide +kernel)

/-- Another replica leads when the condition clears, and the incident stays open. -/
theorem incident_left_open : ¬ ∀ (options : AlertingOptions) (s s' : Alerting) (ls : List AlertLabel),
    (∀ replica ∈ s.replicas, replica.firing = []) → s.ticks = [] → (∀ l ∈ ls, Alerting.severe options l) →
    Runs.run (Alerting.step options) s ls = some s' →
    Runs.Always (Alerting.step options) (Alerting.Paged options) s ls := by
  intro hall
  have hrun : (Runs.run (Alerting.step alertingOptions) twoMonitors
      ([tickAt 0 [depositLow] (some 0), tickAt 60000 [depositLow] (some 1)] ++ [tickAt 120000 [] (some 1)])).map
      (fun s => s.ticks.map AlertTick.messages) = some ([[.fire depositLow], []] ++ [[]]) := by
    decide +kernel
  obtain ⟨s, hs, hmessages⟩ := Option.map_eq_some_iff.mp hrun
  have hpaged := (hall alertingOptions twoMonitors s _ (by decide) rfl (by unfold Alerting.severe; decide) hs).last hs
  obtain ⟨before, hbefore, hstep⟩ := Runs.run_snoc.mp hs
  have hopen : (Runs.run (Alerting.step alertingOptions) twoMonitors
      [tickAt 0 [depositLow] (some 0), tickAt 60000 [depositLow] (some 1)]).map
      (fun s => (lastKeys s.ticks, isPaged s.ticks depositLow.key)) = some ([depositLow.key], true) := by
    decide +kernel
  rw [hbefore, Option.map_some, Option.some.injEq] at hopen
  obtain ⟨hlast, hisPaged⟩ := Prod.mk.inj hopen
  unfold Alerting.step at hstep
  split at hstep
  · cases hstep
    rw [List.map_append] at hmessages
    obtain ⟨-, hnone⟩ := List.append_inj' hmessages rfl
    have hresolve := hpaged.resolved before.ticks _ (List.prefix_refl _) rfl depositLow.key (by rw [hlast]; decide)
      (List.not_mem_nil) hisPaged
    rw [List.singleton_inj.mp hnone] at hresolve
    cases hresolve
  · cases hstep

end Paymaster
