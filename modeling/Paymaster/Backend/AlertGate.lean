import Paymaster.Lib.Assoc
import Paymaster.Lib.Pool
import Paymaster.Lib.Run

/-!
# Alerts

A monitor says with every tick what is wrong. A gate remembers since when it has
been saying so, and fires what is new or has been firing for long, and resolves
what is gone. Behind it, a sink pages what it is told, and remembers what it has
paged, so that it resolves nothing else; and only the leader's sink is told.
-/

namespace Paymaster

inductive AlertSeverity
  | warning
  | critical
deriving DecidableEq

structure Alert where
  key : String
  severity : AlertSeverity
  title : String
  detail : String
  labels : Option (List (String × String))
deriving DecidableEq

def AlertSeverity.rank : AlertSeverity → Nat
  | .warning => 1
  | .critical => 2

inductive AlerterCall
  | fire (alert : Alert)
  | resolve (key : String)
deriving DecidableEq

def alertKeys (active : List Alert) : List String := active.map Alert.key

/-! ## The gate -/

abbrev Firing := List (String × Nat)

namespace AlertGate

variable (reAlertMs now : Nat)

def due (firing : Firing) (alert : Alert) : Bool :=
  match Assoc.get firing alert.key with
  | none => true
  | some lastFired => lastFired + reAlertMs ≤ now

def fireDue : List Alert → Firing → Firing × List AlerterCall
  | [], firing => (firing, [])
  | alert :: active, firing =>
    if due reAlertMs now firing alert then
      let (fired, calls) := fireDue active (Assoc.set firing alert.key now)
      (fired, .fire alert :: calls)
    else fireDue active firing

def cleared (active : List Alert) (firing : Firing) : List String :=
  (firing.map Prod.fst).filter fun key => key ∉ alertKeys active

def reconcile (active : List Alert) (firing : Firing) : Firing × List AlerterCall :=
  let fired := fireDue reAlertMs now active firing
  (Assoc.restrict fired.1 fun key => key ∈ alertKeys active, fired.2 ++ (cleared active fired.1).map .resolve)

end AlertGate

/-! ## The sinks -/

inductive PagerMessage
  | fire (alert : Alert)
  | resolve (key : String)
deriving DecidableEq

namespace WebhookAlerter

variable (minSeverity : AlertSeverity)

def call (fired : List String) : AlerterCall → List String × List PagerMessage
  | .fire alert =>
    if alert.severity.rank < minSeverity.rank then (fired, []) else (fired.insert alert.key, [.fire alert])
  | .resolve key => if key ∈ fired then (fired.filter (· ≠ key), [.resolve key]) else (fired, [])

/-- `LeaderOnlyAlerter`: a follower's calls go nowhere. -/
def callIfLeader (isLeader : Bool) (fired : List String) (call : AlerterCall) : List String × List PagerMessage :=
  if isLeader then WebhookAlerter.call minSeverity fired call else (fired, [])

def deliver (isLeader : Bool) : List String → List AlerterCall → List String × List PagerMessage
  | fired, [] => (fired, [])
  | fired, c :: calls =>
    let (fired, messages) := callIfLeader minSeverity isLeader fired c
    let (fired, rest) := deliver isLeader fired calls
    (fired, messages ++ rest)

end WebhookAlerter

/-! ## What the gate does -/

section
variable {reAlertMs now : Nat} {active : List Alert} {firing : Firing} {key : String}

open AlertGate

theorem get_fireDue_of_notMem (hkey : key ∉ alertKeys active) :
    Assoc.get (fireDue reAlertMs now active firing).1 key = Assoc.get firing key := by
  induction active generalizing firing with
  | nil => rfl
  | cons alert active ih =>
    obtain ⟨hne, hrest⟩ := not_or.mp (fun h => hkey (List.mem_cons.mpr h))
    unfold fireDue
    split
    · exact (ih hrest).trans (Assoc.get_set_of_ne hne)
    · exact ih hrest

theorem get_fireDue_isSome (hsome : (Assoc.get firing key).isSome = true) :
    (Assoc.get (fireDue reAlertMs now active firing).1 key).isSome = true := by
  induction active generalizing firing with
  | nil => exact hsome
  | cons alert active ih =>
    unfold fireDue
    split
    · apply ih
      by_cases hkey : key = alert.key
      · rw [hkey, Assoc.get_set_self]
        rfl
      · rw [Assoc.get_set_of_ne hkey]
        exact hsome
    · exact ih hsome

theorem get_fireDue_of_mem (hkey : key ∈ alertKeys active) :
    (Assoc.get (fireDue reAlertMs now active firing).1 key).isSome = true := by
  induction active generalizing firing with
  | nil => cases hkey
  | cons alert active ih =>
    unfold fireDue
    rcases List.mem_cons.mp hkey with rfl | hrest
    · split
      · apply get_fireDue_isSome
        rw [Assoc.get_set_self]
        rfl
      · rename_i hdue
        apply get_fireDue_isSome
        cases hget : Assoc.get firing alert.key with
        | none => exact absurd (by simp [due, hget]) hdue
        | some lastFired => rfl
    · split
      · exact ih hrest
      · exact ih hrest

theorem fireDue_cases (reAlertMs now : Nat) (firing : Firing) (hkey : key ∈ alertKeys active) :
    (∃ alert, alert.key = key ∧ alert ∈ active ∧ .fire alert ∈ (fireDue reAlertMs now active firing).2) ∨
      ∃ lastFired, Assoc.get firing key = some lastFired ∧ now < lastFired + reAlertMs ∧
        Assoc.get (fireDue reAlertMs now active firing).1 key = some lastFired := by
  induction active generalizing firing with
  | nil => cases hkey
  | cons alert active ih =>
    unfold fireDue
    by_cases hown : key = alert.key
    · subst hown
      split
      · exact .inl ⟨alert, rfl, List.mem_cons_self, List.mem_cons_self⟩
      · rename_i hdue
        cases hget : Assoc.get firing alert.key with
        | none => exact absurd (by simp [due, hget]) hdue
        | some lastFired =>
          have hrecent : now < lastFired + reAlertMs := by simpa [due, hget] using hdue
          by_cases hagain : alert.key ∈ alertKeys active
          · rcases ih firing hagain with ⟨other, hother, hmem, hcall⟩ | ⟨last, hlast, hnow, hafter⟩
            · exact .inl ⟨other, hother, List.mem_cons_of_mem _ hmem, hcall⟩
            · exact .inr ⟨last, hget.symm.trans hlast, hnow, hafter⟩
          · exact .inr ⟨lastFired, rfl, hrecent, (get_fireDue_of_notMem hagain).trans hget⟩
    · have hrest : key ∈ alertKeys active := (List.mem_cons.mp hkey).resolve_left hown
      split
      · rcases ih (Assoc.set firing alert.key now) hrest with ⟨other, hother, hmem, hcall⟩ | ⟨last, hlast, hnow, hafter⟩
        · exact .inl ⟨other, hother, List.mem_cons_of_mem _ hmem, List.mem_cons_of_mem _ hcall⟩
        · exact .inr ⟨last, (Assoc.get_set_of_ne hown).symm.trans hlast, hnow, hafter⟩
      · rcases ih firing hrest with ⟨other, hother, hmem, hcall⟩ | hrecent
        · exact .inl ⟨other, hother, List.mem_cons_of_mem _ hmem, hcall⟩
        · exact .inr hrecent

theorem get_fireDue_le (hle : ∀ key lastFired, Assoc.get firing key = some lastFired → lastFired ≤ now) (key : String)
    (lastFired : Nat) (hget : Assoc.get (fireDue reAlertMs now active firing).1 key = some lastFired) : lastFired ≤ now := by
  induction active generalizing firing with
  | nil => exact hle key lastFired hget
  | cons alert active ih =>
    unfold fireDue at hget
    split at hget
    · refine ih (fun k t hkt => ?_) hget
      by_cases hk : k = alert.key
      · rw [hk, Assoc.get_set_self, Option.some.injEq] at hkt
        exact hkt.ge
      · rw [Assoc.get_set_of_ne hk] at hkt
        exact hle k t hkt
    · exact ih hle hget

theorem fireDue_calls {call : AlerterCall} (hcall : call ∈ (fireDue reAlertMs now active firing).2) :
    ∃ alert ∈ active, call = .fire alert := by
  induction active generalizing firing with
  | nil => cases hcall
  | cons alert active ih =>
    unfold fireDue at hcall
    split at hcall
    · rcases List.mem_cons.mp hcall with rfl | hrest
      · exact ⟨alert, List.mem_cons_self, rfl⟩
      · obtain ⟨other, hother, heq⟩ := ih hrest
        exact ⟨other, List.mem_cons_of_mem _ hother, heq⟩
    · obtain ⟨other, hother, heq⟩ := ih hcall
      exact ⟨other, List.mem_cons_of_mem _ hother, heq⟩

theorem reconcile_firing : (Assoc.get (reconcile reAlertMs now active firing).1 key).isSome = true ↔ key ∈ alertKeys active := by
  unfold reconcile
  by_cases hkey : key ∈ alertKeys active
  · refine iff_of_true ?_ hkey
    rw [Assoc.get_restrict (by simpa using hkey)]
    exact get_fireDue_of_mem hkey
  · refine iff_of_false ?_ hkey
    rw [Assoc.get_restrict_eq_none (by simpa using hkey)]
    simp

theorem reconcile_get (hkey : key ∈ alertKeys active) :
    Assoc.get (reconcile reAlertMs now active firing).1 key = Assoc.get (fireDue reAlertMs now active firing).1 key := by
  unfold reconcile
  rw [Assoc.get_restrict (by simpa using hkey)]

theorem reconcile_le (hle : ∀ key lastFired, Assoc.get firing key = some lastFired → lastFired ≤ now) (key : String)
    (lastFired : Nat) (hget : Assoc.get (reconcile reAlertMs now active firing).1 key = some lastFired) : lastFired ≤ now := by
  have hkey : key ∈ alertKeys active := by
    apply reconcile_firing.mp
    rw [hget]
    rfl
  rw [reconcile_get hkey] at hget
  exact get_fireDue_le hle key lastFired hget

/-- What is wrong is fired, or was not long ago. -/
theorem reconcile_cases (reAlertMs now : Nat) (firing : Firing) (hkey : key ∈ alertKeys active) :
    (∃ alert, alert.key = key ∧ alert ∈ active ∧ .fire alert ∈ (reconcile reAlertMs now active firing).2) ∨
      ∃ lastFired, Assoc.get firing key = some lastFired ∧ now < lastFired + reAlertMs ∧
        Assoc.get (reconcile reAlertMs now active firing).1 key = some lastFired := by
  rcases fireDue_cases reAlertMs now firing hkey with
    ⟨alert, halert, hmem, hcall⟩ | ⟨lastFired, hget, hrecent, hafter⟩
  · exact .inl ⟨alert, halert, hmem, List.mem_append_left _ hcall⟩
  · exact .inr ⟨lastFired, hget, hrecent, (reconcile_get hkey).trans hafter⟩

theorem reconcile_fires {alert : Alert} (hcall : .fire alert ∈ (reconcile reAlertMs now active firing).2) : alert ∈ active := by
  rcases List.mem_append.mp hcall with hfire | hresolve
  · obtain ⟨other, hother, heq⟩ := fireDue_calls hfire
    cases heq
    exact hother
  · obtain ⟨key, -, heq⟩ := List.mem_map.mp hresolve
    cases heq

theorem reconcile_resolves (hkey : key ∉ alertKeys active) (hfiring : (Assoc.get firing key).isSome = true) :
    .resolve key ∈ (reconcile reAlertMs now active firing).2 := by
  apply List.mem_append_right
  apply List.mem_map_of_mem
  refine List.mem_filter.mpr ⟨?_, decide_eq_true hkey⟩
  apply Assoc.get_isSome_iff.mp
  rw [get_fireDue_of_notMem hkey]
  exact hfiring

end

/-! ## What the sinks do -/

section
variable {minSeverity : AlertSeverity} {fired : List String} {calls : List AlerterCall}

open WebhookAlerter

/-- A follower sends nothing. -/
theorem deliver_follower : deliver minSeverity false fired calls = (fired, []) := by
  induction calls generalizing fired with
  | nil => rfl
  | cons call calls ih =>
    unfold deliver callIfLeader
    simp only [Bool.false_eq_true, if_false, ih, List.append_nil]

theorem fire_mem_deliver {alert : Alert} (hseverity : minSeverity.rank ≤ alert.severity.rank) (hcall : .fire alert ∈ calls) :
    .fire alert ∈ (deliver minSeverity true fired calls).2 := by
  induction calls generalizing fired with
  | nil => cases hcall
  | cons call calls ih =>
    unfold deliver
    rcases List.mem_cons.mp hcall with rfl | hrest
    · apply List.mem_append_left
      simp only [callIfLeader, if_true, WebhookAlerter.call, if_neg (Nat.not_lt_of_le hseverity)]
      exact List.mem_singleton_self _
    · exact List.mem_append_right _ (ih hrest)

/-- What a call for another key leaves of what has been paged. -/
theorem call_fired_of_ne (minSeverity : AlertSeverity) (fired : List String) {key : String} {call : AlerterCall} (hfire : ∀ alert, call = .fire alert → alert.key ≠ key)
    (hresolve : call ≠ .resolve key) :
    key ∈ (callIfLeader minSeverity true fired call).1 ↔ key ∈ fired := by
  simp only [callIfLeader, if_true]
  cases call with
  | fire alert =>
    have hne := hfire alert rfl
    simp only [WebhookAlerter.call]
    split
    · exact Iff.rfl
    · simp [List.mem_insert_iff, Ne.symm hne]
  | resolve k =>
    have hne : key ≠ k := fun h => hresolve (h ▸ rfl)
    simp only [WebhookAlerter.call]
    split
    · simp [hne]
    · exact Iff.rfl

theorem call_messages_of_ne {key : String} {call : AlerterCall} (hresolve : call ≠ .resolve key) :
    .resolve key ∉ (callIfLeader minSeverity true fired call).2 := by
  simp only [callIfLeader, if_true]
  cases call with
  | fire alert =>
    simp only [WebhookAlerter.call]
    split
    · simp
    · simp
  | resolve k =>
    have hne : key ≠ k := fun h => hresolve (h ▸ rfl)
    simp only [WebhookAlerter.call]
    split
    · simp [hne]
    · simp

theorem resolve_of_mem_deliver {key : String} (h : .resolve key ∈ (deliver minSeverity true fired calls).2) :
    .resolve key ∈ calls := by
  induction calls generalizing fired with
  | nil => cases h
  | cons call calls ih =>
    unfold deliver at h
    by_cases hown : call = .resolve key
    · rw [hown]
      exact List.mem_cons_self
    · rcases List.mem_append.mp h with hfirst | hrest
      · exact absurd hfirst (call_messages_of_ne hown)
      · exact List.mem_cons_of_mem _ (ih hrest)

/-- The leader resolves what it has paged itself. -/
theorem resolve_mem_deliver {key : String} (hfires : ∀ alert, .fire alert ∈ calls → alert.key ≠ key)
    (hcall : .resolve key ∈ calls) : .resolve key ∈ (deliver minSeverity true fired calls).2 ↔ key ∈ fired := by
  induction calls generalizing fired with
  | nil => cases hcall
  | cons call calls ih =>
    have hrestFires : ∀ alert, .fire alert ∈ calls → alert.key ≠ key := fun alert h => hfires alert (List.mem_cons_of_mem _ h)
    unfold deliver
    by_cases hown : call = .resolve key
    · subst hown
      by_cases hkey : key ∈ fired
      · refine iff_of_true ?_ hkey
        apply List.mem_append_left
        simp only [callIfLeader, if_true, WebhookAlerter.call, if_pos hkey]
        exact List.mem_singleton_self _
      · refine iff_of_false ?_ hkey
        have hsame : callIfLeader minSeverity true fired (.resolve key) = (fired, []) := by
          simp only [callIfLeader, if_true, WebhookAlerter.call, if_neg hkey]
        simp only [hsame, List.nil_append]
        by_cases hmore : .resolve key ∈ calls
        · rw [ih hrestFires hmore]
          exact hkey
        · intro h
          exact hmore (resolve_of_mem_deliver h)
    · have hrest : .resolve key ∈ calls := (List.mem_cons.mp hcall).resolve_left (Ne.symm hown)
      have hfired := call_fired_of_ne minSeverity fired
        (fun alert h => hfires alert (h ▸ List.mem_cons_self)) hown
      rw [← hfired, ← ih hrestFires hrest]
      exact List.mem_append.trans (or_iff_right (call_messages_of_ne hown))

end

end Paymaster
