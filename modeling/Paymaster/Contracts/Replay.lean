import Paymaster.Contracts.Solvency

/-!
# Event history and balances

Between transactions a tenant's balance is what its events add up to, less the
reservations that were never settled, and nothing but the tenant's own calls
and operations moves it. The last event of a transaction reports the balance
at its end unless a reservation was taken after it and never settled.
-/

namespace Paymaster

open CallStack Function

def tenantView (t : Bytes32) (w : World) : Nat × List TenantLedgerEvent :=
  (w.paymaster.balances t, eventsOf t w.journal)

/-- A step is an act for a tenant: a deposit or a withdrawal for it, the return
of one, or the validation or settlement of an operation that names it. -/
def ActsFor (t : Bytes32) (c : Config) : Label → Prop
  | .call _ (.depositFor tenant _) => tenant = t
  | .withdrawFor _ tenant _ _ => tenant = t
  | .validate op _ => tenantOf op = t
  | .settle _ _ => ∃ f info queue saved fs,
      c.stack = f :: ⟨.executing (info :: queue), saved⟩ :: fs ∧ tenantOf info.op = t
  | .returned => ∃ receiver amount saved fs, c.stack = ⟨.withdrawFor t receiver amount, saved⟩ :: fs
  | _ => False

section
variable {dep : Deployment} {t : Bytes32} {w w' : World} {sender : Address}

theorem tenantView_eq (es : List Entry) (hb : w'.paymaster.balances t = w.paymaster.balances t)
    (hj : w'.journal = es ++ w.journal) (hes : ∀ e ∈ es, e.of t = none) :
    tenantView t w' = tenantView t w := by
  simp only [tenantView, hb, hj, eventsOf_append hes]

theorem tenantView_call {c : Call} (h : w.call dep sender c = .ok w')
    (hc : ∀ v, c ≠ .depositFor t v) : tenantView t w' = tenantView t w := by
  obtain ⟨s, events, hs, rfl⟩ := World.call_ok h
  by_cases hd : ∃ tenant value, c = .depositFor tenant value
  · obtain ⟨tenant, value, rfl⟩ := hd
    have ht : tenant ≠ t := fun e => hc value (e ▸ rfl)
    obtain ⟨-, rfl, rfl⟩ := depositFor_ok hs
    refine tenantView_eq [.event _, .call ..] (update_of_ne (Ne.symm ht) ..) rfl fun e he => ?_
    simp only [List.mem_cons, List.not_mem_nil, or_false] at he
    rcases he with rfl | rfl
    · simp [Entry.of, ledgerEventOf, Option.filter, ht]
    · rfl
  · obtain ⟨hbal, -, -, hq⟩ := call_money hs fun tenant value e => hd ⟨tenant, value, e⟩
    refine tenantView_eq (events.map Entry.event ++ [.call sender w.timestamp c]) (congrFun hbal t) (by simp)
      fun x hx => ?_
    rcases List.mem_append.mp hx with hx | hx
    · obtain ⟨e, he, rfl⟩ := List.mem_map.mp hx
      exact of_event_none (hq e he)
    · cases List.mem_singleton.mp hx; rfl

theorem tenantView_withdrawFor {tenant : Bytes32} {receiver : Address} {amount : Nat} (ht : tenant ≠ t)
    (h : w.withdrawFor sender tenant receiver amount = .ok w') : tenantView t w' = tenantView t w := by
  obtain ⟨s, hs, -, rfl⟩ := World.withdrawFor_ok h
  obtain ⟨-, -, rfl⟩ := withdrawForDebit_ok hs
  exact tenantView_eq [.debit ..] (update_of_ne (Ne.symm ht) ..) rfl (by simp [Entry.of])

theorem tenantView_withdrawn {tenant : Bytes32} (receiver : Address) (amount : Nat) (ht : tenant ≠ t) :
    tenantView t (w.withdrawn tenant receiver amount) = tenantView t w :=
  tenantView_eq [.event _] rfl rfl (by simp [Entry.of, ledgerEventOf, withdrawForEvent, Option.filter, ht])

theorem tenantView_validate {op : PackedUserOperation} {maxCost : Nat} {info : OpInfo} (ht : tenantOf op ≠ t)
    (h : w.validate dep op maxCost = some (w', info)) : tenantView t w' = tenantView t w := by
  rcases World.validate_some h with ⟨-, rfl⟩ | ⟨s, context, signer, vu, va, hv, -, -, -, -, rfl⟩
  · rfl
  · obtain ⟨-, -, -, rfl⟩ := validatePaymasterUserOp_ok hv
    exact tenantView_eq [.reserve ..] (update_of_ne (Ne.symm ht) ..) rfl (by simp [Entry.of])

theorem tenantView_charge {info : OpInfo} {cost fee kept : Nat} (ht : tenantOf info.op ≠ t)
    (h : w.charge info cost fee kept = some w') : tenantView t w' = tenantView t w := by
  rcases World.charge_some h with ⟨-, rfl⟩ | ⟨context, s, events, hctx, hp, -, rfl⟩
  · rfl
  · obtain ⟨charge, -, rfl, rfl⟩ := postOp_ok hp
    have ht' : context.tenant ≠ t := by rw [info.carried context hctx]; exact ht
    exact tenantView_eq [.event _] (update_of_ne (Ne.symm ht') ..) rfl
      (by simp [Entry.of, ledgerEventOf, Option.filter, ht'])

theorem tenantView_forfeit {info : OpInfo} {kept : Nat} (h : w.forfeit info kept = some w') :
    tenantView t w' = tenantView t w := by
  rcases World.forfeit_some h with ⟨-, rfl⟩ | ⟨context, -, -, rfl⟩
  · rfl
  · exact tenantView_eq [.forfeit ..] rfl rfl (by simp [Entry.of])

/-- Only a tenant's own acts move its balance or emit its events; any other
step leaves both, or returns to where a call in progress began. -/
theorem tenantView_step {c c' : Config} {l : Label} (h : Step dep c l c') :
    ActsFor t c l ∨ tenantView t c'.world = tenantView t c.world ∨
      ∃ f ∈ c.stack, tenantView t c'.world = tenantView t f.saved := by
  cases h with
  | transaction w u => exact .inr (.inl rfl)
  | enter w fs => exact .inr (.inl rfl)
  | refused => exact .inr (.inl rfl)
  | @call w w' fs sender c hc =>
    by_cases hd : ∃ v, c = .depositFor t v
    · obtain ⟨v, rfl⟩ := hd
      exact .inl rfl
    · exact .inr (.inl (tenantView_call hc fun v e => hd ⟨v, e⟩))
  | depositTo fs hd => exact .inr (.inl (by rw [World.depositTo_ok hd]; rfl))
  | @withdrawFor w w' fs sender tenant receiver amount hw =>
    by_cases ht : tenant = t
    · exact .inl ht
    · exact .inr (.inl (tenantView_withdrawFor ht hw))
  | withdrawTo fs hw => exact .inr (.inl (by rw [(World.withdrawTo_ok hw).2]; rfl))
  | handleOps w fs => exact .inr (.inl rfl)
  | @validate w w' saved fs infos op maxCost info hv =>
    by_cases ht : tenantOf op = t
    · exact .inl ht
    · exact .inr (.inl (tenantView_validate ht hv))
  | execute w saved fs infos => exact .inr (.inl rfl)
  | start w saved fs info queue => exact .inr (.inl rfl)
  | @charge w w' began saved fs info queue reverted cost fee kept hc =>
    by_cases ht : tenantOf info.op = t
    · exact .inl ⟨_, info, queue, saved, fs, rfl, ht⟩
    · cases reverted with
      | true => exact .inr (.inr ⟨_, List.mem_cons_self, tenantView_charge ht hc⟩)
      | false => exact .inr (.inl (tenantView_charge ht hc))
  | forfeit fs hf => exact .inr (.inr ⟨_, List.mem_cons_self, tenantView_forfeit hf⟩)
  | returned w saved fs hk => exact .inr (.inl rfl)
  | withdrawn w saved fs tenant receiver amount =>
    by_cases ht : tenant = t
    · exact .inl ⟨receiver, amount, saved, fs, by rw [ht]⟩
    · exact .inr (.inl (tenantView_withdrawn receiver amount ht))
  | reverted w f fs => exact .inr (.inr ⟨f, List.mem_cons_self, rfl⟩)
  | aborted w began f fs => exact .inr (.inr ⟨f, by simp, rfl⟩)

end

theorem sum_eq_zero_iff {j : List Entry} {f : Entry → Nat} : (j.map f).sum = 0 ↔ ∀ e ∈ j, f e = 0 := by
  induction j with
  | nil => simp
  | cons e j ih => simp [ih]

/-- **Event history.** In every run, between transactions, a tenant's balance is
the sum of its events less its forfeited reservations; at every point only the
tenant's own acts touch its balance and events; and the balance in its last
event is the balance between transactions exactly when nothing was reserved
from the tenant after that event. -/
theorem events_replay {dep : Deployment} {s : State} {deposit : Nat} {ls : List Label} {c : Config}
    (hs : Deployed s) (h : Runs.run (step dep) (launch s deposit) ls = some c) (t : Bytes32) :
    (c.stack = [] → (c.world.paymaster.balances t : Int) =
      replayed t c.world.journal - forfeited t c.world.journal) ∧
    (∀ l c', step dep c l = some c' → ActsFor t c l ∨ tenantView t c'.world = tenantView t c.world ∨
      ∃ f ∈ c.stack, tenantView t c'.world = tenantView t f.saved) ∧
    (c.stack = [] → ∀ b, reported t c.world.journal = some b →
      (b = c.world.paymaster.balances t ↔ ∀ e ∈ silent t c.world.journal, e.reservedFrom t = 0)) := by
  obtain ⟨hbal, hrep⟩ := books_of_run hs h t
  refine ⟨fun hc => ?_, fun l c' hstep => tenantView_step (step_cases hstep), fun hc b hb => ?_⟩
  · have := hbal.top
    rw [hc] at this
    simp only [Balanced, inFlight, List.map_nil, List.sum_nil] at this
    omega
  · have hr := hrep.top
    rw [hc] at hr
    have hd : sinceReport (Entry.debitedFrom t) t c.world.journal = 0 := Nat.le_zero.mp hr.debits
    have hsum := hr.balance b hb
    rw [← sum_eq_zero_iff]
    change b = _ ↔ sinceReport (Entry.reservedFrom t) t c.world.journal = 0
    omega

/-- One transaction of a contract that funds tenant 7 and then bundles an
operation of the tenant whose post-op reverts. -/
def silentRun : List Label :=
  [.transaction 0, .call 9 (.depositFor 7 100), .handleOps, .validate sampleOp 10, .execute, .start,
    .settle false (.postOpReverted 10), .returned, .returned]

/-- The transaction's only event of tenant 7 reports 100; at its end the balance is 90. -/
theorem silentRun_unreported :
    ∃ c, Runs.run (step sampleDeployment) (launch sampleState 0) silentRun = some c ∧ c.stack.length = 0 ∧
      (eventsOf 7 c.world.journal).length = 1 ∧ reported 7 c.world.journal = some 100 ∧
      c.world.paymaster.balances 7 = 90 := by
  have hrun : (Runs.run (step sampleDeployment) (launch sampleState 0) silentRun).map (fun c =>
      (c.stack.length, (eventsOf 7 c.world.journal).length, reported 7 c.world.journal,
        c.world.paymaster.balances 7)) = some (0, 1, some 100, 90) := by decide +kernel
  obtain ⟨c, hc, he⟩ := Option.map_eq_some_iff.mp hrun
  simp only [Prod.mk.injEq] at he
  exact ⟨c, hc, he⟩

theorem events_replay_silentRun :
    ∃ c, Runs.run (step sampleDeployment) (launch sampleState 0) silentRun = some c ∧
      (c.stack = [] → (c.world.paymaster.balances 7 : Int) =
        replayed 7 c.world.journal - forfeited 7 c.world.journal) ∧
      (∀ l c', step sampleDeployment c l = some c' → ActsFor 7 c l ∨
        tenantView 7 c'.world = tenantView 7 c.world ∨
        ∃ f ∈ c.stack, tenantView 7 c'.world = tenantView 7 f.saved) ∧
      (c.stack = [] → ∀ b, reported 7 c.world.journal = some b →
        (b = c.world.paymaster.balances 7 ↔ ∀ e ∈ silent 7 c.world.journal, e.reservedFrom 7 = 0)) := by
  have hrun : (Runs.run (step sampleDeployment) (launch sampleState 0) silentRun).isSome = true := by
    decide +kernel
  obtain ⟨c, hc⟩ := Option.isSome_iff_exists.mp hrun
  exact ⟨c, hc, events_replay sampleState_deployed hc 7⟩

end Paymaster
