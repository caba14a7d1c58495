import Mathlib
import Paymaster.Contracts.Spec

/-!
# Replaying a tenant's events

The ledger that the backend keeps is the sum of the contract's events. A
balance and its replayed events differ by what is in flight: the reservations
of operations validated and not yet settled, and the debits of withdrawals
whose event waits for the receiver to return. What is in flight can be read
off the stack, so between transactions only the reservations that were never
settled remain.
-/

namespace Paymaster

open CallStack Function

/-! ## The events as the backend reads them -/

inductive LedgerKind
  | deposit
  | withdrawal
  | charge
deriving DecidableEq

structure TenantLedgerEvent where
  kind : LedgerKind
  tenant : Bytes32
  deltaWei : Int
  balanceAfterWei : Nat
deriving DecidableEq

def ledgerEventOf : Event → Option TenantLedgerEvent
  | .tenantDeposited tenant _ amount balance => some ⟨.deposit, tenant, amount, balance⟩
  | .tenantWithdrawn tenant _ amount balance => some ⟨.withdrawal, tenant, -amount, balance⟩
  | .tenantCharged tenant _ charged balance => some ⟨.charge, tenant, -charged, balance⟩
  | _ => none

def getTenantLedgerEvents (journal : List Entry) : List TenantLedgerEvent :=
  journal.reverse.filterMap fun
    | .event e => ledgerEventOf e
    | _ => none

def eventsOf (tenant : Bytes32) (journal : List Entry) : List TenantLedgerEvent :=
  (getTenantLedgerEvents journal).filter fun e => e.tenant = tenant

def replayed (tenant : Bytes32) (journal : List Entry) : Int :=
  ((eventsOf tenant journal).map TenantLedgerEvent.deltaWei).sum

def reported (tenant : Bytes32) (journal : List Entry) : Option Nat :=
  ((eventsOf tenant journal).map TenantLedgerEvent.balanceAfterWei).getLast?

def forfeited (tenant : Bytes32) : List Entry → Nat
  | [] => 0
  | .forfeit op amount :: journal => (if tenantOf op = tenant then amount else 0) + forfeited tenant journal
  | _ :: journal => forfeited tenant journal

def Entry.of (tenant : Bytes32) : Entry → Option TenantLedgerEvent
  | .event e => (ledgerEventOf e).filter fun e => e.tenant = tenant
  | _ => none

theorem eventsOf_cons (tenant : Bytes32) (e : Entry) (journal : List Entry) :
    eventsOf tenant (e :: journal) = eventsOf tenant journal ++ (e.of tenant).toList := by
  unfold eventsOf getTenantLedgerEvents
  rw [List.reverse_cons, List.filterMap_append, List.filter_append]
  congr 1
  cases e with
  | event e =>
    cases h : ledgerEventOf e with
    | none => simp [Entry.of, h]
    | some ev => by_cases ht : ev.tenant = tenant <;> simp [Entry.of, Option.filter, h, ht]
  | _ => simp [Entry.of]

theorem replayed_cons (tenant : Bytes32) (e : Entry) (journal : List Entry) :
    replayed tenant (e :: journal) = replayed tenant journal + ((e.of tenant).elim 0 TenantLedgerEvent.deltaWei) := by
  unfold replayed
  rw [eventsOf_cons, List.map_append, List.sum_append]
  cases e.of tenant <;> simp

theorem reported_cons (tenant : Bytes32) (e : Entry) (journal : List Entry) :
    reported tenant (e :: journal) = ((e.of tenant).map TenantLedgerEvent.balanceAfterWei).or (reported tenant journal) := by
  unfold reported
  rw [eventsOf_cons, List.map_append]
  cases e.of tenant <;> simp

theorem eventsOf_append {tenant : Bytes32} {es journal : List Entry} (h : ∀ e ∈ es, e.of tenant = none) :
    eventsOf tenant (es ++ journal) = eventsOf tenant journal := by
  induction es with
  | nil => rfl
  | cons e es ih =>
    rw [List.cons_append, eventsOf_cons, ih fun e' he' => h e' (by simp [he']), h e (by simp)]
    simp

theorem of_event_none {tenant : Bytes32} {e : Event} (h : e.report? = none) : (Entry.event e).of tenant = none := by
  cases e <;> simp_all [Entry.of, ledgerEventOf, Event.report?]

theorem forfeited_events (tenant : Bytes32) (events : List Event) (journal : List Entry) :
    forfeited tenant (events.map Entry.event ++ journal) = forfeited tenant journal := by
  induction events with
  | nil => rfl
  | cons e es ih => exact ih

def movedBy (kind : LedgerKind) (tenant : Bytes32) (journal : List Entry) : Int :=
  (((eventsOf tenant journal).filter fun e => e.kind = kind).map TenantLedgerEvent.deltaWei).sum

theorem movedBy_cons (kind : LedgerKind) (tenant : Bytes32) (e : Entry) (journal : List Entry) :
    movedBy kind tenant (e :: journal) =
      movedBy kind tenant journal + (e.of tenant).elim 0 fun ev => if ev.kind = kind then ev.deltaWei else 0 := by
  unfold movedBy
  rw [eventsOf_cons, List.filter_append, List.map_append, List.sum_append]
  cases e.of tenant with
  | none => simp
  | some ev => by_cases hk : ev.kind = kind <;> simp [hk]

theorem charge_le {tenant : Bytes32} {e : Entry} {ev : TenantLedgerEvent} (he : e.of tenant = some ev)
    (hk : ev.kind = .charge) : ev.deltaWei ≤ 0 := by
  cases e with
  | event e =>
    obtain ⟨h, -⟩ := Option.filter_eq_some_iff.mp he
    cases e <;> simp only [ledgerEventOf, Option.some.injEq, reduceCtorEq] at h <;> subst h <;> simp at hk ⊢
  | _ => simp [Entry.of] at he

theorem replayed_le (tenant : Bytes32) (journal : List Entry) :
    replayed tenant journal ≤ movedBy .deposit tenant journal + movedBy .withdrawal tenant journal := by
  induction journal with
  | nil => simp [replayed, movedBy, eventsOf, getTenantLedgerEvents]
  | cons e journal ih =>
    rw [replayed_cons, movedBy_cons, movedBy_cons]
    cases he : e.of tenant with
    | none => simpa using ih
    | some ev =>
      cases hk : ev.kind with
      | deposit => simp [hk]; omega
      | withdrawal => simp [hk]; omega
      | charge => 
        have := charge_le he hk
        simp [hk]; omega

/-! ## What is in flight -/

def OpInfo.heldFor (tenant : Bytes32) (info : OpInfo) : Nat :=
  if info.context.isSome ∧ tenantOf info.op = tenant then info.prefund else 0

def heldFor (tenant : Bytes32) (infos : List OpInfo) : Nat := (infos.map (OpInfo.heldFor tenant)).sum

def Kind.inFlight (tenant : Bytes32) : Kind → Nat
  | .withdrawFor t _ amount => if t = tenant then amount else 0
  | .validating infos => heldFor tenant infos
  | .executing infos => heldFor tenant infos
  | _ => 0

def inFlight (tenant : Bytes32) (ks : List Kind) : Nat := (ks.map (Kind.inFlight tenant)).sum

theorem inFlight_cons (tenant : Bytes32) (k : Kind) (ks : List Kind) :
    inFlight tenant (k :: ks) = k.inFlight tenant + inFlight tenant ks := by
  simp only [inFlight, List.map_cons, List.sum_cons]

theorem heldFor_cons (tenant : Bytes32) (info : OpInfo) (infos : List OpInfo) :
    heldFor tenant (info :: infos) = info.heldFor tenant + heldFor tenant infos := by
  simp only [heldFor, List.map_cons, List.sum_cons]

theorem heldFor_snoc (tenant : Bytes32) (info : OpInfo) (infos : List OpInfo) :
    heldFor tenant (infos ++ [info]) = heldFor tenant infos + info.heldFor tenant := by
  simp only [heldFor, List.map_append, List.map_cons, List.map_nil, List.sum_append, List.sum_cons,
    List.sum_nil, Nat.add_zero]

/-- The books of one tenant: balance, money in flight and forfeited
reservations together are what its events add up to. -/
def Balanced (tenant : Bytes32) (w : World) (ks : List Kind) : Prop :=
  (w.paymaster.balances tenant : Int) + inFlight tenant ks + forfeited tenant w.journal =
    replayed tenant w.journal

section
variable {dep : Deployment} {t : Bytes32} {w w' : World} {ks : List Kind} {sender : Address}

/-- The world's transitions seen from one tenant: its balance moves by what
its new event says, or by what goes into or comes out of flight. -/
theorem Balanced.call {c : Call} (hb : Balanced t w ks) (h : w.call dep sender c = .ok w') :
    Balanced t w' ks := by
  obtain ⟨s, events, hs, rfl⟩ := World.call_ok h
  by_cases hc : ∃ tenant value, c = .depositFor tenant value
  · obtain ⟨tenant, value, rfl⟩ := hc
    obtain ⟨-, rfl, rfl⟩ := depositFor_ok hs
    simp only [Balanced, State.withBalance, List.map_cons, List.map_nil, List.cons_append, List.nil_append,
      replayed_cons, forfeited, Entry.of, ledgerEventOf] at hb ⊢
    by_cases ht : tenant = t
    · subst ht
      simp [Option.filter]
      omega
    · simp [Option.filter, ht, update_of_ne (Ne.symm ht)]
      omega
  · obtain ⟨hbal, -, -, hq⟩ := call_money hs fun tenant value e => hc ⟨tenant, value, e⟩
    have hev : eventsOf t (events.map Entry.event ++ .call sender w.timestamp c :: w.journal) =
        eventsOf t w.journal := by
      rw [eventsOf_append, eventsOf_cons]
      · simp [Entry.of]
      · intro x hx
        obtain ⟨e, he, rfl⟩ := List.mem_map.mp hx
        exact of_event_none (hq e he)
    simp only [Balanced, replayed, hev, hbal, forfeited_events, forfeited] at hb ⊢
    exact hb

theorem Balanced.depositTo {value : Nat} (hb : Balanced t w ks) (h : w.depositTo value = .ok w') :
    Balanced t w' ks := by
  rw [World.depositTo_ok h]
  exact hb

theorem Balanced.withdrawFor {tenant : Bytes32} {receiver : Address} {amount : Nat} (hb : Balanced t w ks)
    (h : w.withdrawFor sender tenant receiver amount = .ok w') :
    Balanced t w' (.withdrawFor tenant receiver amount :: ks) := by
  obtain ⟨s, hs, -, rfl⟩ := World.withdrawFor_ok h
  obtain ⟨-, hle, rfl⟩ := withdrawForDebit_ok hs
  simp only [Balanced, inFlight_cons, Kind.inFlight, State.withBalance, replayed_cons, forfeited, Entry.of,
    Option.elim_none, Int.add_zero] at hb ⊢
  by_cases ht : tenant = t
  · subst ht
    simp only [update_self, ite_true]
    omega
  · simp only [update_of_ne (Ne.symm ht), ht, ite_false]
    omega

theorem Balanced.withdrawn {tenant : Bytes32} {receiver : Address} {amount : Nat}
    (hb : Balanced t w (.withdrawFor tenant receiver amount :: ks)) :
    Balanced t (w.withdrawn tenant receiver amount) ks := by
  simp only [Balanced, inFlight_cons, Kind.inFlight, World.withdrawn, withdrawForEvent, replayed_cons,
    forfeited, Entry.of, ledgerEventOf] at hb ⊢
  by_cases ht : tenant = t
  · subst ht
    simp [Option.filter] at hb ⊢
    omega
  · simp [Option.filter, ht] at hb ⊢
    omega

theorem Balanced.withdrawTo {amount : Nat} (hb : Balanced t w ks) (h : w.withdrawTo sender amount = .ok w') :
    Balanced t w' ks := by
  rw [(World.withdrawTo_ok h).2]
  exact hb

theorem Balanced.validate {op : PackedUserOperation} {maxCost : Nat} {info : OpInfo} {infos : List OpInfo}
    (hb : Balanced t w (.validating infos :: ks)) (h : w.validate dep op maxCost = some (w', info)) :
    Balanced t w' (.validating (infos ++ [info]) :: ks) := by
  simp only [Balanced, inFlight_cons, Kind.inFlight, heldFor_snoc] at hb ⊢
  rcases World.validate_some h with ⟨hc, rfl⟩ | ⟨s, context, signer, vu, va, hv, hop, hpre, hctx, -, rfl⟩
  · simp only [OpInfo.heldFor, hc, Option.isSome_none, Bool.false_eq_true, false_and, ite_false]
    omega
  · obtain ⟨-, -, hle, rfl⟩ := validatePaymasterUserOp_ok hv
    simp only [OpInfo.heldFor, hctx, hop, hpre, Option.isSome_some, true_and, State.withBalance, replayed_cons,
      forfeited, Entry.of, Option.elim_none, Int.add_zero]
    by_cases ht : tenantOf op = t
    · subst ht
      simp only [update_self, ite_true]
      omega
    · simp only [update_of_ne (Ne.symm ht), ht, ite_false]
      omega

theorem Balanced.charge {info : OpInfo} {queue : List OpInfo} {cost fee kept : Nat}
    (hb : Balanced t w (.executing (info :: queue) :: ks)) (h : w.charge info cost fee kept = some w') :
    Balanced t w' (.executing queue :: ks) := by
  simp only [Balanced, inFlight_cons, Kind.inFlight, heldFor_cons] at hb ⊢
  rcases World.charge_some h with ⟨hc, rfl⟩ | ⟨context, s, events, hctx, hp, -, rfl⟩
  · simp only [OpInfo.heldFor, hc, Option.isSome_none, Bool.false_eq_true, false_and, ite_false] at hb
    omega
  · obtain ⟨charge, hcharge, rfl, rfl⟩ := postOp_ok hp
    have hcar := info.carried context hctx
    have hle : charge ≤ info.prefund := by
      rw [hcharge, hcar]
      exact Nat.min_le_left _ _
    clear hcharge
    subst hcar
    simp only [OpInfo.heldFor, hctx, Option.isSome_some, true_and, State.withBalance, List.map_cons, List.map_nil,
      List.cons_append, List.nil_append, replayed_cons, forfeited, Entry.of, ledgerEventOf] at hb ⊢
    by_cases ht : tenantOf info.op = t
    · subst ht
      simp [Option.filter] at hb ⊢
      omega
    · simp [Option.filter, ht, update_of_ne (Ne.symm ht)] at hb ⊢
      omega

theorem Balanced.forfeit {info : OpInfo} {queue : List OpInfo} {kept : Nat}
    (hb : Balanced t w (.executing (info :: queue) :: ks)) (h : w.forfeit info kept = some w') :
    Balanced t w' (.executing queue :: ks) := by
  simp only [Balanced, inFlight_cons, Kind.inFlight, heldFor_cons] at hb ⊢
  rcases World.forfeit_some h with ⟨hc, rfl⟩ | ⟨context, hctx, -, rfl⟩
  · simp only [OpInfo.heldFor, hc, Option.isSome_none, Bool.false_eq_true, false_and, ite_false] at hb
    omega
  · simp only [OpInfo.heldFor, hctx, Option.isSome_some, true_and, replayed_cons, forfeited, Entry.of,
      Option.elim_none, Int.add_zero] at hb ⊢
    omega

theorem balanced_step {c c' : Config} {l : Label} (h : Step dep c l c')
    (hb : Upheld (Balanced t) c.world c.stack) : Upheld (Balanced t) c'.world c'.stack := by
  cases h with
  | transaction w u => exact Upheld.push (P := Balanced t) hb hb
  | enter w fs => exact hb.push (by simpa [Balanced, inFlight_cons, Kind.inFlight] using hb.top)
  | refused => exact hb
  | call fs hc => exact hb.stay (hb.top.call hc)
  | depositTo fs hd => exact hb.stay (hb.top.depositTo hd)
  | withdrawFor fs hw => exact hb.push (hb.top.withdrawFor hw)
  | withdrawTo fs hw => 
    exact hb.push (by simpa [Balanced, inFlight_cons, Kind.inFlight] using hb.top.withdrawTo hw)
  | handleOps w fs => exact hb.push (by simpa [Balanced, inFlight_cons, Kind.inFlight, heldFor] using hb.top)
  | validate fs hv => exact hb.switch (hb.top.validate hv)
  | execute w saved fs infos => exact hb.switch (by simpa [Balanced, inFlight_cons, Kind.inFlight] using hb.top)
  | start w saved fs info queue => 
    exact hb.push (by simpa [Balanced, inFlight_cons, Kind.inFlight] using hb.top)
  | @charge w w' began saved fs info queue reverted cost fee kept hc =>
    refine ⟨Balanced.charge ?_ hc, hb.2.2⟩
    cases reverted with
    | true => exact hb.2.top
    | false => simpa [Balanced, inFlight_cons, Kind.inFlight] using hb.top
  | forfeit fs hf => exact ⟨Balanced.forfeit hb.2.top hf, hb.2.2⟩
  | returned w saved fs hk =>
    refine hb.commit ?_
    rcases hk with rfl | rfl | rfl <;> simpa [Balanced, inFlight_cons, Kind.inFlight, heldFor] using hb.top
  | withdrawn w saved fs tenant receiver amount => exact hb.commit hb.top.withdrawn
  | reverted w f fs => exact hb.revert
  | aborted w began f fs => exact hb.revert.revert

/-! ## The last reported balance

Reservations and debits move the balance without an event. A debit's event
follows when the receiver returns, a reservation's when it is settled, so the
last event of a tenant reports the balance but for what moved silently since. -/

def silent (tenant : Bytes32) (journal : List Entry) : List Entry :=
  journal.takeWhile fun e => (e.of tenant).isNone

def Entry.reservedFrom (tenant : Bytes32) : Entry → Nat
  | .reserve op _ amount => if tenantOf op = tenant then amount else 0
  | _ => 0

def Entry.debitedFrom (tenant : Bytes32) : Entry → Nat
  | .debit _ _ t amount => if t = tenant then amount else 0
  | _ => 0

def sinceReport (f : Entry → Nat) (tenant : Bytes32) (journal : List Entry) : Nat :=
  ((silent tenant journal).map f).sum

theorem sinceReport_cons_some {f : Entry → Nat} {e : Entry} {j : List Entry} (h : (e.of t).isSome) :
    sinceReport f t (e :: j) = 0 := by
  simp [sinceReport, silent, Option.isNone_iff_eq_none, Option.isSome_iff_ne_none.mp h]

theorem sinceReport_cons_none {f : Entry → Nat} {e : Entry} {j : List Entry} (h : e.of t = none) :
    sinceReport f t (e :: j) = f e + sinceReport f t j := by
  simp [sinceReport, silent, h]

/-- Entries that neither are events of the tenant nor count leave everything since its last event as it was. -/
theorem sinceReport_append {f : Entry → Nat} {es j : List Entry} (h : ∀ e ∈ es, e.of t = none ∧ f e = 0) :
    sinceReport f t (es ++ j) = sinceReport f t j := by
  induction es with
  | nil => rfl
  | cons e es ih =>
    rw [List.cons_append, sinceReport_cons_none (h e (by simp)).1, (h e (by simp)).2, Nat.zero_add,
      ih fun x hx => h x (by simp [hx])]

def Kind.pending (tenant : Bytes32) : Kind → Nat
  | .withdrawFor t _ amount => if t = tenant then amount else 0
  | _ => 0

def pending (tenant : Bytes32) (ks : List Kind) : Nat := (ks.map (Kind.pending tenant)).sum

theorem pending_cons (tenant : Bytes32) (k : Kind) (ks : List Kind) :
    pending tenant (k :: ks) = k.pending tenant + pending tenant ks := by
  simp only [pending, List.map_cons, List.sum_cons]

/-- The last report and what moved since; of the debits since, every one is still in progress. -/
structure Reported (tenant : Bytes32) (w : World) (ks : List Kind) : Prop where
  balance : ∀ b, reported tenant w.journal = some b →
    w.paymaster.balances tenant + sinceReport (Entry.reservedFrom tenant) tenant w.journal +
      sinceReport (Entry.debitedFrom tenant) tenant w.journal = b
  debits : sinceReport (Entry.debitedFrom tenant) tenant w.journal ≤ pending tenant ks

/-- A transition that appends an event of the tenant with its balance as it now is. -/
theorem Reported.of_event {e : Entry} {j : List Entry} (ev : TenantLedgerEvent) (he : e.of t = some ev)
    (hj : w.journal = e :: j) (hb : ev.balanceAfterWei = w.paymaster.balances t) : Reported t w ks where
  balance b h := by
    rw [hj, reported_cons, he] at h
    rw [hj, sinceReport_cons_some (by simp [he]), sinceReport_cons_some (by simp [he])]
    simpa [hb] using h
  debits := by
    rw [hj, sinceReport_cons_some (by simp [he])]
    exact Nat.zero_le _

theorem Reported.of_quiet {ks' : List Kind} (es : List Entry) (hr : Reported t w ks)
    (hes : ∀ e ∈ es, e.of t = none ∧ e.reservedFrom t = 0 ∧ e.debitedFrom t = 0)
    (hj : w'.journal = es ++ w.journal) (hb : w'.paymaster.balances t = w.paymaster.balances t)
    (hp : pending t ks' = pending t ks) : Reported t w' ks' := by
  have hev : reported t w'.journal = reported t w.journal := by
    rw [hj, reported, eventsOf_append fun e he => (hes e he).1, reported]
  have h1 : sinceReport (Entry.reservedFrom t) t w'.journal = sinceReport (Entry.reservedFrom t) t w.journal := by
    rw [hj, sinceReport_append fun e he => ⟨(hes e he).1, (hes e he).2.1⟩]
  have h2 : sinceReport (Entry.debitedFrom t) t w'.journal = sinceReport (Entry.debitedFrom t) t w.journal := by
    rw [hj, sinceReport_append fun e he => ⟨(hes e he).1, (hes e he).2.2⟩]
  exact ⟨fun b h => by rw [h1, h2, hb]; exact hr.balance b (hev ▸ h), by rw [h2, hp]; exact hr.debits⟩

/-- The same, with nothing appended. -/
theorem Reported.keep {ks' : List Kind} (hr : Reported t w ks) (hj : w'.journal = w.journal)
    (hb : w'.paymaster.balances t = w.paymaster.balances t) (hp : pending t ks' = pending t ks) :
    Reported t w' ks' :=
  hr.of_quiet [] (by simp) (by simpa using hj) hb hp

theorem Reported.call {c : Call} (hr : Reported t w ks) (h : w.call dep sender c = .ok w') :
    Reported t w' ks := by
  obtain ⟨s, events, hs, rfl⟩ := World.call_ok h
  by_cases hc : ∃ tenant value, c = .depositFor tenant value
  · obtain ⟨tenant, value, rfl⟩ := hc
    obtain ⟨-, rfl, rfl⟩ := depositFor_ok hs
    by_cases ht : tenant = t
    · subst ht
      refine .of_event ⟨.deposit, tenant, value, w.paymaster.balances tenant + value⟩ ?_ rfl ?_
      · simp [Entry.of, ledgerEventOf, Option.filter]
      · simp [State.withBalance]
    · refine hr.of_quiet [.event _, .call _ _ _] ?_ rfl (update_of_ne (Ne.symm ht) ..) rfl
      simp [Entry.of, ledgerEventOf, Option.filter, ht, Entry.reservedFrom, Entry.debitedFrom]
  · obtain ⟨hbal, -, -, hq⟩ := call_money hs fun tenant value e => hc ⟨tenant, value, e⟩
    refine hr.of_quiet (events.map Entry.event ++ [.call sender w.timestamp c]) ?_ (by simp)
      (congrFun hbal t) rfl
    intro x hx
    rcases List.mem_append.mp hx with hx | hx
    · obtain ⟨e, he, rfl⟩ := List.mem_map.mp hx
      exact ⟨of_event_none (hq e he), rfl, rfl⟩
    · cases List.mem_singleton.mp hx
      exact ⟨rfl, rfl, rfl⟩

theorem Reported.withdrawFor {tenant : Bytes32} {receiver : Address} {amount : Nat} (hr : Reported t w ks)
    (h : w.withdrawFor sender tenant receiver amount = .ok w') :
    Reported t w' (.withdrawFor tenant receiver amount :: ks) := by
  obtain ⟨s, hs, -, rfl⟩ := World.withdrawFor_ok h
  obtain ⟨-, hle, rfl⟩ := withdrawForDebit_ok hs
  by_cases ht : tenant = t
  · subst ht
    have h1 := hr.debits
    refine ⟨fun b h => ?_, ?_⟩
    · rw [reported_cons] at h
      have h2 := hr.balance b h
      simp only [sinceReport_cons_none (e := .debit ..) rfl, Entry.reservedFrom, Entry.debitedFrom,
        State.withBalance, update_self, ite_true]
      omega
    · simp only [sinceReport_cons_none (e := .debit ..) rfl, Entry.debitedFrom, pending_cons, Kind.pending, ite_true]
      omega
  · refine hr.of_quiet [.debit ..] ?_ rfl (update_of_ne (Ne.symm ht) ..) ?_
    · simp [Entry.of, Entry.reservedFrom, Entry.debitedFrom, ht]
    · simp [pending_cons, Kind.pending, ht]

theorem Reported.withdrawn {tenant : Bytes32} {receiver : Address} {amount : Nat}
    (hr : Reported t w (.withdrawFor tenant receiver amount :: ks)) :
    Reported t (w.withdrawn tenant receiver amount) ks := by
  by_cases ht : tenant = t
  · subst ht
    refine .of_event ⟨.withdrawal, tenant, -amount, w.paymaster.balances tenant⟩ ?_ rfl rfl
    simp [Entry.of, ledgerEventOf, withdrawForEvent, Option.filter]
  · refine hr.of_quiet [.event _] ?_ rfl rfl ?_
    · simp [Entry.of, ledgerEventOf, withdrawForEvent, Option.filter, ht, Entry.reservedFrom, Entry.debitedFrom]
    · simp [pending_cons, Kind.pending, ht]

theorem Reported.validate {op : PackedUserOperation} {maxCost : Nat} {info : OpInfo} {ks' : List Kind}
    (hr : Reported t w ks) (h : w.validate dep op maxCost = some (w', info)) (hp : pending t ks' = pending t ks) :
    Reported t w' ks' := by
  rcases World.validate_some h with ⟨-, rfl⟩ | ⟨s, context, signer, vu, va, hv, -, -, -, -, rfl⟩
  · exact hr.keep rfl rfl hp
  · obtain ⟨-, -, hle, rfl⟩ := validatePaymasterUserOp_ok hv
    by_cases ht : tenantOf op = t
    · subst ht
      refine ⟨fun b h => ?_, ?_⟩
      · rw [reported_cons] at h
        have h2 := hr.balance b h
        simp only [sinceReport_cons_none (e := .reserve ..) rfl, Entry.reservedFrom, Entry.debitedFrom,
          State.withBalance, update_self, ite_true]
        omega
      · rw [sinceReport_cons_none (e := .reserve ..) rfl, hp]
        simpa [Entry.debitedFrom] using hr.debits
    · refine hr.of_quiet [.reserve ..] ?_ rfl (update_of_ne (Ne.symm ht) ..) hp
      simp [Entry.of, Entry.reservedFrom, Entry.debitedFrom, ht]

theorem Reported.charge {info : OpInfo} {cost fee kept : Nat} {ks' : List Kind} (hr : Reported t w ks)
    (h : w.charge info cost fee kept = some w') (hp : pending t ks' = pending t ks) : Reported t w' ks' := by
  rcases World.charge_some h with ⟨-, rfl⟩ | ⟨context, s, events, -, hpost, -, rfl⟩
  · exact hr.keep rfl rfl hp
  · obtain ⟨charge, -, rfl, rfl⟩ := postOp_ok hpost
    by_cases ht : context.tenant = t
    · subst ht
      refine .of_event ⟨.charge, context.tenant, -charge,
        w.paymaster.balances context.tenant + (context.reserved - charge)⟩ ?_ rfl ?_
      · simp [Entry.of, ledgerEventOf, Option.filter]
      · simp [State.withBalance]
    · refine hr.of_quiet [.event _] ?_ rfl (update_of_ne (Ne.symm ht) ..) hp
      simp [Entry.of, ledgerEventOf, Option.filter, ht, Entry.reservedFrom, Entry.debitedFrom]

theorem Reported.forfeit {info : OpInfo} {kept : Nat} {ks' : List Kind} (hr : Reported t w ks)
    (h : w.forfeit info kept = some w') (hp : pending t ks' = pending t ks) : Reported t w' ks' := by
  rcases World.forfeit_some h with ⟨-, rfl⟩ | ⟨context, -, -, rfl⟩
  · exact hr.keep rfl rfl hp
  · exact hr.of_quiet [.forfeit ..] (by simp [Entry.of, Entry.reservedFrom, Entry.debitedFrom]) rfl rfl hp

theorem reported_step {c c' : Config} {l : Label} (h : Step dep c l c')
    (hr : Upheld (Reported t) c.world c.stack) : Upheld (Reported t) c'.world c'.stack := by
  cases h with
  | transaction w u =>
    have hk : Reported t { w with timestamp := u } [] := Reported.keep (w := w) hr.top rfl rfl rfl
    exact Upheld.push (P := Reported t) hk (hk.keep rfl rfl rfl)
  | enter w fs => exact hr.push (hr.top.keep rfl rfl (by simp [pending_cons, Kind.pending]))
  | refused => exact hr
  | call fs hc => exact hr.stay (hr.top.call hc)
  | depositTo fs hd =>
    rw [World.depositTo_ok hd]
    exact hr.stay (hr.top.keep rfl rfl rfl)
  | withdrawFor fs hw => exact hr.push (hr.top.withdrawFor hw)
  | withdrawTo fs hw =>
    rw [(World.withdrawTo_ok hw).2]
    exact hr.push (hr.top.keep rfl rfl (by simp [pending_cons, Kind.pending]))
  | handleOps w fs => exact hr.push (hr.top.keep rfl rfl (by simp [pending_cons, Kind.pending]))
  | validate fs hv => exact hr.switch (hr.top.validate hv (by simp [pending_cons, Kind.pending]))
  | execute w saved fs infos => exact hr.switch (hr.top.keep rfl rfl (by simp [pending_cons, Kind.pending]))
  | start w saved fs info queue => exact hr.push (hr.top.keep rfl rfl (by simp [pending_cons, Kind.pending]))
  | @charge w w' began saved fs info queue reverted cost fee kept hc =>
    refine ⟨?_, hr.2.2⟩
    cases reverted with
    | true => exact hr.2.top.charge hc (by simp [pending_cons, Kind.pending])
    | false => exact hr.top.charge hc (by simp [pending_cons, Kind.pending])
  | forfeit fs hf => exact ⟨hr.2.top.forfeit hf (by simp [pending_cons, Kind.pending]), hr.2.2⟩
  | returned w saved fs hk =>
    refine hr.commit (hr.top.keep rfl rfl ?_)
    rcases hk with rfl | rfl | rfl <;> simp [pending_cons, Kind.pending]
  | withdrawn w saved fs tenant receiver amount => exact hr.commit hr.top.withdrawn
  | reverted w f fs => exact hr.revert
  | aborted w began f fs => exact hr.revert.revert

/-- In every run, the books of every tenant balance in every world, and its last report stands. -/
theorem books_of_run {s : State} {deposit : Nat} {ls : List Label} {c : Config} (hs : Deployed s)
    (h : Runs.run (step dep) (launch s deposit) ls = some c) (t : Bytes32) :
    Upheld (Balanced t) c.world c.stack ∧ Upheld (Reported t) c.world c.stack := by
  have hb : Upheld (Balanced t) (launch s deposit).world (launch s deposit).stack := by
    simp only [Upheld, Balanced, launch, (fresh_of_deployed hs).balances]
    rfl
  have hr : Upheld (Reported t) (launch s deposit).world (launch s deposit).stack := ⟨(fun b hb => nomatch hb), Nat.zero_le _⟩
  exact ⟨Runs.invariant (P := fun c => Upheld (Balanced t) c.world c.stack)
      (fun hb hs => balanced_step (step_cases hs) hb) hb h,
    Runs.invariant (P := fun c => Upheld (Reported t) c.world c.stack)
      (fun hr hs => reported_step (step_cases hs) hr) hr h⟩

end

end Paymaster
