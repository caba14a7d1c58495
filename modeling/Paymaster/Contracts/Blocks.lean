import Paymaster.Contracts.Ledger
import Paymaster.Lib.Pool

/-!
# The chain in blocks

What a node answers about the paymaster: the logs of each block and the balances
at its end. A block is a run of transactions, and its logs are the events that
the run left in the journal. The last log of a tenant in a block may report less
than the whole story: an operation validated after it whose post-op reverted. But
then the tenant's balance is not what its events say, and no later event of the
block can make up for it.
-/

namespace Paymaster

open CallStack Function

structure TenantLedgerLog extends TenantLedgerEvent where
  blockNumber : Nat
  logIndex : Nat
  transactionHash : Bytes32
deriving DecidableEq

structure LedgerBlock where
  logs : List TenantLedgerLog
  balances : Bytes32 → Nat

def netDelta (tenant : Bytes32) (logs : List TenantLedgerLog) : Int :=
  ((logs.filter fun log => log.tenant = tenant).map fun log => log.deltaWei).sum

def lastReported (tenant : Bytes32) (logs : List TenantLedgerLog) : Option Nat :=
  ((logs.filter fun log => log.tenant = tenant).map fun log => log.balanceAfterWei).getLast?

def World.journalSince (w before : World) : List Entry := w.journal.take (w.journal.length - before.journal.length)

/-- The block that a run of transactions makes. `places` are the transaction and
the index of each log. -/
def World.block (before w : World) (number : Nat) (places : List (Bytes32 × Nat)) : LedgerBlock where
  logs := ((getTenantLedgerEvents (w.journalSince before)).zip places).map fun log => ⟨log.1, number, log.2.2, log.2.1⟩
  balances := w.paymaster.balances

/-- The chain of a tenant paymaster, from the block in which it was deployed on,
and the world at its end. A log's index is that in its block, and a transaction
is in one block. -/
inductive Mined (dep : Deployment) : List LedgerBlock → World → Prop
  | deployed {s : State} (deposit : Nat) : Deployed s → Mined dep [⟨[], s.balances⟩] (launch s deposit).world
  | block {chain : List LedgerBlock} {w : World} {c : Config} {ls : List Label} {places : List (Bytes32 × Nat)} :
    Mined dep chain w → Runs.run (step dep) ⟨w, []⟩ ls = some c → c.stack = [] →
    places.length = (getTenantLedgerEvents (c.world.journalSince w)).length →
    (places.map Prod.snd).Pairwise (· < ·) →
    (∀ place ∈ places, ∀ b ∈ chain, ∀ log ∈ b.logs, log.transactionHash ≠ place.1) →
    Mined dep (chain ++ [w.block c.world chain.length places]) c.world

section
variable {dep : Deployment} {t : Bytes32} {w w' : World} {ks ks' : List Kind} {sender : Address}

/-! ## The journal of a block -/

theorem World.call_journal {c : Call} (h : w.call dep sender c = .ok w') : w.journal <:+ w'.journal := by
  obtain ⟨s, events, -, rfl⟩ := World.call_ok h
  exact (List.suffix_cons _ _).trans (List.suffix_append _ _)

theorem World.withdrawFor_journal {tenant : Bytes32} {receiver : Address} {amount : Nat}
    (h : w.withdrawFor sender tenant receiver amount = .ok w') : w.journal <:+ w'.journal := by
  obtain ⟨s, -, -, rfl⟩ := World.withdrawFor_ok h
  exact List.suffix_cons _ _

theorem World.validate_journal {op : PackedUserOperation} {maxCost : Nat} {info : OpInfo}
    (h : w.validate dep op maxCost = some (w', info)) : w.journal <:+ w'.journal := by
  rcases World.validate_some h with ⟨-, rfl⟩ | ⟨s, context, signer, vu, va, -, -, -, -, -, rfl⟩
  · exact List.suffix_refl _
  · exact List.suffix_cons _ _

theorem World.charge_journal {info : OpInfo} {cost fee kept : Nat} (h : w.charge info cost fee kept = some w') :
    w.journal <:+ w'.journal := by
  rcases World.charge_some h with ⟨-, rfl⟩ | ⟨context, s, events, -, -, -, rfl⟩
  · exact List.suffix_refl _
  · exact List.suffix_append _ _

theorem World.forfeit_journal {info : OpInfo} {kept : Nat} (h : w.forfeit info kept = some w') :
    w.journal <:+ w'.journal := by
  rcases World.forfeit_some h with ⟨-, rfl⟩ | ⟨context, -, -, rfl⟩
  · exact List.suffix_refl _
  · exact List.suffix_cons _ _

/-- What was in the journal before a transaction is in it in every world of the transaction. -/
theorem journal_step {base : List Entry} {c c' : Config} {l : Label} (h : Step dep c l c')
    (hb : Upheld (fun w _ => base <:+ w.journal) c.world c.stack) :
    Upheld (fun w _ => base <:+ w.journal) c'.world c'.stack := by
  cases h with
  | transaction w u => exact Upheld.push (P := fun (w : World) (_ : List Kind) => base <:+ w.journal) hb hb
  | enter w fs => exact hb.push hb.top
  | refused => exact hb
  | call fs hc => exact hb.stay (hb.top.trans (World.call_journal hc))
  | depositTo fs hd =>
    rw [World.depositTo_ok hd]
    exact hb.stay hb.top
  | withdrawFor fs hw => exact hb.push (hb.top.trans (World.withdrawFor_journal hw))
  | withdrawTo fs hw =>
    rw [(World.withdrawTo_ok hw).2]
    exact hb.push hb.top
  | handleOps w fs => exact hb.push hb.top
  | validate fs hv => exact hb.switch (hb.top.trans (World.validate_journal hv))
  | execute w saved fs infos => exact hb.switch hb.top
  | start w saved fs info queue => exact hb.push hb.top
  | @charge w w' began saved fs info queue reverted cost fee kept hc =>
    refine ⟨?_, hb.2.2⟩
    cases reverted with
    | true => exact hb.2.top.trans (World.charge_journal hc)
    | false => exact hb.top.trans (World.charge_journal hc)
  | forfeit fs hf => exact ⟨hb.2.top.trans (World.forfeit_journal hf), hb.2.2⟩
  | returned w saved fs hk => exact hb.commit hb.top
  | withdrawn w saved fs tenant receiver amount => exact hb.commit (hb.top.trans (List.suffix_cons _ _))
  | reverted w f fs => exact hb.revert
  | aborted w began f fs => exact hb.revert.revert

/-! ## Reservations since the last report -/

def Entry.forfeitedFrom (tenant : Bytes32) : Entry → Nat
  | .forfeit op amount => if tenantOf op = tenant then amount else 0
  | _ => 0

/-- Of the reservations since a tenant's last event, every one is in flight or forfeited since. -/
def Owed (tenant : Bytes32) (w : World) (ks : List Kind) : Prop :=
  sinceReport (Entry.reservedFrom tenant) tenant w.journal ≤
    inFlight tenant ks + sinceReport (Entry.forfeitedFrom tenant) tenant w.journal

theorem Owed.of_event {e : Entry} {j : List Entry} (he : (e.of t).isSome) (hj : w.journal = e :: j) : Owed t w ks := by
  unfold Owed
  rw [hj, sinceReport_cons_some he]
  exact Nat.zero_le _

/-- A transition that appends entries which do not concern the tenant. -/
theorem Owed.of_quiet (es : List Entry) (ho : Owed t w ks)
    (hes : ∀ e ∈ es, e.of t = none ∧ e.reservedFrom t = 0 ∧ e.forfeitedFrom t = 0)
    (hj : w'.journal = es ++ w.journal) (hf : inFlight t ks ≤ inFlight t ks') : Owed t w' ks' := by
  unfold Owed at ho ⊢
  rw [hj, sinceReport_append fun e he => ⟨(hes e he).1, (hes e he).2.1⟩,
    sinceReport_append fun e he => ⟨(hes e he).1, (hes e he).2.2⟩]
  omega

theorem Owed.keep (ho : Owed t w ks) (hj : w'.journal = w.journal) (hf : inFlight t ks ≤ inFlight t ks') : Owed t w' ks' :=
  ho.of_quiet [] (by simp) (by simpa using hj) hf

theorem Owed.call {c : Call} (ho : Owed t w ks) (h : w.call dep sender c = .ok w') : Owed t w' ks := by
  obtain ⟨s, events, hs, rfl⟩ := World.call_ok h
  by_cases hc : ∃ tenant value, c = .depositFor tenant value
  · obtain ⟨tenant, value, rfl⟩ := hc
    obtain ⟨-, rfl, rfl⟩ := depositFor_ok hs
    by_cases ht : tenant = t
    · subst ht
      refine Owed.of_event ?_ rfl
      simp [Entry.of, ledgerEventOf, Option.filter]
    · refine ho.of_quiet [.event _, .call _ _ _] ?_ rfl (Nat.le_refl _)
      simp [Entry.of, ledgerEventOf, Option.filter, ht, Entry.reservedFrom, Entry.forfeitedFrom]
  · obtain ⟨-, -, -, hq⟩ := call_money hs fun tenant value e => hc ⟨tenant, value, e⟩
    refine ho.of_quiet (events.map Entry.event ++ [.call sender w.timestamp c]) ?_ (by simp) (Nat.le_refl _)
    intro x hx
    rcases List.mem_append.mp hx with hx | hx
    · obtain ⟨e, he, rfl⟩ := List.mem_map.mp hx
      exact ⟨of_event_none (hq e he), rfl, rfl⟩
    · cases List.mem_singleton.mp hx
      exact ⟨rfl, rfl, rfl⟩

theorem Owed.withdrawn {tenant : Bytes32} {receiver : Address} {amount : Nat}
    (ho : Owed t w (.withdrawFor tenant receiver amount :: ks)) : Owed t (w.withdrawn tenant receiver amount) ks := by
  by_cases ht : tenant = t
  · subst ht
    refine Owed.of_event ?_ rfl
    simp [Entry.of, ledgerEventOf, withdrawForEvent, Option.filter]
  · refine ho.of_quiet [.event _] ?_ rfl ?_
    · simp [Entry.of, ledgerEventOf, withdrawForEvent, Option.filter, ht, Entry.reservedFrom, Entry.forfeitedFrom]
    · simp [inFlight_cons, Kind.inFlight, ht]

theorem Owed.validate {op : PackedUserOperation} {maxCost : Nat} {info : OpInfo} {infos : List OpInfo}
    (ho : Owed t w (.validating infos :: ks)) (h : w.validate dep op maxCost = some (w', info)) :
    Owed t w' (.validating (infos ++ [info]) :: ks) := by
  rcases World.validate_some h with ⟨-, rfl⟩ | ⟨s, context, signer, vu, va, -, hop, hpre, hctx, -, rfl⟩
  · refine ho.keep rfl ?_
    simp only [inFlight_cons, Kind.inFlight, heldFor_snoc]
    omega
  · by_cases ht : tenantOf op = t
    · unfold Owed at ho ⊢
      simp only [inFlight_cons, Kind.inFlight, heldFor_snoc] at ho ⊢
      rw [sinceReport_cons_none (e := .reserve ..) rfl, sinceReport_cons_none (e := .reserve ..) rfl]
      simp only [Entry.reservedFrom, Entry.forfeitedFrom, OpInfo.heldFor, hctx, hop, hpre, ht, Option.isSome_some,
        and_self, if_true]
      omega
    · refine ho.of_quiet [.reserve ..] ?_ rfl ?_
      · simp [Entry.of, Entry.reservedFrom, Entry.forfeitedFrom, ht]
      · simp only [inFlight_cons, Kind.inFlight, heldFor_snoc]
        omega

theorem Owed.charge {info : OpInfo} {queue : List OpInfo} {cost fee kept : Nat}
    (ho : Owed t w (.executing (info :: queue) :: ks)) (h : w.charge info cost fee kept = some w') :
    Owed t w' (.executing queue :: ks) := by
  rcases World.charge_some h with ⟨hc, rfl⟩ | ⟨context, s, events, hctx, hp, -, rfl⟩
  · refine ho.keep rfl ?_
    simp [inFlight_cons, Kind.inFlight, heldFor_cons, OpInfo.heldFor, hc]
  · obtain ⟨charge, -, rfl, rfl⟩ := postOp_ok hp
    have hcar := info.carried context hctx
    subst hcar
    by_cases ht : tenantOf info.op = t
    · refine Owed.of_event ?_ rfl
      simp [Entry.of, ledgerEventOf, Option.filter, ht]
    · refine ho.of_quiet [.event _] ?_ rfl ?_
      · simp [Entry.of, ledgerEventOf, Option.filter, ht, Entry.reservedFrom, Entry.forfeitedFrom]
      · simp [inFlight_cons, Kind.inFlight, heldFor_cons, OpInfo.heldFor, ht]

theorem Owed.forfeit {info : OpInfo} {queue : List OpInfo} {kept : Nat}
    (ho : Owed t w (.executing (info :: queue) :: ks)) (h : w.forfeit info kept = some w') :
    Owed t w' (.executing queue :: ks) := by
  rcases World.forfeit_some h with ⟨hc, rfl⟩ | ⟨context, hctx, -, rfl⟩
  · refine ho.keep rfl ?_
    simp [inFlight_cons, Kind.inFlight, heldFor_cons, OpInfo.heldFor, hc]
  · unfold Owed at ho ⊢
    simp only [inFlight_cons, Kind.inFlight, heldFor_cons] at ho ⊢
    rw [sinceReport_cons_none (e := .forfeit ..) rfl, sinceReport_cons_none (e := .forfeit ..) rfl]
    simp only [Entry.reservedFrom, Entry.forfeitedFrom, OpInfo.heldFor, hctx, Option.isSome_some, true_and] at ho ⊢
    omega

theorem owed_step {c c' : Config} {l : Label} (h : Step dep c l c') (ho : Upheld (Owed t) c.world c.stack) :
    Upheld (Owed t) c'.world c'.stack := by
  have hpush : ∀ {w : World} {ks : List Kind} {k : Kind}, Owed t w ks → Owed t w (k :: ks) := by
    intro w ks k h
    refine h.keep rfl ?_
    rw [inFlight_cons]
    omega
  cases h with
  | transaction w u => exact Upheld.push (P := Owed t) ho (hpush ho)
  | enter w fs => exact ho.push (hpush ho.top)
  | refused => exact ho
  | call fs hc => exact ho.stay (ho.top.call hc)
  | depositTo fs hd =>
    rw [World.depositTo_ok hd]
    exact ho.stay ho.top
  | @withdrawFor w w' fs sender tenant receiver amount hw =>
    obtain ⟨s, -, -, rfl⟩ := World.withdrawFor_ok hw
    refine ho.push (hpush (ho.top.of_quiet [.debit ..] ?_ rfl (Nat.le_refl _)))
    simp [Entry.of, Entry.reservedFrom, Entry.forfeitedFrom]
  | withdrawTo fs hw =>
    rw [(World.withdrawTo_ok hw).2]
    exact ho.push (hpush ho.top)
  | handleOps w fs => exact ho.push (hpush ho.top)
  | validate fs hv => exact ho.switch (ho.top.validate hv)
  | execute w saved fs infos => exact ho.switch ho.top
  | start w saved fs info queue => exact ho.push (hpush ho.top)
  | @charge w w' began saved fs info queue reverted cost fee kept hc =>
    refine ⟨Owed.charge ?_ hc, ho.2.2⟩
    cases reverted with
    | true => exact ho.2.top
    | false =>
      refine ho.top.keep rfl ?_
      simp [inFlight_cons, Kind.inFlight]
  | forfeit fs hf => exact ⟨Owed.forfeit ho.2.top hf, ho.2.2⟩
  | returned w saved fs hk =>
    refine ho.commit (ho.top.keep rfl ?_)
    rcases hk with rfl | rfl | rfl <;> simp [inFlight_cons, Kind.inFlight, heldFor]
  | withdrawn w saved fs tenant receiver amount => exact ho.commit ho.top.withdrawn
  | reverted w f fs => exact ho.revert
  | aborted w began f fs => exact ho.revert.revert

/-! ## A block seen from one tenant -/

theorem getTenantLedgerEvents_append (es j : List Entry) :
    getTenantLedgerEvents (es ++ j) = getTenantLedgerEvents j ++ getTenantLedgerEvents es := by
  unfold getTenantLedgerEvents
  rw [List.reverse_append, List.filterMap_append]

theorem replayed_append (t : Bytes32) (es j : List Entry) : replayed t (es ++ j) = replayed t j + replayed t es := by
  unfold replayed eventsOf
  rw [getTenantLedgerEvents_append, List.filter_append, List.map_append, List.sum_append]

theorem reported_append {es : List Entry} {r : Nat} (h : reported t es = some r) (j : List Entry) :
    reported t (es ++ j) = some r := by
  unfold reported eventsOf at h ⊢
  rw [getTenantLedgerEvents_append, List.filter_append, List.map_append, List.getLast?_append, h]
  rfl

theorem forfeited_append (t : Bytes32) (es j : List Entry) :
    forfeited t (es ++ j) = (es.map (Entry.forfeitedFrom t)).sum + forfeited t j := by
  induction es with
  | nil => simp
  | cons e es ih => cases e <;> simp [forfeited, Entry.forfeitedFrom, ih, Nat.add_assoc]

/-- Where a block has an event of the tenant, what came since is in the block. -/
theorem sinceReport_le {f : Entry → Nat} {es : List Entry} {r : Nat} (h : reported t es = some r) (j : List Entry) :
    sinceReport f t (es ++ j) ≤ (es.map f).sum := by
  induction es with
  | nil => simp [reported, eventsOf, getTenantLedgerEvents] at h
  | cons e es ih =>
    rw [List.cons_append, List.map_cons, List.sum_cons]
    cases he : e.of t with
    | some ev =>
      rw [sinceReport_cons_some (by simp [he])]
      exact Nat.zero_le _
    | none =>
      rw [sinceReport_cons_none he]
      rw [reported_cons, he] at h
      have := ih h
      omega

structure Between (t : Bytes32) (w : World) : Prop where
  balanced : Balanced t w []
  reported : Reported t w []
  owed : Owed t w []

theorem between_run (hw : Between t w) {ls : List Label} {c : Config}
    (h : Runs.run (step dep) ⟨w, []⟩ ls = some c) (hc : c.stack = []) : Between t c.world := by
  have hbal := Runs.invariant (P := fun c => Upheld (Balanced t) c.world c.stack)
    (fun hb hs => balanced_step (step_cases hs) hb) (show Upheld (Balanced t) w [] from hw.balanced) h
  have hrep := Runs.invariant (P := fun c => Upheld (Reported t) c.world c.stack)
    (fun hr hs => reported_step (step_cases hs) hr) (show Upheld (Reported t) w [] from hw.reported) h
  have howed := Runs.invariant (P := fun c => Upheld (Owed t) c.world c.stack)
    (fun ho hs => owed_step (step_cases hs) ho) (show Upheld (Owed t) w [] from hw.owed) h
  rw [hc] at hbal hrep howed
  exact ⟨hbal, hrep, howed⟩

theorem between_deployed {s : State} (hs : Deployed s) (deposit : Nat) (t : Bytes32) : Between t (launch s deposit).world := by
  refine ⟨?_, ⟨?_, Nat.zero_le _⟩, Nat.zero_le _⟩
  · simp only [Balanced, launch, (fresh_of_deployed hs).balances]
    rfl
  · intro b hb
    cases hb

theorem journalSince_append {ls : List Label} {c : Config} (h : Runs.run (step dep) ⟨w, []⟩ ls = some c) :
    c.world.journal = c.world.journalSince w ++ w.journal := by
  have hup := Runs.invariant (P := fun c => Upheld (fun (v : World) (_ : List Kind) => w.journal <:+ v.journal) c.world c.stack)
    (fun hb hs => journal_step (step_cases hs) hb)
    (show Upheld (fun (v : World) (_ : List Kind) => w.journal <:+ v.journal) w [] from List.suffix_refl _) h
  obtain ⟨es, hes⟩ := hup.top
  have hsince : c.world.journalSince w = es := by
    unfold World.journalSince
    rw [← hes, List.length_append, Nat.add_sub_cancel, List.take_left]
  rw [hsince, hes]

section
variable {places : List (Bytes32 × Nat)} {number : Nat}

theorem events_of_block (h : places.length = (getTenantLedgerEvents (w'.journalSince w)).length) :
    (w.block w' number places).logs.map TenantLedgerLog.toTenantLedgerEvent = getTenantLedgerEvents (w'.journalSince w) := by
  unfold World.block
  rw [List.map_map]
  exact List.map_fst_zip (Nat.le_of_eq h.symm)

theorem places_of_block (h : places.length = (getTenantLedgerEvents (w'.journalSince w)).length) :
    (w.block w' number places).logs.map (fun log => (log.transactionHash, log.logIndex)) = places := by
  unfold World.block
  rw [List.map_map]
  exact List.map_snd_zip (Nat.le_of_eq h)

end

theorem netDelta_of_events {logs : List TenantLedgerLog} {es : List Entry}
    (h : logs.map TenantLedgerLog.toTenantLedgerEvent = getTenantLedgerEvents es) : netDelta t logs = replayed t es := by
  unfold netDelta replayed eventsOf
  rw [← h, List.filter_map, List.map_map]
  rfl

theorem lastReported_of_events {logs : List TenantLedgerLog} {es : List Entry}
    (h : logs.map TenantLedgerLog.toTenantLedgerEvent = getTenantLedgerEvents es) : lastReported t logs = reported t es := by
  unfold lastReported reported eventsOf
  rw [← h, List.filter_map, List.map_map]
  rfl

/-- Where a block's logs account for the tenant's balance, the last of them reports it. -/
theorem reported_of_accounted (hw : Between t w) (hw' : Between t w') {es : List Entry} (hj : w'.journal = es ++ w.journal)
    (haccounted : (w'.paymaster.balances t : Int) = w.paymaster.balances t + replayed t es) {r : Nat}
    (hr : reported t es = some r) : r = w'.paymaster.balances t := by
  have hbefore := hw.balanced
  have hafter := hw'.balanced
  simp only [Balanced, inFlight, List.map_nil, List.sum_nil] at hbefore hafter
  rw [hj, replayed_append, forfeited_append] at hafter
  have hkept : (es.map (Entry.forfeitedFrom t)).sum = 0 := by omega
  have howed := hw'.owed
  unfold Owed at howed
  rw [hj] at howed
  have hforfeited := sinceReport_le (f := Entry.forfeitedFrom t) hr w.journal
  have hreserved : sinceReport (Entry.reservedFrom t) t (es ++ w.journal) = 0 := by
    simp only [inFlight, List.map_nil, List.sum_nil] at howed
    omega
  have hdebits : sinceReport (Entry.debitedFrom t) t w'.journal = 0 := Nat.le_zero.mp hw'.reported.debits
  have hbalance := hw'.reported.balance r (by rw [hj]; exact reported_append hr _)
  rw [hdebits, hj, hreserved] at hbalance
  exact hbalance.symm

/-! ## What holds of every chain -/

/-- What a chain promises its readers: the paymaster starts with nothing, and
where the logs of a block account for the balance of a tenant, the last of them reports it. -/
structure Honest (chain : List LedgerBlock) : Prop where
  first : ∀ b, chain[0]? = some b → b.logs = []
  last : ∀ (n : Nat) (before b : LedgerBlock) (t : Bytes32), chain[n]? = some before → chain[n + 1]? = some b →
    (b.balances t : Int) = before.balances t + netDelta t b.logs → ∀ r, lastReported t b.logs = some r → r = b.balances t
  places : ((chain.flatMap LedgerBlock.logs).map fun log => (log.transactionHash, log.logIndex)).Nodup

theorem mined_end {chain : List LedgerBlock} (h : Mined dep chain w) :
    chain[chain.length - 1]?.map LedgerBlock.balances = some w.paymaster.balances ∧ 0 < chain.length := by
  cases h with
  | deployed deposit hs => exact ⟨rfl, Nat.one_pos⟩
  | block hchain hrun hstack hplaces hindex hfresh => simp [World.block]

theorem mined_between {chain : List LedgerBlock} (h : Mined dep chain w) (t : Bytes32) : Between t w := by
  induction h with
  | deployed deposit hs => exact between_deployed hs deposit t
  | block hchain hrun hstack hplaces hindex hfresh ih => exact between_run ih hrun hstack

/-- Every chain of the paymaster is honest. -/
theorem honest_of_mined {chain : List LedgerBlock} (h : Mined dep chain w) : Honest chain := by
  induction h with
  | deployed deposit hs =>
    refine ⟨?_, ?_, ?_⟩
    · rintro b hb
      cases hb
      rfl
    · intro n before b t _ hb
      cases hb
    · exact List.nodup_nil
  | @block chain w c ls places hchain hrun hstack hplaces hindex hfresh ih =>
    obtain ⟨hend, hpos⟩ := mined_end hchain
    have hevents : (w.block c.world chain.length places).logs.map TenantLedgerLog.toTenantLedgerEvent = _ :=
      events_of_block hplaces
    refine ⟨?_, ?_, ?_⟩
    · intro b hb
      rw [List.getElem?_append_left hpos] at hb
      exact ih.first b hb
    · intro n before b t hbefore hb haccounted r hr
      rcases Pool.getElem?_append_cases hb with ⟨hn, rfl⟩ | hold
      · rw [List.getElem?_append_left (by omega)] at hbefore
        have hsame : before.balances = w.paymaster.balances := by
          rw [show chain.length - 1 = n by omega, hbefore] at hend
          exact Option.some.inj hend
        rw [netDelta_of_events hevents, hsame] at haccounted
        rw [lastReported_of_events hevents] at hr
        have hw := mined_between hchain t
        exact reported_of_accounted hw (between_run hw hrun hstack) (journalSince_append hrun) haccounted hr
      · have hlt := Pool.lt_of_getElem? hold
        rw [List.getElem?_append_left (by omega)] at hbefore
        exact ih.last n before b t hbefore hold haccounted r hr
    · have hnew : ([w.block c.world chain.length places].flatMap LedgerBlock.logs).map
          (fun log => (log.transactionHash, log.logIndex)) = places := by
        rw [List.flatMap_singleton]
        exact places_of_block hplaces
      rw [List.flatMap_append, List.map_append, hnew]
      refine List.Nodup.append ih.places ?_ ?_
      · exact List.Nodup.of_map Prod.snd (hindex.imp Nat.ne_of_lt)
      · intro place hold hplace
        obtain ⟨log, hlog, rfl⟩ := List.mem_map.mp hold
        obtain ⟨b, hb, hmem⟩ := List.mem_flatMap.mp hlog
        exact hfresh _ hplace b hb log hmem rfl

end

end Paymaster
