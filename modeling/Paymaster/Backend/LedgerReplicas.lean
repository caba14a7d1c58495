import Paymaster.Backend.LedgerBooks

/-!
# Several replicas and one ledger

A tick reads the checkpoint and the balances in two statements, and another
replica may commit in between. What is stored is a balance of the chain all the
same: rows are not overwritten by older ones, and every tick stores what it found
at its own window's end. But the movement that a tick replays begins at the
checkpoint, and the balance that it adds it to may be that of a later block, so
the tick counts the blocks in between twice and reports a drift that there is not.
-/

namespace Paymaster

/-- At every block, the balance of each tenant is its seed and what its events have added.
(There are no events in block 0.) -/
def InStep (chain : List LedgerBlock) : Prop :=
  Honest chain ∧ ∀ key, ∃ seed : Int, AccountedSince chain key 0 seed

def LedgerPhase.Truthful (chain : List LedgerBlock) : LedgerPhase → Prop
  | .idle => True
  | .headed latest => latest < chain.length
  | .ranged window => window.fromBlock ≤ window.toBlock ∧ window.toBlock < chain.length
  | .fetched window events =>
    (window.fromBlock ≤ window.toBlock ∧ window.toBlock < chain.length) ∧
      events = logsIn chain window.fromBlock window.toBlock
  | .checking t | .settled t =>
    t.Sound chain ∧
      (∀ key row, Assoc.get t.known key = some row → balanceAt chain row.asOfBlock key = some row.balanceWei) ∧
      ∀ key a, Assoc.get t.reconciled key = some a → balanceAt chain t.window.toBlock key = some a

namespace LedgerSystem

def Mirrors (s : LedgerSystem) : Prop :=
  ∀ key row, Assoc.get s.database.balances key = some row → balanceAt s.chain row.asOfBlock key = some row.balanceWei

structure Truthful (s : LedgerSystem) : Prop where
  chain : InStep s.chain
  distinct : (s.database.balances.map Prod.fst).Nodup
  rows : s.Mirrors
  phases : ∀ (i : Nat) (p : LedgerPhase), s.replicas[i]? = some p → p.Truthful s.chain

/-- No drift was ever reported, and what is stored is the balance. -/
def Undisturbed (s : LedgerSystem) : Prop := s.reported = [] ∧ s.Mirrors

/-- A tenant that is checked, and was known: its events between the block of the balance that was
read and the beginning of the window, the one way or the other, net to nothing. -/
def Continues (s : LedgerSystem) : LedgerLabel → Prop
  | .check i readable => ∀ t key rest row, s.replicas[i]? = some (.checking t) → t.keys = key :: rest →
    Assoc.get t.known key = some row → readable = true ∨ lastReported key t.events ≠ none →
    netDelta key (logsIn s.chain 1 row.asOfBlock) = netDelta key (logsIn s.chain 1 (t.window.fromBlock - 1))
  | _ => True

end LedgerSystem

section
variable {o : LedgerOptions} {s s' : LedgerSystem} {i : Nat} {p q : LedgerPhase} {t : LedgerTick} {key : Bytes32}
  {chain : List LedgerBlock}

open LedgerSystem

/-! ## What is stored -/

theorem inStep_shrink {b : LedgerBlock} (h : InStep (chain ++ [b])) : InStep chain := by
  refine ⟨honest_shrink h.1, ?_⟩
  intro key
  obtain ⟨seed, hseed⟩ := h.2 key
  exact ⟨seed, hseed.shrink⟩

/-- Read or reported, what a tick finds is the balance at its window's end. -/
theorem actual_balance (hchain : InStep chain) (hsound : t.Sound chain) {readable : Bool} {a : Nat}
    (h : t.actualBalance chain key readable = some a) : balanceAt chain t.window.toBlock key = some a := by
  obtain ⟨seed, hseed⟩ := hchain.2 key
  rcases actualBalance_cases h with hread | hreported
  · exact hread
  · rw [hsound.events] at hreported
    refine hseed.reported hchain.1 ?_ hsound.range.2 hreported
    exact (Nat.eq_zero_or_pos t.window.fromBlock).elim (fun h => .inr ⟨h, rfl⟩) .inl

theorem phase_grow (h : p.Truthful chain) (b : LedgerBlock) : p.Truthful (chain ++ [b]) := by
  cases p with
  | idle => trivial
  | headed latest => exact lt_length_grow h b
  | ranged window => exact ⟨h.1, lt_length_grow h.2 b⟩
  | fetched window events =>
    refine ⟨⟨h.1.1, lt_length_grow h.1.2 b⟩, ?_⟩
    rw [logsIn_grow h.1.2]
    exact h.2
  | checking t | settled t =>
    exact ⟨sound_grow h.1 b, fun key row hrow => balanceAt_some_grow (h.2.1 key row hrow) b,
      fun key a ha => balanceAt_some_grow (h.2.2 key a ha) b⟩

theorem truthful_set (hs : s.Truthful) (hq : q.Truthful s.chain) (alerts : List LedgerAlert) :
    ({ s with replicas := s.replicas.set i q, alerts := alerts } : LedgerSystem).Truthful := by
  refine ⟨hs.chain, hs.distinct, hs.rows, ?_⟩
  intro j r hr
  rcases Pool.getElem?_set_cases hr with ⟨-, rfl⟩ | ⟨-, hold⟩
  · exact hq
  · exact hs.phases j r hold

theorem truthful_check (hchain : InStep chain) (ht : (LedgerPhase.checking t).Truthful chain) {rest : List Bytes32}
    (hkeys : t.keys = key :: rest) {readable : Bool} {out : LedgerTick × List LedgerAlert}
    (hcheck : LedgerCheck chain t key rest readable out) : (LedgerPhase.checking out.1).Truthful chain := by
  obtain ⟨hsound, hknown, hreconciled⟩ := ht
  have hset : ∀ {a : Nat}, t.actualBalance chain key readable = some a → ∀ k b,
      Assoc.get (Assoc.set t.reconciled key a) k = some b → balanceAt chain t.window.toBlock k = some b := by
    intro a hactual k b hb
    by_cases hk : k = key
    · subst hk
      rw [Assoc.get_set_self] at hb
      cases hb
      exact actual_balance hchain hsound hactual
    · rw [Assoc.get_set_of_ne hk] at hb
      exact hreconciled k b hb
  refine ⟨sound_check hsound hkeys hcheck, ?_⟩
  cases hcheck with
  | unread hactual => exact ⟨hknown, hreconciled⟩
  | seed hactual => exact ⟨hknown, hset hactual⟩
  | drift hactual => exact ⟨hknown, hset hactual⟩
  | agree hactual => exact ⟨hknown, hset hactual⟩

theorem mirrors_commit (hs : s.Truthful) (hi : s.replicas[i]? = some (.settled t)) : (s.commit i t).Mirrors := by
  obtain ⟨hsound, -, hreconciled⟩ := hs.phases i _ hi
  intro key row hrow
  replace hrow : Assoc.get (upsertAll t.window.toBlock s.database.balances t.reconciled) key = some row := hrow
  cases ha : Assoc.get t.reconciled key with
  | none =>
    rw [get_upsertAll_none ha] at hrow
    exact hs.rows key row hrow
  | some a =>
    rw [get_upsertAll_some hsound.distinct ha] at hrow
    obtain rfl := Option.some.inj hrow
    unfold newer
    split
    · rename_i old hold
      split
      · exact hreconciled key a ha
      · exact hs.rows key old hold
    · exact hreconciled key a ha

theorem truthful_commit (hs : s.Truthful) (hi : s.replicas[i]? = some (.settled t)) : (s.commit i t).Truthful := by
  refine ⟨hs.chain, nodup_upsertAll hs.distinct, mirrors_commit hs hi, ?_⟩
  intro j r hr
  rcases Pool.getElem?_set_cases hr with ⟨-, rfl⟩ | ⟨-, hold⟩
  · trivial
  · exact hs.phases j r hold

theorem truthful_step {l : LedgerLabel} (hs : s.Truthful) (hchain : InStep s'.chain) (h : LedgerStep o s l s') :
    s'.Truthful := by
  cases h with
  | mine block =>
    refine ⟨hchain, hs.distinct, ?_, fun j r hr => phase_grow (hs.phases j r hr) block⟩
    intro key row hrow
    exact balanceAt_some_grow (hs.rows key row hrow) block
  | head hi hlatest =>
    refine truthful_set hs ?_ _
    exact hlatest
  | @checkpoint i latest window hi hwindow =>
    obtain ⟨hrange, hle, -⟩ := ledgerWindow_some hwindow
    have hlatest : latest < s.chain.length := hs.phases i _ hi
    refine truthful_set hs ?_ _
    exact ⟨hrange, Nat.lt_of_le_of_lt hle hlatest⟩
  | events hi =>
    refine truthful_set hs ?_ _
    exact ⟨hs.phases _ _ hi, rfl⟩
  | balances hi =>
    obtain ⟨hrange, hevents⟩ := hs.phases _ _ hi
    refine truthful_set hs ?_ _
    refine ⟨sound_begin hrange hevents hs.distinct, hs.rows, ?_⟩
    intro key a ha
    cases ha
  | check readable hi hkeys =>
    refine truthful_set hs ?_ _
    exact truthful_check hs.chain (hs.phases _ _ hi) hkeys (check_cases ..)
  | @solvency i t atWindow atLatest read hi hkeys =>
    have ht := hs.phases i _ hi
    refine truthful_set hs ?_ _
    exact ht
  | commit hi => exact truthful_commit hs hi
  | ended hi _ =>
    refine truthful_set hs ?_ _
    trivial

/-! ## What is reported -/

theorem netDelta_window (hchain : InStep chain) (hsound : t.Sound chain) :
    netDelta key (logsIn chain 1 t.window.toBlock) =
      netDelta key (logsIn chain 1 (t.window.fromBlock - 1)) + netDelta key t.events := by
  have hrange := hsound.range
  rw [hsound.events, ← netDelta_append]
  congr 1
  rcases Nat.eq_zero_or_pos t.window.fromBlock with hzero | hpos
  · have hfirst : chain[0]? = some chain[0] := List.getElem?_eq_getElem (by omega)
    rw [hzero, logsIn_split (Nat.zero_le 1) (Nat.zero_le _), logsIn_one hfirst, hchain.1.first _ hfirst,
      logsIn_empty (n := 0 - 1) (by omega)]
    rfl
  · rw [logsIn_split (m := t.window.fromBlock - 1) (by omega) (by omega), Nat.sub_add_cancel hpos]

theorem agrees_iff (hchain : InStep chain) (ht : (LedgerPhase.checking t).Truthful chain) {row : LedgerBalance}
    (hrow : Assoc.get t.known key = some row) {readable : Bool} {a : Nat}
    (hactual : t.actualBalance chain key readable = some a) :
    (a : Int) = row.balanceWei + netDelta key t.events ↔
      netDelta key (logsIn chain 1 row.asOfBlock) = netDelta key (logsIn chain 1 (t.window.fromBlock - 1)) := by
  obtain ⟨hsound, hknown, -⟩ := ht
  obtain ⟨seed, hseed⟩ := hchain.2 key
  have hread := actual_balance hchain hsound hactual
  have hbefore := hknown key row hrow
  have hlt : row.asOfBlock < chain.length := by
    obtain ⟨b, hb, -⟩ := Option.map_eq_some_iff.mp hbefore
    exact Pool.lt_of_getElem? hb
  obtain ⟨v, hv, hsum⟩ := hseed row.asOfBlock (Nat.zero_le _) hlt
  obtain ⟨v', hv', hsum'⟩ := hseed t.window.toBlock (Nat.zero_le _) hsound.range.2
  cases hbefore.symm.trans hv
  cases hread.symm.trans hv'
  rw [Nat.zero_add] at hsum hsum'
  rw [netDelta_window hchain hsound] at hsum'
  omega

theorem reported_append_alerts {alerts : List LedgerAlert} {replicas : List LedgerPhase} :
    ({ s with replicas := replicas, alerts := s.alerts ++ alerts } : LedgerSystem).reported =
      s.reported ++ alerts.filterMap LedgerAlert.reportedDrift := by
  unfold LedgerSystem.reported
  exact List.filterMap_append

theorem undisturbed_check (hs : s.Truthful) (hu : s.Undisturbed) (hi : s.replicas[i]? = some (.checking t))
    {rest : List Bytes32} (hkeys : t.keys = key :: rest) {readable : Bool} {out : LedgerTick × List LedgerAlert}
    (hcheck : LedgerCheck s.chain t key rest readable out) :
    ({ s with replicas := s.replicas.set i (.checking out.1), alerts := s.alerts ++ out.2 } : LedgerSystem).Undisturbed ↔
      s.Continues (.check i readable) := by
  have ht := hs.phases i _ hi
  have hreported : ({ s with replicas := s.replicas.set i (.checking out.1), alerts := s.alerts ++ out.2 } :
      LedgerSystem).Undisturbed ↔ out.2.filterMap LedgerAlert.reportedDrift = [] := by
    unfold Undisturbed
    rw [reported_append_alerts, hu.1, List.nil_append]
    exact and_iff_left hu.2
  have hcontinues : s.Continues (.check i readable) ↔ ∀ row, Assoc.get t.known key = some row →
      readable = true ∨ lastReported key t.events ≠ none →
      netDelta key (logsIn s.chain 1 row.asOfBlock) = netDelta key (logsIn s.chain 1 (t.window.fromBlock - 1)) := by
    constructor
    · intro h row hrow hread
      exact h t key rest row hi hkeys hrow hread
    · intro h t' key' rest' row hi' hkeys' hrow hread
      cases hi.symm.trans hi'
      cases hkeys.symm.trans hkeys'
      exact h row hrow hread
  rw [hreported, hcontinues]
  cases hcheck with
  | unread hactual =>
    refine iff_of_true rfl ?_
    intro row hrow hread
    rcases hread with hreadable | hmoved
    · rw [hreadable] at hactual
      have hlt := ht.1.range.2
      simp [LedgerTick.actualBalance, balanceAt, List.getElem?_eq_getElem hlt] at hactual
    · exact absurd (quiet_of_unread hactual) hmoved
  | seed hactual hnone =>
    refine iff_of_true rfl ?_
    intro row hrow
    cases hrow.symm.trans hnone
  | @drift a prior hactual hprior hne =>
    refine iff_of_false (List.cons_ne_nil _ _) ?_
    intro h
    refine hne ((agrees_iff hs.chain ht hprior hactual).mpr (h prior hprior ?_))
    cases readable with
    | true => exact .inl rfl
    | false =>
      refine .inr ?_
      intro hquiet
      simp [LedgerTick.actualBalance, get_movementsOf, hquiet] at hactual
  | @agree a prior hactual hprior heq =>
    refine iff_of_true rfl ?_
    intro row hrow _
    cases hrow.symm.trans hprior
    exact (agrees_iff hs.chain ht hprior hactual).mp heq

theorem undisturbed_keep (hu : s.Undisturbed) (hreported : s'.reported = s.reported) (hmirrors : s'.Mirrors) :
    s'.Undisturbed := ⟨hreported.trans hu.1, hmirrors⟩

theorem undisturbed_step {l : LedgerLabel} (hs : s.Truthful) (hu : s.Undisturbed) (hs' : s'.Truthful)
    (h : LedgerStep o s l s') : s'.Undisturbed ↔ s.Continues l := by
  cases h with
  | check readable hi hkeys => exact undisturbed_check hs hu hi hkeys (check_cases ..)
  | solvency atWindow atLatest read hi hkeys =>
    refine iff_of_true (undisturbed_keep hu ?_ hs'.rows) trivial
    rw [reported_append_alerts]
    unfold solvencyAlert
    split <;> exact List.append_nil _
  | @ended _ i p hi hends =>
    refine iff_of_true (undisturbed_keep hu rfl hs'.rows) ?_
    cases l with
    | check i readable => cases hends
    | mine | head | checkpoint | events | balances | solvency | commit | fail => trivial
  | mine | head | checkpoint | events | balances | commit =>
    exact iff_of_true (undisturbed_keep hu rfl hs'.rows) trivial

/-! ## A run -/

theorem truthful_start (n : Nat) (hchain : InStep []) : (start n).Truthful := by
  refine ⟨hchain, List.nodup_nil, ?_, ?_⟩
  · intro key row h
    cases h
  · intro i p hp
    obtain rfl : p = .idle := (List.mem_replicate.mp (List.mem_of_getElem? hp)).2
    trivial

theorem inStep_of_append : ∀ {blocks : List LedgerBlock}, InStep (chain ++ blocks) → InStep chain := by
  intro blocks
  induction blocks using List.reverseRecOn with
  | nil =>
    intro h
    rwa [List.append_nil] at h
  | append_singleton blocks b ih =>
    intro h
    rw [← List.append_assoc] at h
    exact ih (inStep_shrink h)

theorem inStep_run : ∀ {labels : List LedgerLabel} {s : LedgerSystem}, Runs.run (LedgerSystem.step o) s labels = some s' →
    InStep s'.chain → Runs.Meets (LedgerSystem.step o) (fun s l => ∀ m, LedgerSystem.step o s l = some m → InStep m.chain) s labels
  | [], _, _, _ => trivial
  | l :: labels, s, hrun, hchain => by
    obtain ⟨m, hstep, hrest⟩ := Runs.run_cons.mp hrun
    have hm : InStep m.chain := by
      rw [chain_run hrest] at hchain
      exact inStep_of_append hchain
    refine ⟨?_, ?_⟩
    · intro m' hm'
      cases hstep.symm.trans hm'
      exact hm
    · intro m' hm'
      cases hstep.symm.trans hm'
      exact inStep_run hrest hchain

/-- Any number of replicas raise no false drift exactly if no tick checks a tenant by a balance
that its window does not continue. -/
theorem no_false_drift_iff {dep : Deployment} {n : Nat} {w : World} {labels : List LedgerLabel}
    (hrun : Runs.run (LedgerSystem.step o) (start n) labels = some s) (hmined : Mined dep s.chain w)
    (hseeds : ∀ key, ∃ seed : Int, AccountedSince s.chain key 0 seed) :
    Runs.Always (LedgerSystem.step o) Undisturbed (start n) labels ↔
      Runs.Meets (LedgerSystem.step o) Continues (start n) labels := by
  have hchain : InStep s.chain := ⟨honest_of_mined hmined, hseeds⟩
  have hprefix : InStep ([] ++ s.chain) := hchain
  have hstart := truthful_start n (inStep_of_append hprefix)
  refine Runs.always_iff_meets_on (I := Truthful) ?_ ?_ hstart ⟨rfl, hstart.rows⟩ (inStep_run hrun hchain) hrun
  · intro s l s' hs hl hstep
    exact truthful_step hs (hl s' hstep) (ledgerStep_cases hstep)
  · intro s l s' hs hl hu hstep
    have h := ledgerStep_cases hstep
    exact undisturbed_step hs hu (truthful_step hs (hl s' hstep) h) h

/-! ## Chains in step -/

theorem replayed_of_mined {dep : Deployment} {w : World} (h : Mined dep chain w) :
    netDelta key (logsIn chain 1 (chain.length - 1)) = replayed key w.journal := by
  induction h with
  | deployed deposit hs =>
    rw [logsIn_empty (by simp)]
    rfl
  | @block chain w c ls places hchain hrun hstack hplaces hindex hfresh ih =>
    obtain ⟨-, hpos⟩ := mined_end hchain
    have hevents : (w.block c.world chain.length places).logs.map TenantLedgerLog.toTenantLedgerEvent = _ :=
      events_of_block hplaces
    obtain ⟨n, hn⟩ := Nat.exists_eq_succ_of_ne_zero (Nat.ne_of_gt hpos)
    have hget : (chain ++ [w.block c.world chain.length places])[n + 1]? = some (w.block c.world chain.length places) := by
      rw [show n + 1 = chain.length from hn.symm]
      exact List.getElem?_concat_length
    rw [List.length_append, List.length_singleton, Nat.add_sub_cancel, hn, logsIn_succ (by omega) (hn ▸ hget),
      logsIn_grow (by omega), netDelta_append, journalSince_append hrun, replayed_append, ← ih, hn,
      Nat.succ_sub_one]
    congr 1
    exact netDelta_of_events (hn ▸ hevents)

theorem forfeited_mono {dep : Deployment} {w : World} {ls : List Label} {c : Config}
    (hrun : Runs.run (step dep) ⟨w, []⟩ ls = some c) (h : forfeited key c.world.journal = 0) : forfeited key w.journal = 0 := by
  rw [journalSince_append hrun, forfeited_append] at h
  omega

/-- A chain on which no reservation of a tenant was forfeited accounts for its balance. -/
theorem accounted_of_unforfeited {dep : Deployment} {w : World} (h : Mined dep chain w)
    (hforfeited : forfeited key w.journal = 0) : AccountedSince chain key 0 0 := by
  have hlast : ∀ {chain : List LedgerBlock} {w : World}, Mined dep chain w → forfeited key w.journal = 0 →
      ∃ v, balanceAt chain (chain.length - 1) key = some v ∧
        (v : Int) = 0 + netDelta key (logsIn chain 1 (chain.length - 1)) := by
    intro chain w h hforfeited
    obtain ⟨hend, -⟩ := mined_end h
    obtain ⟨b, hb, hbalances⟩ := Option.map_eq_some_iff.mp hend
    refine ⟨_, balanceAt_of_get hb key, ?_⟩
    have hbalanced := (mined_between h key).balanced
    simp only [Balanced, inFlight, List.map_nil, List.sum_nil] at hbalanced
    rw [replayed_of_mined h, hbalances]
    omega
  induction h with
  | deployed deposit hs =>
    intro n _ hn
    obtain rfl : n = 0 := by simpa using hn
    exact hlast (.deployed deposit hs) hforfeited
  | @block chain w c ls places hchain hrun hstack hplaces hindex hfresh ih =>
    intro n hn hlt
    rw [List.length_append, List.length_singleton] at hlt
    rcases Nat.lt_or_ge n chain.length with hold | hnew
    · obtain ⟨v, hv, hsum⟩ := ih (forfeited_mono hrun hforfeited) n hn hold
      refine ⟨v, balanceAt_some_grow hv _, ?_⟩
      rw [logsIn_grow hold]
      exact hsum
    · obtain rfl : n = chain.length := by omega
      have hend := hlast (.block hchain hrun hstack hplaces hindex hfresh) hforfeited
      rw [List.length_append, List.length_singleton, Nat.add_sub_cancel] at hend
      exact hend

/-! ## Two replicas -/

def skewedTicks : List LedgerLabel :=
  [.mine (sampleBlock 0), .mine (sampleBlock 1)] ++ LedgerLabel.tick 0 1 true ++
    [.mine (sampleBlock 2), .head 0 2, .checkpoint 0, .events 0] ++ LedgerLabel.tick 1 2 true ++
    [.balances 0, .check 0 true]

theorem sampleChain_accounted (key : Bytes32) :
    AccountedSince [sampleBlock 0, sampleBlock 1, sampleBlock 2] key 0 0 := by
  refine accounted_of_unforfeited sampleChain_mined ?_
  have hjournal : (sampleWorld 2).journal = [.event (.tenantDeposited 7 9 100 200), .call 9 0 (.depositFor 7 100),
      .event (.tenantDeposited 7 9 100 100), .call 9 0 (.depositFor 7 100)] := by
    decide +kernel
  rw [hjournal]
  rfl

/-- The tenant's balance is 200, and 300 is expected of it: the deposit of block 2 counts twice. -/
theorem skewedTicks_drift : ∃ s, Runs.run (LedgerSystem.step sampleLedgerOptions) (start 2) skewedTicks = some s ∧
    s.chain = [sampleBlock 0, sampleBlock 1, sampleBlock 2] ∧ s.reported = [⟨7, 300, 200⟩] := by
  have h : (Runs.run (LedgerSystem.step sampleLedgerOptions) (start 2) skewedTicks).map LedgerSystem.reported =
      some [⟨7, 300, 200⟩] := by
    decide +kernel
  obtain ⟨s, hrun, hreported⟩ := Option.map_eq_some_iff.mp h
  exact ⟨s, hrun, chain_run hrun, hreported⟩

theorem false_drift : ¬ ∀ (o : LedgerOptions) (dep : Deployment) (n : Nat) (w : World) (labels : List LedgerLabel)
    (s : LedgerSystem), Runs.run (LedgerSystem.step o) (start n) labels = some s → Mined dep s.chain w →
    (∀ key, ∃ seed : Int, AccountedSince s.chain key 0 seed) → s.Undisturbed := by
  intro h
  obtain ⟨s, hrun, hchain, hreported⟩ := skewedTicks_drift
  have hs := h _ _ 2 _ skewedTicks s hrun (hchain ▸ sampleChain_mined) fun key => ⟨0, hchain ▸ sampleChain_accounted key⟩
  cases hreported.symm.trans hs.1

theorem no_false_drift_iff_skewed : ∃ s, Runs.run (LedgerSystem.step sampleLedgerOptions) (start 2) skewedTicks = some s ∧
    (Runs.Always (LedgerSystem.step sampleLedgerOptions) Undisturbed (start 2) skewedTicks ↔
      Runs.Meets (LedgerSystem.step sampleLedgerOptions) Continues (start 2) skewedTicks) := by
  obtain ⟨s, hrun, hchain, -⟩ := skewedTicks_drift
  exact ⟨s, hrun, no_false_drift_iff hrun (hchain ▸ sampleChain_mined) fun key => ⟨0, hchain ▸ sampleChain_accounted key⟩⟩

end

end Paymaster
