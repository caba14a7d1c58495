import Paymaster.Backend.LedgerTicks
import Paymaster.Contracts.Settlement
import Paymaster.Lib.Run

/-!
# The books of one reconciler

With one replica, a tick that reaches its commit has read what is stored, and its
window begins where the last one ended. So the stored balance of a tenant moves
by what its events say and by what was reported as drift; a tenant that a window
skips has no events in it. Where the chain accounts for the balance since the
seed, what is stored is the balance, and there is nothing to report.
-/

namespace Paymaster

def LedgerWindow.Follows (window : LedgerWindow) (checkpoint : Option Nat) : Prop :=
  ∀ last, checkpoint = some last → window.fromBlock = last + 1

def LedgerPhase.Fits (chain : List LedgerBlock) (d : LedgerDatabase) : LedgerPhase → Prop
  | .idle => True
  | .headed latest => latest < chain.length
  | .ranged window => (window.fromBlock ≤ window.toBlock ∧ window.toBlock < chain.length) ∧ window.Follows d.checkpoint
  | .fetched window events =>
    ((window.fromBlock ≤ window.toBlock ∧ window.toBlock < chain.length) ∧ window.Follows d.checkpoint) ∧
      events = logsIn chain window.fromBlock window.toBlock
  | .checking t => t.Sound chain ∧ t.window.Follows d.checkpoint ∧ t.known = d.balances
  | .settled t => (t.Sound chain ∧ t.window.Follows d.checkpoint ∧ t.known = d.balances) ∧ t.keys = []

def LedgerCommit.Seeds (c : LedgerCommit) (key : Bytes32) (balance : Nat) : Prop :=
  key ∈ c.tick.seeded ∧ Assoc.get c.tick.reconciled key = some balance

namespace LedgerSystem

structure Booked (s : LedgerSystem) : Prop where
  single : s.replicas.length = 1
  phase : ∀ (i : Nat) (p : LedgerPhase), s.replicas[i]? = some p → p.Fits s.chain s.database
  distinct : (s.database.balances.map Prod.fst).Nodup
  reached : ∀ last, s.database.checkpoint = some last → last < s.chain.length
  past : ∀ key row, Assoc.get s.database.balances key = some row →
    ∃ last, s.database.checkpoint = some last ∧ row.asOfBlock ≤ last
  quiet : ∀ key row last, Assoc.get s.database.balances key = some row → s.database.checkpoint = some last →
    lastReported key (logsIn s.chain (row.asOfBlock + 1) last) = none
  origin : ∀ key row, Assoc.get s.database.balances key = some row →
    ∃ c ∈ s.commits, ∃ v, c.Seeds key v ∧ c.tick.window.toBlock ≤ row.asOfBlock
  entries : s.database.entries.Sublist
    ((s.chain.take (s.database.checkpoint.elim 0 fun last => last + 1)).flatMap LedgerBlock.logs)

/-- Since its seed, a tenant's stored balance has moved by the events that were committed and
by the drifts that were reported with them. -/
def Telescopes (s : LedgerSystem) : Prop :=
  ∀ (before after : List LedgerCommit) (seed : LedgerCommit) (key : Bytes32) (v : Nat),
    s.commits = before ++ seed :: after → seed.Seeds key v →
    ∃ row, Assoc.get s.database.balances key = some row ∧ (row.balanceWei : Int) - v =
      (after.map fun c => netDelta key c.inserted).sum + (after.map fun c => unexplained key c.tick.drifted).sum

def Accounted (s : LedgerSystem) (key : Bytes32) : Prop :=
  ∀ seed ∈ s.commits, ∀ v, seed.Seeds key v → AccountedSince s.chain key seed.tick.window.toBlock v

structure InLine (s : LedgerSystem) (key : Bytes32) : Prop where
  stored : ∀ row, Assoc.get s.database.balances key = some row → balanceAt s.chain row.asOfBlock key = some row.balanceWei
  ticks : ∀ (i : Nat) (t : LedgerTick), s.replicas[i]? = some (.checking t) ∨ s.replicas[i]? = some (.settled t) → ∀ a,
    Assoc.get t.reconciled key = some a → (Assoc.get t.known key).isSome → balanceAt s.chain t.window.toBlock key = some a
  unreported : ∀ d ∈ s.reported, d.tenantKey ≠ key

end LedgerSystem

section
variable {o : LedgerOptions} {s s' : LedgerSystem} {i : Nat} {p q : LedgerPhase} {t : LedgerTick} {key : Bytes32}

open LedgerSystem

/-! ## Phases -/

theorem fits_grow {chain : List LedgerBlock} {d : LedgerDatabase} (h : p.Fits chain d) (b : LedgerBlock) :
    p.Fits (chain ++ [b]) d := by
  cases p with
  | idle => trivial
  | headed latest => exact lt_length_grow h b
  | ranged window => exact ⟨⟨h.1.1, lt_length_grow h.1.2 b⟩, h.2⟩
  | fetched window events =>
    refine ⟨⟨⟨h.1.1.1, lt_length_grow h.1.1.2 b⟩, h.1.2⟩, ?_⟩
    rw [logsIn_grow h.1.1.2]
    exact h.2
  | checking t => exact ⟨sound_grow h.1 b, h.2⟩
  | settled t => exact ⟨⟨sound_grow h.1.1 b, h.1.2⟩, h.2⟩

theorem booked_set (hs : s.Booked) (hq : q.Fits s.chain s.database) (alerts : List LedgerAlert) :
    ({ s with replicas := s.replicas.set i q, alerts := alerts } : LedgerSystem).Booked := by
  refine ⟨?_, ?_, hs.distinct, hs.reached, hs.past, hs.quiet, hs.origin, hs.entries⟩
  · simpa using hs.single
  · intro j r hr
    rcases Pool.getElem?_set_cases hr with ⟨-, rfl⟩ | ⟨-, hold⟩
    · exact hq
    · exact hs.phase j r hold

theorem booked_mine (hs : s.Booked) (b : LedgerBlock) : ({ s with chain := s.chain ++ [b] } : LedgerSystem).Booked := by
  refine ⟨hs.single, fun j r hr => fits_grow (hs.phase j r hr) b, hs.distinct, ?_, hs.past, ?_, hs.origin, ?_⟩
  · intro last hlast
    exact lt_length_grow (hs.reached last hlast) b
  · intro key row last hrow hlast
    rw [logsIn_grow (hs.reached last hlast)]
    exact hs.quiet key row last hrow hlast
  · refine hs.entries.trans ?_
    show ((s.chain.take _).flatMap LedgerBlock.logs).Sublist (((s.chain ++ [b]).take _).flatMap LedgerBlock.logs)
    rw [List.take_append, List.flatMap_append]
    exact List.sublist_append_left _ _

/-! ## A commit -/

theorem alone_zero (hs : s.Booked) (hi : s.replicas[i]? = some p) : i = 0 := by
  have hlt := Pool.lt_of_getElem? hi
  have hone := hs.single
  omega

theorem row_commit (hs : s.Booked) (hi : s.replicas[i]? = some (.settled t)) {row : LedgerBalance}
    (hrow : Assoc.get (s.commit i t).database.balances key = some row) :
    (Assoc.get t.reconciled key = none ∧ Assoc.get s.database.balances key = some row) ∨
      ∃ a, Assoc.get t.reconciled key = some a ∧ row = ⟨a, t.window.toBlock⟩ := by
  obtain ⟨⟨hsound, hfollows, -⟩, -⟩ := hs.phase i _ hi
  replace hrow : Assoc.get (upsertAll t.window.toBlock s.database.balances t.reconciled) key = some row := hrow
  cases ha : Assoc.get t.reconciled key with
  | none =>
    rw [get_upsertAll_none ha] at hrow
    exact .inl ⟨rfl, hrow⟩
  | some a =>
    rw [get_upsertAll_some hsound.distinct ha] at hrow
    refine .inr ⟨a, rfl, ?_⟩
    obtain rfl := Option.some.inj hrow
    unfold newer
    split
    · rename_i old hold
      obtain ⟨last, hlast, hle⟩ := hs.past key old hold
      have hfrom := hfollows last hlast
      have hrange := hsound.range.1
      exact if_pos (by show old.asOfBlock ≤ t.window.toBlock; omega)
    · rfl

theorem row_skipped (ha : Assoc.get t.reconciled key = none) :
    Assoc.get (s.commit i t).database.balances key = Assoc.get s.database.balances key :=
  get_upsertAll_none ha

theorem row_stored (hs : s.Booked) (hi : s.replicas[i]? = some (.settled t)) {a : Nat}
    (ha : Assoc.get t.reconciled key = some a) :
    Assoc.get (s.commit i t).database.balances key = some ⟨a, t.window.toBlock⟩ := by
  obtain ⟨⟨hsound, -⟩, -⟩ := hs.phase i _ hi
  have hsome : Assoc.get (s.commit i t).database.balances key = some _ := get_upsertAll_some hsound.distinct ha
  rcases row_commit hs hi hsome with ⟨hnone, -⟩ | ⟨b, hb, hrow⟩
  · cases hnone.symm.trans ha
  · cases hb.symm.trans ha
    rw [hsome, hrow]

theorem quiet_of_skipped (hs : s.Booked) (hi : s.replicas[i]? = some (.settled t)) (ha : Assoc.get t.reconciled key = none) :
    lastReported key t.events = none := by
  obtain ⟨⟨hsound, -⟩, hkeys⟩ := hs.phase i _ hi
  cases hr : lastReported key t.events with
  | none => rfl
  | some r =>
    rcases hsound.moved key r hr with hmem | hdone
    · rw [hkeys] at hmem
      cases hmem
    · rw [ha] at hdone
      cases hdone

theorem checkpoint_commit (hs : s.Booked) (hi : s.replicas[i]? = some (.settled t)) :
    (s.commit i t).database.checkpoint = some t.window.toBlock := by
  obtain ⟨⟨hsound, hfollows, -⟩, -⟩ := hs.phase i _ hi
  show some (s.database.checkpoint.elim _ _) = _
  cases hlast : s.database.checkpoint with
  | none => rfl
  | some last =>
    have hfrom := hfollows last hlast
    have hrange := hsound.range.1
    show some (max last t.window.toBlock) = _
    rw [Nat.max_eq_right (by omega)]

theorem insertEntries_sublist (events : List TenantLedgerLog) : ∀ entries : List TenantLedgerLog,
    (events.foldl insertEntry entries).Sublist (entries ++ events) := by
  induction events with
  | nil =>
    intro entries
    rw [List.append_nil]
    exact List.Sublist.refl _
  | cons event events ih =>
    intro entries
    refine (ih (insertEntry entries event)).trans ?_
    unfold insertEntry
    split
    · exact (List.Sublist.refl _).append (List.sublist_cons_self _ _)
    · rw [List.append_assoc]
      exact List.Sublist.refl _

theorem entries_events (hs : s.Booked) (hi : s.replicas[i]? = some (.settled t)) :
    (s.database.entries ++ t.events).Sublist ((s.chain.take (t.window.toBlock + 1)).flatMap LedgerBlock.logs) := by
  obtain ⟨⟨hsound, hfollows, -⟩, -⟩ := hs.phase i _ hi
  have hrange := hsound.range.1
  obtain ⟨bound, hbound⟩ : ∃ bound, s.database.checkpoint.elim 0 (fun last => last + 1) = bound := ⟨_, rfl⟩
  have hfrom : bound ≤ t.window.fromBlock := by
    rw [← hbound]
    cases hlast : s.database.checkpoint with
    | none => exact Nat.zero_le _
    | some last => exact Nat.le_of_eq (hfollows last hlast).symm
  have hentries := hs.entries
  rw [hbound] at hentries
  have htake : s.chain.take (t.window.toBlock + 1) =
      s.chain.take bound ++ (s.chain.take (t.window.toBlock + 1)).drop bound := by
    have hbefore : s.chain.take bound = (s.chain.take (t.window.toBlock + 1)).take bound := by
      rw [List.take_take, Nat.min_eq_left (by omega)]
    rw [hbefore, List.take_append_drop]
  rw [htake, List.flatMap_append, hsound.events]
  refine hentries.append ?_
  unfold logsIn
  refine List.Sublist.flatMap ?_ _
  have hdrop : (s.chain.take (t.window.toBlock + 1)).drop t.window.fromBlock =
      ((s.chain.take (t.window.toBlock + 1)).drop bound).drop (t.window.fromBlock - bound) := by
    rw [List.drop_drop]
    congr 1
    omega
  rw [hdrop]
  exact List.drop_sublist _ _

theorem booked_commit (hs : s.Booked) (hi : s.replicas[i]? = some (.settled t)) : (s.commit i t).Booked := by
  obtain ⟨⟨hsound, hfollows, hknown⟩, hkeys⟩ := hs.phase i _ hi
  have hcheckpoint := checkpoint_commit hs hi
  have hrange := hsound.range.1
  have hlast : ∀ {last : Nat}, s.database.checkpoint = some last → last < t.window.toBlock := by
    intro last h
    have hfrom := hfollows last h
    omega
  refine ⟨?_, ?_, nodup_upsertAll hs.distinct, ?_, ?_, ?_, ?_, ?_⟩
  · show (s.replicas.set i .idle).length = 1
    rw [List.length_set]
    exact hs.single
  · intro j r hr
    rcases Pool.getElem?_set_cases hr with ⟨-, rfl⟩ | ⟨hne, hold⟩
    · trivial
    · exact absurd ((alone_zero hs hold).trans (alone_zero hs hi).symm) hne
  · intro last h
    rw [hcheckpoint] at h
    cases h
    exact hsound.range.2
  · intro key row hrow
    refine ⟨_, hcheckpoint, ?_⟩
    rcases row_commit hs hi hrow with ⟨-, hold⟩ | ⟨a, -, rfl⟩
    · obtain ⟨last, h, hle⟩ := hs.past key row hold
      have hlt := hlast h
      omega
    · exact Nat.le_refl _
  · intro key row last hrow h
    rw [hcheckpoint] at h
    cases h
    show lastReported key (logsIn s.chain (row.asOfBlock + 1) t.window.toBlock) = none
    rcases row_commit hs hi hrow with ⟨ha, hold⟩ | ⟨a, -, rfl⟩
    · obtain ⟨last, h, hle⟩ := hs.past key row hold
      have hlt := hlast h
      have hskipped := quiet_of_skipped hs hi ha
      rw [hsound.events, hfollows last h] at hskipped
      rw [logsIn_split (by omega) (Nat.le_of_lt hlt), lastReported_append, hs.quiet key row last hold h, hskipped]
      rfl
    · rw [logsIn_empty (Nat.lt_succ_self _)]
      rfl
  · intro key row hrow
    rcases row_commit hs hi hrow with ⟨-, hold⟩ | ⟨a, ha, rfl⟩
    · obtain ⟨c, hc, v, hseeds, hle⟩ := hs.origin key row hold
      exact ⟨c, List.mem_append_left _ hc, v, hseeds, hle⟩
    · cases hold : Assoc.get s.database.balances key with
      | none =>
        refine ⟨_, List.mem_append_right _ (List.mem_singleton_self _), a, ⟨?_, ha⟩, Nat.le_refl _⟩
        exact hsound.baseline key (by rw [ha]; rfl) (by rw [hknown, hold])
      | some old =>
        obtain ⟨c, hc, v, hseeds, hle⟩ := hs.origin key old hold
        obtain ⟨last, h, hle'⟩ := hs.past key old hold
        have hlt := hlast h
        exact ⟨c, List.mem_append_left _ hc, v, hseeds, by show c.tick.window.toBlock ≤ t.window.toBlock; omega⟩
  · rw [hcheckpoint]
    exact (insertEntries_sublist t.events s.database.entries).trans (entries_events hs hi)

theorem booked_step {l : LedgerLabel} (hs : s.Booked) (h : LedgerStep o s l s') : s'.Booked := by
  cases h with
  | mine block => exact booked_mine hs block
  | head hi hlatest =>
    refine booked_set hs ?_ _
    exact hlatest
  | @checkpoint i latest window hi hwindow =>
    obtain ⟨hrange, hle, hfollows⟩ := ledgerWindow_some hwindow
    have hlatest : latest < s.chain.length := hs.phase i _ hi
    refine booked_set hs ?_ _
    exact ⟨⟨hrange, Nat.lt_of_le_of_lt hle hlatest⟩, hfollows⟩
  | events hi =>
    refine booked_set hs ?_ _
    exact ⟨hs.phase _ _ hi, rfl⟩
  | balances hi =>
    obtain ⟨⟨hrange, hfollows⟩, hevents⟩ := hs.phase _ _ hi
    refine booked_set hs ?_ _
    exact ⟨sound_begin hrange hevents hs.distinct, hfollows, rfl⟩
  | @check i t key rest readable hi hkeys =>
    obtain ⟨hsound, hfollows, hknown⟩ := hs.phase _ _ hi
    have hcheck := check_cases s.chain t key rest readable
    refine booked_set hs ?_ _
    refine ⟨sound_check hsound hkeys hcheck, ?_⟩
    generalize t.check s.chain key rest readable = out at hcheck
    cases hcheck <;> exact ⟨hfollows, hknown⟩
  | solvency atWindow atLatest read hi hkeys =>
    refine booked_set hs ?_ _
    exact ⟨hs.phase _ _ hi, hkeys⟩
  | commit hi => exact booked_commit hs hi
  | ended hi _ =>
    refine booked_set hs ?_ _
    trivial

/-! ## The books -/

theorem honest_shrink {chain : List LedgerBlock} {b : LedgerBlock} (h : Honest (chain ++ [b])) : Honest chain := by
  refine ⟨?_, ?_, ?_⟩
  · intro c hc
    exact h.first c (by rw [List.getElem?_append_left (Pool.lt_of_getElem? hc)]; exact hc)
  · intro n before c t hbefore hc
    have hlt := Pool.lt_of_getElem? hc
    refine h.last n before c t ?_ ?_
    · rw [List.getElem?_append_left (by omega)]
      exact hbefore
    · rw [List.getElem?_append_left hlt]
      exact hc
  · have hplaces := h.places
    rw [List.flatMap_append, List.map_append] at hplaces
    exact (List.nodup_append.mp hplaces).1

theorem inserted_eq (hs : s.Booked) (hi : s.replicas[i]? = some (.settled t)) (hchain : Honest s.chain) :
    (s.commit i t).database.entries.drop s.database.entries.length = t.events := by
  have hnodup : ((s.database.entries ++ t.events).map TenantLedgerLog.place).Nodup := by
    have hall : ((s.chain.flatMap LedgerBlock.logs).map TenantLedgerLog.place).Nodup := hchain.places
    refine hall.sublist (List.Sublist.map _ ((entries_events hs hi).trans ?_))
    exact List.Sublist.flatMap (List.take_sublist _ _) _
  show (t.events.foldl insertEntry s.database.entries).drop _ = _
  rw [insertEntries_of_nodup hnodup, List.drop_left]

theorem telescopes_commit (hs : s.Booked) (hi : s.replicas[i]? = some (.settled t)) (hchain : Honest s.chain)
    (ht : s.Telescopes) : (s.commit i t).Telescopes := by
  obtain ⟨⟨hsound, -, hknown⟩, -⟩ := hs.phase i _ hi
  intro before after seed key v hcommits hseeds
  replace hcommits : s.commits ++ [⟨t, (s.commit i t).database.entries.drop s.database.entries.length⟩] =
      before ++ seed :: after := hcommits
  rw [inserted_eq hs hi hchain] at hcommits
  rcases List.eq_nil_or_concat after with rfl | ⟨older, newest, rfl⟩
  · -- The tenant is seeded by this window.
    obtain ⟨-, hlast⟩ := List.append_inj' hcommits rfl
    cases hlast
    refine ⟨_, row_stored hs hi hseeds.2, ?_⟩
    simp
  · rw [List.concat_eq_append, ← List.cons_append, ← List.append_assoc] at hcommits
    obtain ⟨hold, hlast⟩ := List.append_inj' hcommits rfl
    cases hlast
    obtain ⟨row, hrow, hsum⟩ := ht before older seed key v hold hseeds
    simp only [List.concat_eq_append, List.map_append, List.map_cons, List.map_nil, List.sum_append, List.sum_cons,
      List.sum_nil]
    cases ha : Assoc.get t.reconciled key with
    | none =>
      -- The window skips the tenant: no events, and no drift.
      refine ⟨row, (row_skipped ha).trans hrow, ?_⟩
      rw [netDelta_quiet (quiet_of_skipped hs hi ha), unexplained_nothing (hsound.unchecked key ha).2]
      omega
    | some a =>
      refine ⟨_, row_stored hs hi ha, ?_⟩
      have hchecked := hsound.checked key a row ha (by rw [hknown]; exact hrow)
      show (a : Int) - v = _
      omega

/-! ## A chain that accounts for a balance -/

theorem accounted_shrink {b : LedgerBlock} (h : ({ s with chain := s.chain ++ [b] } : LedgerSystem).Accounted key) :
    s.Accounted key := by
  intro seed hseed v hseeds
  exact (h seed hseed v hseeds).shrink

/-- A tenant that is stored has been accounted for since before the block of its row. -/
theorem accounted_row (hs : s.Booked) (ha : s.Accounted key) {row : LedgerBalance}
    (hrow : Assoc.get s.database.balances key = some row) :
    ∃ block balance, AccountedSince s.chain key block balance ∧ block ≤ row.asOfBlock := by
  obtain ⟨c, hc, v, hseeds, hle⟩ := hs.origin key row hrow
  exact ⟨_, _, ha c hc v hseeds, hle⟩

/-- What a tick finds of a tenant that is stored is the balance, and what it expects. -/
theorem actual_in_line (hs : s.Booked) (hi : s.replicas[i]? = some (.checking t)) (hchain : Honest s.chain)
    (ha : s.Accounted key) (hline : s.InLine key) {prior : LedgerBalance} (hprior : Assoc.get t.known key = some prior)
    {readable : Bool} {a : Nat} (hactual : t.actualBalance s.chain key readable = some a) :
    balanceAt s.chain t.window.toBlock key = some a ∧ (a : Int) = prior.balanceWei + netDelta key t.events := by
  obtain ⟨hsound, hfollows, hknown⟩ := hs.phase i _ hi
  rw [hknown] at hprior
  obtain ⟨block, balance, haccounted, hblock⟩ := accounted_row hs ha hprior
  obtain ⟨last, hlast, hle⟩ := hs.past key prior hprior
  have hfrom := hfollows last hlast
  have hrange := hsound.range
  have hread : balanceAt s.chain t.window.toBlock key = some a := by
    rcases actualBalance_cases hactual with hread | hreported
    · exact hread
    · rw [hsound.events] at hreported
      exact haccounted.reported hchain (.inl (by omega)) hrange.2 hreported
  refine ⟨hread, ?_⟩
  have hbetween := haccounted.between hblock (by omega) (hline.stored prior hprior) hread
  rw [logsIn_split (show prior.asOfBlock + 1 ≤ last + 1 by omega) (by omega), netDelta_append,
    netDelta_quiet (hs.quiet key prior last hprior hlast), ← hfrom, ← hsound.events] at hbetween
  omega

theorem inLine_set (hline : s.InLine key) (alerts : List LedgerAlert)
    (hticks : ∀ t, q = .checking t ∨ q = .settled t → ∀ a, Assoc.get t.reconciled key = some a →
      (Assoc.get t.known key).isSome → balanceAt s.chain t.window.toBlock key = some a)
    (halerts : ∀ d, LedgerAlert.drift d ∈ alerts → d.tenantKey ≠ key) :
    ({ s with replicas := s.replicas.set i q, alerts := s.alerts ++ alerts } : LedgerSystem).InLine key := by
  refine ⟨hline.stored, ?_, ?_⟩
  · intro j t hj a ha hknown
    rcases hj with hj | hj
    · rcases Pool.getElem?_set_cases hj with ⟨-, heq⟩ | ⟨-, hold⟩
      · exact hticks t (.inl heq.symm) a ha hknown
      · exact hline.ticks j t (.inl hold) a ha hknown
    · rcases Pool.getElem?_set_cases hj with ⟨-, heq⟩ | ⟨-, hold⟩
      · exact hticks t (.inr heq.symm) a ha hknown
      · exact hline.ticks j t (.inr hold) a ha hknown
  · intro d hd
    obtain ⟨alert, halert, hdrift⟩ := List.mem_filterMap.mp hd
    rcases List.mem_append.mp halert with hold | hnew
    · exact hline.unreported d (List.mem_filterMap.mpr ⟨alert, hold, hdrift⟩)
    · cases alert <;> simp only [LedgerAlert.reportedDrift, Option.some.injEq, reduceCtorEq] at hdrift
      subst hdrift
      exact halerts _ hnew

theorem inLine_phase (hline : s.InLine key) (hticks : ∀ t, q = .checking t ∨ q = .settled t → ∀ a,
      Assoc.get t.reconciled key = some a → (Assoc.get t.known key).isSome → balanceAt s.chain t.window.toBlock key = some a) :
    (s.setReplica i q).InLine key := by
  have hset : ({ s with replicas := s.replicas.set i q, alerts := s.alerts ++ [] } : LedgerSystem).InLine key :=
    inLine_set hline [] hticks fun d h => by cases h
  rw [List.append_nil] at hset
  exact hset

theorem inLine_keep (hline : s.InLine key) (hq : ∀ t, q ≠ .checking t ∧ q ≠ .settled t) :
    (s.setReplica i q).InLine key :=
  inLine_phase hline fun t h => h.elim (fun h => absurd h (hq t).1) fun h => absurd h (hq t).2

theorem balanceAt_some_grow {chain : List LedgerBlock} {n v : Nat} (h : balanceAt chain n key = some v) (b : LedgerBlock) :
    balanceAt (chain ++ [b]) n key = some v := by
  obtain ⟨c, hc, -⟩ := Option.map_eq_some_iff.mp h
  rw [balanceAt_grow (Pool.lt_of_getElem? hc)]
  exact h

theorem inLine_mine (hline : s.InLine key) (b : LedgerBlock) :
    ({ s with chain := s.chain ++ [b] } : LedgerSystem).InLine key := by
  refine ⟨?_, ?_, hline.unreported⟩
  · intro row hrow
    exact balanceAt_some_grow (hline.stored row hrow) b
  · intro j t hj a ha hknown
    exact balanceAt_some_grow (hline.ticks j t hj a ha hknown) b

theorem inLine_check (hs : s.Booked) (hi : s.replicas[i]? = some (.checking t)) (hchain : Honest s.chain)
    (ha : s.Accounted key) (hline : s.InLine key) {k : Bytes32} {rest : List Bytes32} {readable : Bool}
    {out : LedgerTick × List LedgerAlert} (hcheck : LedgerCheck s.chain t k rest readable out) :
    ({ s with replicas := s.replicas.set i (.checking out.1), alerts := s.alerts ++ out.2 } : LedgerSystem).InLine key := by
  have hticks := hline.ticks i t (.inl hi)
  refine inLine_set hline out.2 ?_ ?_
  · intro t' ht'
    obtain rfl : out.1 = t' := by
      rcases ht' with h | h
      · exact LedgerPhase.checking.inj h
      · cases h
    cases hcheck with
    | unread hactual => exact hticks
    | @seed a hactual hnone =>
      intro b hb hknown
      have hne : key ≠ k := by
        rintro rfl
        rw [show Assoc.get t.known key = none from hnone] at hknown
        cases hknown
      rw [Assoc.get_set_of_ne hne] at hb
      exact hticks b hb hknown
    | @drift a prior hactual hprior hne =>
      intro b hb hknown
      by_cases hk : key = k
      · subst hk
        exact absurd (actual_in_line hs hi hchain ha hline hprior hactual).2 hne
      · rw [Assoc.get_set_of_ne hk] at hb
        exact hticks b hb hknown
    | @agree a prior hactual hprior heq =>
      intro b hb hknown
      by_cases hk : key = k
      · subst hk
        rw [Assoc.get_set_self] at hb
        cases hb
        exact (actual_in_line hs hi hchain ha hline hprior hactual).1
      · rw [Assoc.get_set_of_ne hk] at hb
        exact hticks b hb hknown
  · intro d hd
    cases hcheck with
    | unread => cases hd
    | seed => cases hd
    | @drift a prior hactual hprior hne =>
      cases List.mem_singleton.mp hd
      rintro rfl
      exact hne (actual_in_line hs hi hchain ha hline hprior hactual).2
    | agree => cases List.mem_singleton.mp hd

theorem inLine_commit (hs : s.Booked) (hi : s.replicas[i]? = some (.settled t)) (ha : (s.commit i t).Accounted key)
    (hline : s.InLine key) : (s.commit i t).InLine key := by
  obtain ⟨⟨hsound, -, hknown⟩, -⟩ := hs.phase i _ hi
  refine ⟨?_, ?_, hline.unreported⟩
  · intro row hrow
    rcases row_commit hs hi hrow with ⟨-, hold⟩ | ⟨a, hget, rfl⟩
    · exact hline.stored row hold
    · cases hprior : Assoc.get t.known key with
      | some prior => exact hline.ticks i t (.inr hi) a hget (by rw [hprior]; rfl)
      | none =>
        have hseeds : key ∈ t.seeded := hsound.baseline key (by rw [hget]; rfl) hprior
        have hseed := ha _ (List.mem_append_right _ (List.mem_singleton_self _)) a ⟨hseeds, hget⟩
        obtain ⟨v, hv, hsum⟩ := hseed t.window.toBlock (Nat.le_refl _) hsound.range.2
        rw [logsIn_empty (Nat.lt_succ_self _)] at hsum
        have hsame : v = a := by
          simp only [netDelta, List.filter_nil, List.map_nil, List.sum_nil] at hsum
          omega
        rw [hsame] at hv
        exact hv
  · intro j t' hj
    refine hline.ticks j t' ?_
    rcases hj with hj | hj
    · rcases Pool.getElem?_set_cases hj with ⟨-, heq⟩ | ⟨-, hold⟩
      · cases heq
      · exact .inl hold
    · rcases Pool.getElem?_set_cases hj with ⟨-, heq⟩ | ⟨-, hold⟩
      · cases heq
      · exact .inr hold

theorem inLine_step {l : LedgerLabel} (hs : s.Booked) (hchain : Honest s.chain) (ha : s.Accounted key)
    (ha' : s'.Accounted key) (hline : s.InLine key) (h : LedgerStep o s l s') : s'.InLine key := by
  cases h with
  | mine block => exact inLine_mine hline block
  | head hi hlatest => exact inLine_keep hline fun t => by simp
  | checkpoint hi hwindow => exact inLine_keep hline fun t => by simp
  | events hi => exact inLine_keep hline fun t => by simp
  | balances hi =>
    refine inLine_phase hline ?_
    intro t ht a hget
    rcases ht with h | h
    · cases h
      cases hget
    · cases h
  | check readable hi hkeys => exact inLine_check hs hi hchain ha hline (check_cases ..)
  | @solvency i t atWindow atLatest read hi hkeys =>
    refine inLine_set hline _ ?_ ?_
    · intro t' ht'
      rcases ht' with h | h
      · cases h
      · cases h
        exact hline.ticks i t (.inl hi)
    · intro d hd
      unfold solvencyAlert at hd
      split at hd <;> cases List.mem_singleton.mp hd
  | commit hi => exact inLine_commit hs hi ha' hline
  | ended hi _ => exact inLine_keep hline fun t => by simp

/-! ## A run -/

theorem booked_start : (start 1).Booked := by
  refine ⟨rfl, ?_, List.nodup_nil, ?_, ?_, ?_, ?_, List.Sublist.refl _⟩
  · intro i p hp
    rcases i with _ | i
    · cases hp
      trivial
    · cases hp
  · intro last h
    cases h
  · intro key row h
    cases h
  · intro key row last h
    cases h
  · intro key row h
    cases h

theorem honest_of_step {l : LedgerLabel} (h : LedgerStep o s l s') (hchain : Honest s'.chain) : Honest s.chain := by
  cases h with
  | mine block => exact honest_shrink hchain
  | head | checkpoint | events | balances | check | solvency | commit | ended => exact hchain

theorem accounted_of_step {l : LedgerLabel} (h : LedgerStep o s l s') (ha : s'.Accounted key) : s.Accounted key := by
  cases h with
  | mine block => exact accounted_shrink ha
  | commit => exact fun seed hseed => ha seed (List.mem_append_left _ hseed)
  | head | checkpoint | events | balances | check | solvency | ended => exact ha

theorem telescopes_step {l : LedgerLabel} (hs : s.Booked) (hchain : Honest s.chain) (ht : s.Telescopes)
    (h : LedgerStep o s l s') : s'.Telescopes := by
  cases h with
  | commit hi => exact telescopes_commit hs hi hchain ht
  | mine | head | checkpoint | events | balances | check | solvency | ended => exact ht

/-- The reconciler accounts for every wei, on every chain of a tenant paymaster: what is stored
of a tenant is its seed, the events since and the drifts since; and where the chain accounts for
the tenant's balance from its seed on, no drift is reported. -/
theorem ledger_telescopes {dep : Deployment} {w : World} {labels : List LedgerLabel}
    (hrun : Runs.run (LedgerSystem.step o) (start 1) labels = some s) (hchain : Mined dep s.chain w) :
    s.Telescopes ∧ ∀ key, s.Accounted key → ∀ d ∈ s.reported, d.tenantKey ≠ key := by
  have hinv : s.Booked ∧ (Honest s.chain → s.Telescopes) ∧ ∀ key, Honest s.chain → s.Accounted key → s.InLine key := by
    refine Runs.invariant (P := fun s : LedgerSystem => s.Booked ∧ (Honest s.chain → s.Telescopes) ∧
      ∀ key, Honest s.chain → s.Accounted key → s.InLine key) ?_ ?_ hrun
    · rintro s l s' ⟨hs, ht, hline⟩ hstep
      have h := ledgerStep_cases hstep
      refine ⟨booked_step hs h, ?_, ?_⟩
      · intro hchain'
        have hchain := honest_of_step h hchain'
        exact telescopes_step hs hchain (ht hchain) h
      · intro key hchain' ha'
        have hchain := honest_of_step h hchain'
        have ha := accounted_of_step h ha'
        exact inLine_step hs hchain ha ha' (hline key hchain ha) h
    · refine ⟨booked_start, ?_, ?_⟩
      · intro _ before after seed key v hcommits
        exact absurd hcommits (by simp [start])
      · intro key _ _
        refine ⟨?_, ?_, ?_⟩
        · intro row hrow
          cases hrow
        · intro i t ht
          rcases i with _ | i <;> rcases ht with ht | ht <;> cases ht
        · intro d hd
          cases hd
  have hhonest := honest_of_mined hchain
  exact ⟨hinv.2.1 hhonest, fun key ha => (hinv.2.2 key hhonest ha).unreported⟩

/-! ## A run of three blocks -/

def LedgerLabel.mined : LedgerLabel → Option LedgerBlock
  | .mine block => some block
  | _ => none

theorem chain_run : ∀ {labels : List LedgerLabel} {s s' : LedgerSystem}, Runs.run (LedgerSystem.step o) s labels = some s' →
    s'.chain = s.chain ++ labels.filterMap LedgerLabel.mined
  | [], s, s', h => by
    cases h
    simp
  | l :: labels, s, s', h => by
    obtain ⟨m, hstep, hrun⟩ := Runs.run_cons.mp h
    rw [chain_run hrun]
    have hl := ledgerStep_cases hstep
    cases hl with
    | mine block => simp [LedgerLabel.mined]
    | ended hi hends =>
      cases l with
      | mine block => cases hends
      | head | checkpoint | events | balances | check | solvency | commit | fail => rfl
    | head | checkpoint | events | balances | check | solvency | commit => rfl

def sampleLedgerOptions : LedgerOptions := ⟨0, 1000, 1000, by decide⟩

def depositRun (amount : Nat) : List Label := [.transaction 0, .call 9 (.depositFor 7 amount), .returned]

def depositedWorld (w : World) (amount : Nat) : World :=
  ((Runs.run (step sampleDeployment) ⟨w, []⟩ (depositRun amount)).map Config.world).getD w

theorem mined_deposit {chain : List LedgerBlock} {w : World} (hchain : Mined sampleDeployment chain w) {amount : Nat}
    {hash : Bytes32}
    (hrun : (Runs.run (step sampleDeployment) ⟨w, []⟩ (depositRun amount)).map (fun c => c.stack.length) = some 0)
    (hevents : (getTenantLedgerEvents ((depositedWorld w amount).journalSince w)).length = 1)
    (hfresh : ∀ b ∈ chain, ∀ log ∈ b.logs, log.transactionHash ≠ hash) :
    Mined sampleDeployment (chain ++ [w.block (depositedWorld w amount) chain.length [(hash, 0)]]) (depositedWorld w amount) := by
  obtain ⟨c, hc, hstack⟩ := Option.map_eq_some_iff.mp hrun
  have hworld : depositedWorld w amount = c.world := by
    unfold depositedWorld
    rw [hc]
    rfl
  rw [hworld] at hevents ⊢
  refine hchain.block hc (List.length_eq_zero_iff.mp hstack) hevents.symm (List.pairwise_singleton _ _) ?_
  intro place hplace
  rw [List.mem_singleton.mp hplace]
  exact hfresh

def sampleWorld : Nat → World
  | 0 => (launch sampleState 0).world
  | n + 1 => depositedWorld (sampleWorld n) 100

def sampleBlock : Nat → LedgerBlock
  | 0 => ⟨[], sampleState.balances⟩
  | n + 1 => (sampleWorld n).block (sampleWorld (n + 1)) (n + 1) [(BitVec.ofNat 256 n, 0)]

/-- The tenant's balance is 100 after the first block and 200 after the second. -/
theorem sampleChain_mined : Mined sampleDeployment [sampleBlock 0, sampleBlock 1, sampleBlock 2] (sampleWorld 2) := by
  have hzero : Mined sampleDeployment [sampleBlock 0] (sampleWorld 0) := .deployed 0 sampleState_deployed
  have hone : Mined sampleDeployment [sampleBlock 0, sampleBlock 1] (sampleWorld 1) :=
    mined_deposit hzero (by decide +kernel) (by decide +kernel) (by decide +kernel)
  exact mined_deposit hone (by decide +kernel) (by decide +kernel) (by decide +kernel)

def LedgerLabel.tick (i latest : Nat) (readable : Bool) : List LedgerLabel :=
  [.head i latest, .checkpoint i, .events i, .balances i, .check i readable, .solvency i none (some (200, 200)), .commit i]

def sampleTicks : List LedgerLabel :=
  [.mine (sampleBlock 0), .mine (sampleBlock 1)] ++ LedgerLabel.tick 0 1 true ++ [.mine (sampleBlock 2)] ++
    LedgerLabel.tick 0 2 false

theorem ledger_telescopes_sample : ∃ s, Runs.run (LedgerSystem.step sampleLedgerOptions) (start 1) sampleTicks = some s ∧
    s.database.balances = [(7, ⟨200, 2⟩)] ∧ s.commits.length = 2 ∧
    s.Telescopes ∧ ∀ key, s.Accounted key → ∀ d ∈ s.reported, d.tenantKey ≠ key := by
  have h : (Runs.run (LedgerSystem.step sampleLedgerOptions) (start 1) sampleTicks).map
      (fun s => (s.database.balances, s.commits.length)) = some ([(7, ⟨200, 2⟩)], 2) := by
    decide +kernel
  obtain ⟨s, hrun, hview⟩ := Option.map_eq_some_iff.mp h
  obtain ⟨hbalances, hcommits⟩ := Prod.mk.inj hview
  have hchain : s.chain = [sampleBlock 0, sampleBlock 1, sampleBlock 2] := chain_run hrun
  exact ⟨s, hrun, hbalances, hcommits, ledger_telescopes hrun (hchain ▸ sampleChain_mined)⟩

end

end Paymaster
