import Paymaster.Backend.TenantLedger

/-!
# What a tick finds

The books of a tick: for every tenant that it has checked, what it will store is
what was stored, the movement of the window, and the drift that it reported. On a
chain whose logs account for a tenant's balance, what it will store is the balance
at the window's end, whether it was read or reported.
-/

namespace Paymaster

section
variable {chain : List LedgerBlock} {b : LedgerBlock} {f m n : Nat} {key : Bytes32} {logs logs' : List TenantLedgerLog}

/-! ## Windows of the chain -/

theorem lt_length_grow (h : n < chain.length) (b : LedgerBlock) : n < (chain ++ [b]).length := by
  rw [List.length_append]
  exact Nat.lt_add_right _ h

theorem logsIn_grow (h : n < chain.length) (b : LedgerBlock) : logsIn (chain ++ [b]) f n = logsIn chain f n := by
  unfold logsIn
  rw [List.take_append_of_le_length h]

theorem balanceAt_grow (h : n < chain.length) (b : LedgerBlock) (key : Bytes32) :
    balanceAt (chain ++ [b]) n key = balanceAt chain n key := by
  unfold balanceAt
  rw [List.getElem?_append_left h]

theorem logsIn_split (hf : f ≤ m + 1) (hm : m ≤ n) (chain : List LedgerBlock) :
    logsIn chain f n = logsIn chain f m ++ logsIn chain (m + 1) n := by
  unfold logsIn
  rw [← List.flatMap_append]
  congr 1
  have htake : chain.take (m + 1) = (chain.take (n + 1)).take (m + 1) := by
    rw [List.take_take, Nat.min_eq_left (by omega)]
  rw [htake]
  generalize chain.take (n + 1) = l
  have hl : l.drop f = (l.take (m + 1) ++ l.drop (m + 1)).drop f := by rw [List.take_append_drop]
  rw [hl, List.drop_append, List.length_take]
  rcases Nat.le_total (m + 1) l.length with h | h
  · rw [Nat.min_eq_left h, Nat.sub_eq_zero_of_le hf]
    rfl
  · rw [List.drop_eq_nil_of_le h, List.drop_nil]

theorem logsIn_empty (h : n < f) : logsIn chain f n = [] := by
  unfold logsIn
  rw [List.drop_eq_nil_of_le]
  · rfl
  · rw [List.length_take]
    omega

theorem logsIn_one (h : chain[n]? = some b) : logsIn chain n n = b.logs := by
  obtain ⟨hlt, rfl⟩ := List.getElem?_eq_some_iff.mp h
  unfold logsIn
  have hone : (chain.take (n + 1)).drop n = [chain[n]] := by
    rw [List.drop_take, Nat.add_sub_cancel_left, List.drop_eq_getElem_cons hlt]
    rfl
  rw [hone, List.flatMap_singleton]

theorem logsIn_succ (hf : f ≤ n + 1) (h : chain[n + 1]? = some b) : logsIn chain f (n + 1) = logsIn chain f n ++ b.logs := by
  rw [logsIn_split hf (Nat.le_succ n), logsIn_one h]

/-! ## One tenant's logs -/

theorem netDelta_append : netDelta key (logs ++ logs') = netDelta key logs + netDelta key logs' := by
  unfold netDelta
  rw [List.filter_append, List.map_append, List.sum_append]

theorem lastReported_append : lastReported key (logs ++ logs') = (lastReported key logs').or (lastReported key logs) := by
  unfold lastReported
  rw [List.filter_append, List.map_append, List.getLast?_append]

theorem netDelta_quiet (h : lastReported key logs = none) : netDelta key logs = 0 := by
  unfold lastReported at h
  rw [List.getLast?_eq_none_iff, List.map_eq_nil_iff] at h
  unfold netDelta
  rw [h]
  rfl

theorem get_movementsOf (key : Bytes32) (events : List TenantLedgerLog) :
    Assoc.get (movementsOf events) key = (lastReported key events).map fun r => ⟨netDelta key events, r⟩ := by
  induction events using List.reverseRecOn with
  | nil => rfl
  | append_singleton events event ih =>
    have hfold : movementsOf (events ++ [event]) = Assoc.set (movementsOf events) event.tenant
        ⟨((Assoc.get (movementsOf events) event.tenant).getD ⟨0, 0⟩).delta + event.deltaWei, event.balanceAfterWei⟩ := by
      unfold movementsOf
      rw [List.foldl_append]
      rfl
    rw [hfold, lastReported_append, netDelta_append]
    by_cases h : event.tenant = key
    · subst h
      rw [Assoc.get_set_self, ih]
      have hone : lastReported event.tenant [event] = some event.balanceAfterWei := by simp [lastReported]
      have hdelta : netDelta event.tenant [event] = event.deltaWei := by simp [netDelta]
      rw [hone, hdelta]
      cases hr : lastReported event.tenant events with
      | none => simp [netDelta_quiet hr]
      | some r => simp
    · rw [Assoc.get_set_of_ne (Ne.symm h), ih]
      have hone : lastReported key [event] = none := by simp [lastReported, h]
      rw [hone, netDelta_quiet hone]
      simp

theorem nodup_keys_movementsOf (events : List TenantLedgerLog) : ((movementsOf events).map Prod.fst).Nodup := by
  induction events using List.reverseRecOn with
  | nil => exact List.nodup_nil
  | append_singleton events event ih =>
    unfold movementsOf at ih ⊢
    rw [List.foldl_append]
    exact Assoc.nodup_keys_set ih

/-! ## Chains whose logs account for a balance -/

/-- From a block on, a tenant's balance is what it was then and what its logs have added. -/
def AccountedSince (chain : List LedgerBlock) (key : Bytes32) (block : Nat) (balance : Int) : Prop :=
  ∀ n, block ≤ n → n < chain.length → ∃ v, balanceAt chain n key = some v ∧
    (v : Int) = balance + netDelta key (logsIn chain (block + 1) n)

theorem AccountedSince.shrink {block : Nat} {balance : Int} (h : AccountedSince (chain ++ [b]) key block balance) :
    AccountedSince chain key block balance := by
  intro n hn hlt
  obtain ⟨v, hv, hsum⟩ := h n hn (by simp; omega)
  rw [balanceAt_grow hlt] at hv
  rw [logsIn_grow hlt] at hsum
  exact ⟨v, hv, hsum⟩

theorem balanceAt_of_get (h : chain[n]? = some b) (key : Bytes32) : balanceAt chain n key = some (b.balances key) := by
  unfold balanceAt
  rw [h]
  rfl

/-- The logs between two blocks account for the difference. -/
theorem AccountedSince.between {block v v' : Nat} {balance : Int} (h : AccountedSince chain key block balance)
    (hm : block ≤ m) (hmn : m ≤ n) (hv : balanceAt chain m key = some v) (hv' : balanceAt chain n key = some v') :
    (v' : Int) = v + netDelta key (logsIn chain (m + 1) n) := by
  have hlt : n < chain.length := by
    unfold balanceAt at hv'
    obtain ⟨b, hb, -⟩ := Option.map_eq_some_iff.mp hv'
    exact Pool.lt_of_getElem? hb
  obtain ⟨w, hw, hsum⟩ := h m hm (by omega)
  obtain ⟨w', hw', hsum'⟩ := h n (by omega) hlt
  cases hv.symm.trans hw
  cases hv'.symm.trans hw'
  rw [hsum', logsIn_split (by omega) hmn, netDelta_append, hsum, Int.add_assoc]

/-- The last report in a window is the balance at the window's end. -/
theorem AccountedSince.reported {block : Nat} {balance : Int} (h : AccountedSince chain key block balance)
    (hhonest : Honest chain) (hf : block < f ∨ f = 0 ∧ block = 0) {r : Nat} : ∀ {n : Nat}, n < chain.length →
    lastReported key (logsIn chain f n) = some r → balanceAt chain n key = some r := by
  intro n
  induction n with
  | zero =>
    intro hlt hr
    have hb : chain[0]? = some chain[0] := List.getElem?_eq_getElem hlt
    rcases hf with hf | ⟨rfl, -⟩
    · rw [logsIn_empty (by omega)] at hr
      cases hr
    · rw [logsIn_one hb, hhonest.first _ hb] at hr
      cases hr
  | succ n ih =>
    intro hlt hr
    rcases Nat.lt_or_ge (n + 1) f with hempty | hfn
    · rw [logsIn_empty hempty] at hr
      cases hr
    have hb : chain[n + 1]? = some chain[n + 1] := List.getElem?_eq_getElem hlt
    have hbefore : chain[n]? = some chain[n] := List.getElem?_eq_getElem (by omega)
    have hsum := h.between (by omega) (Nat.le_succ n) (balanceAt_of_get hbefore key)
      (balanceAt_of_get hb key)
    rw [logsIn_one hb] at hsum
    rw [logsIn_succ hfn hb, lastReported_append] at hr
    rw [balanceAt_of_get hb]
    cases hlast : lastReported key chain[n + 1].logs with
    | some r' =>
      rw [hlast] at hr
      cases hr
      rw [hhonest.last n _ _ key hbefore hb hsum r hlast]
    | none =>
      -- Nothing of the tenant is in the block, and its balance is as before.
      rw [hlast] at hr
      have hold := ih (by omega) hr
      rw [balanceAt_of_get hbefore] at hold
      rw [netDelta_quiet hlast, Int.add_zero, Nat.cast_inj] at hsum
      rw [hsum]
      exact hold

end

/-! ## The window and the store -/

theorem ledgerWindow_some {o : LedgerOptions} {latest : Nat} {checkpoint : Option Nat} {window : LedgerWindow}
    (h : ledgerWindow o latest checkpoint = some window) :
    window.fromBlock ≤ window.toBlock ∧ window.toBlock ≤ latest ∧ ∀ last, checkpoint = some last → window.fromBlock = last + 1 := by
  simp only [ledgerWindow] at h
  split at h
  · cases h
  split at h
  · cases h
  rename_i hfrom
  cases h
  refine ⟨Nat.le_min.mpr ⟨Nat.not_lt.mp hfrom, Nat.le_sub_of_add_le (Nat.add_le_add_left o.range_pos _)⟩, (Nat.min_le_left _ _).trans (Nat.sub_le _ _), ?_⟩
  rintro last rfl
  rfl

section
variable {rows : List (Bytes32 × LedgerBalance)} {balances : List (Bytes32 × Nat)} {key k : Bytes32} {toBlock : Nat}

def newer (old : Option LedgerBalance) (balance : LedgerBalance) : LedgerBalance :=
  match old with
  | some row => if row.asOfBlock ≤ balance.asOfBlock then balance else row
  | none => balance

theorem get_upsert_self {balance : LedgerBalance} :
    Assoc.get (upsertBalance rows key balance) key = some (newer (Assoc.get rows key) balance) := by
  unfold upsertBalance newer
  cases h : Assoc.get rows key with
  | none => exact Assoc.get_set_self
  | some row =>
    by_cases hle : row.asOfBlock ≤ balance.asOfBlock
    · simp only [hle, if_true]
      exact Assoc.get_set_self
    · simp only [hle, if_false]
      exact h

theorem get_upsert_of_ne {balance : LedgerBalance} (hne : key ≠ k) :
    Assoc.get (upsertBalance rows k balance) key = Assoc.get rows key := by
  unfold upsertBalance
  split
  · split
    · exact Assoc.get_set_of_ne hne
    · rfl
  · exact Assoc.get_set_of_ne hne

theorem nodup_upsert {balance : LedgerBalance} (h : (rows.map Prod.fst).Nodup) :
    ((upsertBalance rows k balance).map Prod.fst).Nodup := by
  unfold upsertBalance
  split
  · split
    · exact Assoc.nodup_keys_set h
    · exact h
  · exact Assoc.nodup_keys_set h

def upsertAll (toBlock : Nat) (rows : List (Bytes32 × LedgerBalance)) (balances : List (Bytes32 × Nat)) :
    List (Bytes32 × LedgerBalance) :=
  balances.foldl (fun rows entry => upsertBalance rows entry.1 ⟨entry.2, toBlock⟩) rows

theorem nodup_upsertAll (h : (rows.map Prod.fst).Nodup) : ((upsertAll toBlock rows balances).map Prod.fst).Nodup := by
  unfold upsertAll
  induction balances generalizing rows with
  | nil => exact h
  | cons entry balances ih => exact ih (nodup_upsert h)

theorem get_upsertAll_none (h : Assoc.get balances key = none) :
    Assoc.get (upsertAll toBlock rows balances) key = Assoc.get rows key := by
  unfold upsertAll
  induction balances generalizing rows with
  | nil => rfl
  | cons entry balances ih =>
    obtain ⟨k, a⟩ := entry
    by_cases hk : k = key
    · simp [Assoc.get, hk] at h
    · rw [Assoc.get, if_neg hk] at h
      exact (ih h).trans (get_upsert_of_ne (Ne.symm hk))

theorem get_upsertAll_some {a : Nat} (hd : (balances.map Prod.fst).Nodup) (h : Assoc.get balances key = some a) :
    Assoc.get (upsertAll toBlock rows balances) key = some (newer (Assoc.get rows key) ⟨a, toBlock⟩) := by
  induction balances generalizing rows with
  | nil => cases h
  | cons entry balances ih =>
    obtain ⟨k, b⟩ := entry
    have hd' := List.nodup_cons.mp hd
    by_cases hk : k = key
    · subst hk
      rw [Assoc.get, if_pos rfl] at h
      obtain rfl := Option.some.inj h
      have hrest : Assoc.get balances k = none := by
        cases hget : Assoc.get balances k with
        | none => rfl
        | some c => exact absurd (Assoc.get_isSome_iff.mp (by rw [hget]; rfl)) hd'.1
      have hkept : Assoc.get (upsertAll toBlock (upsertBalance rows k ⟨b, toBlock⟩) balances) k = _ := get_upsertAll_none hrest
      exact hkept.trans get_upsert_self
    · rw [Assoc.get, if_neg hk] at h
      have hstep : Assoc.get (upsertAll toBlock (upsertBalance rows k ⟨b, toBlock⟩) balances) key = _ := ih hd'.2 h
      rw [get_upsert_of_ne (Ne.symm hk)] at hstep
      exact hstep

end

def TenantLedgerLog.place (log : TenantLedgerLog) : Bytes32 × Nat := (log.transactionHash, log.logIndex)

theorem insertEntries_of_nodup {entries events : List TenantLedgerLog}
    (h : ((entries ++ events).map TenantLedgerLog.place).Nodup) : events.foldl insertEntry entries = entries ++ events := by
  induction events generalizing entries with
  | nil => simp
  | cons event events ih =>
    have hnew : insertEntry entries event = entries ++ [event] := by
      unfold insertEntry
      refine if_neg ?_
      rw [List.any_eq_true]
      rintro ⟨e, he, hsame⟩
      have hplace : e.place = event.place := by
        have hsame := of_decide_eq_true hsame
        exact Prod.ext hsame.1 hsame.2
      rw [List.map_append, List.nodup_append] at h
      exact h.2.2 _ (List.mem_map_of_mem he) _ (List.mem_map_of_mem List.mem_cons_self) hplace
    rw [List.foldl_cons, hnew, ih]
    · simp
    · simpa using h

/-! ## A tick -/

def unexplained (key : Bytes32) (drifts : List LedgerDrift) : Int :=
  ((drifts.filter fun d => d.tenantKey = key).map fun d => (d.actualWei : Int) - d.expectedWei).sum

theorem unexplained_nothing {key : Bytes32} {drifts : List LedgerDrift} (h : ∀ d ∈ drifts, d.tenantKey ≠ key) :
    unexplained key drifts = 0 := by
  have hnone : (drifts.filter fun d => d.tenantKey = key) = [] := by
    rw [List.filter_eq_nil_iff]
    intro d hd
    simpa using h d hd
  unfold unexplained
  rw [hnone]
  rfl

/-- The books of a tick, of the chain that it reads. -/
structure LedgerTick.Sound (chain : List LedgerBlock) (t : LedgerTick) : Prop where
  range : t.window.fromBlock ≤ t.window.toBlock ∧ t.window.toBlock < chain.length
  events : t.events = logsIn chain t.window.fromBlock t.window.toBlock
  ahead : t.keys.Nodup ∧ ∀ key ∈ t.keys, Assoc.get t.reconciled key = none
  distinct : (t.reconciled.map Prod.fst).Nodup
  moved : ∀ key r, lastReported key t.events = some r → key ∈ t.keys ∨ (Assoc.get t.reconciled key).isSome
  unchecked : ∀ key, Assoc.get t.reconciled key = none → key ∉ t.seeded ∧ ∀ d ∈ t.drifted, d.tenantKey ≠ key
  seeded : ∀ key ∈ t.seeded, Assoc.get t.known key = none
  baseline : ∀ key, (Assoc.get t.reconciled key).isSome → Assoc.get t.known key = none → key ∈ t.seeded
  drifted : ∀ d ∈ t.drifted, (Assoc.get t.known d.tenantKey).isSome
  checked : ∀ key a prior, Assoc.get t.reconciled key = some a → Assoc.get t.known key = some prior →
    (a : Int) = prior.balanceWei + netDelta key t.events + unexplained key t.drifted

section
variable {chain : List LedgerBlock} {t : LedgerTick} {key : Bytes32} {rest : List Bytes32}

theorem actualBalance_cases {readable : Bool} {a : Nat} (h : t.actualBalance chain key readable = some a) :
    balanceAt chain t.window.toBlock key = some a ∨ lastReported key t.events = some a := by
  unfold LedgerTick.actualBalance at h
  rw [get_movementsOf, Option.map_map] at h
  cases readable with
  | false =>
    rw [if_neg Bool.false_ne_true, Option.none_or] at h
    obtain ⟨r, hr, rfl⟩ := Option.map_eq_some_iff.mp h
    exact .inr hr
  | true =>
    rw [if_pos rfl] at h
    rcases Option.or_eq_some_iff.mp h with h | ⟨-, h⟩
    · exact .inl h
    · obtain ⟨r, hr, rfl⟩ := Option.map_eq_some_iff.mp h
      exact .inr hr

theorem quiet_of_unread {readable : Bool} (h : t.actualBalance chain key readable = none) : lastReported key t.events = none := by
  unfold LedgerTick.actualBalance at h
  rw [get_movementsOf, Option.map_map, Option.or_eq_none_iff, Option.map_eq_none_iff] at h
  exact h.2

theorem expected_eq (prior : LedgerBalance) :
    (prior.balanceWei : Int) + (Assoc.get (movementsOf t.events) key).elim 0 Movement.delta =
      prior.balanceWei + netDelta key t.events := by
  rw [get_movementsOf]
  cases h : lastReported key t.events with
  | none => rw [netDelta_quiet h]; rfl
  | some r => rfl

inductive LedgerCheck (chain : List LedgerBlock) (t : LedgerTick) (key : Bytes32) (rest : List Bytes32) (readable : Bool) :
    LedgerTick × List LedgerAlert → Prop
  | unread : t.actualBalance chain key readable = none → LedgerCheck chain t key rest readable ({ t with keys := rest }, [])
  | seed {a : Nat} : t.actualBalance chain key readable = some a → Assoc.get t.known key = none →
    LedgerCheck chain t key rest readable
      ({ t with keys := rest, reconciled := Assoc.set t.reconciled key a, seeded := t.seeded ++ [key] }, [])
  | drift {a : Nat} {prior : LedgerBalance} : t.actualBalance chain key readable = some a →
    Assoc.get t.known key = some prior → (a : Int) ≠ prior.balanceWei + netDelta key t.events →
    LedgerCheck chain t key rest readable
      ({ t with
          keys := rest
          reconciled := Assoc.set t.reconciled key a
          drifted := t.drifted ++ [⟨key, prior.balanceWei + netDelta key t.events, a⟩] },
        [.drift ⟨key, prior.balanceWei + netDelta key t.events, a⟩])
  | agree {a : Nat} {prior : LedgerBalance} : t.actualBalance chain key readable = some a →
    Assoc.get t.known key = some prior → (a : Int) = prior.balanceWei + netDelta key t.events →
    LedgerCheck chain t key rest readable
      ({ t with keys := rest, reconciled := Assoc.set t.reconciled key a }, [.driftResolved key])

theorem check_cases (chain : List LedgerBlock) (t : LedgerTick) (key : Bytes32) (rest : List Bytes32) (readable : Bool) :
    LedgerCheck chain t key rest readable (t.check chain key rest readable) := by
  cases hactual : t.actualBalance chain key readable with
  | none =>
    simp only [LedgerTick.check, hactual]
    exact .unread hactual
  | some a =>
    cases hknown : Assoc.get t.known key with
    | none =>
      simp only [LedgerTick.check, hactual, hknown]
      exact .seed hactual hknown
    | some prior =>
      simp only [LedgerTick.check, hactual, hknown, expected_eq]
      split
      · rename_i hne
        exact .drift hactual hknown (Ne.symm hne)
      · rename_i heq
        exact .agree hactual hknown (Decidable.not_not.mp heq).symm

theorem sound_begin {window : LedgerWindow} {events : List TenantLedgerLog} {known : List (Bytes32 × LedgerBalance)}
    (hrange : window.fromBlock ≤ window.toBlock ∧ window.toBlock < chain.length)
    (hevents : events = logsIn chain window.fromBlock window.toBlock) (hknown : (known.map Prod.fst).Nodup) :
    (LedgerTick.begin window events known).Sound chain := by
  refine ⟨hrange, hevents, ⟨?_, fun _ _ => rfl⟩, List.nodup_nil, ?_, ?_, ?_, ?_, ?_, ?_⟩
  · unfold LedgerTick.begin
    refine List.Nodup.append (nodup_keys_movementsOf events) ?_ ?_
    · split
      · exact hknown.filter _
      · exact List.nodup_nil
    · intro key hmoved hquiet
      split at hquiet
      · simp only [List.mem_filter, decide_eq_true_eq] at hquiet
        exact hquiet.2 hmoved
      · cases hquiet
  · intro key r hr
    have hmem : key ∈ (movementsOf events).map Prod.fst := by
      rw [← Assoc.get_isSome_iff, get_movementsOf, show lastReported key events = some r from hr]
      rfl
    exact .inl (List.mem_append_left _ hmem)
  · intro key _
    refine ⟨List.not_mem_nil, ?_⟩
    intro d hd
    cases hd
  · intro key hkey
    cases hkey
  · intro key hkey
    cases hkey
  · intro d hd
    cases hd
  · intro key a prior ha
    cases ha

theorem unexplained_append {drifts : List LedgerDrift} {d : LedgerDrift} :
    unexplained key (drifts ++ [d]) = unexplained key drifts + if d.tenantKey = key then (d.actualWei : Int) - d.expectedWei else 0 := by
  unfold unexplained
  rw [List.filter_append, List.map_append, List.sum_append]
  by_cases h : d.tenantKey = key <;> simp [h]

theorem ahead_set (h : t.Sound chain) (hkeys : t.keys = key :: rest) (a : Nat) :
    rest.Nodup ∧ ∀ k ∈ rest, Assoc.get (Assoc.set t.reconciled key a) k = none := by
  have hahead := h.ahead
  rw [hkeys] at hahead
  obtain ⟨hnotin, hrest⟩ := List.nodup_cons.mp hahead.1
  refine ⟨hrest, ?_⟩
  intro k hk
  have hne : k ≠ key := by
    rintro rfl
    exact hnotin hk
  rw [Assoc.get_set_of_ne hne]
  exact hahead.2 k (List.mem_cons_of_mem _ hk)

theorem moved_set (h : t.Sound chain) (hkeys : t.keys = key :: rest) (a : Nat) (k : Bytes32) (r : Nat)
    (hr : lastReported k t.events = some r) : k ∈ rest ∨ (Assoc.get (Assoc.set t.reconciled key a) k).isSome := by
  by_cases hk : k = key
  · subst hk
    rw [Assoc.get_set_self]
    exact .inr rfl
  · rw [Assoc.get_set_of_ne hk]
    rcases h.moved k r hr with hmem | hdone
    · rw [hkeys] at hmem
      exact .inl ((List.mem_cons.mp hmem).resolve_left hk)
    · exact .inr hdone

theorem get_set_none {a : Nat} {k : Bytes32} (h : Assoc.get (Assoc.set t.reconciled key a) k = none) :
    k ≠ key ∧ Assoc.get t.reconciled k = none := by
  have hne : k ≠ key := by
    rintro rfl
    rw [Assoc.get_set_self] at h
    cases h
  rw [Assoc.get_set_of_ne hne] at h
  exact ⟨hne, h⟩

theorem baseline_set (h : t.Sound chain) {a : Nat} {seeded : List Bytes32} (hold : ∀ k ∈ t.seeded, k ∈ seeded)
    (hnew : Assoc.get t.known key = none → key ∈ seeded) (k : Bytes32)
    (hk : (Assoc.get (Assoc.set t.reconciled key a) k).isSome) (hknown : Assoc.get t.known k = none) : k ∈ seeded := by
  by_cases hkey : k = key
  · subst hkey
    exact hnew hknown
  · rw [Assoc.get_set_of_ne hkey] at hk
    exact hold k (h.baseline k hk hknown)

theorem checked_set (h : t.Sound chain) {a : Nat} {drifted : List LedgerDrift}
    (hothers : ∀ k, k ≠ key → unexplained k drifted = unexplained k t.drifted)
    (hown : ∀ prior, Assoc.get t.known key = some prior →
      (a : Int) = prior.balanceWei + netDelta key t.events + unexplained key drifted)
    (k : Bytes32) (b : Nat) (prior : LedgerBalance) (hb : Assoc.get (Assoc.set t.reconciled key a) k = some b)
    (hprior : Assoc.get t.known k = some prior) :
    (b : Int) = prior.balanceWei + netDelta k t.events + unexplained k drifted := by
  by_cases hk : k = key
  · subst hk
    rw [Assoc.get_set_self] at hb
    cases hb
    exact hown prior hprior
  · rw [Assoc.get_set_of_ne hk] at hb
    rw [hothers k hk]
    exact h.checked k b prior hb hprior

/-- A balance that cannot be read and was not reported is of a tenant without events. -/
theorem sound_unread (h : t.Sound chain) (hkeys : t.keys = key :: rest) {readable : Bool}
    (hactual : t.actualBalance chain key readable = none) : LedgerTick.Sound chain { t with keys := rest } := by
  refine ⟨h.range, h.events, ?_, h.distinct, ?_, h.unchecked, h.seeded, h.baseline, h.drifted, h.checked⟩
  · have hahead := h.ahead
    rw [hkeys] at hahead
    exact ⟨(List.nodup_cons.mp hahead.1).2, fun k hk => hahead.2 k (List.mem_cons_of_mem _ hk)⟩
  · intro k r hr
    rcases h.moved k r hr with hmem | hdone
    · rw [hkeys] at hmem
      rcases List.mem_cons.mp hmem with rfl | hmem
      · cases hr.symm.trans (quiet_of_unread hactual)
      · exact .inl hmem
    · exact .inr hdone

theorem sound_check (h : t.Sound chain) (hkeys : t.keys = key :: rest) {readable : Bool} {out : LedgerTick × List LedgerAlert}
    (hcheck : LedgerCheck chain t key rest readable out) : out.1.Sound chain := by
  have hfresh : Assoc.get t.reconciled key = none := h.ahead.2 key (by rw [hkeys]; exact List.mem_cons_self)
  obtain ⟨hunseeded, hundrifted⟩ := h.unchecked key hfresh
  cases hcheck with
  | unread hactual => exact sound_unread h hkeys hactual
  | @seed a hactual hknown =>
    refine ⟨h.range, h.events, ahead_set h hkeys a, Assoc.nodup_keys_set h.distinct, moved_set h hkeys a, ?_, ?_,
      baseline_set h (fun _ => List.mem_append_left _) (fun _ => List.mem_append_right _ (List.mem_singleton_self key)), h.drifted,
      checked_set h (fun _ _ => rfl) ?_⟩
    · intro k hk
      obtain ⟨hne, hold⟩ := get_set_none hk
      refine ⟨?_, (h.unchecked k hold).2⟩
      rw [List.mem_append, List.mem_singleton]
      exact fun hmem => hmem.elim (h.unchecked k hold).1 hne
    · intro k hk
      rcases List.mem_append.mp hk with hold | hnew
      · exact h.seeded k hold
      · rw [List.mem_singleton.mp hnew]
        exact hknown
    · intro prior hprior
      cases hprior.symm.trans hknown
  | @drift a prior hactual hknown hne =>
    refine ⟨h.range, h.events, ahead_set h hkeys a, Assoc.nodup_keys_set h.distinct, moved_set h hkeys a, ?_, h.seeded,
      baseline_set h (fun _ hmem => hmem) (fun hnone => by cases hnone.symm.trans hknown), ?_, checked_set h ?_ ?_⟩
    · intro k hk
      obtain ⟨hkey, hold⟩ := get_set_none hk
      refine ⟨(h.unchecked k hold).1, ?_⟩
      intro d hd
      rcases List.mem_append.mp hd with hd | hd
      · exact (h.unchecked k hold).2 d hd
      · rw [List.mem_singleton.mp hd]
        exact Ne.symm hkey
    · intro d hd
      rcases List.mem_append.mp hd with hd | hd
      · exact h.drifted d hd
      · rw [List.mem_singleton.mp hd]
        exact Option.isSome_iff_exists.mpr ⟨prior, hknown⟩
    · intro k hk
      rw [unexplained_append, if_neg (Ne.symm hk), Int.add_zero]
    · intro prior' hprior
      cases hprior.symm.trans hknown
      rw [unexplained_append, unexplained_nothing hundrifted, if_pos rfl]
      show (a : Int) = prior.balanceWei + netDelta key t.events + (0 + (a - (prior.balanceWei + netDelta key t.events)))
      omega
  | @agree a prior hactual hknown heq =>
    refine ⟨h.range, h.events, ahead_set h hkeys a, Assoc.nodup_keys_set h.distinct, moved_set h hkeys a, ?_, h.seeded,
      baseline_set h (fun _ hmem => hmem) (fun hnone => by cases hnone.symm.trans hknown), h.drifted,
      checked_set h (fun _ _ => rfl) ?_⟩
    · intro k hk
      exact h.unchecked k (get_set_none hk).2
    · intro prior' hprior
      cases hprior.symm.trans hknown
      rw [unexplained_nothing hundrifted, Int.add_zero]
      exact heq

theorem sound_grow (h : t.Sound chain) (b : LedgerBlock) : t.Sound (chain ++ [b]) := by
  refine ⟨⟨h.range.1, ?_⟩, ?_, h.ahead, h.distinct, h.moved, h.unchecked, h.seeded, h.baseline, h.drifted, h.checked⟩
  · exact lt_length_grow h.range.2 b
  · rw [logsIn_grow h.range.2]
    exact h.events

end

end Paymaster
