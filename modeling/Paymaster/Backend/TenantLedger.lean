import Paymaster.Contracts.Blocks
import Paymaster.Lib.Assoc

/-!
# The tenant ledger reconciler

A tick reads the head, the checkpoint, the events of the next window and the
stored balances, checks each tenant against the chain, and commits the window.
Every read is a step of its own, since the chain grows and other replicas
commit in between. A read may fail, and a tick may end anywhere; `commitWindow`
is one transaction.
-/

namespace Paymaster

structure LedgerOptions where
  confirmations : Nat
  maxBlockRange : Nat
  initialLookbackBlocks : Nat
  range_pos : 1 ≤ maxBlockRange

/-! ## What the source answers -/

def logsIn (chain : List LedgerBlock) (fromBlock toBlock : Nat) : List TenantLedgerLog :=
  ((chain.take (toBlock + 1)).drop fromBlock).flatMap LedgerBlock.logs

def balanceAt (chain : List LedgerBlock) (block : Nat) (key : Bytes32) : Option Nat :=
  chain[block]?.map fun b => b.balances key

/-! ## The store -/

structure LedgerBalance where
  balanceWei : Nat
  asOfBlock : Nat
deriving DecidableEq

structure LedgerDatabase where
  checkpoint : Option Nat
  balances : List (Bytes32 × LedgerBalance)
  entries : List TenantLedgerLog
deriving DecidableEq

/-- `ON CONFLICT (chain_id, tx_hash, log_index) DO NOTHING`. -/
def insertEntry (entries : List TenantLedgerLog) (entry : TenantLedgerLog) : List TenantLedgerLog :=
  if entries.any fun e => e.transactionHash = entry.transactionHash ∧ e.logIndex = entry.logIndex then entries
  else entries ++ [entry]

/-- `ON CONFLICT (chain_id, tenant_key) DO UPDATE … WHERE as_of_block <= EXCLUDED.as_of_block`. -/
def upsertBalance (balances : List (Bytes32 × LedgerBalance)) (key : Bytes32) (balance : LedgerBalance) :
    List (Bytes32 × LedgerBalance) :=
  match Assoc.get balances key with
  | some row => if row.asOfBlock ≤ balance.asOfBlock then Assoc.set balances key balance else balances
  | none => Assoc.set balances key balance

def LedgerDatabase.commitWindow (d : LedgerDatabase) (toBlock : Nat) (entries : List TenantLedgerLog)
    (balances : List (Bytes32 × Nat)) : LedgerDatabase where
  entries := entries.foldl insertEntry d.entries
  balances := balances.foldl (fun rows entry => upsertBalance rows entry.1 ⟨entry.2, toBlock⟩) d.balances
  checkpoint := some (d.checkpoint.elim toBlock fun last => max last toBlock)

/-! ## A tick -/

structure LedgerWindow where
  latest : Nat
  fromBlock : Nat
  toBlock : Nat
  caughtUp : Bool
deriving DecidableEq

def ledgerWindow (o : LedgerOptions) (latest : Nat) (checkpoint : Option Nat) : Option LedgerWindow :=
  if latest < o.confirmations then none
  else
    let safeHead := latest - o.confirmations
    let fromBlock := checkpoint.elim (safeHead - o.initialLookbackBlocks) fun last => last + 1
    if safeHead < fromBlock then none
    else
      let toBlock := min safeHead (fromBlock + o.maxBlockRange - 1)
      some ⟨latest, fromBlock, toBlock, toBlock = safeHead⟩

/-- A tenant in a window: its net movement, and what the contract last reported. -/
structure Movement where
  delta : Int
  lastReported : Nat
deriving DecidableEq

def movementsOf (events : List TenantLedgerLog) : List (Bytes32 × Movement) :=
  events.foldl (fun movement event =>
    let entry := (Assoc.get movement event.tenant).getD ⟨0, 0⟩
    Assoc.set movement event.tenant ⟨entry.delta + event.deltaWei, event.balanceAfterWei⟩) []

structure LedgerDrift where
  tenantKey : Bytes32
  expectedWei : Int
  actualWei : Nat
deriving DecidableEq

inductive LedgerAlert
  | drift (d : LedgerDrift)
  | driftResolved (tenantKey : Bytes32)
  | insolvent (totalTenantBalance deposit : Nat)
  | solvencyResolved
deriving DecidableEq

def LedgerAlert.reportedDrift : LedgerAlert → Option LedgerDrift
  | .drift d => some d
  | _ => none

/-- A tick from when the balances are read: `keys` are those still to be checked, and
`seeded` the tenants that the code counts. -/
structure LedgerTick where
  window : LedgerWindow
  events : List TenantLedgerLog
  known : List (Bytes32 × LedgerBalance)
  keys : List Bytes32
  reconciled : List (Bytes32 × Nat)
  drifted : List LedgerDrift
  seeded : List Bytes32
deriving DecidableEq

namespace LedgerTick

def begin (window : LedgerWindow) (events : List TenantLedgerLog) (known : List (Bytes32 × LedgerBalance)) :
    LedgerTick where
  window := window
  events := events
  known := known
  keys :=
    let moved := (movementsOf events).map Prod.fst
    moved ++ if window.caughtUp then (known.map Prod.fst).filter fun key => key ∉ moved else []
  reconciled := []
  drifted := []
  seeded := []

variable (t : LedgerTick)

def actualBalance (chain : List LedgerBlock) (key : Bytes32) (readable : Bool) : Option Nat :=
  (if readable then balanceAt chain t.window.toBlock key else none).or
    ((Assoc.get (movementsOf t.events) key).map Movement.lastReported)

def check (chain : List LedgerBlock) (key : Bytes32) (rest : List Bytes32) (readable : Bool) : LedgerTick × List LedgerAlert :=
  match t.actualBalance chain key readable with
  | none => ({ t with keys := rest }, [])
  | some actual =>
    let t' := { t with keys := rest, reconciled := Assoc.set t.reconciled key actual }
    match Assoc.get t.known key with
    | none => ({ t' with seeded := t.seeded ++ [key] }, [])
    | some prior =>
      let expected := (prior.balanceWei : Int) + (Assoc.get (movementsOf t.events) key).elim 0 Movement.delta
      if expected ≠ actual then
        ({ t' with drifted := t.drifted ++ [⟨key, expected, actual⟩] }, [.drift ⟨key, expected, actual⟩])
      else (t', [.driftResolved key])

end LedgerTick

/-! ## The system -/

inductive LedgerPhase
  | idle
  | headed (latest : Nat)
  | ranged (window : LedgerWindow)
  | fetched (window : LedgerWindow) (events : List TenantLedgerLog)
  | checking (t : LedgerTick)
  | settled (t : LedgerTick)
deriving DecidableEq

structure LedgerCommit where
  tick : LedgerTick
  inserted : List TenantLedgerLog
deriving DecidableEq

structure LedgerSystem where
  chain : List LedgerBlock
  database : LedgerDatabase
  replicas : List LedgerPhase
  alerts : List LedgerAlert
  commits : List LedgerCommit

inductive LedgerLabel
  | mine (block : LedgerBlock)
  /-- A node may lag behind the chain. -/
  | head (i latest : Nat)
  | checkpoint (i : Nat)
  | events (i : Nat)
  | balances (i : Nat)
  | check (i : Nat) (readable : Bool)
  /-- `totalTenantBalance` and the deposit at the window's end and at the head, where the node can tell. -/
  | solvency (i : Nat) (atWindow atLatest : Option (Nat × Nat))
  | commit (i : Nat)
  /-- The tick ends in an error, or with its process. -/
  | fail (i : Nat)

namespace LedgerSystem

variable (s : LedgerSystem)

def start (replicas : Nat) : LedgerSystem := ⟨[], ⟨none, [], []⟩, List.replicate replicas .idle, [], []⟩

def setReplica (i : Nat) (p : LedgerPhase) : LedgerSystem := { s with replicas := s.replicas.set i p }

def reported : List LedgerDrift := s.alerts.filterMap LedgerAlert.reportedDrift

def solvencyAlert (read : Nat × Nat) : LedgerAlert :=
  if read.2 < read.1 then .insolvent read.1 read.2 else .solvencyResolved

def commit (i : Nat) (t : LedgerTick) : LedgerSystem :=
  let database := s.database.commitWindow t.window.toBlock t.events t.reconciled
  { s with
    database := database
    replicas := s.replicas.set i .idle
    commits := s.commits ++ [⟨t, database.entries.drop s.database.entries.length⟩] }

def step (o : LedgerOptions) (s : LedgerSystem) : LedgerLabel → Option LedgerSystem
  | .mine block => some { s with chain := s.chain ++ [block] }
  | .head i latest =>
    match s.replicas[i]? with
    | some .idle => if latest < s.chain.length then some (s.setReplica i (.headed latest)) else none
    | _ => none
  | .checkpoint i =>
    match s.replicas[i]? with
    | some (.headed latest) =>
      some (s.setReplica i ((ledgerWindow o latest s.database.checkpoint).elim .idle .ranged))
    | _ => none
  | .events i =>
    match s.replicas[i]? with
    | some (.ranged window) =>
      some (s.setReplica i (.fetched window (logsIn s.chain window.fromBlock window.toBlock)))
    | _ => none
  | .balances i =>
    match s.replicas[i]? with
    | some (.fetched window events) =>
      some (s.setReplica i (.checking (.begin window events s.database.balances)))
    | _ => none
  | .check i readable =>
    match s.replicas[i]? with
    | some (.checking t) =>
      match t.keys with
      | key :: rest =>
        let (t', alerts) := t.check s.chain key rest readable
        some { s with replicas := s.replicas.set i (.checking t'), alerts := s.alerts ++ alerts }
      | [] => none
    | _ => none
  | .solvency i atWindow atLatest =>
    match s.replicas[i]? with
    | some (.checking t) =>
      match t.keys, atWindow.or atLatest with
      | [], some read =>
        some { s with replicas := s.replicas.set i (.settled t), alerts := s.alerts ++ [solvencyAlert read] }
      | [], none => some (s.setReplica i .idle)
      | _ :: _, _ => none
    | _ => none
  | .commit i =>
    match s.replicas[i]? with
    | some (.settled t) => some (s.commit i t)
    | _ => none
  | .fail i =>
    match s.replicas[i]? with
    | some _ => some (s.setReplica i .idle)
    | none => none

end LedgerSystem

/-! ## What a step can do -/

def LedgerLabel.ends : LedgerLabel → Bool
  | .checkpoint _ | .solvency _ _ _ | .fail _ => true
  | _ => false

inductive LedgerStep (o : LedgerOptions) (s : LedgerSystem) : LedgerLabel → LedgerSystem → Prop
  | mine (block : LedgerBlock) : LedgerStep o s (.mine block) { s with chain := s.chain ++ [block] }
  | head {i latest : Nat} : s.replicas[i]? = some .idle → latest < s.chain.length →
    LedgerStep o s (.head i latest) (s.setReplica i (.headed latest))
  | checkpoint {i latest : Nat} {window : LedgerWindow} : s.replicas[i]? = some (.headed latest) →
    ledgerWindow o latest s.database.checkpoint = some window →
    LedgerStep o s (.checkpoint i) (s.setReplica i (.ranged window))
  | events {i : Nat} {window : LedgerWindow} : s.replicas[i]? = some (.ranged window) →
    LedgerStep o s (.events i) (s.setReplica i (.fetched window (logsIn s.chain window.fromBlock window.toBlock)))
  | balances {i : Nat} {window : LedgerWindow} {events : List TenantLedgerLog} :
    s.replicas[i]? = some (.fetched window events) →
    LedgerStep o s (.balances i) (s.setReplica i (.checking (.begin window events s.database.balances)))
  | check {i : Nat} {t : LedgerTick} {key : Bytes32} {rest : List Bytes32} (readable : Bool) :
    s.replicas[i]? = some (.checking t) → t.keys = key :: rest →
    LedgerStep o s (.check i readable)
      { s with
        replicas := s.replicas.set i (.checking (t.check s.chain key rest readable).1)
        alerts := s.alerts ++ (t.check s.chain key rest readable).2 }
  | solvency {i : Nat} {t : LedgerTick} (atWindow atLatest : Option (Nat × Nat)) (read : Nat × Nat) :
    s.replicas[i]? = some (.checking t) → t.keys = [] →
    LedgerStep o s (.solvency i atWindow atLatest)
      { s with replicas := s.replicas.set i (.settled t), alerts := s.alerts ++ [LedgerSystem.solvencyAlert read] }
  | commit {i : Nat} {t : LedgerTick} : s.replicas[i]? = some (.settled t) → LedgerStep o s (.commit i) (s.commit i t)
  /-- The tick ends without a window: there is none, or it has failed. -/
  | ended {l : LedgerLabel} {i : Nat} {p : LedgerPhase} : s.replicas[i]? = some p → l.ends = true →
    LedgerStep o s l (s.setReplica i .idle)

theorem ledgerStep_cases {o : LedgerOptions} {s s' : LedgerSystem} {l : LedgerLabel} (h : LedgerSystem.step o s l = some s') :
    LedgerStep o s l s' := by
  cases l with
  | mine block =>
    cases h
    exact .mine block
  | head i latest =>
    simp only [LedgerSystem.step] at h
    split at h
    · rename_i hi
      split at h
      · rename_i hlatest
        cases h
        exact .head hi hlatest
      · cases h
    · cases h
  | checkpoint i =>
    simp only [LedgerSystem.step] at h
    split at h
    · rename_i latest hi
      cases h
      cases hw : ledgerWindow o latest s.database.checkpoint with
      | none => exact .ended hi rfl
      | some window => exact .checkpoint hi hw
    · cases h
  | events i =>
    simp only [LedgerSystem.step] at h
    split at h
    · rename_i window hi
      cases h
      exact .events hi
    · cases h
  | balances i =>
    simp only [LedgerSystem.step] at h
    split at h
    · rename_i window events hi
      cases h
      exact .balances hi
    · cases h
  | check i readable =>
    simp only [LedgerSystem.step] at h
    split at h
    · rename_i t hi
      split at h
      · rename_i key rest hkeys
        cases h
        exact .check readable hi hkeys
      · cases h
    · cases h
  | solvency i atWindow atLatest =>
    simp only [LedgerSystem.step] at h
    split at h
    · rename_i t hi
      split at h
      · rename_i read hkeys hread
        cases h
        exact .solvency atWindow atLatest read hi hkeys
      · cases h
        exact .ended hi rfl
      · cases h
    · cases h
  | commit i =>
    simp only [LedgerSystem.step] at h
    split at h
    · rename_i t hi
      cases h
      exact .commit hi
    · cases h
  | fail i =>
    simp only [LedgerSystem.step] at h
    split at h
    · rename_i p hi
      cases h
      exact .ended hi rfl
    · cases h

end Paymaster
