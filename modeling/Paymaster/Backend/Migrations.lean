import Paymaster.Lib.Pool
import Paymaster.Lib.Run

/-!
# Migrations

Every process applies the migrations that it comes with when it starts. It
takes a lock that belongs to its session, reads what is recorded, compares the
checksums, and applies what is missing: each migration in a transaction with
its record. Any statement may fail, and the session may end at any moment; the
lock goes with the session, and what a transaction did goes unless it was
committed.
-/

namespace Paymaster

structure Migration where
  version : Nat
  name : String
  sql : String
  checksum : String
deriving DecidableEq

structure MigrationRow where
  version : Nat
  name : String
  checksum : String
deriving DecidableEq

def Migration.row (m : Migration) : MigrationRow := ⟨m.version, m.name, m.checksum⟩

def recordOf (found : List MigrationRow) (version : Nat) : Option MigrationRow :=
  found.find? fun row => row.version = version

def verified (migrations : List Migration) (found : List MigrationRow) : Bool :=
  migrations.all fun m => (recordOf found m.version).all fun row => row.checksum = m.checksum

def pendingOf (migrations : List Migration) (found : List MigrationRow) : List Migration :=
  migrations.filter fun m => (recordOf found m.version).isNone

/-- Where a call of `applyMigrations` is. In the loop, `m` is the migration and
`rest` are those after it. -/
inductive MigrationPhase
  | locking
  | locked
  | ensured
  | ready (m : Migration) (rest : List Migration)
  | begun (m : Migration) (rest : List Migration)
  | ran (m : Migration) (rest : List Migration)
  | inserted (m : Migration) (rest : List Migration)
  | rollingBack
  | unlocking
  | finished
deriving DecidableEq

namespace MigrationPhase

def proceed : List Migration → MigrationPhase
  | [] => .unlocking
  | m :: rest => .ready m rest

def inside : MigrationPhase → Bool
  | .locking | .unlocking | .finished => false
  | _ => true

def ahead : MigrationPhase → List Migration
  | .ready m rest | .begun m rest | .ran m rest | .inserted m rest => m :: rest
  | _ => []

end MigrationPhase

/-- A call, on a session that it has to itself. `found` is what was read,
`failed` the migration that threw. -/
structure MigrationCall where
  session : Nat
  migrations : List Migration
  phase : MigrationPhase
  found : Option (List MigrationRow)
  failed : Option Migration
deriving DecidableEq

namespace MigrationCall

variable (c : MigrationCall)

def read (rows : List MigrationRow) : MigrationCall :=
  { c with
    phase := if verified c.migrations rows then .proceed (pendingOf c.migrations rows) else .unlocking
    found := some rows }

/-- The statement that is next fails. A `ROLLBACK` does not while the session lasts. -/
def fail : Option MigrationCall :=
  match c.phase with
  | .locking | .locked | .ensured => some { c with phase := .unlocking }
  | .ready m _ => some { c with phase := .unlocking, failed := some m }
  | .begun m _ | .ran m _ | .inserted m _ => some { c with phase := .rollingBack, failed := some m }
  | .unlocking => some { c with phase := .finished }
  | .rollingBack | .finished => none

end MigrationCall

structure MigrationEffect where
  call : Nat
  migration : Migration
deriving DecidableEq

/-- `lock` are the sessions that hold the lock, as often as they have taken it. -/
structure MigratingDatabase where
  table : Option (List MigrationRow)
  effects : List MigrationEffect
  lock : List Nat
  calls : List MigrationCall

inductive MigrationLabel
  | call (session : Nat) (migrations : List Migration)
  | lock (i : Nat)
  | ensureTable (i : Nat)
  | select (i : Nat)
  | begin (i : Nat)
  | run (i : Nat)
  | insert (i : Nat)
  /-- `COMMIT`, whose answer may be lost. -/
  | commit (i : Nat) (answered : Bool)
  | rollback (i : Nat)
  | unlock (i : Nat)
  | fail (i : Nat)
  /-- The session ends: the process has crashed, or the connection is lost. -/
  | disconnect (session : Nat)
deriving DecidableEq

namespace MigratingDatabase

variable (s : MigratingDatabase)

def empty : MigratingDatabase := ⟨none, [], [], []⟩

def rows : List MigrationRow := s.table.getD []

def appliedBy (i : Nat) : List Migration := (s.effects.filter fun e => e.call = i).map MigrationEffect.migration

def setCall (i : Nat) (c : MigrationCall) : MigratingDatabase := { s with calls := s.calls.set i c }

def inserting (i version : Nat) : Bool :=
  (s.calls.eraseIdx i).any fun c =>
    match c.phase with
    | .inserted m _ => m.version = version
    | _ => false

def insert (i : Nat) (c : MigrationCall) (m : Migration) (rest : List Migration) : Option MigratingDatabase :=
  if s.table = none ∨ (recordOf s.rows m.version).isSome then
    some (s.setCall i { c with phase := .rollingBack, failed := some m })
  else if s.inserting i m.version then none
  else some (s.setCall i { c with phase := .inserted m rest })

def commit (i : Nat) (c : MigrationCall) (m : Migration) (rest : List Migration) (answered : Bool) : MigratingDatabase :=
  { s with
    table := s.table.map (· ++ [m.row])
    effects := s.effects ++ [⟨i, m⟩]
    calls := s.calls.set i
      (if answered then { c with phase := .proceed rest } else { c with phase := .rollingBack, failed := some m }) }

def disconnect (session : Nat) : MigratingDatabase :=
  { s with
    lock := s.lock.filter (· ≠ session)
    calls := s.calls.map fun c => if c.session = session then { c with phase := .finished } else c }

/-- A statement that has to wait is not enabled. -/
def step : MigrationLabel → Option MigratingDatabase
  | .call session migrations =>
    if s.calls.all fun c => c.phase = .finished || c.session ≠ session then
      some { s with calls := s.calls ++ [⟨session, migrations, .locking, none, none⟩] }
    else none
  | .disconnect session => some (s.disconnect session)
  | .lock i =>
    match s.calls[i]? with
    | some c =>
      if c.phase = .locking ∧ s.lock.all (· = c.session) then
        some { s with lock := c.session :: s.lock, calls := s.calls.set i { c with phase := .locked } }
      else none
    | none => none
  | .ensureTable i =>
    match s.calls[i]? with
    | some c =>
      if c.phase = .locked then
        some { s with table := some s.rows, calls := s.calls.set i { c with phase := .ensured } }
      else none
    | none => none
  | .select i =>
    match s.calls[i]?, s.table with
    | some c, some rows => if c.phase = .ensured then some (s.setCall i (c.read rows)) else none
    | _, _ => none
  | .begin i =>
    match s.calls[i]? with
    | some c =>
      match c.phase with
      | .ready m rest => some (s.setCall i { c with phase := .begun m rest })
      | _ => none
    | none => none
  | .run i =>
    match s.calls[i]? with
    | some c =>
      match c.phase with
      | .begun m rest => some (s.setCall i { c with phase := .ran m rest })
      | _ => none
    | none => none
  | .insert i =>
    match s.calls[i]? with
    | some c =>
      match c.phase with
      | .ran m rest => s.insert i c m rest
      | _ => none
    | none => none
  | .commit i answered =>
    match s.calls[i]? with
    | some c =>
      match c.phase with
      | .inserted m rest => some (s.commit i c m rest answered)
      | _ => none
    | none => none
  | .rollback i =>
    match s.calls[i]? with
    | some c => if c.phase = .rollingBack then some (s.setCall i { c with phase := .unlocking }) else none
    | none => none
  | .unlock i =>
    match s.calls[i]? with
    | some c =>
      if c.phase = .unlocking then
        some { s with lock := s.lock.erase c.session, calls := s.calls.set i { c with phase := .finished } }
      else none
    | none => none
  | .fail i =>
    match s.calls[i]? with
    | some c => c.fail.map (s.setCall i)
    | none => none

/-- A version has taken effect exactly if it is recorded, once, and as it was
recorded. A call that found another checksum applies nothing, and one that failed
nothing after the migration that failed. -/
structure MigratedOnce : Prop where
  recorded : ∀ version, version ∈ s.rows.map MigrationRow.version ↔
    version ∈ s.effects.map fun e => e.migration.version
  once : (s.effects.map fun e => e.migration.version).Nodup
  checksum : ∀ row ∈ s.rows, ∃ e ∈ s.effects, e.migration.row = row
  refused : ∀ (i : Nat) (c : MigrationCall) (found : List MigrationRow), s.calls[i]? = some c → c.found = some found →
    (∃ m ∈ c.migrations, ∃ row, recordOf found m.version = some row ∧ row.checksum ≠ m.checksum) → s.appliedBy i = []
  stops : ∀ (i : Nat) (c : MigrationCall) (m : Migration), s.calls[i]? = some c → c.failed = some m →
    ∃ before after, c.migrations = before ++ m :: after ∧ (s.appliedBy i).Sublist (before ++ [m])

end MigratingDatabase

/-! ## What a step can do -/

inductive MigrationStep (s : MigratingDatabase) : MigrationLabel → MigratingDatabase → Prop
  | call (session : Nat) (migrations : List Migration) :
    (∀ c ∈ s.calls, c.phase = .finished ∨ c.session ≠ session) →
    MigrationStep s (.call session migrations)
      { s with calls := s.calls ++ [⟨session, migrations, .locking, none, none⟩] }
  | lock {i : Nat} {c : MigrationCall} :
    s.calls[i]? = some c → c.phase = .locking → (∀ session ∈ s.lock, session = c.session) →
    MigrationStep s (.lock i)
      { s with lock := c.session :: s.lock, calls := s.calls.set i { c with phase := .locked } }
  | ensureTable {i : Nat} {c : MigrationCall} :
    s.calls[i]? = some c → c.phase = .locked →
    MigrationStep s (.ensureTable i)
      { s with table := some s.rows, calls := s.calls.set i { c with phase := .ensured } }
  | select {i : Nat} {c : MigrationCall} {rows : List MigrationRow} :
    s.calls[i]? = some c → s.table = some rows → c.phase = .ensured → MigrationStep s (.select i) (s.setCall i (c.read rows))
  | begin {i : Nat} {c : MigrationCall} {m : Migration} {rest : List Migration} :
    s.calls[i]? = some c → c.phase = .ready m rest →
    MigrationStep s (.begin i) (s.setCall i { c with phase := .begun m rest })
  | run {i : Nat} {c : MigrationCall} {m : Migration} {rest : List Migration} :
    s.calls[i]? = some c → c.phase = .begun m rest → MigrationStep s (.run i) (s.setCall i { c with phase := .ran m rest })
  | insert {i : Nat} {c : MigrationCall} {m : Migration} {rest : List Migration} :
    s.calls[i]? = some c → c.phase = .ran m rest → s.table ≠ none → recordOf s.rows m.version = none →
    MigrationStep s (.insert i) (s.setCall i { c with phase := .inserted m rest })
  | commit {i : Nat} {c : MigrationCall} {m : Migration} {rest : List Migration} (answered : Bool) :
    s.calls[i]? = some c → c.phase = .inserted m rest →
    MigrationStep s (.commit i answered) (s.commit i c m rest answered)
  | rollback {i : Nat} {c : MigrationCall} :
    s.calls[i]? = some c → c.phase = .rollingBack →
    MigrationStep s (.rollback i) (s.setCall i { c with phase := .unlocking })
  | unlock {i : Nat} {c : MigrationCall} :
    s.calls[i]? = some c → c.phase = .unlocking →
    MigrationStep s (.unlock i)
      { s with lock := s.lock.erase c.session, calls := s.calls.set i { c with phase := .finished } }
  /-- A statement fails: of itself, or by the primary key. -/
  | fail {l : MigrationLabel} {i : Nat} {c c' : MigrationCall} :
    s.calls[i]? = some c → c.fail = some c' → MigrationStep s l (s.setCall i c')
  | disconnect (session : Nat) : MigrationStep s (.disconnect session) (s.disconnect session)

theorem migrationStep_cases {s s' : MigratingDatabase} {l : MigrationLabel} (h : s.step l = some s') :
    MigrationStep s l s' := by
  cases l with
  | call session migrations =>
    simp only [MigratingDatabase.step] at h
    split at h
    · rename_i hfree
      cases h
      exact .call session migrations (by simpa using hfree)
    · cases h
  | disconnect session =>
    cases h
    exact .disconnect session
  | lock i =>
    simp only [MigratingDatabase.step] at h
    split at h
    · rename_i c hi
      split at h
      · rename_i hfree
        cases h
        exact .lock hi hfree.1 (by simpa using hfree.2)
      · cases h
    · cases h
  | ensureTable i =>
    simp only [MigratingDatabase.step] at h
    split at h
    · rename_i c hi
      split at h
      · rename_i hphase
        cases h
        exact .ensureTable hi hphase
      · cases h
    · cases h
  | select i =>
    simp only [MigratingDatabase.step] at h
    split at h
    · rename_i c rows hi htable
      split at h
      · rename_i hphase
        cases h
        exact .select hi htable hphase
      · cases h
    · cases h
  | begin i =>
    simp only [MigratingDatabase.step] at h
    split at h
    · rename_i c hi
      split at h
      · rename_i m rest hphase
        cases h
        exact .begin hi hphase
      · cases h
    · cases h
  | run i =>
    simp only [MigratingDatabase.step] at h
    split at h
    · rename_i c hi
      split at h
      · rename_i m rest hphase
        cases h
        exact .run hi hphase
      · cases h
    · cases h
  | insert i =>
    simp only [MigratingDatabase.step] at h
    split at h
    · rename_i c hi
      split at h
      · rename_i m rest hphase
        unfold MigratingDatabase.insert at h
        split at h
        · cases h
          exact .fail hi (by simp [MigrationCall.fail, hphase])
        · rename_i hnew
          split at h
          · cases h
          · cases h
            obtain ⟨htable, hrecord⟩ := not_or.mp hnew
            exact .insert hi hphase htable (by simpa using hrecord)
      · cases h
    · cases h
  | commit i answered =>
    simp only [MigratingDatabase.step] at h
    split at h
    · rename_i c hi
      split at h
      · rename_i m rest hphase
        cases h
        exact .commit answered hi hphase
      · cases h
    · cases h
  | rollback i =>
    simp only [MigratingDatabase.step] at h
    split at h
    · rename_i c hi
      split at h
      · rename_i hphase
        cases h
        exact .rollback hi hphase
      · cases h
    · cases h
  | unlock i =>
    simp only [MigratingDatabase.step] at h
    split at h
    · rename_i c hi
      split at h
      · rename_i hphase
        cases h
        exact .unlock hi hphase
      · cases h
    · cases h
  | fail i =>
    simp only [MigratingDatabase.step] at h
    split at h
    · rename_i c hi
      obtain ⟨c', hfail, rfl⟩ := Option.map_eq_some_iff.mp h
      exact .fail hi hfail
    · cases h

end Paymaster
