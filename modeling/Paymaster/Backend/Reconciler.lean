import Paymaster.Backend.SponsorService

/-!
# The spend reconciler

The sponsor service together with the chain it sponsors on and the reconciler
that trues its counters up. Any number of replicas run `reconcileChain`; each
run is a tick that reads the head and the checkpoint, fetches a window of
events, offers each to `claim`, refunds what was claimed rule by rule, and saves
the checkpoint. It can crash at any point. Reorganisations replace the blocks
that are not yet deep enough.
-/

namespace Paymaster

open Function

/-! ## The chain -/

/-- A `UserOperationEvent` of our paymaster, with the call whose attestation
the operation carried. -/
structure UserOperationEvent where
  chainId : Nat
  blockNumber : Nat
  sender : Address
  nonce : Uint256
  actualGasCostWei : Nat
  success : Bool
  carried : Nat
deriving DecidableEq

structure SpendReconcilerOptions where
  confirmations : Nat
  maxBlockRange : Nat
  initialLookbackBlocks : Nat
  maxBlockRange_pos : 0 < maxBlockRange

def getUserOperationEvents (chain : List UserOperationEvent) (chainId fromBlock toBlock : Nat) :
    List UserOperationEvent :=
  chain.filter fun e => e.chainId = chainId ∧ fromBlock ≤ e.blockNumber ∧ e.blockNumber ≤ toBlock

/-! ## The store -/

def Sponsorship.reconcile (row : Sponsorship) (event : UserOperationEvent) : Sponsorship :=
  { row with reconciled := some ⟨event.actualGasCostWei, event.success⟩ }

def Sponsorship.matches (row : Sponsorship) (chainId : Nat) (sender : Address) (nonce : Uint256) : Bool :=
  row.chainId = chainId ∧ row.sender = sender ∧ row.nonce = nonce ∧ row.reconciled = none

def candidates (rows : List Sponsorship) (locked : List Nat) (chainId : Nat) (sender : Address) (nonce : Uint256) :
    List Nat :=
  (List.range rows.length).filter fun r =>
    (rows[r]?).any (fun row => row.matches chainId sender nonce) && !locked.contains r

/-- `claim`'s choice, `ORDER BY created_at DESC LIMIT 1`: a row created no earlier than any
other candidate, or none if there is no candidate. Ties may go either way. -/
def Chosen (rows : List Sponsorship) (locked : List Nat) (chainId : Nat) (sender : Address) (nonce : Uint256) :
    Option Nat → Prop
  | none => candidates rows locked chainId sender nonce = []
  | some r => r ∈ candidates rows locked chainId sender nonce ∧
      ∀ r' ∈ candidates rows locked chainId sender nonce,
        (rows[r']?).elim 0 Sponsorship.createdAt ≤ (rows[r]?).elim 0 Sponsorship.createdAt

instance (rows : List Sponsorship) (locked : List Nat) (chainId : Nat) (sender : Address) (nonce : Uint256) :
    (r : Option Nat) → Decidable (Chosen rows locked chainId sender nonce r)
  | none => inferInstanceAs (Decidable (_ = _))
  | some _ => inferInstanceAs (Decidable (_ ∧ _))

/-- `EXTRACT(EPOCH FROM created_at)::bigint`: whole seconds, rounded to the nearest. -/
def Sponsorship.reservedAt (row : Sponsorship) : Nat := (row.createdAt + 500000) / 1000000

/-- `saveCheckpoint`, with `GREATEST`. -/
def saveCheckpoint (checkpoint : Option Nat) (block : Nat) : Option Nat :=
  match checkpoint with
  | none => some block
  | some stored => some (max stored block)

/-! ## Ticks -/

structure Window where
  latest : Nat
  checkpoint : Option Nat
  fromBlock : Nat
  toBlock : Nat
deriving DecidableEq

def windowOf (options : SpendReconcilerOptions) (latest : Nat) (checkpoint : Option Nat) : Option Window :=
  let safeHead := latest - options.confirmations
  let fromBlock := match checkpoint with
    | some block => block + 1
    | none => safeHead - options.initialLookbackBlocks
  if safeHead < fromBlock then none
  else some ⟨latest, checkpoint, fromBlock, min safeHead (fromBlock + options.maxBlockRange - 1)⟩

/-- Where a tick is: reading the head; reading the checkpoint; fetching;
offering the events that are left; about to refund the row it claimed for an
event; releasing rule by rule; done. -/
inductive TickPhase
  | reading
  | measured (latest : Nat)
  | fetching (w : Window)
  | offering (w : Window) (events : List UserOperationEvent)
  | claimed (w : Window) (events : List UserOperationEvent) (event : UserOperationEvent) (row : Nat)
  | refunding (w : Window) (events : List UserOperationEvent) (row : Nat) (reservation : SpendTrueUp)
    (rules : List QuotaRule)
  | finished
deriving DecidableEq

def TickPhase.refund (w : Window) (events : List UserOperationEvent) (row : Nat) (reservation : SpendTrueUp) :
    List QuotaRule → TickPhase
  | [] => .offering w events
  | rule :: rules => .refunding w events row reservation (rule :: rules)

structure Tick where
  replica : Nat
  chainId : Nat
  phase : TickPhase
deriving DecidableEq

def reservationOf (chainId : Nat) (event : UserOperationEvent) (row : Sponsorship) : SpendTrueUp where
  chainId := chainId
  sender := event.sender
  apiKeyId := some row.apiKeyId
  reservedMaxCostWei := row.maxCostWei
  actualCostWei := event.actualGasCostWei
  reservedAt := row.reservedAt

/-! ## The machine -/

/-- The whole backend. `origin` keeps the first block of the first window that
was saved for a chain, `fetched` which tick fetched which window, `offers` which
tick offered which event, `claims` the rows in the order they were claimed. -/
structure Backend where
  service : Service
  chain : List UserOperationEvent
  head : Nat → Nat
  checkpoints : Nat → Option Nat
  origin : Nat → Option Nat
  ticks : List Tick
  fetched : List (Nat × Window)
  offers : List (Nat × UserOperationEvent)
  claims : List Nat

inductive BackendLabel
  | sponsor (l : SponsorLabel)
  /-- The chain grows, and blocks that are not deep enough may be replaced. -/
  | advance (chainId newHead : Nat) (events : List UserOperationEvent)
  | reconcile (replica chainId : Nat)
  | latestBlock (k latest : Nat)
  | getCheckpoint (k : Nat)
  | fetch (k : Nat)
  /-- The next event is offered to `claim`, which skips locked rows and returns one or none. -/
  | claim (k : Nat) (locked : List Nat) (row : Option Nat)
  /-- `#refund` looks the policy up. -/
  | lookup (k : Nat)
  /-- The next rule is trued up; its release reaches the store or fails. -/
  | trueUp (k : Nat) (stored : Bool)
  | saveCheckpoint (k : Nat)
  /-- A read or a claim fails, or the replica stops. -/
  | crash (k : Nat)
deriving DecidableEq

namespace Backend

variable (deps : SponsorServiceDeps) (options : SpendReconcilerOptions) (b : Backend)

def setTick (k : Nat) (t : Tick) (phase : TickPhase) : Backend :=
  { b with ticks := b.ticks.set k { t with phase := phase } }

def settled (e : UserOperationEvent) : Bool := e.blockNumber + options.confirmations ≤ b.head e.chainId

def advance (chainId newHead : Nat) (events : List UserOperationEvent) : Backend :=
  { b with
    chain := b.chain.filter (fun e => e.chainId ≠ chainId ∨ b.settled options e) ++ events
    head := update b.head chainId newHead }

/-- New blocks replace unsettled ones only, up to the new head. -/
def Grows (chainId newHead : Nat) (events : List UserOperationEvent) : Prop :=
  b.head chainId ≤ newHead ∧ ∀ e ∈ events, e.chainId = chainId ∧
    b.head chainId < e.blockNumber + options.confirmations ∧ e.blockNumber ≤ newHead

instance (chainId newHead : Nat) (events : List UserOperationEvent) : Decidable (b.Grows options chainId newHead events) :=
  inferInstanceAs (Decidable (_ ∧ _))

def fetch (k : Nat) (t : Tick) (w : Window) : Backend :=
  { b.setTick k t (.offering w (getUserOperationEvents b.chain t.chainId w.fromBlock w.toBlock)) with
    fetched := (k, w) :: b.fetched }

def claim (k : Nat) (t : Tick) (w : Window) (event : UserOperationEvent) (events : List UserOperationEvent) :
    Option Nat → Backend
  | none => { b.setTick k t (.offering w events) with offers := (k, event) :: b.offers }
  | some r =>
    match b.service.rows[r]? with
    | none => b
    | some row =>
      { b.setTick k t (.claimed w events event r) with
        service := { b.service with rows := b.service.rows.set r (row.reconcile event) }
        offers := (k, event) :: b.offers
        claims := r :: b.claims }

def noteRefund (service : Service) (row : Sponsorship) (target : Option (String × Nat)) : List SponsorCall :=
  match target, service.calls[row.issuedBy]? with
  | some (slot, amount), some c => service.calls.set row.issuedBy { c with history := .refunded slot amount :: c.history }
  | _, _ => service.calls

def trueUp (k : Nat) (t : Tick) (w : Window) (events : List UserOperationEvent) (r : Nat) (row : Sponsorship)
    (reservation : SpendTrueUp) (rule : QuotaRule) (rules : List QuotaRule) (stored : Bool) : Backend :=
  let b' := b.setTick k t (.refund w events r reservation rules)
  if stored then
    { b' with service := { b.service with
        counters := rule.trueUp b.service.counters reservation
        calls := noteRefund b.service row (rule.trueUpTarget reservation) } }
  else b'

def save (k : Nat) (t : Tick) (w : Window) : Backend :=
  { b.setTick k t .finished with
    checkpoints := update b.checkpoints t.chainId (saveCheckpoint (b.checkpoints t.chainId) w.toBlock)
    origin := update b.origin t.chainId ((b.origin t.chainId).or (some w.fromBlock)) }

def step : BackendLabel → Option Backend
  | .sponsor l => (b.service.step deps l).map fun service => { b with service := service }
  | .advance chainId newHead events =>
    if b.Grows options chainId newHead events then some (b.advance options chainId newHead events) else none
  | .reconcile replica chainId => some { b with ticks := b.ticks ++ [⟨replica, chainId, .reading⟩] }
  | .latestBlock k latest =>
    match b.ticks[k]? with
    | some t =>
      match t.phase with
      | .reading =>
        if latest ≤ b.head t.chainId then
          some (b.setTick k t (if latest < options.confirmations then .finished else .measured latest))
        else none
      | _ => none
    | none => none
  | .getCheckpoint k =>
    match b.ticks[k]? with
    | some t =>
      match t.phase with
      | .measured latest =>
        match windowOf options latest (b.checkpoints t.chainId) with
        | none => some (b.setTick k t .finished)
        | some w => some (b.setTick k t (.fetching w))
      | _ => none
    | none => none
  | .fetch k =>
    match b.ticks[k]? with
    | some t =>
      match t.phase with
      | .fetching w => some (b.fetch k t w)
      | _ => none
    | none => none
  | .claim k locked row =>
    match b.ticks[k]? with
    | some t =>
      match t.phase with
      | .offering w (event :: events) =>
        if Chosen b.service.rows locked t.chainId event.sender event.nonce row then
          some (b.claim k t w event events row)
        else none
      | _ => none
    | none => none
  | .lookup k =>
    match b.ticks[k]? with
    | some t =>
      match t.phase with
      | .claimed w events event r =>
        match b.service.rows[r]? with
        | none => none
        | some row =>
          match (b.service.policies t.replica).get row.tenantId row.policyId with
          | none => some (b.setTick k t (.offering w events))
          | some policy =>
            some (b.setTick k t (.refund w events r (reservationOf t.chainId event row) (reservingOf policy.rules)))
      | _ => none
    | none => none
  | .trueUp k stored =>
    match b.ticks[k]? with
    | some t =>
      match t.phase with
      | .refunding w events r reservation (rule :: rules) =>
        (b.service.rows[r]?).map fun row => b.trueUp k t w events r row reservation rule rules stored
      | _ => none
    | none => none
  | .saveCheckpoint k =>
    match b.ticks[k]? with
    | some t =>
      match t.phase with
      | .offering w [] => some (b.save k t w)
      | _ => none
    | none => none
  | .crash k => (b.ticks[k]?).map fun t => b.setTick k t .finished

end Backend

/-! ## What a claim chooses -/

theorem mem_candidates {rows : List Sponsorship} {locked : List Nat} {chainId : Nat} {sender : Address}
    {nonce : Uint256} {r : Nat} :
    r ∈ candidates rows locked chainId sender nonce ↔
      ∃ row, rows[r]? = some row ∧ row.matches chainId sender nonce = true ∧ r ∉ locked := by
  unfold candidates
  rw [List.mem_filter, List.mem_range, Bool.and_eq_true, Option.any_eq_true]
  constructor
  · rintro ⟨-, ⟨row, hr, hm⟩, hl⟩
    exact ⟨row, hr, hm, by simpa using hl⟩
  · rintro ⟨row, hr, hm, hl⟩
    exact ⟨(List.getElem?_eq_some_iff.mp hr).1, ⟨row, hr, hm⟩, by simpa using hl⟩

/-! ## What a step can do -/

inductive BackendStep (deps : SponsorServiceDeps) (options : SpendReconcilerOptions) (b : Backend) :
    BackendLabel → Backend → Prop
  | sponsor {l : SponsorLabel} {s : Service} : SponsorStep deps b.service l s →
    BackendStep deps options b (.sponsor l) { b with service := s }
  | advance {chainId newHead : Nat} {events : List UserOperationEvent} : b.Grows options chainId newHead events →
    BackendStep deps options b (.advance chainId newHead events) (b.advance options chainId newHead events)
  | reconcile (replica chainId : Nat) :
    BackendStep deps options b (.reconcile replica chainId)
      { b with ticks := b.ticks ++ [⟨replica, chainId, .reading⟩] }
  | measured {k latest : Nat} {t : Tick} : b.ticks[k]? = some t → t.phase = .reading → latest ≤ b.head t.chainId →
    options.confirmations ≤ latest →
    BackendStep deps options b (.latestBlock k latest) (b.setTick k t (.measured latest))
  | fetching {k latest : Nat} {t : Tick} {w : Window} : b.ticks[k]? = some t → t.phase = .measured latest →
    windowOf options latest (b.checkpoints t.chainId) = some w →
    BackendStep deps options b (.getCheckpoint k) (b.setTick k t (.fetching w))
  | fetched {k : Nat} {t : Tick} {w : Window} : b.ticks[k]? = some t → t.phase = .fetching w →
    BackendStep deps options b (.fetch k) (b.fetch k t w)
  | unclaimed {k : Nat} {locked : List Nat} {t : Tick} {w : Window} {event : UserOperationEvent}
    {events : List UserOperationEvent} : b.ticks[k]? = some t → t.phase = .offering w (event :: events) →
    BackendStep deps options b (.claim k locked none) (b.claim k t w event events none)
  | claimed {k r : Nat} {locked : List Nat} {t : Tick} {w : Window} {event : UserOperationEvent}
    {events : List UserOperationEvent} {row : Sponsorship} : b.ticks[k]? = some t →
    t.phase = .offering w (event :: events) → b.service.rows[r]? = some row →
    Chosen b.service.rows locked t.chainId event.sender event.nonce (some r) →
    BackendStep deps options b (.claim k locked (some r)) (b.claim k t w event events (some r))
  /-- The policy is no longer loaded, and the refund is skipped. -/
  | skipped {k r : Nat} {t : Tick} {w : Window} {event : UserOperationEvent} {events : List UserOperationEvent} :
    b.ticks[k]? = some t → t.phase = .claimed w events event r →
    BackendStep deps options b (.lookup k) (b.setTick k t (.offering w events))
  | lookup {k r : Nat} {t : Tick} {w : Window} {event : UserOperationEvent} {events : List UserOperationEvent}
    {row : Sponsorship} {policy : Policy} : b.ticks[k]? = some t → t.phase = .claimed w events event r →
    b.service.rows[r]? = some row → (b.service.policies t.replica).get row.tenantId row.policyId = some policy →
    BackendStep deps options b (.lookup k)
      (b.setTick k t (.refund w events r (reservationOf t.chainId event row) (reservingOf policy.rules)))
  | trueUp {k r : Nat} {t : Tick} {w : Window} {events : List UserOperationEvent} {row : Sponsorship}
    {reservation : SpendTrueUp} {rule : QuotaRule} {rules : List QuotaRule} (stored : Bool) :
    b.ticks[k]? = some t → t.phase = .refunding w events r reservation (rule :: rules) →
    b.service.rows[r]? = some row →
    BackendStep deps options b (.trueUp k stored) (b.trueUp k t w events r row reservation rule rules stored)
  | saved {k : Nat} {t : Tick} {w : Window} : b.ticks[k]? = some t → t.phase = .offering w [] →
    BackendStep deps options b (.saveCheckpoint k) (b.save k t w)
  /-- Nothing to scan, or a crash. -/
  | finished {k : Nat} {t : Tick} (l : BackendLabel) : b.ticks[k]? = some t →
    (∃ latest, l = .latestBlock k latest) ∨ l = .getCheckpoint k ∨ l = .crash k →
    BackendStep deps options b l (b.setTick k t .finished)

theorem backendStep_cases {deps : SponsorServiceDeps} {options : SpendReconcilerOptions} {b b' : Backend}
    {l : BackendLabel} (h : b.step deps options l = some b') : BackendStep deps options b l b' := by
  cases l with
  | sponsor l =>
    obtain ⟨s, hs, rfl⟩ := Option.map_eq_some_iff.mp h
    exact .sponsor (sponsorStep_cases hs)
  | advance chainId newHead events =>
    simp only [Backend.step] at h
    split at h
    · rename_i hg
      cases h; exact .advance hg
    · cases h
  | reconcile replica chainId => cases h; exact .reconcile replica chainId
  | latestBlock k latest =>
    simp only [Backend.step] at h
    split at h
    · rename_i t ht
      split at h
      · rename_i hp
        split at h
        · rename_i hle
          cases h
          split
          · exact .finished _ ht (.inl ⟨latest, rfl⟩)
          · rename_i hconf
            exact .measured ht hp hle (Nat.le_of_not_lt hconf)
        · cases h
      · cases h
    · cases h
  | getCheckpoint k =>
    simp only [Backend.step] at h
    split at h
    · rename_i t ht
      split at h
      · rename_i hp
        split at h
        · cases h; exact .finished _ ht (.inr (.inl rfl))
        · rename_i w hw
          cases h; exact .fetching ht hp hw
      · cases h
    · cases h
  | fetch k =>
    simp only [Backend.step] at h
    split at h
    · rename_i t ht
      split at h
      · rename_i hp
        cases h; exact .fetched ht hp
      · cases h
    · cases h
  | claim k locked row =>
    simp only [Backend.step] at h
    split at h
    · rename_i t ht
      split at h
      · rename_i hp
        split at h
        · rename_i hc
          cases h
          cases row with
          | none => exact .unclaimed ht hp
          | some r =>
            have hr : r < b.service.rows.length := by
              have hm := (List.mem_filter.mp hc.1).1
              exact List.mem_range.mp hm
            exact .claimed ht hp (List.getElem?_eq_getElem hr) hc
        · cases h
      · cases h
    · cases h
  | lookup k =>
    simp only [Backend.step] at h
    split at h
    · rename_i t ht
      split at h
      · rename_i hp
        split at h
        · cases h
        · rename_i row hr
          split at h
          · cases h; exact .skipped ht hp
          · rename_i policy hpol
            cases h; exact .lookup ht hp hr hpol
      · cases h
    · cases h
  | trueUp k stored =>
    simp only [Backend.step] at h
    split at h
    · rename_i t ht
      split at h
      · rename_i hp
        obtain ⟨row, hr, rfl⟩ := Option.map_eq_some_iff.mp h
        exact .trueUp stored ht hp hr
      · cases h
    · cases h
  | saveCheckpoint k =>
    simp only [Backend.step] at h
    split at h
    · rename_i t ht
      split at h
      · rename_i hp
        cases h; exact .saved ht hp
      · cases h
    · cases h
  | crash k =>
    obtain ⟨t, ht, rfl⟩ := Option.map_eq_some_iff.mp h
    exact .finished _ ht (.inr (.inr rfl))

def Backend.start (policies : Nat → PolicySource) (counters : Counters) : Backend :=
  ⟨.start policies counters, [], fun _ => 0, fun _ => none, fun _ => none, [], [], [], []⟩

end Paymaster
