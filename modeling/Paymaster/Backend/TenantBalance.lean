import Paymaster.Lib.Pool
import Paymaster.Lib.Run
import Paymaster.Lib.Separator

/-!
# Tenant balances

What a tenant has left on a chain is read from the chain and reused for a while.
The reading counts from when it was asked for; an entry can be dropped, and a
read that was under way then still writes what it has seen.
-/

namespace Paymaster.Balance

open Function

structure ChainEntry where
  enabled : Bool
  tenantKind : Bool

inductive ChainRefusal
  | unknownChain
  | chainDisabled
  | otherKind
deriving DecidableEq

/-- `chain` is what the contract of a chain has for a tenant, at every moment;
`perMs` of the moments are one millisecond of the clock. -/
structure ReaderDeps where
  ttlMs : Nat
  perMs : Nat
  chains : Nat → Option ChainEntry
  chain : Nat → Nat → String → Nat

def cacheKey (chainId : Nat) (tenant : String) : String := toString chainId ++ String.singleton '\x00' ++ tenant

def ReaderDeps.refusal (deps : ReaderDeps) (chainId : Nat) : Option ChainRefusal :=
  match deps.chains chainId with
  | none => some .unknownChain
  | some entry => if !entry.enabled then some .chainDisabled else if !entry.tenantKind then some .otherKind else none

structure CacheEntry where
  balance : Nat
  readAt : Nat
deriving DecidableEq

inductive Reading
  | asking
  | observed (balance : Nat)
  | answered (balance time : Nat)
  | refused (reason : ChainRefusal)
  | failed
deriving DecidableEq

structure BalanceCall where
  chainId : Nat
  tenant : String
  asked : Nat
  readAt : Nat
  reading : Reading

structure TenantBalanceReader where
  now : Nat
  cache : String → Option CacheEntry
  calls : List BalanceCall

inductive ReaderLabel
  | balanceOf (chainId : Nat) (tenant : String)
  /-- The node looks at the contract. -/
  | observe (i : Nat)
  | finish (i : Nat)
  | fail (i : Nat)
  | invalidate (chainId : Nat) (tenant : String)
  | wait (moments : Nat)

def BalanceCall.asking (call : BalanceCall) : Bool := match call.reading with
  | .asking => true
  | .observed _ => true
  | _ => false

namespace TenantBalanceReader

def init : TenantBalanceReader := ⟨0, fun _ => none, []⟩

variable (deps : ReaderDeps) (s : TenantBalanceReader)

def nowMs : Nat := s.now / deps.perMs

def answer (chainId : Nat) (tenant : String) (reading : Reading) : TenantBalanceReader :=
  { s with calls := s.calls ++ [⟨chainId, tenant, s.now, s.nowMs deps, reading⟩] }

def ask (chainId : Nat) (tenant : String) : TenantBalanceReader :=
  match deps.refusal chainId with
  | some reason => s.answer deps chainId tenant (.refused reason)
  | none => s.answer deps chainId tenant .asking

def balanceOf (chainId : Nat) (tenant : String) : TenantBalanceReader :=
  match s.cache (cacheKey chainId tenant) with
  | some cached =>
    if s.nowMs deps < cached.readAt + deps.ttlMs then s.answer deps chainId tenant (.answered cached.balance s.now)
    else s.ask deps chainId tenant
  | none => s.ask deps chainId tenant

def invalidate (chainId : Nat) (tenant : String) : TenantBalanceReader :=
  { s with cache := update s.cache (cacheKey chainId tenant) none }

def step : ReaderLabel → Option TenantBalanceReader
  | .balanceOf chainId tenant => some (s.balanceOf deps chainId tenant)
  | .observe i =>
    match s.calls[i]? with
    | some call =>
      if call.reading = .asking then
        some { s with
          calls := s.calls.set i { call with reading := .observed (deps.chain s.now call.chainId call.tenant) } }
      else none
    | none => none
  | .finish i =>
    match s.calls[i]? with
    | some call =>
      match call.reading with
      | .observed balance =>
        some { s with
          cache := update s.cache (cacheKey call.chainId call.tenant) (some ⟨balance, call.readAt⟩)
          calls := s.calls.set i { call with reading := .answered balance s.now } }
      | _ => none
    | none => none
  | .fail i =>
    match s.calls[i]? with
    | some call => if call.asking then some { s with calls := s.calls.set i { call with reading := .failed } } else none
    | none => none
  | .invalidate chainId tenant => some (s.invalidate chainId tenant)
  | .wait moments => some { s with now := s.now + moments }

end TenantBalanceReader

inductive ReaderStep (deps : ReaderDeps) (s : TenantBalanceReader) : ReaderLabel → TenantBalanceReader → Prop
  | hit {chainId : Nat} {tenant : String} {cached : CacheEntry}
      (hcached : s.cache (cacheKey chainId tenant) = some cached)
      (hfresh : s.nowMs deps < cached.readAt + deps.ttlMs) :
      ReaderStep deps s (.balanceOf chainId tenant) (s.answer deps chainId tenant (.answered cached.balance s.now))
  | refuse {chainId : Nat} {tenant : String} {reason : ChainRefusal} :
      ReaderStep deps s (.balanceOf chainId tenant) (s.answer deps chainId tenant (.refused reason))
  | ask {chainId : Nat} {tenant : String} :
      ReaderStep deps s (.balanceOf chainId tenant) (s.answer deps chainId tenant .asking)
  | observe {i : Nat} {call : BalanceCall} (hcall : s.calls[i]? = some call) (hreading : call.reading = .asking) :
      ReaderStep deps s (.observe i)
        { s with calls := s.calls.set i { call with reading := .observed (deps.chain s.now call.chainId call.tenant) } }
  | finish {i balance : Nat} {call : BalanceCall} (hcall : s.calls[i]? = some call)
      (hreading : call.reading = .observed balance) :
      ReaderStep deps s (.finish i)
        { s with
          cache := update s.cache (cacheKey call.chainId call.tenant) (some ⟨balance, call.readAt⟩)
          calls := s.calls.set i { call with reading := .answered balance s.now } }
  | fail {i : Nat} {call : BalanceCall} (hcall : s.calls[i]? = some call) :
      ReaderStep deps s (.fail i) { s with calls := s.calls.set i { call with reading := .failed } }
  | invalidate {chainId : Nat} {tenant : String} :
      ReaderStep deps s (.invalidate chainId tenant) (s.invalidate chainId tenant)
  | wait {moments : Nat} : ReaderStep deps s (.wait moments) { s with now := s.now + moments }

section
variable {deps : ReaderDeps} {s s' t : TenantBalanceReader} {l : ReaderLabel} {ls ls' : List ReaderLabel}
  {chainId : Nat} {tenant : String} {call : BalanceCall} {i balance : Nat}

open TenantBalanceReader

theorem ask_cases (chainId : Nat) (tenant : String) : ReaderStep deps s (.balanceOf chainId tenant) (s.ask deps chainId tenant) := by
  unfold ask
  split
  · exact .refuse
  · exact .ask

theorem readerStep_cases (h : s.step deps l = some s') : ReaderStep deps s l s' := by
  cases l with
  | balanceOf chainId tenant =>
    cases h
    unfold balanceOf
    split
    · rename_i cached hcached
      by_cases hfresh : s.nowMs deps < cached.readAt + deps.ttlMs
      · rw [if_pos hfresh]
        exact .hit hcached hfresh
      · rw [if_neg hfresh]
        exact ask_cases chainId tenant
    · exact ask_cases chainId tenant
  | observe i =>
    simp only [TenantBalanceReader.step] at h
    split at h
    · rename_i call hcall
      by_cases hreading : call.reading = .asking
      · rw [if_pos hreading] at h
        cases h
        exact .observe hcall hreading
      · rw [if_neg hreading] at h
        cases h
    · cases h
  | finish i =>
    simp only [TenantBalanceReader.step] at h
    split at h
    · rename_i call hcall
      split at h
      · rename_i balance hreading
        cases h
        exact .finish hcall hreading
      · cases h
    · cases h
  | fail i =>
    simp only [TenantBalanceReader.step] at h
    split at h
    · rename_i call hcall
      by_cases hasking : call.asking = true
      · rw [if_pos hasking] at h
        cases h
        exact .fail hcall
      · rw [if_neg hasking] at h
        cases h
    · cases h
  | invalidate chainId tenant =>
    cases h
    exact .invalidate
  | wait moments =>
    cases h
    exact .wait

theorem zero_notMem_toString (n : Nat) : '\x00' ∉ (toString n).toList := by
  intro hmem
  have hdigit : Char.isDigit '\x00' = true :=
    Nat.isDigit_of_mem_toDigits (b := 10) (n := n) (by decide) (by decide) (by simpa using hmem)
  revert hdigit
  decide

/-- The entries of two tenants, or of a tenant on two chains, are not the same. -/
theorem cacheKey_inj {chainId' : Nat} {tenant' : String} (h : cacheKey chainId tenant = cacheKey chainId' tenant') :
    chainId = chainId' ∧ tenant = tenant' := by
  obtain ⟨hchain, htenant⟩ := Separator.strings_first (zero_notMem_toString _) (zero_notMem_toString _) h
  exact ⟨Nat.repr_inj.mp hchain, htenant⟩

end

/-! ## Readings -/

/-- A balance that the contract had, at a moment from `floor` on: after the call
that it answers, or less than the time to live before. -/
def BalanceCall.Recent (deps : ReaderDeps) (call : BalanceCall) (floor balance time : Nat) : Prop :=
  ∃ moment, floor ≤ moment ∧ moment ≤ time ∧ (call.asked ≤ moment ∨ call.asked < moment + deps.ttlMs * deps.perMs) ∧
    balance = deps.chain moment call.chainId call.tenant

/-- A call that reads the chain was made between two moments, and its reading counts from then. -/
structure BalanceCall.Between (deps : ReaderDeps) (call : BalanceCall) (floor now : Nat) : Prop where
  since : floor ≤ call.asked
  upTo : call.asked ≤ now
  readAt : call.readAt * deps.perMs ≤ call.asked

def BalanceCall.Kept (deps : ReaderDeps) (floor n now i : Nat) (call : BalanceCall) : Prop :=
  match call.reading with
  | .asking => call.Between deps floor now
  | .observed balance => call.Between deps floor now ∧
      ∃ moment, call.asked ≤ moment ∧ moment ≤ now ∧ balance = deps.chain moment call.chainId call.tenant
  | .answered balance time => n ≤ i → call.Recent deps floor balance time
  | .refused _ => True
  | .failed => True

def CacheEntry.Kept (deps : ReaderDeps) (chainId : Nat) (tenant : String) (floor now : Nat) (cached : CacheEntry) : Prop :=
  ∃ moment, floor ≤ moment ∧ moment ≤ now ∧ cached.readAt * deps.perMs ≤ moment ∧
    cached.balance = deps.chain moment chainId tenant

structure KeepsFresh (deps : ReaderDeps) (chainId : Nat) (tenant : String) (floor n : Nat) (s : TenantBalanceReader) :
    Prop where
  past : floor ≤ s.now
  entry : ∀ cached ∈ s.cache (cacheKey chainId tenant), cached.Kept deps chainId tenant floor s.now
  calls : ∀ (i : Nat) (call : BalanceCall), s.calls[i]? = some call → call.chainId = chainId → call.tenant = tenant → call.Kept deps floor n s.now i

section
variable {deps : ReaderDeps} {s s' t : TenantBalanceReader} {l : ReaderLabel} {ls ls' : List ReaderLabel}
  {chainId : Nat} {tenant : String} {call : BalanceCall} {i n floor now now' balance : Nat}

open TenantBalanceReader

theorem callKept_later (h : call.Kept deps floor n now i) (hle : now ≤ now') : call.Kept deps floor n now' i := by
  unfold BalanceCall.Kept at h ⊢
  split
  · rename_i hreading
    rw [hreading] at h
    exact ⟨h.since, h.upTo.trans hle, h.readAt⟩
  · rename_i hreading
    rw [hreading] at h
    obtain ⟨hbetween, moment, hasked, hmoment, hbalance⟩ := h
    exact ⟨⟨hbetween.since, hbetween.upTo.trans hle, hbetween.readAt⟩, moment, hasked, hmoment.trans hle, hbalance⟩
  · rename_i hreading
    rwa [hreading] at h
  · trivial
  · trivial

theorem keepsFresh_answer {chainId' : Nat} {tenant' : String} {reading : Reading}
    (hs : KeepsFresh deps chainId tenant floor n s)
    (hcall : chainId' = chainId → tenant' = tenant →
      (⟨chainId', tenant', s.now, s.nowMs deps, reading⟩ : BalanceCall).Kept deps floor n s.now s.calls.length) :
    KeepsFresh deps chainId tenant floor n (s.answer deps chainId' tenant' reading) := by
  refine ⟨hs.past, hs.entry, ?_⟩
  intro i call hmem hchain htenant
  rcases Pool.getElem?_append_cases hmem with ⟨rfl, rfl⟩ | hold
  · exact hcall hchain htenant
  · exact hs.calls i call hold hchain htenant

theorem keepsFresh_set (hs : KeepsFresh deps chainId tenant floor n s) {reading : Reading}
    (hcall : call.chainId = chainId → call.tenant = tenant →
      ({ call with reading := reading } : BalanceCall).Kept deps floor n s.now i) :
    KeepsFresh deps chainId tenant floor n { s with calls := s.calls.set i { call with reading := reading } } := by
  refine ⟨hs.past, hs.entry, ?_⟩
  intro j other hmem hchain htenant
  rcases Pool.getElem?_set_cases hmem with ⟨rfl, rfl⟩ | ⟨-, hold⟩
  · exact hcall hchain htenant
  · exact hs.calls j other hold hchain htenant

/-- A cached balance is still within its time to live when it is used. -/
theorem recent_of_hit {cached : CacheEntry} (hper : 0 < deps.perMs) (hkept : cached.Kept deps chainId tenant floor s.now)
    (hfresh : s.nowMs deps < cached.readAt + deps.ttlMs) :
    (⟨chainId, tenant, s.now, s.nowMs deps, .answered cached.balance s.now⟩ : BalanceCall).Recent deps floor
      cached.balance s.now := by
  obtain ⟨moment, hfloor, hmoment, hreadAt, hbalance⟩ := hkept
  have hnow : s.now < (cached.readAt + deps.ttlMs) * deps.perMs := by
    rw [← Nat.div_lt_iff_lt_mul hper]
    exact hfresh
  rw [Nat.add_mul] at hnow
  exact ⟨moment, hfloor, hmoment, .inr (by show s.now < _; omega), hbalance⟩

theorem keepsFresh_step (hper : 0 < deps.perMs) (hs : KeepsFresh deps chainId tenant floor n s)
    (h : s.step deps l = some s') : KeepsFresh deps chainId tenant floor n s' := by
  cases readerStep_cases h with
  | hit hcached hfresh =>
    apply keepsFresh_answer hs
    intro hchain htenant _
    subst hchain htenant
    exact recent_of_hit hper (hs.entry _ hcached) hfresh
  | refuse => exact keepsFresh_answer hs fun _ _ => trivial
  | ask =>
    apply keepsFresh_answer hs
    intro _ _
    exact ⟨hs.past, Nat.le_refl _, Nat.div_mul_le_self _ _⟩
  | @observe i call hcall hreading =>
    apply keepsFresh_set hs
    intro hchain htenant
    have hkept := hs.calls i call hcall hchain htenant
    unfold BalanceCall.Kept at hkept
    rw [hreading] at hkept
    exact ⟨⟨hkept.since, hkept.upTo, hkept.readAt⟩, s.now, hkept.upTo, Nat.le_refl _, rfl⟩
  | @finish i balance call hcall hreading =>
    have hobserved : call.chainId = chainId → call.tenant = tenant → call.Between deps floor s.now ∧
        ∃ moment, call.asked ≤ moment ∧ moment ≤ s.now ∧ balance = deps.chain moment call.chainId call.tenant := by
      intro hchain htenant
      have hkept := hs.calls i call hcall hchain htenant
      unfold BalanceCall.Kept at hkept
      rwa [hreading] at hkept
    have hset : KeepsFresh deps chainId tenant floor n
        { s with calls := s.calls.set i { call with reading := .answered balance s.now } } := by
      apply keepsFresh_set hs
      intro hchain htenant _
      obtain ⟨hbetween, moment, hasked, hmoment, hbalance⟩ := hobserved hchain htenant
      exact ⟨moment, hbetween.since.trans hasked, hmoment, .inl hasked, hbalance⟩
    refine ⟨hset.past, ?_, hset.calls⟩
    intro cached hcached
    change update s.cache _ _ (cacheKey chainId tenant) = some cached at hcached
    by_cases hkey : cacheKey chainId tenant = cacheKey call.chainId call.tenant
    · obtain ⟨hchain, htenant⟩ := cacheKey_inj hkey
      obtain ⟨hbetween, moment, hasked, hmoment, hbalance⟩ := hobserved hchain.symm htenant.symm
      rw [hkey, update_self, Option.some.injEq] at hcached
      subst hcached hchain htenant
      exact ⟨moment, hbetween.since.trans hasked, hmoment, hbetween.readAt.trans hasked, hbalance⟩
    · rw [update_of_ne hkey] at hcached
      exact hs.entry cached hcached
  | fail hcall => exact keepsFresh_set hs fun _ _ => trivial
  | @invalidate chainId' tenant' =>
    refine ⟨hs.past, ?_, hs.calls⟩
    intro cached hcached
    change update s.cache _ _ (cacheKey chainId tenant) = some cached at hcached
    by_cases hkey : cacheKey chainId tenant = cacheKey chainId' tenant'
    · rw [hkey, update_self] at hcached
      cases hcached
    · rw [update_of_ne hkey] at hcached
      exact hs.entry cached hcached
  | @wait moments =>
    have hle : s.now ≤ s.now + moments := Nat.le_add_right _ _
    refine ⟨hs.past.trans hle, ?_, ?_⟩
    · intro cached hcached
      obtain ⟨moment, hfloor, hmoment, hrest⟩ := hs.entry cached hcached
      exact ⟨moment, hfloor, hmoment.trans hle, hrest⟩
    · intro i call hcall hchain htenant
      exact callKept_later (hs.calls i call hcall hchain htenant) hle

theorem keepsFresh_init : KeepsFresh deps chainId tenant 0 0 .init := by
  refine ⟨Nat.le_refl 0, ?_, ?_⟩
  · intro cached hcached
    cases hcached
  · intro i call hcall
    simp [TenantBalanceReader.init] at hcall

/-- Dropping the entry leaves nothing from before, unless a read is under way. -/
theorem keepsFresh_invalidate
    (hidle : ∀ call ∈ s.calls, call.chainId = chainId → call.tenant = tenant → call.asking = false) :
    KeepsFresh deps chainId tenant s.now s.calls.length (s.invalidate chainId tenant) := by
  refine ⟨Nat.le_refl _, ?_, ?_⟩
  · intro cached hcached
    change update s.cache _ _ (cacheKey chainId tenant) = some cached at hcached
    rw [update_self] at hcached
    cases hcached
  · intro i call hcall hchain htenant
    have hnot := hidle call (List.mem_of_getElem? hcall) hchain htenant
    have hlt := Pool.lt_of_getElem? hcall
    unfold BalanceCall.Kept
    cases hreading : call.reading with
    | asking => simp [BalanceCall.asking, hreading] at hnot
    | observed balance => simp [BalanceCall.asking, hreading] at hnot
    | answered balance time =>
      intro hle
      exact absurd hlt (Nat.not_lt.mpr hle)
    | refused reason => trivial
    | failed => trivial

theorem recent_of_answered {time : Nat} (hs : KeepsFresh deps chainId tenant floor n s) (hcall : s.calls[i]? = some call)
    (hchain : call.chainId = chainId) (htenant : call.tenant = tenant) (hreading : call.reading = .answered balance time)
    (hn : n ≤ i) : call.Recent deps floor balance time := by
  have hkept := hs.calls i call hcall hchain htenant
  unfold BalanceCall.Kept at hkept
  rw [hreading] at hkept
  exact hkept hn

/-- Every answer is a balance that the contract has had since the call, or within the time to live before. -/
theorem answers_recent {time : Nat} (hper : 0 < deps.perMs) (hrun : Runs.run (TenantBalanceReader.step deps) .init ls = some s)
    (hcall : s.calls[i]? = some call) (hreading : call.reading = .answered balance time) :
    call.Recent deps 0 balance time :=
  recent_of_answered (Runs.invariant (fun hs h => keepsFresh_step hper hs h) keepsFresh_init hrun) hcall rfl rfl hreading
    (Nat.zero_le i)

/-- What is answered after the entry was dropped is from after that, unless a read was under way. -/
theorem answers_after_invalidate {time : Nat} (hper : 0 < deps.perMs)
    (hidle : ∀ call ∈ s.calls, call.chainId = chainId → call.tenant = tenant → call.asking = false)
    (hafter : Runs.run (TenantBalanceReader.step deps) (s.invalidate chainId tenant) ls' = some t) (hi : s.calls.length ≤ i)
    (hcall : t.calls[i]? = some call) (hchain : call.chainId = chainId) (htenant : call.tenant = tenant)
    (hreading : call.reading = .answered balance time) : call.Recent deps s.now balance time :=
  recent_of_answered (Runs.invariant (fun hs h => keepsFresh_step hper hs h) (keepsFresh_invalidate hidle) hafter) hcall
    hchain htenant hreading hi

def clockDeps : ReaderDeps := ⟨3000, 1, fun _ => some ⟨true, true⟩, fun moment _ _ => moment⟩

def fourSeconds : List ReaderLabel :=
  [.wait 5, .balanceOf 1 "acme", .wait 1, .observe 0, .finish 0, .wait 2000, .balanceOf 1 "acme"]

theorem answers_recent_cached :
    (⟨1, "acme", 2006, 2006, .answered 6 2006⟩ : BalanceCall).Recent clockDeps 0 6 2006 := by
  have hrun : (Runs.run (TenantBalanceReader.step clockDeps) .init fourSeconds).bind (fun s =>
      s.calls[1]?.map fun call => (call.chainId, call.tenant, call.asked, call.readAt, call.reading)) =
        some (1, "acme", 2006, 2006, .answered 6 2006) := by
    decide +kernel
  obtain ⟨s, hs, hcall⟩ := Option.bind_eq_some_iff.mp hrun
  obtain ⟨call, hcall, hfields⟩ := Option.map_eq_some_iff.mp hcall
  obtain ⟨chainId, tenant, asked, readAt, reading⟩ := call
  simp only [Prod.mk.injEq] at hfields
  obtain ⟨rfl, rfl, rfl, rfl, rfl⟩ := hfields
  exact answers_recent (by decide) hs hcall rfl

theorem answers_after_invalidate_reread : ∃ s, Runs.run (TenantBalanceReader.step clockDeps) .init fourSeconds = some s ∧
    (⟨1, "acme", 2006, 2006, .answered 2016 2016⟩ : BalanceCall).Recent clockDeps s.now 2016 2016 := by
  have hrun : (Runs.run (TenantBalanceReader.step clockDeps) .init fourSeconds).bind (fun s =>
      (Runs.run (TenantBalanceReader.step clockDeps) (s.invalidate 1 "acme") [.balanceOf 1 "acme", .wait 10, .observe 2, .finish 2]).bind fun t =>
        t.calls[2]?.map fun call => (s.calls.map BalanceCall.asking, call.chainId, call.tenant, call.asked, call.readAt,
          call.reading)) = some ([false, false], 1, "acme", 2006, 2006, .answered 2016 2016) := by
    decide +kernel
  obtain ⟨s, hs, hrest⟩ := Option.bind_eq_some_iff.mp hrun
  obtain ⟨t, ht, hrest⟩ := Option.bind_eq_some_iff.mp hrest
  obtain ⟨call, hcall, hfields⟩ := Option.map_eq_some_iff.mp hrest
  obtain ⟨chainId, tenant, asked, readAt, reading⟩ := call
  simp only [Prod.mk.injEq] at hfields
  obtain ⟨hasking, rfl, rfl, rfl, rfl, rfl⟩ := hfields
  have hidle : ∀ call ∈ s.calls, call.chainId = 1 → call.tenant = "acme" → call.asking = false := by
    intro call hmem _ _
    have hbool := List.mem_map_of_mem (f := BalanceCall.asking) hmem
    rw [hasking] at hbool
    simpa using hbool
  have hlength : s.calls.length ≤ 2 := by
    have hmap := congrArg List.length hasking
    rw [List.length_map] at hmap
    exact Nat.le_of_eq hmap
  exact ⟨s, hs, answers_after_invalidate (by decide) hidle ht hlength hcall rfl rfl rfl⟩

end

end Paymaster.Balance
