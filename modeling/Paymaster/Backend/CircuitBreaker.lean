import Paymaster.Lib.Run

/-!
# The circuit breaker

After a run of failures the breaker is open for a while, and then lets a few
trials through, one of which has to succeed before it closes. Functions settle
when they like, and a function that was invoked before the breaker opened may
succeed afterwards: that closes the breaker too.
-/

namespace Paymaster

inductive CircuitState
  | closed
  | opened
  | halfOpen
deriving DecidableEq

structure CircuitBreakerOptions where
  failureThreshold : Nat
  openMs : Nat
  halfOpenMaxCalls : Nat

inductive CircuitEvent
  | opened (time : Nat)
  | invoked (time : Nat)
  /-- A function succeeds that was a trial, and the breaker has not opened since. -/
  | trialSucceeded
deriving DecidableEq

def CircuitEvent.isOpened : CircuitEvent → Bool
  | .opened _ => true
  | _ => false

/-- A function that has not settled, with how often the breaker had opened before
it was invoked. -/
structure CircuitCall where
  openings : Nat
  trial : Bool
deriving DecidableEq

structure CircuitBreaker where
  state : CircuitState
  consecutiveFailures : Nat
  openedAt : Nat
  halfOpenCalls : Nat
  now : Nat
  calls : List CircuitCall
  log : List CircuitEvent

inductive CircuitLabel
  | wait (ms : Nat)
  /-- The state is read, by whoever reports it. -/
  | readState
  | execute
  /-- A function settles. -/
  | settle (j : Nat) (success : Bool)
deriving DecidableEq

namespace CircuitBreaker

variable (options : CircuitBreakerOptions) (s : CircuitBreaker)

def openings : Nat := s.log.countP CircuitEvent.isOpened

/-- Reading the state, which resolves the transition to half-open. -/
def resolve : CircuitBreaker :=
  if s.state = .opened ∧ s.openedAt + options.openMs ≤ s.now then { s with state := .halfOpen, halfOpenCalls := 0 }
  else s

def invoke (trial : Bool) : CircuitBreaker :=
  { s with calls := s.calls ++ [⟨s.openings, trial⟩], log := s.log ++ [.invoked s.now] }

def execute : CircuitBreaker :=
  match s.state with
  | .opened => s
  | .halfOpen =>
    if options.halfOpenMaxCalls ≤ s.halfOpenCalls then s
    else { s with halfOpenCalls := s.halfOpenCalls + 1 }.invoke true
  | .closed => s.invoke false

def onSuccess (call : CircuitCall) : CircuitBreaker :=
  { s with
    consecutiveFailures := 0
    state := .closed
    log := if call.trial ∧ call.openings = s.openings then s.log ++ [.trialSucceeded] else s.log }

def onFailure : CircuitBreaker :=
  let s := { s with consecutiveFailures := s.consecutiveFailures + 1 }
  if s.state = .halfOpen ∨ options.failureThreshold ≤ s.consecutiveFailures then
    { s with
      openedAt := s.now
      state := .opened
      log := if s.state = .opened then s.log else s.log ++ [.opened s.now] }
  else s

def step : CircuitLabel → Option CircuitBreaker
  | .wait ms => some { s with now := s.now + ms }
  | .readState => some (s.resolve options)
  | .execute => some ((s.resolve options).execute options)
  | .settle j success =>
    s.calls[j]?.map fun call =>
      let s := { s with calls := s.calls.eraseIdx j }
      if success then s.onSuccess call else s.onFailure options

/-- A function that was invoked before the breaker opened last does not succeed
before it has closed. -/
def succeedsInTime : CircuitLabel → Bool
  | .settle j true => s.state = .closed || s.calls[j]?.all fun call => call.openings = s.openings
  | _ => true

end CircuitBreaker

/-- While it is open nothing is invoked; and since it opened, no more than the
trials, until one of them succeeds. -/
structure CircuitBreakerOptions.Protects (options : CircuitBreakerOptions) (log : List CircuitEvent) : Prop where
  cooldown : log.Pairwise fun e e' => ∀ t t', e = .opened t → e' = .invoked t' → t + options.openMs ≤ t'
  trials : ∀ (t : Nat) (times : List Nat), CircuitEvent.opened t :: times.map .invoked <:+: log →
    times.length ≤ options.halfOpenMaxCalls

def InvokedSince (log : List CircuitEvent) (times : List Nat) : Prop :=
  ∃ t, CircuitEvent.opened t :: times.map .invoked <:+ log

namespace CircuitBreaker

/-- The invariant: what has been invoked since the breaker opened, by its state. -/
structure Guarded (options : CircuitBreakerOptions) (s : CircuitBreaker) : Prop where
  closed : s.state = .closed → ∀ times, ¬ InvokedSince s.log times
  opened : s.state = .opened → ∀ times, InvokedSince s.log times → times = []
  halfOpen : s.state = .halfOpen → s.halfOpenCalls ≤ options.halfOpenMaxCalls ∧
    ∀ times, InvokedSince s.log times → times.length ≤ s.halfOpenCalls
  openedAt : s.openedAt ≤ s.now
  cooling : s.state = .opened → ∀ t, CircuitEvent.opened t ∈ s.log → t ≤ s.openedAt
  cooled : s.state ≠ .opened → ∀ t, CircuitEvent.opened t ∈ s.log → t + options.openMs ≤ s.now
  calls : ∀ call ∈ s.calls, call.openings ≤ s.openings
  trials : ∀ call ∈ s.calls, call.openings = s.openings → s.state ≠ .closed → s.state = .halfOpen ∧ call.trial = true
  protects : options.Protects s.log

end CircuitBreaker

/-! ## The log -/

section
variable {log : List CircuitEvent} {e : CircuitEvent} {t : Nat} {times : List Nat}

theorem suffix_concat (h : CircuitEvent.opened t :: times.map .invoked <:+ log ++ [e]) :
    (times = [] ∧ e = .opened t) ∨
      ∃ before t', times = before ++ [t'] ∧ e = .invoked t' ∧ CircuitEvent.opened t :: before.map .invoked <:+ log := by
  rcases List.suffix_concat_iff.mp h with hnil | ⟨rest, hrest, hsuffix⟩
  · cases hnil
  · rcases List.eq_nil_or_concat times with rfl | ⟨before, t', rfl⟩
    · have hone : [] ++ [CircuitEvent.opened t] = rest ++ [e] := hrest
      obtain ⟨-, he⟩ := List.append_inj' hone rfl
      exact .inl ⟨rfl, (List.singleton_inj.mp he).symm⟩
    · rw [List.concat_eq_append, List.map_append, ← List.cons_append] at hrest
      obtain ⟨hbefore, he⟩ := List.append_inj' hrest rfl
      refine .inr ⟨before, t', List.concat_eq_append, (List.singleton_inj.mp he).symm, ?_⟩
      rw [hbefore]
      exact hsuffix

theorem invokedSince_invoked (h : InvokedSince (log ++ [.invoked t]) times) :
    ∃ before, times = before ++ [t] ∧ InvokedSince log before := by
  obtain ⟨t₀, hsuffix⟩ := h
  rcases suffix_concat hsuffix with ⟨-, he⟩ | ⟨before, t', rfl, he, hbefore⟩
  · cases he
  · cases he
    exact ⟨before, rfl, t₀, hbefore⟩

theorem invokedSince_opened (h : InvokedSince (log ++ [.opened t]) times) : times = [] := by
  obtain ⟨t₀, hsuffix⟩ := h
  rcases suffix_concat hsuffix with ⟨rfl, -⟩ | ⟨before, t', -, he, -⟩
  · rfl
  · cases he

theorem not_invokedSince_trialSucceeded : ¬ InvokedSince (log ++ [.trialSucceeded]) times := by
  rintro ⟨t₀, hsuffix⟩
  rcases suffix_concat hsuffix with ⟨-, he⟩ | ⟨before, t', -, he, -⟩
  · cases he
  · cases he

theorem protects_concat {options : CircuitBreakerOptions} (hlog : options.Protects log)
    (hcooldown : ∀ t t', CircuitEvent.opened t ∈ log → e = .invoked t' → t + options.openMs ≤ t')
    (htrials : ∀ times, InvokedSince (log ++ [e]) times → times.length ≤ options.halfOpenMaxCalls) :
    options.Protects (log ++ [e]) := by
  refine ⟨?_, ?_⟩
  · rw [List.pairwise_append]
    refine ⟨hlog.cooldown, List.pairwise_singleton _ _, ?_⟩
    intro e₁ he₁ e₂ he₂ t t' ht ht'
    rw [List.mem_singleton] at he₂
    exact hcooldown t t' (ht ▸ he₁) (he₂ ▸ ht')
  · intro t times hwindow
    rcases List.infix_concat_iff.mp hwindow with hsuffix | hold
    · exact htrials times ⟨t, hsuffix⟩
    · exact hlog.trials t times hold

end

/-! ## Steps -/

section
variable {options : CircuitBreakerOptions} {s s' : CircuitBreaker} {l : CircuitLabel}

open CircuitBreaker

theorem guarded_wait (hs : s.Guarded options) (ms : Nat) : ({ s with now := s.now + ms } : CircuitBreaker).Guarded options :=
  { hs with
    openedAt := hs.openedAt.trans (Nat.le_add_right _ _)
    cooled := fun hstate t ht => (hs.cooled hstate t ht).trans (Nat.le_add_right _ _) }

theorem guarded_resolve (hs : s.Guarded options) : (s.resolve options).Guarded options := by
  unfold resolve
  split
  · rename_i hdue
    obtain ⟨hopened, hdue⟩ := hdue
    refine ⟨?_, ?_, ?_, hs.openedAt, ?_, ?_, hs.calls, ?_, hs.protects⟩
    · intro hstate
      cases hstate
    · intro hstate
      cases hstate
    · intro _
      refine ⟨Nat.zero_le _, fun times htimes => ?_⟩
      rw [hs.opened hopened times htimes]
      exact Nat.le_refl _
    · intro hstate
      cases hstate
    · intro _ t ht
      have hcooling := hs.cooling hopened t ht
      exact (Nat.add_le_add_right hcooling _).trans hdue
    · intro call hcall hcurrent _
      -- Nothing is invoked while the breaker is open.
      have hnone := hs.trials call hcall hcurrent (by rw [hopened]; decide)
      rw [hopened] at hnone
      cases hnone.1
  · exact hs

theorem openings_invoke (s : CircuitBreaker) (trial : Bool) : (s.invoke trial).openings = s.openings := by
  unfold openings invoke
  rw [List.countP_append]
  rfl

theorem mem_log_invoke (trial : Bool) {t : Nat} (ht : CircuitEvent.opened t ∈ (s.invoke trial).log) : .opened t ∈ s.log := by
  rcases List.mem_append.mp ht with hold | hnew
  · exact hold
  · cases List.mem_singleton.mp hnew

/-- What is invoked is protected where the breaker has cooled down. -/
theorem protects_invoke (trial : Bool) (hs : s.Guarded options) (hstate : s.state ≠ .opened)
    (htrials : ∀ before, InvokedSince s.log before → before.length < options.halfOpenMaxCalls) :
    options.Protects (s.invoke trial).log := by
  apply protects_concat hs.protects
  · intro t t' ht ht'
    cases ht'
    exact hs.cooled hstate t ht
  · intro times htimes
    obtain ⟨before, rfl, hbefore⟩ := invokedSince_invoked htimes
    rw [List.length_append]
    exact htrials before hbefore

theorem calls_invoke (trial : Bool) (hs : s.Guarded options) (htrial : s.state = .halfOpen → trial = true)
    (hstate : s.state ≠ .opened) : ∀ call ∈ (s.invoke trial).calls, call.openings ≤ s.openings ∧
      (call.openings = s.openings → s.state ≠ .closed → s.state = .halfOpen ∧ call.trial = true) := by
  intro call hcall
  rcases List.mem_append.mp hcall with hold | hnew
  · exact ⟨hs.calls call hold, hs.trials call hold⟩
  · rw [List.mem_singleton.mp hnew]
    refine ⟨Nat.le_refl _, fun _ hclosed => ?_⟩
    cases h : s.state with
    | closed => exact absurd h hclosed
    | opened => exact absurd h hstate
    | halfOpen => exact ⟨rfl, htrial h⟩

theorem guarded_execute (hs : s.Guarded options) : (s.execute options).Guarded options := by
  unfold CircuitBreaker.execute
  split
  · exact hs
  · rename_i hstate
    split
    · exact hs
    · rename_i hbudget
      obtain ⟨-, hcount⟩ := hs.halfOpen hstate
      have hne : s.state ≠ .opened := by
        rw [hstate]
        decide
      have hcounted : ({ s with halfOpenCalls := s.halfOpenCalls + 1 } : CircuitBreaker).openings = s.openings := rfl
      have hcalls := calls_invoke true hs (fun _ => rfl) hne
      refine ⟨?_, fun hopened => absurd hopened hne, ?_, hs.openedAt, fun hopened => absurd hopened hne, ?_, ?_, ?_, ?_⟩
      · intro hclosed
        cases hstate.symm.trans hclosed
      · intro _
        refine ⟨Nat.lt_of_not_le hbudget, fun times htimes => ?_⟩
        obtain ⟨before, rfl, hbefore⟩ := invokedSince_invoked htimes
        rw [List.length_append]
        exact Nat.succ_le_succ (hcount before hbefore)
      · intro _ t ht
        exact hs.cooled hne t (mem_log_invoke true ht)
      · intro call hcall
        rw [openings_invoke, hcounted]
        exact (hcalls call hcall).1
      · intro call hcall
        rw [openings_invoke, hcounted]
        exact (hcalls call hcall).2
      · apply protects_invoke true hs hne
        intro before hbefore
        exact (hcount before hbefore).trans_lt (Nat.lt_of_not_le hbudget)
  · rename_i hstate
    have hne : s.state ≠ .opened := by
      rw [hstate]
      decide
    have hcalls := calls_invoke false hs (fun hhalf => by cases hstate.symm.trans hhalf) hne
    have hnone := hs.closed hstate
    refine ⟨?_, fun hopened => absurd hopened hne, ?_, hs.openedAt, fun hopened => absurd hopened hne, ?_, ?_, ?_, ?_⟩
    · intro _ times htimes
      obtain ⟨before, -, hbefore⟩ := invokedSince_invoked htimes
      exact hnone before hbefore
    · intro hhalf
      cases hstate.symm.trans hhalf
    · intro _ t ht
      exact hs.cooled hne t (mem_log_invoke false ht)
    · intro call hcall
      rw [openings_invoke]
      exact (hcalls call hcall).1
    · intro call hcall
      rw [openings_invoke]
      exact (hcalls call hcall).2
    · apply protects_invoke false hs hne
      intro before hbefore
      exact absurd hbefore (hnone before)

theorem guarded_erase (hs : s.Guarded options) (j : Nat) :
    ({ s with calls := s.calls.eraseIdx j } : CircuitBreaker).Guarded options :=
  { hs with
    calls := fun call hcall => hs.calls call (List.mem_of_mem_eraseIdx hcall)
    trials := fun call hcall => hs.trials call (List.mem_of_mem_eraseIdx hcall) }

/-- A function that succeeds in time closes a breaker that it is a trial of. -/
theorem guarded_onSuccess {call : CircuitCall} (hs : s.Guarded options)
    (htrial : s.state ≠ .closed → s.state = .halfOpen ∧ call.trial = true ∧ call.openings = s.openings) :
    (s.onSuccess call).Guarded options := by
  have hcooled : s.state ≠ .opened := by
    intro hopened
    obtain ⟨hhalf, -⟩ := htrial (by rw [hopened]; decide)
    cases hopened.symm.trans hhalf
  have hopenings : (s.onSuccess call).openings = s.openings := by
    unfold openings onSuccess
    dsimp only
    split
    · rw [List.countP_append]
      rfl
    · rfl
  refine ⟨?_, ?_, ?_, hs.openedAt, ?_, ?_, ?_, ?_, ?_⟩
  · intro _ times
    unfold onSuccess
    dsimp only
    split
    · exact not_invokedSince_trialSucceeded
    · rename_i hother
      by_cases hclosed : s.state = .closed
      · exact hs.closed hclosed times
      · obtain ⟨-, hcall⟩ := htrial hclosed
        exact absurd hcall hother
  · intro hopened
    cases hopened
  · intro hhalf
    cases hhalf
  · intro hopened
    cases hopened
  · intro _ t ht
    refine hs.cooled hcooled t ?_
    unfold onSuccess at ht
    dsimp only at ht
    split at ht
    · simpa using ht
    · exact ht
  · intro other hother
    rw [hopenings]
    exact hs.calls other hother
  · intro other _ _ hclosed
    exact absurd rfl hclosed
  · unfold onSuccess
    dsimp only
    split
    · apply protects_concat hs.protects
      · intro t t' _ ht'
        cases ht'
      · intro times htimes
        exact absurd htimes not_invokedSince_trialSucceeded
    · exact hs.protects

theorem guarded_open (hs : s.Guarded options) (consecutiveFailures : Nat) :
    ({ s with
      consecutiveFailures := consecutiveFailures
      openedAt := s.now
      state := .opened
      log := if s.state = .opened then s.log else s.log ++ [.opened s.now] } : CircuitBreaker).Guarded options := by
  by_cases hopened : s.state = .opened
  · rw [if_pos hopened]
    refine ⟨?_, fun _ => hs.opened hopened, ?_, Nat.le_refl _, ?_, fun hne => absurd rfl hne, hs.calls, ?_, hs.protects⟩
    · intro hclosed
      cases hclosed
    · intro hhalf
      cases hhalf
    · intro _ t ht
      exact (hs.cooling hopened t ht).trans hs.openedAt
    · intro call hcall hcurrent _
      obtain ⟨hhalf, -⟩ := hs.trials call hcall hcurrent (by rw [hopened]; decide)
      cases hopened.symm.trans hhalf
  · rw [if_neg hopened]
    have hcount : (s.log ++ [CircuitEvent.opened s.now]).countP CircuitEvent.isOpened = s.openings + 1 := by
      rw [List.countP_append]
      rfl
    refine ⟨?_, fun _ _ htimes => invokedSince_opened htimes, ?_, Nat.le_refl _, ?_, fun hne => absurd rfl hne, ?_, ?_, ?_⟩
    · intro hclosed
      cases hclosed
    · intro hhalf
      cases hhalf
    · intro _ t ht
      rcases List.mem_append.mp ht with hold | hnew
      · exact (Nat.le_add_right _ _).trans (hs.cooled hopened t hold)
      · cases List.mem_singleton.mp hnew
        exact Nat.le_refl _
    · intro call hcall
      have hle := hs.calls call hcall
      show call.openings ≤ (s.log ++ [CircuitEvent.opened s.now]).countP CircuitEvent.isOpened
      omega
    · intro call hcall hcurrent _
      have hle := hs.calls call hcall
      change call.openings = (s.log ++ [CircuitEvent.opened s.now]).countP CircuitEvent.isOpened at hcurrent
      omega
    · apply protects_concat hs.protects
      · intro t t' _ ht'
        cases ht'
      · intro times htimes
        rw [invokedSince_opened htimes]
        exact Nat.zero_le _

theorem guarded_onFailure (hs : s.Guarded options) : (s.onFailure options).Guarded options := by
  unfold onFailure
  dsimp only
  split
  · exact guarded_open hs _
  · exact { hs with }

theorem guarded_step (hs : s.Guarded options) (hl : s.succeedsInTime l = true) (h : s.step options l = some s') :
    s'.Guarded options := by
  cases l with
  | wait ms =>
    cases h
    exact guarded_wait hs ms
  | readState =>
    cases h
    exact guarded_resolve hs
  | execute =>
    cases h
    exact guarded_execute (guarded_resolve hs)
  | settle j success =>
    obtain ⟨call, hcall, rfl⟩ := Option.map_eq_some_iff.mp h
    cases success with
    | false => exact guarded_onFailure (guarded_erase hs j)
    | true =>
      apply guarded_onSuccess (guarded_erase hs j)
      intro hclosed
      have hmem := List.mem_of_getElem? hcall
      have hcurrent : call.openings = s.openings := by
        change s.state ≠ .closed at hclosed
        simpa [succeedsInTime, hcall, hclosed] using hl
      obtain ⟨hhalf, htrial⟩ := hs.trials call hmem hcurrent hclosed
      exact ⟨hhalf, htrial, hcurrent⟩

/-- What is invoked is protected, along every run in which no function that was
invoked before the breaker opened succeeds before it has closed. -/
theorem breaker_protects {ls : List CircuitLabel} (hstate : s.state = .closed) (hlog : s.log = []) (hcalls : s.calls = [])
    (hopened : s.openedAt ≤ s.now)
    (hmeets : Runs.Meets (CircuitBreaker.step options) (fun s l => s.succeedsInTime l = true) s ls)
    (hrun : Runs.run (CircuitBreaker.step options) s ls = some s') : options.Protects s'.log := by
  have hnothing : ∀ times, ¬ InvokedSince s.log times := by
    rintro times ⟨t, hsuffix⟩
    rw [hlog] at hsuffix
    cases List.suffix_nil.mp hsuffix
  have hnever : ∀ t, CircuitEvent.opened t ∉ s.log := by
    simp [hlog]
  have hstart : s.Guarded options := by
    refine ⟨fun _ => hnothing, ?_, ?_, hopened, ?_, fun _ t ht => absurd ht (hnever t), ?_, ?_, ?_⟩
    · intro h
      cases hstate.symm.trans h
    · intro h
      cases hstate.symm.trans h
    · intro h
      cases hstate.symm.trans h
    · simp [hcalls]
    · simp [hcalls]
    · rw [hlog]
      refine ⟨List.Pairwise.nil, fun t times hwindow => ?_⟩
      cases List.infix_nil.mp hwindow
  have hend : s'.Guarded options :=
    Runs.invariant_of_meets (fun hs hl h => guarded_step hs hl h) hstart hmeets hrun
  exact hend.protects

end

/-! ## Two calls to an endpoint that goes down -/

def oneTrial : CircuitBreakerOptions := ⟨1, 1000, 1⟩

def freshBreaker : CircuitBreaker := ⟨.closed, 0, 0, 0, 0, [], []⟩

def trialAfterCooldown : List CircuitLabel :=
  [.execute, .settle 0 false, .execute, .wait 1000, .execute, .execute, .settle 0 true, .execute]

theorem breaker_protects_trial : ∃ s, Runs.run (CircuitBreaker.step oneTrial) freshBreaker trialAfterCooldown = some s ∧
    s.log = [.invoked 0, .opened 0, .invoked 1000, .trialSucceeded, .invoked 1000] ∧ oneTrial.Protects s.log := by
  have hrun : (Runs.run (CircuitBreaker.step oneTrial) freshBreaker trialAfterCooldown).map CircuitBreaker.log =
      some [.invoked 0, .opened 0, .invoked 1000, .trialSucceeded, .invoked 1000] := by
    decide +kernel
  obtain ⟨s, hs, hlog⟩ := Option.map_eq_some_iff.mp hrun
  exact ⟨s, hs, hlog, breaker_protects rfl rfl rfl (by decide) (by decide +kernel) hs⟩

/-- One of two calls fails and opens the breaker, and the other one closes it. -/
theorem breaker_closed_early : ¬ ∀ (options : CircuitBreakerOptions) (s s' : CircuitBreaker) (ls : List CircuitLabel),
    s.state = .closed → s.log = [] → s.calls = [] → s.openedAt ≤ s.now →
    Runs.run (CircuitBreaker.step options) s ls = some s' → options.Protects s'.log := by
  intro hall
  have hrun : (Runs.run (CircuitBreaker.step oneTrial) freshBreaker
      [.execute, .execute, .settle 0 false, .settle 0 true, .execute]).map CircuitBreaker.log =
      some [.invoked 0, .invoked 0, .opened 0, .invoked 0] := by
    decide +kernel
  obtain ⟨s, hs, hlog⟩ := Option.map_eq_some_iff.mp hrun
  have hcooldown := (hall _ _ s _ rfl rfl rfl (by decide) hs).cooldown
  rw [hlog] at hcooldown
  change List.Pairwise _ ([CircuitEvent.invoked 0, .invoked 0, .opened 0] ++ [.invoked 0]) at hcooldown
  have hle := (List.pairwise_append.mp hcooldown).2.2 (.opened 0) (by decide) (.invoked 0) (by decide) 0 0 rfl rfl
  cases hle

end Paymaster
