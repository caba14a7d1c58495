import Paymaster.Backend.Migrations

/-!
# Migrations run once

While a call is inside the lock no other call is, so the rows that it read are
all there are but for those that it has added itself. What it has ahead is not
recorded, and what it has applied is the beginning of what it found missing.
-/

namespace Paymaster

namespace MigratingDatabase

/-- The invariant of the lock: one session holds it, a call inside holds it, and
two calls that go on have two sessions. -/
structure Guarded (s : MigratingDatabase) : Prop where
  single : ∀ session ∈ s.lock, ∀ session' ∈ s.lock, session = session'
  owned : ∀ c ∈ s.calls, c.phase.inside = true → c.session ∈ s.lock
  apart : ∀ (i j : Nat) (c d : MigrationCall), i ≠ j → s.calls[i]? = some c → s.calls[j]? = some d →
    c.phase ≠ .finished → d.phase ≠ .finished → c.session ≠ d.session

end MigratingDatabase

structure MigrationCall.Sound (rows : List MigrationRow) (applied : List Migration) (c : MigrationCall) : Prop where
  early : c.phase = .locking ∨ c.phase = .locked ∨ c.phase = .ensured → c.found = none
  unread : c.found = none → applied = [] ∧ c.phase.ahead = []
  refused : ∀ found, c.found = some found → verified c.migrations found = false → applied = [] ∧ c.phase.ahead = []
  ahead : c.phase.ahead ≠ [] → ∃ found, c.found = some found ∧ pendingOf c.migrations found = applied ++ c.phase.ahead
  fresh : ∀ m rest, c.phase = .inserted m rest → recordOf rows m.version = none
  failed : ∀ m, c.failed = some m → c.phase.ahead = [] ∧ ∃ found before after, c.found = some found ∧
    pendingOf c.migrations found = before ++ m :: after ∧ (applied = before ∨ applied = before ++ [m])

namespace MigratingDatabase

structure Recorded (s : MigratingDatabase) : Prop where
  rows : s.rows = s.effects.map fun e => e.migration.row
  once : (s.effects.map fun e => e.migration.version).Nodup
  past : ∀ e ∈ s.effects, e.call < s.calls.length
  made : ∀ c ∈ s.calls, c.found ≠ none → s.table ≠ none
  calls : ∀ (i : Nat) (c : MigrationCall), s.calls[i]? = some c → c.Sound s.rows (s.appliedBy i)

end MigratingDatabase

section
variable {s s' : MigratingDatabase} {i j : Nat} {c d : MigrationCall} {m : Migration} {rest : List Migration}

open MigratingDatabase

/-! ## The lock -/

theorem unfinished_of_inside {phase : MigrationPhase} (h : phase.inside = true) : phase ≠ .finished := by
  rintro rfl
  cases h

theorem alone (hs : s.Guarded) (hi : s.calls[i]? = some c) (hj : s.calls[j]? = some d) (hne : i ≠ j)
    (hc : c.phase.inside = true) : d.phase.inside = false := by
  cases hd : d.phase.inside with
  | false => rfl
  | true =>
    have hapart := hs.apart i j c d hne hi hj (unfinished_of_inside hc) (unfinished_of_inside hd)
    have hsame := hs.single _ (hs.owned c (List.mem_of_getElem? hi) hc) _ (hs.owned d (List.mem_of_getElem? hj) hd)
    exact absurd hsame hapart

theorem guarded_set (hs : s.Guarded) (hi : s.calls[i]? = some c) (hsession : d.session = c.session)
    (hphase : c.phase ≠ .finished) {lock : List Nat} (hsingle : ∀ x ∈ lock, ∀ y ∈ lock, x = y)
    (howned : d.phase.inside = true → c.session ∈ lock)
    (hothers : ∀ e ∈ s.calls, e.session ≠ c.session → e.session ∈ s.lock → e.session ∈ lock)
    {table : Option (List MigrationRow)} {effects : List MigrationEffect} :
    (⟨table, effects, lock, s.calls.set i d⟩ : MigratingDatabase).Guarded := by
  have hapart : ∀ (j : Nat) (e : MigrationCall), j ≠ i → s.calls[j]? = some e → e.phase ≠ .finished →
      e.session ≠ c.session :=
    fun j e hne hj he => (hs.apart i j c e hne.symm hi hj hphase he).symm
  refine ⟨hsingle, ?_, ?_⟩
  · intro e he hinside
    obtain ⟨j, hj⟩ := List.mem_iff_getElem?.mp he
    rcases Pool.getElem?_set_cases hj with ⟨rfl, rfl⟩ | ⟨hne, hold⟩
    · rw [hsession]
      exact howned hinside
    · have hmem := List.mem_of_getElem? hold
      exact hothers e hmem (hapart j e hne hold (unfinished_of_inside hinside)) (hs.owned e hmem hinside)
  · intro j k e f hne hj hk he hf
    rcases Pool.getElem?_set_cases hj with ⟨rfl, rfl⟩ | ⟨hji, hold⟩
    · rcases Pool.getElem?_set_cases hk with ⟨rfl, rfl⟩ | ⟨hki, hold⟩
      · exact absurd rfl hne
      · rw [hsession]
        exact (hapart k f hki hold hf).symm
    · rcases Pool.getElem?_set_cases hk with ⟨rfl, rfl⟩ | ⟨hki, hold'⟩
      · rw [hsession]
        exact hapart j e hji hold he
      · exact hs.apart j k e f hne hold hold' he hf

theorem fail_cases {c' : MigrationCall} (h : c.fail = some c') :
    c'.session = c.session ∧ c'.migrations = c.migrations ∧ c'.found = c.found ∧ c.phase ≠ .finished ∧
      (c'.phase = .unlocking ∨ c'.phase = .rollingBack ∧ c.phase.inside = true ∨ c'.phase = .finished) ∧
      (c'.failed = c.failed ∨ ∃ m rest, c.phase.ahead = m :: rest ∧ c'.failed = some m) := by
  unfold MigrationCall.fail at h
  split at h
  · rename_i hphase
    cases h
    exact ⟨rfl, rfl, rfl, by simp [hphase], .inl rfl, .inl rfl⟩
  · rename_i hphase
    cases h
    exact ⟨rfl, rfl, rfl, by simp [hphase], .inl rfl, .inl rfl⟩
  · rename_i hphase
    cases h
    exact ⟨rfl, rfl, rfl, by simp [hphase], .inl rfl, .inl rfl⟩
  · rename_i m rest hphase
    cases h
    exact ⟨rfl, rfl, rfl, by simp [hphase], .inl rfl, .inr ⟨m, rest, by rw [hphase]; rfl, rfl⟩⟩
  · rename_i m rest hphase
    cases h
    exact ⟨rfl, rfl, rfl, by simp [hphase], .inr (.inl ⟨rfl, by rw [hphase]; rfl⟩), .inr ⟨m, rest, by rw [hphase]; rfl, rfl⟩⟩
  · rename_i m rest hphase
    cases h
    exact ⟨rfl, rfl, rfl, by simp [hphase], .inr (.inl ⟨rfl, by rw [hphase]; rfl⟩), .inr ⟨m, rest, by rw [hphase]; rfl, rfl⟩⟩
  · rename_i m rest hphase
    cases h
    exact ⟨rfl, rfl, rfl, by simp [hphase], .inr (.inl ⟨rfl, by rw [hphase]; rfl⟩), .inr ⟨m, rest, by rw [hphase]; rfl, rfl⟩⟩
  · rename_i hphase
    cases h
    exact ⟨rfl, rfl, rfl, by simp [hphase], .inr (.inr rfl), .inl rfl⟩
  · cases h
  · cases h

theorem guarded_call (hs : s.Guarded) {session : Nat} {migrations : List Migration}
    (hfree : ∀ c ∈ s.calls, c.phase = .finished ∨ c.session ≠ session) :
    ({ s with calls := s.calls ++ [⟨session, migrations, .locking, none, none⟩] } : MigratingDatabase).Guarded := by
  refine ⟨hs.single, ?_, ?_⟩
  · intro e he hinside
    rcases List.mem_append.mp he with hold | hnew
    · exact hs.owned e hold hinside
    · rw [List.mem_singleton.mp hnew] at hinside
      cases hinside
  · intro j k e f hne hj hk he hf
    rcases Pool.getElem?_append_cases hj with ⟨hlast, rfl⟩ | hj
    · rcases Pool.getElem?_append_cases hk with ⟨hlast', rfl⟩ | hk
      · exact absurd (hlast.trans hlast'.symm) hne
      · exact (((hfree f (List.mem_of_getElem? hk)).resolve_left hf)).symm
    · rcases Pool.getElem?_append_cases hk with ⟨-, rfl⟩ | hk
      · exact (hfree e (List.mem_of_getElem? hj)).resolve_left he
      · exact hs.apart j k e f hne hj hk he hf

theorem disconnect_get {session : Nat} (h : (s.disconnect session).calls[i]? = some d) :
    ∃ c, s.calls[i]? = some c ∧ (c.session = session ∧ d = { c with phase := .finished } ∨ c.session ≠ session ∧ d = c) := by
  replace h : (s.calls.map fun c => if c.session = session then { c with phase := .finished } else c)[i]? = some d := h
  rw [List.getElem?_map] at h
  obtain ⟨c, hc, rfl⟩ := Option.map_eq_some_iff.mp h
  refine ⟨c, hc, ?_⟩
  split
  · rename_i hsame
    exact .inl ⟨hsame, rfl⟩
  · rename_i hother
    exact .inr ⟨hother, rfl⟩

theorem guarded_disconnect (hs : s.Guarded) (session : Nat) : (s.disconnect session).Guarded := by
  refine ⟨?_, ?_, ?_⟩
  · intro x hx y hy
    exact hs.single x (List.mem_filter.mp hx).1 y (List.mem_filter.mp hy).1
  · intro d hd hinside
    obtain ⟨i, hi⟩ := List.mem_iff_getElem?.mp hd
    obtain ⟨c, hc, ⟨-, rfl⟩ | ⟨hother, rfl⟩⟩ := disconnect_get hi
    · cases hinside
    · exact List.mem_filter.mpr ⟨hs.owned d (List.mem_of_getElem? hc) hinside, by simpa using hother⟩
  · intro i j d e hne hi hj hd he
    obtain ⟨c, hc, ⟨-, rfl⟩ | ⟨-, rfl⟩⟩ := disconnect_get hi
    · exact absurd rfl hd
    · obtain ⟨f, hf, ⟨-, rfl⟩ | ⟨-, rfl⟩⟩ := disconnect_get hj
      · exact absurd rfl he
      · exact hs.apart i j d e hne hc hf hd he

theorem guarded_migrationStep (hs : s.Guarded) {l : MigrationLabel} (h : MigrationStep s l s') : s'.Guarded := by
  have hkeep : ∀ {c : MigrationCall}, ∀ e ∈ s.calls, e.session ≠ c.session → e.session ∈ s.lock → e.session ∈ s.lock :=
    fun _ _ _ h => h
  cases h with
  | call session migrations hfree => exact guarded_call hs hfree
  | @lock i c hi hphase hfree =>
    refine guarded_set hs hi (by rfl) (by simp [hphase]) ?_ (fun _ => List.mem_cons_self)
      fun e _ _ hmem => List.mem_cons_of_mem _ hmem
    have hsame : ∀ x ∈ c.session :: s.lock, x = c.session := by
      intro x hx
      rcases List.mem_cons.mp hx with rfl | hold
      · rfl
      · exact hfree x hold
    intro x hx y hy
    exact (hsame x hx).trans (hsame y hy).symm
  | ensureTable hi hphase =>
    exact guarded_set hs hi (by rfl) (by simp [hphase]) hs.single
      (fun _ => hs.owned _ (List.mem_of_getElem? hi) (by rw [hphase]; rfl)) hkeep
  | select hi htable hphase =>
    exact guarded_set hs hi (by rfl) (by simp [hphase]) hs.single
      (fun _ => hs.owned _ (List.mem_of_getElem? hi) (by rw [hphase]; rfl)) hkeep
  | begin hi hphase =>
    exact guarded_set hs hi (by rfl) (by simp [hphase]) hs.single
      (fun _ => hs.owned _ (List.mem_of_getElem? hi) (by rw [hphase]; rfl)) hkeep
  | run hi hphase =>
    exact guarded_set hs hi (by rfl) (by simp [hphase]) hs.single
      (fun _ => hs.owned _ (List.mem_of_getElem? hi) (by rw [hphase]; rfl)) hkeep
  | insert hi hphase htable hrecord =>
    exact guarded_set hs hi (by rfl) (by simp [hphase]) hs.single
      (fun _ => hs.owned _ (List.mem_of_getElem? hi) (by rw [hphase]; rfl)) hkeep
  | commit answered hi hphase =>
    refine guarded_set hs hi ?_ (by simp [hphase]) hs.single
      (fun _ => hs.owned _ (List.mem_of_getElem? hi) (by rw [hphase]; rfl)) hkeep
    cases answered <;> rfl
  | rollback hi hphase =>
    exact guarded_set hs hi (by rfl) (by simp [hphase]) hs.single
      (fun _ => hs.owned _ (List.mem_of_getElem? hi) (by rw [hphase]; rfl)) hkeep
  | unlock hi hphase =>
    refine guarded_set hs hi (by rfl) (by simp [hphase]) ?_ (fun h => by cases h)
      fun e _ hne hmem => (List.mem_erase_of_ne hne).mpr hmem
    intro x hx y hy
    exact hs.single x (List.mem_of_mem_erase hx) y (List.mem_of_mem_erase hy)
  | fail hi hfail =>
    obtain ⟨hsession, -, -, hphase, hphase', -⟩ := fail_cases hfail
    refine guarded_set hs hi hsession hphase hs.single (fun hinside => ?_) hkeep
    rcases hphase' with hidle | ⟨-, hbefore⟩ | hidle
    · rw [hidle] at hinside
      cases hinside
    · exact hs.owned _ (List.mem_of_getElem? hi) hbefore
    · rw [hidle] at hinside
      cases hinside
  | disconnect session => exact guarded_disconnect hs session

/-! ## The calls -/

section
variable {stored : List MigrationRow} {applied : List Migration}

theorem ahead_proceed (l : List Migration) : (MigrationPhase.proceed l).ahead = l := by
  cases l <;> rfl

theorem proceed_ne_inserted (l : List Migration) (m : Migration) (rest : List Migration) :
    MigrationPhase.proceed l ≠ .inserted m rest := by
  cases l <;> exact MigrationPhase.noConfusion

theorem proceed_not_early (l : List Migration) :
    ¬ (MigrationPhase.proceed l = .locking ∨ MigrationPhase.proceed l = .locked ∨ MigrationPhase.proceed l = .ensured) := by
  cases l <;> simp [MigrationPhase.proceed]

/-- A row of another call does not concern one that is outside. -/
theorem sound_outside (h : c.Sound stored applied) (houtside : c.phase.inside = false) (stored' : List MigrationRow) :
    c.Sound stored' applied := by
  refine ⟨h.early, h.unread, h.refused, h.ahead, ?_, h.failed⟩
  intro m rest hphase
  rw [hphase] at houtside
  cases houtside

theorem sound_idle (h : c.Sound stored applied) {phase : MigrationPhase} (hahead : phase.ahead = [])
    (hearly : phase = .locking ∨ phase = .locked ∨ phase = .ensured →
      c.phase = .locking ∨ c.phase = .locked ∨ c.phase = .ensured) :
    ({ c with phase := phase } : MigrationCall).Sound stored applied := by
  refine ⟨fun hphase => h.early (hearly hphase), fun hread => ⟨(h.unread hread).1, hahead⟩,
    fun found hread hbad => ⟨(h.refused found hread hbad).1, hahead⟩, fun hne => absurd hahead hne, ?_,
    fun m hfailed => ⟨hahead, (h.failed m hfailed).2⟩⟩
  intro m rest hphase
  rw [show phase = .inserted m rest from hphase] at hahead
  cases hahead

theorem sound_ahead (h : c.Sound stored applied) {phase : MigrationPhase} (hahead : c.phase.ahead = m :: rest)
    (hahead' : phase.ahead = m :: rest)
    (hfresh : ∀ m rest, phase = .inserted m rest → recordOf stored m.version = none) :
    ({ c with phase := phase } : MigrationCall).Sound stored applied := by
  have hsame : phase.ahead = c.phase.ahead := hahead'.trans hahead.symm
  refine ⟨?_, ?_, ?_, ?_, hfresh, ?_⟩
  · rintro (hphase | hphase | hphase) <;>
    · rw [show phase = _ from hphase] at hahead'
      cases hahead'
  · intro hread
    exact ⟨(h.unread hread).1, hsame.trans (h.unread hread).2⟩
  · intro found hread hbad
    exact ⟨(h.refused found hread hbad).1, hsame.trans (h.refused found hread hbad).2⟩
  · intro hne
    obtain ⟨found, hread, hpending⟩ := h.ahead (hsame ▸ hne)
    exact ⟨found, hread, by rw [hpending, ← hsame]⟩
  · intro m' hfailed
    exact ⟨hsame.trans (h.failed m' hfailed).1, (h.failed m' hfailed).2⟩

theorem sound_read (h : c.Sound stored applied) (hphase : c.phase = .ensured) : (c.read stored).Sound stored applied := by
  have hunread := h.early (.inr (.inr hphase))
  have hnothing := (h.unread hunread).1
  have hfailed : c.failed = none := by
    cases hf : c.failed with
    | none => rfl
    | some m =>
      obtain ⟨-, found, -, -, hread, -⟩ := h.failed m hf
      cases hunread.symm.trans hread
  subst hnothing
  cases hverified : verified c.migrations stored with
  | false =>
    have hread : c.read stored = { c with phase := .unlocking, found := some stored } := by
      simp [MigrationCall.read, hverified]
    rw [hread]
    refine ⟨?_, ?_, fun _ _ _ => ⟨rfl, rfl⟩, fun hne => absurd rfl hne, ?_, ?_⟩
    · rintro (hp | hp | hp) <;> cases hp
    · intro hnone
      cases hnone
    · intro m rest hp
      cases hp
    · intro m hm
      cases hfailed.symm.trans hm
  | true =>
    have hread : c.read stored = { c with phase := .proceed (pendingOf c.migrations stored), found := some stored } := by
      simp [MigrationCall.read, hverified]
    rw [hread]
    refine ⟨fun hp => absurd hp (proceed_not_early _), ?_, ?_, ?_, fun m rest hp => absurd hp (proceed_ne_inserted _ m rest), ?_⟩
    · intro hnone
      cases hnone
    · intro found hfound hbad
      cases hfound
      cases hverified.symm.trans hbad
    · intro _
      exact ⟨stored, rfl, (ahead_proceed _).symm⟩
    · intro m hm
      cases hfailed.symm.trans hm

theorem sound_fail (h : c.Sound stored applied) {c' : MigrationCall} (hfail : c.fail = some c') :
    c'.Sound stored applied := by
  obtain ⟨-, hlist, hread, -, hphase, hfailed⟩ := fail_cases hfail
  have hidle : c'.phase.ahead = [] ∧ ¬ (c'.phase = .locking ∨ c'.phase = .locked ∨ c'.phase = .ensured) := by
    rcases hphase with hp | ⟨hp, -⟩ | hp <;> simp [hp, MigrationPhase.ahead]
  refine ⟨fun hp => absurd hp hidle.2, ?_, ?_, fun hne => absurd hidle.1 hne, ?_, ?_⟩
  · intro hnone
    exact ⟨(h.unread (hread ▸ hnone)).1, hidle.1⟩
  · intro found hfound hbad
    exact ⟨(h.refused found (hread ▸ hfound) (hlist ▸ hbad)).1, hidle.1⟩
  · intro m rest hp
    rw [hp] at hidle
    cases hidle.1
  · intro m hm
    refine ⟨hidle.1, ?_⟩
    rw [hread, hlist]
    rcases hfailed with hsame | ⟨m', rest, hahead, hthrew⟩
    · exact (h.failed m (hsame ▸ hm)).2
    · cases hthrew.symm.trans hm
      -- It threw before the commit: what is applied is what comes before it.
      obtain ⟨found, hfound, hpending⟩ := h.ahead (by simp [hahead])
      exact ⟨found, applied, rest, hfound, hahead ▸ hpending, .inl rfl⟩

theorem sound_commit (h : c.Sound stored applied) (hphase : c.phase = .inserted m rest) (stored' : List MigrationRow)
    (answered : Bool) :
    (if answered then { c with phase := .proceed rest } else { c with phase := .rollingBack, failed := some m }
      : MigrationCall).Sound stored' (applied ++ [m]) := by
  have hahead : c.phase.ahead = m :: rest := by
    rw [hphase]
    rfl
  obtain ⟨found, hfound, hpending⟩ := h.ahead (by simp [hahead])
  rw [hahead] at hpending
  have hverified : ∀ found', c.found = some found' → verified c.migrations found' ≠ false := by
    intro found' hfound' hbad
    cases hahead.symm.trans (h.refused found' hfound' hbad).2
  cases answered with
  | true =>
    refine ⟨fun hp => absurd hp (proceed_not_early _), ?_, ?_, ?_, fun m rest hp => absurd hp (proceed_ne_inserted _ m rest), ?_⟩
    · intro hnone
      cases hfound.symm.trans hnone
    · intro found' hfound' hbad
      exact absurd hbad (hverified found' hfound')
    · intro _
      refine ⟨found, hfound, hpending.trans ?_⟩
      simp [ahead_proceed]
    · intro m' hfailed
      cases hahead.symm.trans (h.failed m' hfailed).1
  | false =>
    refine ⟨?_, ?_, ?_, fun hne => absurd rfl hne, ?_, ?_⟩
    · rintro (hp | hp | hp) <;> cases hp
    · intro hnone
      cases hfound.symm.trans hnone
    · intro found' hfound' hbad
      exact absurd hbad (hverified found' hfound')
    · intro m' rest' hp
      cases hp
    · intro m' hm
      cases hm
      exact ⟨rfl, found, applied, rest, hfound, hpending, .inr rfl⟩

end

/-! ## What is recorded -/

theorem recorded_set (hs : s.Recorded) (hi : s.calls[i]? = some c) {table : Option (List MigrationRow)} {lock : List Nat}
    (htable : table.getD [] = s.rows) (hkept : s.table ≠ none → table ≠ none) (hread : d.found ≠ none → c.found ≠ none ∨ table ≠ none)
    (hd : d.Sound s.rows (s.appliedBy i)) :
    (⟨table, s.effects, lock, s.calls.set i d⟩ : MigratingDatabase).Recorded := by
  refine ⟨htable.trans hs.rows, hs.once, ?_, ?_, ?_⟩
  · intro e he
    simpa using hs.past e he
  · intro e he hfound
    obtain ⟨j, hj⟩ := List.mem_iff_getElem?.mp he
    rcases Pool.getElem?_set_cases hj with ⟨rfl, rfl⟩ | ⟨-, hold⟩
    · rcases hread hfound with hbefore | hnow
      · exact hkept (hs.made c (List.mem_of_getElem? hi) hbefore)
      · exact hnow
    · exact hkept (hs.made e (List.mem_of_getElem? hold) hfound)
  · intro j e hj
    show e.Sound (table.getD []) (s.appliedBy j)
    rw [htable]
    rcases Pool.getElem?_set_cases hj with ⟨rfl, rfl⟩ | ⟨-, hold⟩
    · exact hd
    · exact hs.calls j e hold

theorem appliedBy_length (hs : s.Recorded) : s.appliedBy s.calls.length = [] := by
  unfold appliedBy
  rw [List.map_eq_nil_iff, List.filter_eq_nil_iff]
  intro e he
  have hpast := hs.past e he
  simp only [decide_eq_true_eq]
  omega

theorem recorded_call (hs : s.Recorded) (session : Nat) (migrations : List Migration) :
    ({ s with calls := s.calls ++ [⟨session, migrations, .locking, none, none⟩] } : MigratingDatabase).Recorded := by
  refine ⟨hs.rows, hs.once, ?_, ?_, ?_⟩
  · intro e he
    have hpast := hs.past e he
    simp only [List.length_append, List.length_singleton]
    omega
  · intro e he hfound
    rcases List.mem_append.mp he with hold | hnew
    · exact hs.made e hold hfound
    · rw [List.mem_singleton.mp hnew] at hfound
      exact absurd rfl hfound
  · intro j e hj
    rcases Pool.getElem?_append_cases hj with ⟨rfl, rfl⟩ | hold
    · have hnothing : s.appliedBy s.calls.length = [] := appliedBy_length hs
      refine ⟨fun _ => rfl, fun _ => ⟨hnothing, rfl⟩, ?_, fun hne => absurd rfl hne, ?_, ?_⟩
      · intro found hfound
        cases hfound
      · intro m rest hp
        cases hp
      · intro m hm
        cases hm
    · exact hs.calls j e hold

theorem recorded_disconnect (hs : s.Recorded) (session : Nat) : (s.disconnect session).Recorded := by
  refine ⟨hs.rows, hs.once, ?_, ?_, ?_⟩
  · intro e he
    simpa [disconnect] using hs.past e he
  · intro d hd hfound
    obtain ⟨i, hi⟩ := List.mem_iff_getElem?.mp hd
    obtain ⟨c, hc, ⟨-, rfl⟩ | ⟨-, rfl⟩⟩ := disconnect_get hi
    · exact hs.made c (List.mem_of_getElem? hc) hfound
    · exact hs.made d (List.mem_of_getElem? hc) hfound
  · intro i d hi
    obtain ⟨c, hc, ⟨-, rfl⟩ | ⟨-, rfl⟩⟩ := disconnect_get hi
    · refine sound_idle (hs.calls i c hc) rfl ?_
      rintro (hp | hp | hp) <;> cases hp
    · exact hs.calls i d hc

theorem recordOf_none {stored : List MigrationRow} {version : Nat} :
    recordOf stored version = none ↔ version ∉ stored.map MigrationRow.version := by
  unfold recordOf
  simp

theorem versions_rows (hs : s.Recorded) :
    s.rows.map MigrationRow.version = s.effects.map fun e => e.migration.version := by
  rw [hs.rows, List.map_map]
  rfl

/-- The row and the effect are there at once, and the one who commits is alone. -/
theorem recorded_commit (hg : s.Guarded) (hs : s.Recorded) (hi : s.calls[i]? = some c) (hphase : c.phase = .inserted m rest)
    (answered : Bool) : (s.commit i c m rest answered).Recorded := by
  have hsound := hs.calls i c hi
  have hinside : c.phase.inside = true := by
    rw [hphase]
    rfl
  have hfound : c.found ≠ none := by
    intro hnone
    have hahead := (hsound.unread hnone).2
    rw [hphase] at hahead
    cases hahead
  obtain ⟨stored, htable⟩ := Option.ne_none_iff_exists'.mp (hs.made c (List.mem_of_getElem? hi) hfound)
  have hrows : (s.commit i c m rest answered).rows = s.rows ++ [m.row] := by
    simp [commit, MigratingDatabase.rows, htable]
  have hown : (s.commit i c m rest answered).appliedBy i = s.appliedBy i ++ [m] := by
    simp [commit, appliedBy]
  have hothers : ∀ j, j ≠ i → (s.commit i c m rest answered).appliedBy j = s.appliedBy j := by
    intro j hne
    simp [commit, appliedBy, hne.symm]
  refine ⟨?_, ?_, ?_, ?_, ?_⟩
  · rw [hrows, hs.rows]
    simp [commit]
  · have hfresh : m.version ∉ s.effects.map fun e => e.migration.version := by
      rw [← versions_rows hs]
      exact recordOf_none.mp (hsound.fresh m rest hphase)
    show (List.map (fun e : MigrationEffect => e.migration.version) (s.effects ++ [⟨i, m⟩])).Nodup
    rw [List.map_append]
    refine List.Nodup.append hs.once (List.nodup_singleton _) ?_
    intro version hold hnew
    rw [List.map_singleton, List.mem_singleton] at hnew
    exact hfresh (hnew ▸ hold)
  · intro e he
    simp only [commit, List.length_set]
    rcases List.mem_append.mp he with hold | hnew
    · exact hs.past e hold
    · rw [List.mem_singleton.mp hnew]
      exact Pool.lt_of_getElem? hi
  · intro _ _ _
    simp [commit, htable]
  · intro j e hj
    rcases Pool.getElem?_set_cases hj with ⟨rfl, rfl⟩ | ⟨hne, hold⟩
    · rw [hown]
      exact sound_commit hsound hphase _ answered
    · rw [hothers j hne]
      exact sound_outside (hs.calls j e hold) (alone hg hi hold hne.symm hinside) _

theorem recorded_migrationStep (hg : s.Guarded) (hs : s.Recorded) {l : MigrationLabel} (h : MigrationStep s l s') : s'.Recorded := by
  cases h with
  | call session migrations => exact recorded_call hs session migrations
  | lock hi hphase =>
    refine recorded_set hs hi rfl id .inl ?_
    exact sound_idle (hs.calls _ _ hi) rfl fun _ => .inl hphase
  | ensureTable hi hphase =>
    refine recorded_set hs hi rfl (fun _ => Option.some_ne_none _) .inl ?_
    exact sound_idle (hs.calls _ _ hi) rfl fun _ => .inr (.inl hphase)
  | @select i c stored hi htable hphase =>
    have hrows : s.rows = stored := by
      rw [MigratingDatabase.rows, htable]
      rfl
    refine recorded_set hs hi rfl id (fun _ => .inr (by simp [htable])) ?_
    rw [← hrows]
    exact sound_read (hs.calls _ _ hi) hphase
  | begin hi hphase =>
    refine recorded_set hs hi rfl id .inl (sound_ahead (hs.calls _ _ hi) (by rw [hphase]; rfl) rfl ?_)
    intro m rest hp
    cases hp
  | run hi hphase =>
    refine recorded_set hs hi rfl id .inl (sound_ahead (hs.calls _ _ hi) (by rw [hphase]; rfl) rfl ?_)
    intro m rest hp
    cases hp
  | insert hi hphase htable hrecord =>
    refine recorded_set hs hi rfl id .inl (sound_ahead (hs.calls _ _ hi) (by rw [hphase]; rfl) rfl ?_)
    intro m rest hp
    cases hp
    exact hrecord
  | commit answered hi hphase => exact recorded_commit hg hs hi hphase answered
  | rollback hi hphase =>
    refine recorded_set hs hi rfl id .inl (sound_idle (hs.calls _ _ hi) rfl ?_)
    rintro (hp | hp | hp) <;> cases hp
  | unlock hi hphase =>
    refine recorded_set hs hi rfl id .inl (sound_idle (hs.calls _ _ hi) rfl ?_)
    rintro (hp | hp | hp) <;> cases hp
  | fail hi hfail =>
    refine recorded_set hs hi rfl id (fun hread => .inl ?_) (sound_fail (hs.calls _ _ hi) hfail)
    rwa [(fail_cases hfail).2.2.1] at hread
  | disconnect session => exact recorded_disconnect hs session

theorem guarded_empty : MigratingDatabase.empty.Guarded := by
  refine ⟨?_, ?_, ?_⟩
  · intro session h
    cases h
  · intro c h
    cases h
  · intro i j c d _ h
    cases h

theorem recorded_empty : MigratingDatabase.empty.Recorded := by
  refine ⟨rfl, List.nodup_nil, ?_, ?_, ?_⟩
  · intro e h
    cases h
  · intro c h
    cases h
  · intro i c h
    cases h

/-! ## A run -/

theorem not_verified {migrations : List Migration} {found : List MigrationRow}
    (h : ∃ m ∈ migrations, ∃ row, recordOf found m.version = some row ∧ row.checksum ≠ m.checksum) :
    verified migrations found = false := by
  obtain ⟨m, hm, row, hrow, hne⟩ := h
  refine List.all_eq_false.mpr ⟨m, hm, ?_⟩
  simpa [hrow] using hne

/-- What is pending before a migration stands before it in the list. -/
theorem pending_split {migrations : List Migration} {found : List MigrationRow} {before after : List Migration}
    (h : pendingOf migrations found = before ++ m :: after) :
    ∃ before' after', migrations = before' ++ m :: after' ∧ before.Sublist before' := by
  obtain ⟨first, second, rfl, hfirst, hsecond⟩ := List.filter_eq_append_iff.mp h
  obtain ⟨skipped, after', rfl, -, -, -⟩ := List.filter_eq_cons_iff.mp hsecond
  refine ⟨first ++ skipped, after', by simp, ?_⟩
  rw [← hfirst]
  exact List.filter_sublist.trans (List.sublist_append_left _ _)

theorem migratedOnce_of_recorded (hs : s.Recorded) : s.MigratedOnce := by
  refine ⟨?_, hs.once, ?_, ?_, ?_⟩
  · intro version
    rw [versions_rows hs]
  · intro row hrow
    rw [hs.rows] at hrow
    exact List.mem_map.mp hrow
  · intro i c found hi hfound hchanged
    exact ((hs.calls i c hi).refused found hfound (not_verified hchanged)).1
  · intro i c m hi hm
    obtain ⟨-, found, before, after, -, hpending, happlied⟩ := (hs.calls i c hi).failed m hm
    obtain ⟨before', after', hlist, hsub⟩ := pending_split hpending
    refine ⟨before', after', hlist, ?_⟩
    rcases happlied with h | h
    · rw [h]
      exact hsub.trans (List.sublist_append_left _ _)
    · rw [h]
      exact hsub.append (List.Sublist.refl _)

/-- Migrations run exactly once. -/
theorem migrations_run_once {labels : List MigrationLabel} (hrun : Runs.run step .empty labels = some s) :
    s.MigratedOnce := by
  have hinv : s.Guarded ∧ s.Recorded := by
    refine Runs.invariant (P := fun s : MigratingDatabase => s.Guarded ∧ s.Recorded) ?_ ⟨guarded_empty, recorded_empty⟩ hrun
    intro l s s' h hstep
    have hcases := migrationStep_cases hstep
    exact ⟨guarded_migrationStep h.1 hcases, recorded_migrationStep h.1 h.2 hcases⟩
  exact migratedOnce_of_recorded hinv.2

/-- Two processes start at once. The first applies one migration and fails in the
second; the other comes with an edited first one, and is refused. -/
def contestedStart : List MigrationLabel :=
  let initial : Migration := ⟨1, "initial", "CREATE TABLE tenants ()", "aa"⟩
  let quotas : Migration := ⟨2, "quotas", "CREATE TABLE quotas ()", "bb"⟩
  let edited : Migration := ⟨1, "initial", "CREATE TABLE tenants (id TEXT)", "cc"⟩
  [.call 0 [initial, quotas], .call 1 [edited, quotas], .lock 0, .ensureTable 0, .select 0,
    .begin 0, .run 0, .insert 0, .commit 0 true, .begin 0, .fail 0, .rollback 0, .unlock 0,
    .lock 1, .ensureTable 1, .select 1, .unlock 1]

theorem migrations_run_once_contested : ∃ s, Runs.run step .empty contestedStart = some s ∧
    s.rows = [⟨1, "initial", "aa"⟩] ∧ s.appliedBy 1 = [] ∧ s.MigratedOnce := by
  have h : (Runs.run step .empty contestedStart).map (fun s => (s.rows, s.appliedBy 1)) =
      some ([⟨1, "initial", "aa"⟩], []) := by
    decide +kernel
  obtain ⟨s, hrun, hview⟩ := Option.map_eq_some_iff.mp h
  obtain ⟨hrows, happlied⟩ := Prod.mk.inj hview
  exact ⟨s, hrun, hrows, happlied, migrations_run_once hrun⟩

end

end Paymaster
