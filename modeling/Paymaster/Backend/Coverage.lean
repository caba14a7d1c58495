import Paymaster.Backend.Reconciler
import Paymaster.Lib.Pool
import Paymaster.Lib.Run

/-!
# Which blocks are scanned

The checkpoint of a chain stands for a claim about the past: every block from
the first scanned one up to it was fetched by a tick that offered all its
events. A tick that read a checkpoint extends the claim, whatever the others
did since. A tick that read none starts at a block of its own choice, and where
another has saved a checkpoint in the meantime `GREATEST` may jump over the
blocks between the two.
-/

namespace Paymaster

open Function Pool

section
variable {deps : SponsorServiceDeps} {options : SpendReconcilerOptions} {b b' : Backend} {chainId : Nat}

/-! ## Windows -/

structure Window.Sound (options : SpendReconcilerOptions) (head : Nat) (w : Window) : Prop where
  ordered : w.fromBlock ≤ w.toBlock
  deep : w.toBlock + options.confirmations ≤ w.latest
  read : w.latest ≤ head
  next : ∀ c, w.checkpoint = some c → w.fromBlock = c + 1

theorem windowOf_sound {latest head : Nat} {checkpoint : Option Nat} {w : Window}
    (h : windowOf options latest checkpoint = some w) (hconf : options.confirmations ≤ latest) (hread : latest ≤ head) :
    w.Sound options head ∧ w.checkpoint = checkpoint := by
  have hrange := options.maxBlockRange_pos
  cases checkpoint with
  | none =>
    simp only [windowOf] at h
    split at h
    · cases h
    · cases h
      exact ⟨⟨by simp only; omega, by simp only; omega, hread, by simp⟩, rfl⟩
  | some c =>
    simp only [windowOf] at h
    split at h
    · cases h
    · cases h
      exact ⟨⟨by simp only; omega, by simp only; omega, hread, by simp⟩, rfl⟩

theorem mem_getUserOperationEvents {chain : List UserOperationEvent} {fromBlock toBlock : Nat} {e : UserOperationEvent} :
    e ∈ getUserOperationEvents chain chainId fromBlock toBlock ↔
      e ∈ chain ∧ e.chainId = chainId ∧ fromBlock ≤ e.blockNumber ∧ e.blockNumber ≤ toBlock := by
  unfold getUserOperationEvents
  rw [List.mem_filter]
  simp only [decide_eq_true_eq]

/-- A reorganisation leaves the events of settled blocks, and their order. -/
theorem getUserOperationEvents_advance {chainId' newHead fromBlock toBlock : Nat} {events : List UserOperationEvent}
    (hg : b.Grows options chainId' newHead events) (hdeep : toBlock + options.confirmations ≤ b.head chainId) :
    getUserOperationEvents (b.advance options chainId' newHead events).chain chainId fromBlock toBlock =
      getUserOperationEvents b.chain chainId fromBlock toBlock := by
  unfold getUserOperationEvents Backend.advance
  simp only [List.filter_append, List.filter_filter]
  have hnew : (events.filter fun e => e.chainId = chainId ∧ fromBlock ≤ e.blockNumber ∧ e.blockNumber ≤ toBlock) = [] := by
    refine List.filter_eq_nil_iff.mpr fun e he => ?_
    obtain ⟨hc, hb, -⟩ := hg.2 e he
    simp only [decide_eq_true_eq]
    rintro ⟨rfl, -, hle⟩
    rw [← hc] at hb
    omega
  rw [hnew, List.append_nil]
  refine List.filter_congr fun e _ => ?_
  by_cases hw : e.chainId = chainId ∧ fromBlock ≤ e.blockNumber ∧ e.blockNumber ≤ toBlock
  · have hs : b.settled options e = true := by
      simp only [Backend.settled, hw.1, decide_eq_true_eq]
      omega
    simp [hw, hs]
  · simp only [hw, decide_false, Bool.false_and]

/-! ## What only grows -/

/-- What a later state keeps: heads and checkpoints never go back, ticks stay on
their chain, and the events of settled blocks are final. -/
structure Later (options : SpendReconcilerOptions) (b b' : Backend) : Prop where
  head : ∀ chainId, b.head chainId ≤ b'.head chainId
  checkpoints : ∀ chainId c, b.checkpoints chainId = some c → ∃ c', b'.checkpoints chainId = some c' ∧ c ≤ c'
  ticks : ∀ (k : Nat) (t : Tick), b.ticks[k]? = some t → ∃ t', b'.ticks[k]? = some t' ∧ t'.chainId = t.chainId
  fetched : b.fetched ⊆ b'.fetched
  offers : b.offers ⊆ b'.offers
  events : ∀ chainId fromBlock toBlock, toBlock + options.confirmations ≤ b.head chainId →
    getUserOperationEvents b'.chain chainId fromBlock toBlock = getUserOperationEvents b.chain chainId fromBlock toBlock

/-- A tick steps: nothing moves but its phase and what is recorded of its progress. -/
theorem Later.of_tick {k : Nat} {t t' : Tick} (ht : b.ticks[k]? = some t) (hticks : b'.ticks = b.ticks.set k t')
    (hchain : t'.chainId = t.chainId) (hhead : b'.head = b.head) (hevents : b'.chain = b.chain)
    (hcheckpoints : ∀ chainId c, b.checkpoints chainId = some c → ∃ c', b'.checkpoints chainId = some c' ∧ c ≤ c')
    (hfetched : b.fetched ⊆ b'.fetched) (hoffers : b.offers ⊆ b'.offers) : Later options b b' where
  head _ := by rw [hhead]
  checkpoints := hcheckpoints
  ticks k' t₁ h := by
    rw [hticks]
    by_cases hk : k = k'
    · subst hk
      rw [List.getElem?_set_self (lt_of_getElem? ht)]
      obtain rfl := Option.some.inj (ht.symm.trans h)
      exact ⟨t', rfl, hchain⟩
    · rw [List.getElem?_set_ne hk]
      exact ⟨t₁, h, rfl⟩
  fetched := hfetched
  offers := hoffers
  events _ _ _ _ := by rw [hevents]

theorem Later.setTick {k : Nat} {t : Tick} (ht : b.ticks[k]? = some t) (phase : TickPhase) :
    Later options b (b.setTick k t phase) :=
  .of_tick ht rfl rfl rfl rfl (fun _ c h => ⟨c, h, Nat.le_refl c⟩) (List.Subset.refl _) (List.Subset.refl _)

theorem le_saveCheckpoint {checkpoint : Option Nat} {block c : Nat} (h : checkpoint = some c) :
    ∃ c', saveCheckpoint checkpoint block = some c' ∧ c ≤ c' := by
  subst h
  exact ⟨_, rfl, Nat.le_max_left _ _⟩

theorem later_step {l : BackendLabel} (h : BackendStep deps options b l b') : Later options b b' := by
  cases h with
  | sponsor hs =>
    exact ⟨fun _ => Nat.le_refl _, fun _ c h => ⟨c, h, Nat.le_refl c⟩, fun _ t h => ⟨t, h, rfl⟩,
      List.Subset.refl _, List.Subset.refl _, fun _ _ _ _ => rfl⟩
  | @advance chainId newHead events hg =>
    refine ⟨fun chainId' => ?_, fun _ c h => ⟨c, h, Nat.le_refl c⟩, fun _ t h => ⟨t, h, rfl⟩,
      List.Subset.refl _, List.Subset.refl _, fun _ _ _ hdeep => getUserOperationEvents_advance hg hdeep⟩
    simp only [Backend.advance]
    by_cases hc : chainId' = chainId
    · subst hc
      rw [update_self]
      exact hg.1
    · rw [update_of_ne hc]
  | reconcile replica chainId =>
    exact ⟨fun _ => Nat.le_refl _, fun _ c h => ⟨c, h, Nat.le_refl c⟩,
      fun _ t h => ⟨t, getElem?_append_of_some h, rfl⟩, List.Subset.refl _, List.Subset.refl _, fun _ _ _ _ => rfl⟩
  | measured ht => exact .setTick ht _
  | fetching ht => exact .setTick ht _
  | fetched ht =>
    exact .of_tick ht rfl rfl rfl rfl (fun _ c h => ⟨c, h, Nat.le_refl c⟩) (List.subset_cons_self ..) (List.Subset.refl _)
  | unclaimed ht =>
    exact .of_tick ht rfl rfl rfl rfl (fun _ c h => ⟨c, h, Nat.le_refl c⟩) (List.Subset.refl _) (List.subset_cons_self ..)
  | claimed ht _ hr =>
    simp only [Backend.claim, hr]
    exact .of_tick ht rfl rfl rfl rfl (fun _ c h => ⟨c, h, Nat.le_refl c⟩) (List.Subset.refl _) (List.subset_cons_self ..)
  | skipped ht => exact .setTick ht _
  | lookup ht => exact .setTick ht _
  | trueUp stored ht =>
    unfold Backend.trueUp
    cases stored
    · exact .setTick ht _
    · exact .of_tick ht rfl rfl rfl rfl (fun _ c h => ⟨c, h, Nat.le_refl c⟩) (List.Subset.refl _) (List.Subset.refl _)
  | @saved k t w ht =>
    refine .of_tick ht rfl rfl rfl rfl (fun chainId c h => ?_) (List.Subset.refl _) (List.Subset.refl _)
    simp only [Backend.save]
    by_cases hc : chainId = t.chainId
    · subst hc
      rw [update_self]
      exact le_saveCheckpoint h
    · rw [update_of_ne hc]
      exact ⟨c, h, Nat.le_refl c⟩
  | finished _ ht => exact .setTick ht _

/-! ## Where the ticks are -/

def TickPhase.ahead? : TickPhase → Option (Window × List UserOperationEvent)
  | .offering w events | .claimed w events _ _ | .refunding w events _ _ _ => some (w, events)
  | _ => none

def TickPhase.window? : TickPhase → Option Window
  | .fetching w => some w
  | phase => phase.ahead?.map Prod.fst

/-- What a tick read was true, and what it has not offered any more is all that is left. -/
structure Tick.Sound (options : SpendReconcilerOptions) (b : Backend) (k : Nat) (t : Tick) : Prop where
  measured : ∀ latest, t.phase = .measured latest → options.confirmations ≤ latest ∧ latest ≤ b.head t.chainId
  window : ∀ w, t.phase.window? = some w → w.Sound options (b.head t.chainId) ∧
    ∀ c, w.checkpoint = some c → ∃ c', b.checkpoints t.chainId = some c' ∧ c ≤ c'
  offered : ∀ w events, t.phase.ahead? = some (w, events) → (k, w) ∈ b.fetched ∧
    ∃ done, getUserOperationEvents b.chain t.chainId w.fromBlock w.toBlock = done ++ events ∧
      ∀ e ∈ done, (k, e) ∈ b.offers

theorem TickPhase.window?_of_ahead {phase : TickPhase} {w : Window} {events : List UserOperationEvent}
    (h : phase.ahead? = some (w, events)) : phase.window? = some w := by
  cases phase <;> cases h <;> rfl

theorem Window.Sound.later {head head' : Nat} {w : Window} (h : w.Sound options head) (hle : head ≤ head') :
    w.Sound options head' :=
  ⟨h.ordered, h.deep, Nat.le_trans h.read hle, h.next⟩

theorem Window.Sound.settled {head : Nat} {w : Window} (h : w.Sound options head) :
    w.toBlock + options.confirmations ≤ head :=
  Nat.le_trans h.deep h.read

theorem Tick.Sound.later {k : Nat} {t : Tick} (h : t.Sound options b k) (hl : Later options b b') :
    t.Sound options b' k where
  measured latest hp := ⟨(h.measured latest hp).1, Nat.le_trans (h.measured latest hp).2 (hl.head _)⟩
  window w hw := by
    obtain ⟨hs, hc⟩ := h.window w hw
    refine ⟨hs.later (hl.head _), fun c hwc => ?_⟩
    obtain ⟨c', hc', hle⟩ := hc c hwc
    obtain ⟨c'', hc'', hle'⟩ := hl.checkpoints _ _ hc'
    exact ⟨c'', hc'', Nat.le_trans hle hle'⟩
  offered w events hw := by
    obtain ⟨hf, done, hdone, ho⟩ := h.offered w events hw
    have hdeep := (h.window w (TickPhase.window?_of_ahead hw)).1.settled
    exact ⟨hl.fetched hf, done, (hl.events _ _ _ hdeep).trans hdone, fun e he => hl.offers (ho e he)⟩

theorem Tick.Sound.idle {k : Nat} {t : Tick} (hm : ∀ latest, t.phase ≠ .measured latest) (hw : t.phase.window? = none) :
    t.Sound options b k where
  measured latest hp := absurd hp (hm latest)
  window w h := by rw [hw] at h; cases h
  offered w events h := by rw [TickPhase.window?_of_ahead h] at hw; cases hw

theorem Tick.Sound.forward {k : Nat} {t : Tick} {phase : TickPhase} {w : Window} {events : List UserOperationEvent}
    (h : t.Sound options b k) (ht : t.phase.ahead? = some (w, events)) (hp : phase.ahead? = some (w, events)) :
    Tick.Sound options b k { t with phase := phase } where
  measured latest hm := by rw [show phase = .measured latest from hm] at hp; cases hp
  window w' hw := by
    rw [show phase.window? = some w from TickPhase.window?_of_ahead hp] at hw
    obtain rfl := Option.some.inj hw
    exact h.window w (TickPhase.window?_of_ahead ht)
  offered w' events' hw := by
    obtain ⟨rfl, rfl⟩ := Prod.mk.inj (Option.some.inj (hp.symm.trans hw))
    exact h.offered w events ht

theorem Tick.Sound.offer {k : Nat} {t : Tick} {phase : TickPhase} {w : Window} {event : UserOperationEvent}
    {events : List UserOperationEvent} (h : t.Sound options b k) (ht : t.phase = .offering w (event :: events))
    (hp : phase.ahead? = some (w, events)) (hl : Later options b b') (ho : (k, event) ∈ b'.offers) :
    Tick.Sound options b' k { t with phase := phase } where
  measured latest hm := by rw [show phase = .measured latest from hm] at hp; cases hp
  window w' hw := by
    rw [show phase.window? = some w from TickPhase.window?_of_ahead hp] at hw
    obtain rfl := Option.some.inj hw
    exact (h.later hl).window w (by rw [ht]; rfl)
  offered w' events' hw := by
    obtain ⟨rfl, rfl⟩ := Prod.mk.inj (Option.some.inj (hp.symm.trans hw))
    obtain ⟨hf, done, hdone, hoffers⟩ := (h.later hl).offered w (event :: events) (by rw [ht]; rfl)
    refine ⟨hf, done ++ [event], by rw [hdone, List.append_assoc]; rfl, fun e he => ?_⟩
    rcases List.mem_append.mp he with he | he
    · exact hoffers e he
    · exact List.mem_singleton.mp he ▸ ho

structure Scans (options : SpendReconcilerOptions) (b : Backend) : Prop where
  ticks : ∀ (k : Nat) (t : Tick), b.ticks[k]? = some t → t.Sound options b k
  fetched : ∀ k w, (k, w) ∈ b.fetched → ∃ t : Tick, b.ticks[k]? = some t ∧ w.Sound options (b.head t.chainId)
  origin : ∀ chainId, b.checkpoints chainId = none ↔ b.origin chainId = none
  origin_le : ∀ chainId f c, b.origin chainId = some f → b.checkpoints chainId = some c → f ≤ c

theorem Scans.later_fetched (h : Scans options b) (hl : Later options b b') (k : Nat) (w : Window) (hw : (k, w) ∈ b.fetched) :
    ∃ t : Tick, b'.ticks[k]? = some t ∧ w.Sound options (b'.head t.chainId) := by
  obtain ⟨t, ht, hs⟩ := h.fetched k w hw
  obtain ⟨t', ht', hc⟩ := hl.ticks k t ht
  exact ⟨t', ht', hc ▸ hs.later (hl.head _)⟩

/-- The step of a tick keeps the invariant if it leaves the tick as it seems. -/
theorem Scans.of_tick {k : Nat} {t' : Tick} (h : Scans options b) (hl : Later options b b')
    (hticks : b'.ticks = b.ticks.set k t') (ht' : t'.Sound options b' k) (hfetched : b'.fetched = b.fetched)
    (hcheckpoints : b'.checkpoints = b.checkpoints) (horigin : b'.origin = b.origin) : Scans options b' where
  ticks k' t₁ h₁ := by
    rw [hticks] at h₁
    rcases getElem?_set_cases h₁ with ⟨rfl, rfl⟩ | ⟨-, h₁⟩
    · exact ht'
    · exact (h.ticks k' t₁ h₁).later hl
  fetched k' w hw := by
    rw [hfetched] at hw
    exact h.later_fetched hl k' w hw
  origin := by rw [hcheckpoints, horigin]; exact h.origin
  origin_le := by rw [hcheckpoints, horigin]; exact h.origin_le

theorem Scans.origin_save (hs : Scans options b) (k : Nat) (t : Tick) (w : Window) (chainId : Nat) :
    (b.save k t w).checkpoints chainId = none ↔ (b.save k t w).origin chainId = none := by
  simp only [Backend.save]
  by_cases hc : chainId = t.chainId
  · subst hc
    rw [update_self, update_self]
    cases b.checkpoints t.chainId <;> cases b.origin t.chainId <;> simp [saveCheckpoint]
  · rw [update_of_ne hc, update_of_ne hc]
    exact hs.origin chainId

/-- The first block of a chain stays below the checkpoint, since neither goes back. -/
theorem Scans.origin_le_save {w : Window} {chainId f c : Nat} (hs : Scans options b) (k : Nat) (t : Tick)
    (hordered : w.fromBlock ≤ w.toBlock) (hf : (b.save k t w).origin chainId = some f)
    (hc : (b.save k t w).checkpoints chainId = some c) : f ≤ c := by
  simp only [Backend.save] at hf hc
  by_cases hch : chainId = t.chainId
  · subst hch
    rw [update_self] at hf hc
    cases ho : b.origin t.chainId with
    | none =>
      rw [(hs.origin _).mpr ho] at hc
      rw [ho] at hf
      cases hf
      cases hc
      exact hordered
    | some f' =>
      rw [ho] at hf
      cases hf
      cases hcp : b.checkpoints t.chainId with
      | none =>
        rw [(hs.origin _).mp hcp] at ho
        cases ho
      | some stored =>
        rw [hcp] at hc
        cases hc
        exact Nat.le_trans (hs.origin_le _ _ _ ho hcp) (Nat.le_max_left _ _)
  · rw [update_of_ne hch] at hf hc
    exact hs.origin_le _ _ _ hf hc

theorem scans_step {l : BackendLabel} (h : BackendStep deps options b l b') (hs : Scans options b) :
    Scans options b' := by
  have hl := later_step h
  have hticks : ∀ (k : Nat) (t : Tick), b.ticks[k]? = some t → t.Sound options b' k :=
    fun k t ht => (hs.ticks k t ht).later hl
  have hfetched : ∀ k w, (k, w) ∈ b.fetched → ∃ t : Tick, b'.ticks[k]? = some t ∧ w.Sound options (b'.head t.chainId) :=
    (hs.later_fetched hl)
  cases h with
  | sponsor => exact ⟨hticks, hfetched, hs.origin, hs.origin_le⟩
  | advance => exact ⟨hticks, hfetched, hs.origin, hs.origin_le⟩
  | reconcile replica chainId =>
    refine ⟨fun k t ht => ?_, hfetched, hs.origin, hs.origin_le⟩
    rcases getElem?_append_cases ht with ⟨rfl, rfl⟩ | ht
    · exact .idle (by simp) rfl
    · exact hticks k t ht
  | @measured k latest t ht hp hle hconf =>
    refine hs.of_tick hl rfl ⟨fun latest' hp' => ?_, fun w hw => ?_, fun w events hw => ?_⟩ rfl rfl rfl
    · cases hp'
      exact ⟨hconf, hle⟩
    · cases hw
    · cases hw
  | @fetching k latest t w ht hp hw =>
    obtain ⟨hconf, hle⟩ := (hs.ticks k t ht).measured latest hp
    obtain ⟨hsound, hread⟩ := windowOf_sound hw hconf hle
    refine hs.of_tick hl rfl ⟨fun latest' hp' => ?_, fun w' hw' => ?_, fun w' events hw' => ?_⟩ rfl rfl rfl
    · cases hp'
    · cases hw'
      exact ⟨hsound, fun c hc => ⟨c, hread ▸ hc, Nat.le_refl c⟩⟩
    · cases hw'
  | @fetched k t w ht hp =>
    have hsound := (hs.ticks k t ht).window w (by rw [hp]; rfl)
    refine ⟨fun k' t' ht' => ?_, fun k' w' hw' => ?_, hs.origin, hs.origin_le⟩
    · rcases getElem?_set_cases ht' with ⟨rfl, rfl⟩ | ⟨-, ht'⟩
      · refine ⟨fun latest hp' => (by cases hp'), fun w' hw' => ?_, fun w' events hw' => ?_⟩
        · cases hw'
          exact hsound
        · cases hw'
          exact ⟨List.mem_cons_self, [], rfl, by simp⟩
      · exact hticks k' t' ht'
    · rcases List.mem_cons.mp hw' with he | hw'
      · cases he
        exact ⟨_, List.getElem?_set_self (lt_of_getElem? ht), hsound.1⟩
      · exact hfetched k' w' hw'
  | @unclaimed k locked t w event events ht hp =>
    exact hs.of_tick hl rfl ((hs.ticks k t ht).offer hp rfl hl List.mem_cons_self) rfl rfl rfl
  | @claimed k r locked t w event events row ht hp hr =>
    have hclaim : b.claim k t w event events (some r) =
        { b.setTick k t (.claimed w events event r) with
          service := { b.service with rows := b.service.rows.set r (row.reconcile event) }
          offers := (k, event) :: b.offers
          claims := r :: b.claims } := by
      simp only [Backend.claim, hr]
    rw [hclaim] at hl ⊢
    exact hs.of_tick hl rfl ((hs.ticks k t ht).offer hp rfl hl List.mem_cons_self) rfl rfl rfl
  | @skipped k r t w event events ht hp =>
    exact hs.of_tick hl rfl (((hs.ticks k t ht).later hl).forward (by rw [hp]; rfl) rfl) rfl rfl rfl
  | @lookup k r t w event events row policy ht hp =>
    refine hs.of_tick hl rfl (((hs.ticks k t ht).later hl).forward (by rw [hp]; rfl) ?_) rfl rfl rfl
    cases reservingOf policy.rules <;> rfl
  | @trueUp k r t w events row reservation rule rules stored ht hp =>
    have hnext : (TickPhase.refund w events r reservation rules).ahead? = some (w, events) := by cases rules <;> rfl
    cases stored <;>
      exact hs.of_tick hl rfl (((hs.ticks k t ht).later hl).forward (by rw [hp]; rfl) hnext) rfl rfl rfl
  | @saved k t w ht hp =>
    have hordered := ((hs.ticks k t ht).window w (by rw [hp]; rfl)).1.ordered
    refine ⟨fun k' t' ht' => ?_, hfetched, hs.origin_save k t w, fun _ _ _ hf hc => hs.origin_le_save k t hordered hf hc⟩
    rcases getElem?_set_cases ht' with ⟨rfl, rfl⟩ | ⟨-, ht'⟩
    · exact .idle (by simp) rfl
    · exact hticks k' t' ht'
  | finished _ ht => exact hs.of_tick hl rfl (.idle (by simp) rfl) rfl rfl rfl

theorem scans_start (policies : Nat → PolicySource) (counters : Counters) :
    Scans options (.start policies counters) := by
  constructor <;> simp [Backend.start]

/-! ## Coverage -/

/-- Some tick fetched the block, when the head it had read was deep enough, and
offered every event of the block. -/
def Scanned (options : SpendReconcilerOptions) (b : Backend) (chainId block : Nat) : Prop :=
  ∃ p ∈ b.fetched, (b.ticks[p.1]?).any (fun t => t.chainId = chainId) = true ∧
    p.2.fromBlock ≤ block ∧ block ≤ p.2.toBlock ∧
    block + options.confirmations ≤ p.2.latest ∧ p.2.latest ≤ b.head chainId ∧
    ∀ e ∈ b.chain, e.chainId = chainId → e.blockNumber = block → (p.1, e) ∈ b.offers

instance (b : Backend) (chainId block : Nat) : Decidable (Scanned options b chainId block) :=
  inferInstanceAs (Decidable (∃ p ∈ b.fetched, _))

/-- Every block from the first one scanned to the checkpoint was scanned. -/
def Covered (options : SpendReconcilerOptions) (chainId : Nat) (b : Backend) : Prop :=
  ∀ c ∈ b.checkpoints chainId, ∀ f ∈ b.origin chainId, ∀ block < c + 1, f ≤ block → Scanned options b chainId block

instance (chainId : Nat) (b : Backend) : Decidable (Covered options chainId b) :=
  inferInstanceAs (Decidable (∀ c ∈ b.checkpoints chainId, _))

def TickPhase.done? : TickPhase → Option Window
  | .offering w [] => some w
  | _ => none

/-- A tick that read no checkpoint saves its window over a checkpoint only if
nothing between the two is left to scan. -/
def SavesOnto (options : SpendReconcilerOptions) (chainId : Nat) (b : Backend) : BackendLabel → Prop
  | .saveCheckpoint k => ∀ t ∈ b.ticks[k]?, ∀ w ∈ t.phase.done?, t.chainId = chainId → w.checkpoint = none →
      ∀ c ∈ b.checkpoints chainId, ∀ block < w.fromBlock, c < block → Scanned options b chainId block
  | _ => True

instance (chainId : Nat) (b : Backend) : (l : BackendLabel) → Decidable (SavesOnto options chainId b l)
  | .saveCheckpoint k => inferInstanceAs (Decidable (∀ t ∈ b.ticks[k]?, _))
  | .sponsor _ | .advance .. | .reconcile .. | .latestBlock .. | .getCheckpoint _ | .fetch _ | .claim .. | .lookup _
  | .trueUp .. | .crash _ => isTrue trivial

/-- The checkpoint of a chain never goes back, and covers what it says at every moment of the run. -/
def NothingSkipped (deps : SponsorServiceDeps) (options : SpendReconcilerOptions) (chainId : Nat) (start : Backend)
    (ls : List BackendLabel) : Prop :=
  Runs.Meets (Backend.step deps options) (fun b l => ∀ b' ∈ b.step deps options l, ∀ c ∈ b.checkpoints chainId,
    ∃ c' ∈ b'.checkpoints chainId, c ≤ c') start ls ∧
  Runs.Always (Backend.step deps options) (Covered options chainId) start ls

theorem Scanned.later {block : Nat} (h : Scanned options b chainId block) (hl : Later options b b') :
    Scanned options b' chainId block := by
  obtain ⟨⟨k, w⟩, hf, ht, hfrom, hto, hdeep, hread, hoffers⟩ := h
  obtain ⟨t, ht, hc⟩ := (Option.any_eq_true ..).mp ht
  obtain ⟨t', ht', hc'⟩ := hl.ticks k t ht
  have hevents := hl.events chainId block block (Nat.le_trans hdeep hread)
  refine ⟨⟨k, w⟩, hl.fetched hf, (Option.any_eq_true ..).mpr ⟨t', ht', by rw [hc']; exact hc⟩, hfrom, hto, hdeep,
    Nat.le_trans hread (hl.head _), fun e he hce hbe => hl.offers (hoffers e ?_ hce hbe)⟩
  -- The block is settled, so the event was there before.
  have hmem : e ∈ getUserOperationEvents b'.chain chainId block block :=
    mem_getUserOperationEvents.mpr ⟨he, hce, hbe.ge, hbe.le⟩
  rw [hevents] at hmem
  exact (mem_getUserOperationEvents.mp hmem).1

/-- A tick that has nothing left to offer has scanned its window. -/
theorem Tick.Sound.scanned {k : Nat} {t : Tick} {w : Window} {block : Nat} (h : t.Sound options b k)
    (ht : b.ticks[k]? = some t) (hp : t.phase = .offering w []) (hfrom : w.fromBlock ≤ block) (hto : block ≤ w.toBlock) :
    Scanned options b t.chainId block := by
  obtain ⟨hf, done, hdone, hoffers⟩ := h.offered w [] (by rw [hp]; rfl)
  have hw := (h.window w (by rw [hp]; rfl)).1
  refine ⟨(k, w), hf, (Option.any_eq_true ..).mpr ⟨t, ht, by simp⟩, hfrom, hto, ?_, hw.read, fun e he hc hb => hoffers e ?_⟩
  · exact Nat.le_trans (Nat.add_le_add_right hto _) hw.deep
  · rw [List.append_nil] at hdone
    exact hdone ▸ mem_getUserOperationEvents.mpr ⟨he, hc, hb ▸ hfrom, hb ▸ hto⟩

theorem Covered.later (h : Covered options chainId b) (hl : Later options b b')
    (hcheckpoints : b'.checkpoints chainId = b.checkpoints chainId) (horigin : b'.origin chainId = b.origin chainId) :
    Covered options chainId b' := by
  unfold Covered
  rw [hcheckpoints, horigin]
  exact fun c hc f hf block hle hge => (h c hc f hf block hle hge).later hl

theorem scanned_of_save {k : Nat} {t : Tick} {w : Window} {block : Nat} (ht : b.ticks[k]? = some t)
    (h : Scanned options (b.save k t w) chainId block) : Scanned options b chainId block := by
  obtain ⟨⟨k', w'⟩, hf, ht', hrest⟩ := h
  obtain ⟨t', ht', hc⟩ := (Option.any_eq_true ..).mp ht'
  refine ⟨⟨k', w'⟩, hf, (Option.any_eq_true ..).mpr ?_, hrest⟩
  rcases getElem?_set_cases ht' with ⟨rfl, rfl⟩ | ⟨-, ht'⟩
  · exact ⟨t, ht, hc⟩
  · exact ⟨t', ht', hc⟩

theorem savesOnto_iff {k : Nat} {t : Tick} {w : Window} (ht : b.ticks[k]? = some t) (hp : t.phase = .offering w []) :
    SavesOnto options chainId b (.saveCheckpoint k) ↔ (t.chainId = chainId → w.checkpoint = none →
      ∀ c, b.checkpoints chainId = some c → ∀ block, block < w.fromBlock → c < block →
        Scanned options b chainId block) := by
  have hdone : t.phase.done? = some w := by rw [hp]; rfl
  simp only [SavesOnto, ht, hdone, Option.mem_def, Option.some.injEq, forall_eq']

/-- Saving keeps the coverage exactly if it leaves no gap. -/
theorem covered_save_iff {k : Nat} {t : Tick} {w : Window} (ht : b.ticks[k]? = some t) (hp : t.phase = .offering w [])
    (hs : Scans options b) (hc : Covered options chainId b) :
    Covered options chainId (b.save k t w) ↔ SavesOnto options chainId b (.saveCheckpoint k) := by
  have hl : Later options b (b.save k t w) := @later_step ⟨fun _ => none, ""⟩ _ _ _ _ (.saved ht hp)
  have hwindow := (hs.ticks k t ht).window w (by rw [hp]; rfl)
  rw [savesOnto_iff ht hp]
  by_cases hch : t.chainId = chainId
  swap
  · refine ⟨fun _ h => absurd h hch, fun _ => hc.later hl ?_ ?_⟩ <;>
      exact update_of_ne (Ne.symm hch) ..
  subst hch
  have hcheckpoint : (b.save k t w).checkpoints t.chainId = saveCheckpoint (b.checkpoints t.chainId) w.toBlock :=
    update_self ..
  have horigin : (b.save k t w).origin t.chainId = (b.origin t.chainId).or (some w.fromBlock) := update_self ..
  have hown : ∀ block, w.fromBlock ≤ block → block ≤ w.toBlock → Scanned options (b.save k t w) t.chainId block :=
    fun block hfrom hto => ((hs.ticks k t ht).scanned ht hp hfrom hto).later hl
  cases hcp : b.checkpoints t.chainId with
  | none =>
    -- The first checkpoint of the chain covers just the window.
    refine ⟨fun _ _ _ c h => (by cases h), fun _ c hc' f hf block hle hge => ?_⟩
    rw [hcheckpoint, hcp] at hc'
    rw [horigin, (hs.origin _).mp hcp] at hf
    cases hc'
    cases hf
    exact hown block hge (Nat.le_of_lt_succ hle)
  | some c =>
    obtain ⟨f, hf⟩ : ∃ f, b.origin t.chainId = some f := by
      refine Option.ne_none_iff_exists'.mp fun h => ?_
      rw [(hs.origin _).mpr h] at hcp
      cases hcp
    rw [hcp] at hcheckpoint
    rw [hf] at horigin
    constructor
    · rintro hcov - - c' hc' block hlt hgt
      cases hc'
      have hfc := hs.origin_le _ _ _ hf hcp
      refine scanned_of_save ht (hcov _ hcheckpoint f horigin block ?_ (by omega))
      have := hwindow.1.ordered
      omega
    · intro hgap c' hc' f' hf' block hle hge
      rw [hcheckpoint] at hc'
      rw [horigin] at hf'
      cases hc'
      cases hf'
      by_cases hold : block ≤ c
      · exact (hc c hcp f hf block (Nat.lt_succ_of_le hold) hge).later hl
      · by_cases hfrom : w.fromBlock ≤ block
        · exact hown block hfrom (by omega)
        · cases hread : w.checkpoint with
          | none => exact (hgap rfl hread c rfl block (by omega) (by omega)).later hl
          | some c₀ =>
            -- The checkpoint it read is still covered, and its window follows on.
            obtain ⟨c₁, hc₁, hle₁⟩ := hwindow.2 c₀ hread
            have := hwindow.1.next c₀ hread
            rw [hcp] at hc₁
            cases hc₁
            omega

theorem covered_step_iff {l : BackendLabel} (h : BackendStep deps options b l b') (hs : Scans options b)
    (hc : Covered options chainId b) : Covered options chainId b' ↔ SavesOnto options chainId b l := by
  have hl := later_step h
  have hquiet : b'.checkpoints = b.checkpoints → b'.origin = b.origin → SavesOnto options chainId b l →
      (Covered options chainId b' ↔ SavesOnto options chainId b l) :=
    fun hcheckpoints horigin hl' => iff_of_true (hc.later hl (by rw [hcheckpoints]) (by rw [horigin])) hl'
  cases h with
  | sponsor => exact hquiet rfl rfl trivial
  | advance => exact hquiet rfl rfl trivial
  | reconcile => exact hquiet rfl rfl trivial
  | measured => exact hquiet rfl rfl trivial
  | fetching => exact hquiet rfl rfl trivial
  | fetched => exact hquiet rfl rfl trivial
  | unclaimed => exact hquiet rfl rfl trivial
  | claimed ht hp hr =>
    refine hquiet ?_ ?_ trivial <;> simp only [Backend.claim, hr] <;> rfl
  | skipped => exact hquiet rfl rfl trivial
  | lookup => exact hquiet rfl rfl trivial
  | trueUp stored => cases stored <;> exact hquiet rfl rfl trivial
  | saved ht hp => exact covered_save_iff ht hp hs hc
  | finished l ht hl' => rcases hl' with ⟨_, rfl⟩ | rfl | rfl <;> exact hquiet rfl rfl trivial

theorem checkpoints_advance (start : Backend) (ls : List BackendLabel) :
    Runs.Meets (Backend.step deps options) (fun b l => ∀ b' ∈ b.step deps options l, ∀ c ∈ b.checkpoints chainId,
      ∃ c' ∈ b'.checkpoints chainId, c ≤ c') start ls :=
  Runs.meets_of_step (I := fun _ => True) (fun _ _ => trivial)
    (fun _ _ hstep c hc => (later_step (backendStep_cases hstep)).checkpoints _ c hc) trivial

theorem covered_always_iff {policies : Nat → PolicySource} {counters : Counters} {ls : List BackendLabel}
    (h : Runs.run (Backend.step deps options) (.start policies counters) ls = some b) :
    Runs.Always (Backend.step deps options) (Covered options chainId) (.start policies counters) ls ↔
      Runs.Meets (Backend.step deps options) (SavesOnto options chainId) (.start policies counters) ls :=
  Runs.always_iff_meets (I := Scans options) (P := Covered options chainId) (C := SavesOnto options chainId)
    (fun hs hstep => scans_step (backendStep_cases hstep) hs)
    (fun hs hc hstep => covered_step_iff (backendStep_cases hstep) hs hc) (scans_start policies counters)
    (by simp [Covered, Backend.start]) h

/-- **Coverage.** In every run of the backend, over any replicas, heads and
crashes, nothing is skipped on a chain exactly if no tick that had read no
checkpoint saved its window over one with a block between that no tick had
scanned. -/
theorem nothing_skipped_iff {policies : Nat → PolicySource} {counters : Counters} {ls : List BackendLabel}
    (h : Runs.run (Backend.step deps options) (.start policies counters) ls = some b) :
    NothingSkipped deps options chainId (.start policies counters) ls ↔
      Runs.Meets (Backend.step deps options) (SavesOnto options chainId) (.start policies counters) ls :=
  ⟨fun hskip => (covered_always_iff h).mp hskip.2,
    fun hmeets => ⟨checkpoints_advance _ _, (covered_always_iff h).mpr hmeets⟩⟩

def SavesAdjacent (chainId : Nat) (b : Backend) : BackendLabel → Prop
  | .saveCheckpoint k => ∀ t ∈ b.ticks[k]?, ∀ w ∈ t.phase.done?, t.chainId = chainId → w.checkpoint = none →
      ∀ c ∈ b.checkpoints chainId, w.fromBlock ≤ c + 1
  | _ => True

/-- So nothing is skipped where such windows leave no gap to the checkpoint they are saved over. -/
theorem nothing_skipped_of_adjacent {policies : Nat → PolicySource} {counters : Counters} {ls : List BackendLabel}
    (h : Runs.run (Backend.step deps options) (.start policies counters) ls = some b)
    (hmeets : Runs.Meets (Backend.step deps options) (SavesAdjacent chainId) (.start policies counters) ls) :
    NothingSkipped deps options chainId (.start policies counters) ls := by
  refine ⟨checkpoints_advance _ _, (covered_always_iff h).mpr (Runs.meets_mono (fun b l hadjacent => ?_) hmeets)⟩
  cases l with
  | saveCheckpoint k =>
    intro t ht w hw hchain hnone c hc block hfrom hafter
    have hadjacent := hadjacent t ht w hw hchain hnone c hc
    omega
  | _ => trivial

end

/-! ## Two replicas on a new chain -/

def scanOptions (lookback : Nat) : SpendReconcilerOptions := ⟨2, 10, lookback, by decide⟩

def noSponsorships : SponsorServiceDeps := ⟨fun _ => none, "standard"⟩

def noPolicies : PolicySource := ⟨[], List.nodup_nil⟩

/-- Two replicas find no checkpoint, the second at a head five blocks higher,
and save their windows one after the other. An operation lands in between. -/
def twoReplicas : List BackendLabel :=
  [.advance 1 20 [], .reconcile 0 1, .latestBlock 0 20, .getCheckpoint 0,
    .advance 1 25 [⟨1, 19, 4, 0, 4000000000, true, 0⟩], .reconcile 1 1, .latestBlock 1 25, .getCheckpoint 1,
    .fetch 0, .saveCheckpoint 0, .fetch 1]

/-- With a lookback of twelve blocks the windows overlap, and nothing is skipped. -/
theorem nothing_skipped_overlapping :
    NothingSkipped noSponsorships (scanOptions 12) 1 (.start (fun _ => noPolicies) fun _ => none)
      (twoReplicas ++ [.claim 1 [] none, .saveCheckpoint 1]) := by
  have hrun : (Runs.run (Backend.step noSponsorships (scanOptions 12)) (.start (fun _ => noPolicies) fun _ => none)
      (twoReplicas ++ [.claim 1 [] none, .saveCheckpoint 1])).isSome = true := by decide +kernel
  obtain ⟨b, hb⟩ := Option.isSome_iff_exists.mp hrun
  exact (nothing_skipped_iff hb).mpr (by decide +kernel)

/-- Without a lookback the second window starts five blocks above the first, and
the saved checkpoint covers the operation, which no tick has fetched. -/
theorem twoReplicas_skip :
    ¬ NothingSkipped noSponsorships (scanOptions 0) 1 (.start (fun _ => noPolicies) fun _ => none)
      (twoReplicas ++ [.saveCheckpoint 1]) ∧
    (Runs.run (Backend.step noSponsorships (scanOptions 0)) (.start (fun _ => noPolicies) fun _ => none)
      (twoReplicas ++ [.saveCheckpoint 1])).map (fun b => (b.checkpoints 1, b.origin 1,
        b.fetched.map fun p => (p.2.fromBlock, p.2.toBlock), b.offers.length)) =
      some (some 23, some 18, [(23, 23), (18, 18)], 0) := by
  refine ⟨fun h => ?_, by decide +kernel⟩
  have hnot : ¬ Runs.Always (Backend.step noSponsorships (scanOptions 0)) (Covered (scanOptions 0) 1)
      (.start (fun _ => noPolicies) fun _ => none) (twoReplicas ++ [.saveCheckpoint 1]) := by
    decide +kernel
  exact hnot h.2

end Paymaster
