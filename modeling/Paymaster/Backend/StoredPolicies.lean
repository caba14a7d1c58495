import Paymaster.Backend.Noninterference
import Paymaster.Backend.PolicyWrites
import Paymaster.Lib.Pool

/-!
# What is stored of a policy

The rules of a policy that is stored are those of one definition that was
accepted, all of them and in order, whatever the transactions were that ran
beside. A definition was built before it was written, so that it builds when it is
loaded.
-/

namespace Paymaster

/-! ## Loading -/

def PolicyDefinition.Builds (definition : PolicyDefinition) (factory : PolicyFactory) : Prop :=
  ∀ rule ∈ definition.rules, ∃ built, factory.build definition.id rule none = .ok built

def PolicyRuleSpec.stored (rule : PolicyRuleSpec) : PolicyRuleSpec := ⟨rule.ruleType, some rule.configOrEmpty⟩

theorem key_of_mem_ruleRows {owner : String} {definition : PolicyDefinition} {r : PolicyRuleRow}
    (h : r ∈ Database.ruleRows owner definition) : r.HasKey owner definition.id := by
  obtain ⟨⟨rule, ordinal⟩, -, rfl⟩ := List.mem_map.mp h
  exact ⟨rfl, rfl⟩

theorem pairwise_ruleRows (owner : String) (definition : PolicyDefinition) :
    (Database.ruleRows owner definition).Pairwise fun a b => a.ordinal ≤ b.ordinal := by
  unfold Database.ruleRows
  rw [List.pairwise_map]
  have hordinals : (definition.rules.zipIdx.map Prod.snd).Pairwise (· ≤ ·) := by
    rw [List.zipIdx_map_snd]
    exact List.pairwise_le_range'
  exact List.pairwise_map.mp hordinals

theorem rulesOf_of_ruleRows {db : Database} {p : PolicyRow} {owner : String} {definition : PolicyDefinition}
    (h : (db.policyRules.filter fun r => r.HasKey p.tenantId p.id) = Database.ruleRows owner definition) :
    db.rulesOf p = definition.rules.map PolicyRuleSpec.stored := by
  unfold Database.rulesOf
  rw [show (db.policyRules.filter fun r => r.tenantId = p.tenantId ∧ r.policyId = p.id) = Database.ruleRows owner definition from h,
    (pairwise_ruleRows owner definition).insertionSort_eq]
  unfold Database.ruleRows
  rw [List.map_map]
  have hfst : definition.rules.zipIdx.map (PolicyRuleSpec.stored ∘ Prod.fst) = definition.rules.map PolicyRuleSpec.stored := by
    rw [← List.map_map, List.zipIdx_map_fst]
  rw [← hfst]
  exact List.map_congr_left fun _ _ => rfl

/-- What was built for no tenant in particular builds for the tenant, stored or not. -/
theorem mapM_stored {factory : PolicyFactory} {definition : PolicyDefinition} (h : definition.Builds factory)
    (tenant : Option String) :
    ∃ rules, (definition.rules.map PolicyRuleSpec.stored).mapM (fun spec => factory.build definition.id spec tenant) = .ok rules ∧
      definition.rules.mapM (fun spec => factory.build definition.id spec tenant) = .ok rules := by
  have hone : ∀ rule ∈ definition.rules, ∃ built, factory.build definition.id rule tenant = .ok built ∧ True := by
    intro rule hrule
    obtain ⟨built, hbuilt⟩ := h rule hrule
    refine ⟨built.within (PolicyFactory.namespaceOf tenant), ?_, trivial⟩
    rw [PolicyFactory.build_within none, hbuilt]
    rfl
  obtain ⟨rules, hrules, -⟩ := Traverse.mapM_ok hone
  refine ⟨rules, ?_, hrules⟩
  rw [List.mapM_map, ← hrules]
  congr 1
  funext rule
  exact PolicyFactory.build_stored

namespace PolicyWrites

variable {factory : PolicyFactory} {s s' : PolicyWrites} {i : Nat} {u : PolicyUpsert}

/-! ## What is stored, and what is being written -/

def rulesAt (s : PolicyWrites) (owner id : String) : List PolicyRuleRow :=
  (s.rules.map Prod.snd).filter fun r => r.HasKey owner id

/-- The policy's row and all its rules are those of the definition. -/
structure Stores (s : PolicyWrites) (p : PolicyRow) (owner : TenantId) (definition : PolicyDefinition) : Prop where
  key : p.HasKey owner.value definition.id
  enabled : p.enabled = definition.enabled
  rules : s.rulesAt owner.value definition.id = Database.ruleRows owner.value definition

structure Writes (factory : PolicyFactory) (s : PolicyWrites) (u : PolicyUpsert) : Prop where
  builds : u.definition.Builds factory
  row : ∀ row, u.phase.row = some row → row.HasKey u.owner.value u.definition.id ∧ row.enabled = u.definition.enabled
  added : ∀ row snapshot added rest, u.phase = .cleared row snapshot added rest →
    added ++ rest.map (fun (rule, ordinal) =>
      ⟨u.owner.value, u.definition.id, ordinal, rule.ruleType, rule.configOrEmpty⟩) =
        Database.ruleRows u.owner.value u.definition
  unseen : ∀ row snapshot added rest, u.phase = .cleared row snapshot added rest →
    ∀ r ∈ s.rules, r.2.HasKey u.owner.value u.definition.id → r.1 ≤ snapshot

structure Whole (factory : PolicyFactory) (s : PolicyWrites) : Prop where
  distinct : (s.policies.map fun p => (p.tenantId, p.id)).Nodup
  numbered : ∀ r ∈ s.rules, r.1 ≤ s.clock
  stored : ∀ p ∈ s.policies, ∃ w ∈ s.accepted, s.Stores p w.1 w.2
  builds : ∀ w ∈ s.accepted, w.2.Builds factory
  writes : ∀ u ∈ s.upserts, Writes factory s u
  /-- Who holds a policy's row holds it alone. -/
  apart : ∀ (i j : Nat) (u v : PolicyUpsert), s.upserts[i]? = some u → s.upserts[j]? = some v → u.phase.row.isSome →
    v.phase.row.isSome → u.owner.value = v.owner.value → u.definition.id = v.definition.id → i = j

theorem whole_start (tenants : List Tenant) (apiKeys : List ApiKeyRow) : (start tenants apiKeys).Whole factory where
  distinct := List.nodup_nil
  numbered := fun r hr => by cases hr
  stored := fun p hp => by cases hp
  builds := fun w hw => by cases hw
  writes := fun u hu => by cases hu
  apart := fun i j u v hu => by cases hu

/-! ## Transactions -/

/-- Whoever holds a row holds another than the one that is free. -/
theorem other_of_not_locked {owner id : String} (hfree : s.locked owner id = false) (hwrites : Writes factory s u)
    (hu : u ∈ s.upserts) (hrow : u.phase.row.isSome) : ¬ (u.owner.value = owner ∧ u.definition.id = id) := by
  rintro ⟨rfl, rfl⟩
  obtain ⟨row, hrow⟩ := Option.isSome_iff_exists.mp hrow
  have hheld : s.locked u.owner.value u.definition.id = true := by
    refine List.any_eq_true.mpr ⟨u, hu, ?_⟩
    rw [hrow]
    simpa using (hwrites.row row hrow).1
  rw [hheld] at hfree
  cases hfree

theorem Writes.of_subset (hwrites : Writes factory s u) (h : ∀ r ∈ s'.rules, r ∈ s.rules) : Writes factory s' u where
  builds := hwrites.builds
  row := hwrites.row
  added := hwrites.added
  unseen := fun row snapshot added rest hphase r hr => hwrites.unseen row snapshot added rest hphase r (h r hr)

theorem writes_of_no_row (hbuilds : u.definition.Builds factory) (h : u.phase.row = none) : Writes factory s u where
  builds := hbuilds
  row := fun row hrow => by
    rw [h] at hrow
    cases hrow
  added := fun row snapshot added rest hphase => by
    rw [hphase] at h
    cases h
  unseen := fun row snapshot added rest hphase => by
    rw [hphase] at h
    cases h

/-- A transaction goes on. It writes a row that it holds, or that nobody did. -/
theorem whole_setPhase {phase : UpsertPhase} (hs : s.Whole factory) (hi : s.upserts[i]? = some u)
    (hwrites : Writes factory s { u with phase := phase })
    (hrow : phase.row.isSome → u.phase.row.isSome ∨ s.locked u.owner.value u.definition.id = false) :
    (s.setPhase i u phase).Whole factory where
  distinct := hs.distinct
  numbered := hs.numbered
  stored := fun p hp => by
    obtain ⟨w, hw, hstores⟩ := hs.stored p hp
    exact ⟨w, hw, hstores.key, hstores.enabled, hstores.rules⟩
  builds := hs.builds
  writes := by
    intro v hv
    rcases List.mem_or_eq_of_mem_set hv with hv | rfl
    · exact (hs.writes v hv).of_subset fun r hr => hr
    · exact hwrites.of_subset fun r hr => hr
  apart := by
    have hother : ∀ (j : Nat) (v : PolicyUpsert), s.upserts[j]? = some v → phase.row.isSome → v.phase.row.isSome →
        u.owner.value = v.owner.value → u.definition.id = v.definition.id → i = j := by
      intro j v hj hu hv howner hid
      rcases hrow hu with hheld | hfree
      · exact hs.apart i j u v hi hj hheld hv howner hid
      · have hmem := List.mem_of_getElem? hj
        exact absurd ⟨howner.symm, hid.symm⟩ (other_of_not_locked hfree (hs.writes v hmem) hmem hv)
    intro j k v w hj hk hv hw howner hid
    rcases Pool.getElem?_set_cases hj with ⟨rfl, rfl⟩ | ⟨-, hj'⟩
    · rcases Pool.getElem?_set_cases hk with ⟨rfl, -⟩ | ⟨-, hk'⟩
      · rfl
      · exact hother k w hk' hv hw howner hid
    · rcases Pool.getElem?_set_cases hk with ⟨rfl, rfl⟩ | ⟨-, hk'⟩
      · exact (hother j v hj' hw hv howner.symm hid.symm).symm
      · exact hs.apart j k v w hj' hk' hv hw howner hid

theorem whole_begin {owner : TenantId} {definition : PolicyDefinition} (hs : s.Whole factory)
    (hbuilds : definition.Builds factory) :
    PolicyWrites.Whole factory { s with upserts := s.upserts ++ [⟨owner, definition, .begun⟩] } where
  distinct := hs.distinct
  numbered := hs.numbered
  stored := fun p hp => by
    obtain ⟨w, hw, hstores⟩ := hs.stored p hp
    exact ⟨w, hw, hstores.key, hstores.enabled, hstores.rules⟩
  builds := hs.builds
  writes := by
    intro v hv
    rcases List.mem_append.mp hv with hv | hv
    · exact (hs.writes v hv).of_subset fun r hr => hr
    · obtain rfl := List.mem_singleton.mp hv
      exact writes_of_no_row hbuilds rfl
  apart := by
    intro j k v w hj hk hv hw
    rcases Pool.getElem?_append_cases hj with ⟨-, rfl⟩ | hj
    · cases hv
    · rcases Pool.getElem?_append_cases hk with ⟨-, rfl⟩ | hk
      · cases hw
      · exact hs.apart j k v w hj hk hv hw

theorem upsertedRow_key (now : Nat) : (s.upsertedRow u now).HasKey u.owner.value u.definition.id ∧
    (s.upsertedRow u now).enabled = u.definition.enabled := by
  unfold upsertedRow
  split
  · rename_i p hfound
    have hkey : p.HasKey u.owner.value u.definition.id := by simpa using List.find?_some hfound
    exact ⟨hkey, rfl⟩
  · exact ⟨⟨rfl, rfl⟩, rfl⟩

theorem whole_insertPolicy (now : Nat) (hs : s.Whole factory) (hi : s.upserts[i]? = some u)
    (hfree : s.locked u.owner.value u.definition.id = false) :
    (s.setPhase i u (.inserted (s.upsertedRow u now))).Whole factory := by
  refine whole_setPhase hs hi ?_ fun _ => .inr hfree
  refine ⟨(hs.writes u (List.mem_of_getElem? hi)).builds, ?_, ?_, ?_⟩
  · intro row hrow
    cases hrow
    exact upsertedRow_key now
  · intro row snapshot added rest hphase
    cases hphase
  · intro row snapshot added rest hphase
    cases hphase

theorem whole_deleteRules {row : PolicyRow} (hs : s.Whole factory) (hi : s.upserts[i]? = some u)
    (hphase : u.phase = .inserted row) :
    (s.setPhase i u (.cleared row s.clock [] u.definition.rules.zipIdx)).Whole factory := by
  have hu := hs.writes u (List.mem_of_getElem? hi)
  refine whole_setPhase hs hi ?_ fun _ => .inl (by rw [hphase]; rfl)
  refine ⟨hu.builds, ?_, ?_, ?_⟩
  · intro row' hrow
    cases hrow
    exact hu.row row (by rw [hphase]; rfl)
  · intro row' snapshot added rest hcleared
    cases hcleared
    rfl
  · intro row' snapshot added rest hcleared r hr _
    cases hcleared
    exact hs.numbered r hr

theorem whole_insertRule {row : PolicyRow} {snapshot ordinal : Nat} {added : List PolicyRuleRow} {rule : PolicyRuleSpec}
    {rest : List (PolicyRuleSpec × Nat)} (hs : s.Whole factory) (hi : s.upserts[i]? = some u)
    (hphase : u.phase = .cleared row snapshot added ((rule, ordinal) :: rest)) :
    (s.setPhase i u (.cleared row snapshot
      (added ++ [⟨u.owner.value, u.definition.id, ordinal, rule.ruleType, rule.configOrEmpty⟩]) rest)).Whole factory := by
  have hu := hs.writes u (List.mem_of_getElem? hi)
  refine whole_setPhase hs hi ?_ fun _ => .inl (by rw [hphase]; rfl)
  refine ⟨hu.builds, ?_, ?_, ?_⟩
  · intro row' hrow
    cases hrow
    exact hu.row row (by rw [hphase]; rfl)
  · intro row' snapshot' added' rest' hcleared
    cases hcleared
    have hadded := hu.added _ _ _ _ hphase
    rw [List.map_cons] at hadded
    rw [List.append_assoc]
    exact hadded
  · intro row' snapshot' added' rest' hcleared
    cases hcleared
    exact hu.unseen _ _ _ _ hphase

theorem whole_ended (hs : s.Whole factory) (hi : s.upserts[i]? = some u) : (s.setPhase i u .ended).Whole factory := by
  refine whole_setPhase hs hi ?_ fun hrow => by cases hrow
  exact writes_of_no_row (hs.writes u (List.mem_of_getElem? hi)).builds rfl

/-! ## What is committed -/

theorem rulesAt_filter {owner id : String} {keep : Nat × PolicyRuleRow → Bool}
    (h : ∀ r ∈ s.rules, r.2.HasKey owner id → keep r = true) :
    (((s.rules.filter keep).map Prod.snd).filter fun r => r.HasKey owner id) = s.rulesAt owner id := by
  unfold rulesAt
  rw [List.filter_map, List.filter_map, List.filter_filter]
  congr 1
  refine List.filter_congr fun r hr => ?_
  simp only [Function.comp]
  by_cases hkey : r.2.HasKey owner id
  · rw [h r hr hkey, Bool.and_true]
  · simp [hkey]

variable {row : PolicyRow} {snapshot : Nat} {added : List PolicyRuleRow}

/-- The policy has the rules that were added, since all that were there have been seen. -/
theorem rulesAt_commit_self (hadded : added = Database.ruleRows u.owner.value u.definition)
    (hunseen : ∀ r ∈ s.rules, r.2.HasKey u.owner.value u.definition.id → r.1 ≤ snapshot) :
    (s.commit i u row snapshot added).rulesAt u.owner.value u.definition.id =
      Database.ruleRows u.owner.value u.definition := by
  unfold rulesAt commit
  rw [List.map_append, List.filter_append]
  have hold : ((s.rules.filter fun r => ¬ seen u snapshot r).map Prod.snd).filter
      (fun r => r.HasKey u.owner.value u.definition.id) = [] := by
    refine List.filter_eq_nil_iff.mpr fun _ hmem hkey => ?_
    obtain ⟨r, hleft, rfl⟩ := List.mem_map.mp hmem
    obtain ⟨hr, hseen⟩ := List.mem_filter.mp hleft
    have hkey := of_decide_eq_true hkey
    refine of_decide_eq_true hseen ?_
    exact decide_eq_true ⟨hkey, hunseen r hr hkey⟩
  rw [hold, List.nil_append, List.map_map]
  have hsnd : Prod.snd ∘ (fun r : PolicyRuleRow => (s.clock + 1, r)) = id := rfl
  rw [hsnd, List.map_id, hadded]
  exact List.filter_eq_self.mpr fun r hr => decide_eq_true (key_of_mem_ruleRows hr)

theorem rulesAt_commit_other {owner id : String} (hadded : added = Database.ruleRows u.owner.value u.definition)
    (hother : ¬ (u.owner.value = owner ∧ u.definition.id = id)) :
    (s.commit i u row snapshot added).rulesAt owner id = s.rulesAt owner id := by
  have happart : ∀ r : PolicyRuleRow, r.HasKey u.owner.value u.definition.id → ¬ r.HasKey owner id := by
    rintro r ⟨howner, hid⟩ ⟨howner', hid'⟩
    exact hother ⟨howner.symm.trans howner', hid.symm.trans hid'⟩
  unfold rulesAt commit
  rw [List.map_append, List.filter_append, rulesAt_filter]
  · have hnew : ((added.map fun r => (s.clock + 1, r)).map Prod.snd).filter (fun r => r.HasKey owner id) = [] := by
      refine List.filter_eq_nil_iff.mpr fun r hr hkey => ?_
      obtain ⟨numbered, hnumbered, rfl⟩ := List.mem_map.mp hr
      obtain ⟨r, hmem, rfl⟩ := List.mem_map.mp hnumbered
      rw [hadded] at hmem
      exact happart r (key_of_mem_ruleRows hmem) (of_decide_eq_true hkey)
    rw [hnew, List.append_nil]
    rfl
  · intro r _ hkey
    refine decide_eq_true fun hseen => ?_
    exact happart r.2 (of_decide_eq_true hseen).1 hkey

theorem mem_policies_commit {p : PolicyRow} (hp : p ∈ (s.commit i u row snapshot added).policies) :
    p = row ∨ p ∈ s.policies ∧ ¬ p.HasKey u.owner.value u.definition.id := by
  unfold commit at hp
  split at hp
  · obtain ⟨q, hq, rfl⟩ := List.mem_map.mp hp
    by_cases hkey : q.HasKey u.owner.value u.definition.id
    · exact .inl (if_pos hkey)
    · exact .inr (by simpa only [if_neg hkey] using ⟨hq, hkey⟩)
  · rename_i hnew
    rcases List.mem_append.mp hp with hp | hp
    · refine .inr ⟨hp, fun hkey => hnew ?_⟩
      exact List.any_eq_true.mpr ⟨p, hp, decide_eq_true hkey⟩
    · exact .inl (List.mem_singleton.mp hp)

theorem distinct_commit (hs : (s.policies.map fun p => (p.tenantId, p.id)).Nodup)
    (hrow : row.HasKey u.owner.value u.definition.id) :
    ((s.commit i u row snapshot added).policies.map fun p => (p.tenantId, p.id)).Nodup := by
  unfold commit
  split
  · have hkeys : ((s.policies.map fun p => if p.HasKey u.owner.value u.definition.id then row else p).map
        fun p => (p.tenantId, p.id)) = s.policies.map fun p => (p.tenantId, p.id) := by
      rw [List.map_map]
      refine List.map_congr_left fun p _ => ?_
      simp only [Function.comp]
      split
      · rename_i hkey
        rw [hrow.1, hrow.2, hkey.1, hkey.2]
      · rfl
    rw [hkeys]
    exact hs
  · rename_i hnew
    rw [List.map_append, List.map_singleton]
    refine List.Nodup.append hs (List.nodup_singleton _) ?_
    intro key hkey hrowkey
    obtain ⟨p, hp, rfl⟩ := List.mem_map.mp hkey
    obtain ⟨howner, hid⟩ := Prod.mk.inj (List.mem_singleton.mp hrowkey)
    refine hnew (List.any_eq_true.mpr ⟨p, hp, ?_⟩)
    exact decide_eq_true ⟨howner.trans hrow.1, hid.trans hrow.2⟩

theorem whole_commit (hs : s.Whole factory) (hi : s.upserts[i]? = some u)
    (hphase : u.phase = .cleared row snapshot added []) : (s.commit i u row snapshot added).Whole factory := by
  have hu := hs.writes u (List.mem_of_getElem? hi)
  have hheld : u.phase.row = some row := by rw [hphase]; rfl
  obtain ⟨hrow, henabled⟩ := hu.row row hheld
  have hadded : added = Database.ruleRows u.owner.value u.definition := by
    have hall := hu.added _ _ _ _ hphase
    rwa [List.map_nil, List.append_nil] at hall
  refine ⟨distinct_commit hs.distinct hrow, ?_, ?_, ?_, ?_, (whole_ended hs hi).apart⟩
  · intro r hr
    rcases List.mem_append.mp hr with hr | hr
    · exact Nat.le_succ_of_le (hs.numbered r (List.mem_filter.mp hr).1)
    · obtain ⟨_, -, rfl⟩ := List.mem_map.mp hr
      exact Nat.le_refl _
  · intro p hp
    rcases mem_policies_commit hp with rfl | ⟨hp, hother⟩
    · refine ⟨(u.owner, u.definition), List.mem_append_right _ (List.mem_singleton_self _), hrow, henabled, ?_⟩
      exact rulesAt_commit_self hadded (hu.unseen _ _ _ _ hphase)
    · obtain ⟨w, hw, hstores⟩ := hs.stored p hp
      refine ⟨w, List.mem_append_left _ hw, hstores.key, hstores.enabled, ?_⟩
      rw [rulesAt_commit_other hadded ?_]
      · exact hstores.rules
      · rintro ⟨howner, hid⟩
        exact hother ⟨hstores.key.1.trans howner.symm, hstores.key.2.trans hid.symm⟩
  · intro w hw
    rcases List.mem_append.mp hw with hw | hw
    · exact hs.builds w hw
    · rw [List.mem_singleton.mp hw]
      exact hu.builds
  · intro v hv
    obtain ⟨j, hj⟩ := List.getElem?_of_mem hv
    rcases Pool.getElem?_set_cases hj with ⟨-, rfl⟩ | ⟨hne, hj⟩
    · exact writes_of_no_row hu.builds rfl
    · have hwrites := hs.writes v (List.mem_of_getElem? hj)
      refine ⟨hwrites.builds, hwrites.row, hwrites.added, ?_⟩
      intro row' snapshot' added' rest' hcleared r hr hkey
      rcases List.mem_append.mp hr with hr | hr
      · exact hwrites.unseen _ _ _ _ hcleared r (List.mem_filter.mp hr).1 hkey
      · -- The rules that were added are of a policy whose row is held by one only.
        obtain ⟨r, hmem, rfl⟩ := List.mem_map.mp hr
        rw [hadded] at hmem
        obtain ⟨howner, hid⟩ := key_of_mem_ruleRows hmem
        refine absurd (hs.apart j i v u hj hi ?_ ?_ (hkey.1.symm.trans howner) (hkey.2.symm.trans hid)) hne
        · rw [hcleared]
          rfl
        · rw [hheld]
          rfl

theorem whole_delete (owner id : String) (hs : s.Whole factory) :
    PolicyWrites.Whole factory { s with
      policies := s.policies.filter fun p => ¬ p.HasKey owner id
      rules := s.rules.filter fun r => ¬ r.2.HasKey owner id } where
  distinct := hs.distinct.sublist (List.filter_sublist.map _)
  numbered := fun r hr => hs.numbered r (List.mem_filter.mp hr).1
  stored := fun p hp => by
    obtain ⟨hp, hother⟩ := List.mem_filter.mp hp
    obtain ⟨w, hw, hstores⟩ := hs.stored p hp
    refine ⟨w, hw, hstores.key, hstores.enabled, Eq.trans (rulesAt_filter ?_) hstores.rules⟩
    rintro r - ⟨howner, hid⟩
    refine decide_eq_true fun hgone => of_decide_eq_true hother ?_
    exact ⟨hstores.key.1.trans (howner.symm.trans hgone.1), hstores.key.2.trans (hid.symm.trans hgone.2)⟩
  builds := hs.builds
  writes := fun u hu => (hs.writes u hu).of_subset fun r hr => (List.mem_filter.mp hr).1
  apart := hs.apart

theorem builds_of_mapM {definition : PolicyDefinition} {built : List BuiltRule}
    (h : (definition.rules.mapM fun rule => factory.build definition.id rule none) = .ok built) :
    definition.Builds factory :=
  Traverse.ok_of_mapM h

theorem whole_step {l : PolicyWriteLabel} (hs : s.Whole factory) (h : step factory s l = some s') : s'.Whole factory := by
  cases policyWriteStep_cases h with
  | same => exact hs
  | upsert owner hbuilt => exact whole_begin hs (builds_of_mapM hbuilt)
  | insertPolicy now hi _ hfree => exact whole_insertPolicy now hs hi hfree
  | deleteRules hi hphase => exact whole_deleteRules hs hi hphase
  | insertRule hi hphase => exact whole_insertRule hs hi hphase
  | commit hi hphase => exact whole_commit hs hi hphase
  | ended hi => exact whole_ended hs hi
  | delete => exact whole_delete _ _ hs
  | others tenants apiKeys =>
    refine ⟨hs.distinct, hs.numbered, ?_, hs.builds, ?_, hs.apart⟩
    · intro p hp
      obtain ⟨w, hw, hstores⟩ := hs.stored p hp
      exact ⟨w, hw, hstores.key, hstores.enabled, hstores.rules⟩
    · intro u hu
      exact (hs.writes u hu).of_subset fun r hr => hr

/-! ## What is loaded -/

theorem loadPolicies_eq (db : Database) (factory : PolicyFactory) (scope : Scope) :
    db.loadPolicies factory scope = (db.loadRules factory scope).map (List.map LoadedPolicy.toPolicy) := by
  unfold Database.loadPolicies Database.loadRules
  rw [← Traverse.mapM_map_result]
  congr 1
  funext p
  cases (db.rulesOf p).mapM fun spec => factory.build p.id spec (some p.tenantId) with
  | error e => rfl
  | ok rules => rfl

structure Reads (factory : PolicyFactory) (p : LoadedPolicy) (owner : TenantId) (definition : PolicyDefinition) : Prop where
  owner : owner.value = p.tenantId
  id : definition.id = p.id
  enabled : definition.enabled = true
  rules : definition.rules.mapM (fun rule => factory.build p.id rule (some p.tenantId)) = .ok p.rules

theorem load_stored {p : PolicyRow} {owner : TenantId} {definition : PolicyDefinition} (hstores : s.Stores p owner definition)
    (henabled : p.enabled = true) (hbuilds : definition.Builds factory) :
    ∃ loaded : LoadedPolicy, (do
      let rules ← (s.database.rulesOf p).mapM fun spec => factory.build p.id spec (some p.tenantId)
      (.ok ⟨p.tenantId, p.id, rules⟩ : Except FactoryError LoadedPolicy)) = .ok loaded ∧
      (p.tenantId, p.id) = (loaded.tenantId, loaded.id) ∧ Reads factory loaded owner definition := by
  obtain ⟨howner, hid⟩ := hstores.key
  have hrules : s.database.rulesOf p = definition.rules.map PolicyRuleSpec.stored := by
    have hrows : (s.database.policyRules.filter fun r => r.HasKey p.tenantId p.id) =
        Database.ruleRows owner.value definition := by
      rw [howner, hid]
      exact hstores.rules
    exact rulesOf_of_ruleRows hrows
  obtain ⟨rules, hstored, hgiven⟩ := mapM_stored hbuilds (some p.tenantId)
  refine ⟨⟨p.tenantId, p.id, rules⟩, ?_, rfl, howner.symm, hid.symm, hstores.enabled.symm.trans henabled, ?_⟩
  · rw [hrules, hid, hstored]
    rfl
  · rw [hid]
    exact hgiven

theorem load_whole (hs : s.Whole factory) (scope : Scope) :
    ∃ loaded, s.database.loadRules factory scope = .ok loaded ∧
      (loaded.map fun p => (p.tenantId, p.id)).Nodup ∧ ∀ p ∈ loaded, ∃ w ∈ s.accepted, Reads factory p w.1 w.2 := by
  have hone : ∀ p ∈ (s.policies.filter fun p => p.enabled ∧ scope.includes p.tenantId).insertionSort Database.byKey,
      ∃ loaded : LoadedPolicy, (do
        let rules ← (s.database.rulesOf p).mapM fun spec => factory.build p.id spec (some p.tenantId)
        (.ok ⟨p.tenantId, p.id, rules⟩ : Except FactoryError LoadedPolicy)) = .ok loaded ∧
        ((p.tenantId, p.id) = (loaded.tenantId, loaded.id) ∧ ∃ w ∈ s.accepted, Reads factory loaded w.1 w.2) := by
    intro p hp
    obtain ⟨hp, hin⟩ := List.mem_filter.mp ((List.mem_insertionSort _).mp hp)
    obtain ⟨w, hw, hstores⟩ := hs.stored p hp
    obtain ⟨loaded, hload, hkey, hreads⟩ := load_stored hstores (of_decide_eq_true hin).1 (hs.builds w hw)
    exact ⟨loaded, hload, hkey, w, hw, hreads⟩
  obtain ⟨loaded, hload, hall⟩ := Traverse.mapM_ok hone
  refine ⟨loaded, hload, ?_, ?_⟩
  · rw [← Traverse.map_eq_of_forall₂ (hall.imp fun _ _ h => h.1)]
    exact (hs.distinct.sublist (List.filter_sublist.map _)).perm ((List.perm_insertionSort _ _).symm.map _)
  · exact Traverse.forall_of_forall₂ (hall.imp fun _ _ h => h.2)

end PolicyWrites

section

variable {factory : PolicyFactory} {tenants : List Tenant} {apiKeys : List ApiKeyRow} {labels : List PolicyWriteLabel}
  {s : PolicyWrites}

/-- At every moment the load goes through, the policy source takes what it returns, and
every policy of it has all the rules of one definition that its tenant wrote, in order. -/
theorem policies_stored_whole (hrun : Runs.run (PolicyWrites.step factory) (.start tenants apiKeys) labels = some s)
    (scope : Scope) (source : PolicySource) :
    ∃ loaded, s.database.loadRules factory scope = .ok loaded ∧
      s.database.loadPolicies factory scope = .ok (loaded.map LoadedPolicy.toPolicy) ∧
      (source.reload (loaded.map LoadedPolicy.toPolicy)).policies = loaded.map LoadedPolicy.toPolicy ∧
      (loaded.map fun p => (p.tenantId, p.id)).Nodup ∧
      ∀ p ∈ loaded, ∃ w ∈ s.accepted, PolicyWrites.Reads factory p w.1 w.2 := by
  have hs : s.Whole factory := Runs.invariant PolicyWrites.whole_step (PolicyWrites.whole_start tenants apiKeys) hrun
  obtain ⟨loaded, hload, hkeys, hreads⟩ := PolicyWrites.load_whole hs scope
  refine ⟨loaded, hload, ?_, ?_, hkeys, hreads⟩
  · rw [PolicyWrites.loadPolicies_eq, hload]
    rfl
  · have hdistinct : ((loaded.map LoadedPolicy.toPolicy).map fun p => keyOf p.tenantId p.id).Nodup := by
      refine nodup_keyOf ?_ ?_
      · rw [List.map_map]
        exact hkeys
      · intro p hp
        obtain ⟨q, hq, rfl⟩ := List.mem_map.mp hp
        obtain ⟨w, -, hw⟩ := hreads q hq
        have hvalid : tenantIdPattern q.tenantId = true := hw.owner ▸ w.1.valid
        exact hvalid
    unfold PolicySource.reload
    rw [dif_pos hdistinct]

/-- Two definitions of one policy are written at once. The second one's row waits for
the first to commit, and the load comes before it does. -/
def overlappingUpserts : List PolicyWriteLabel :=
  let chains : PolicyDefinition := ⟨"default", "Default", none, true, [⟨"chain-enabled", some (.obj [("chainIds", .arr [.num 1])])⟩]⟩
  let nothing : PolicyDefinition := ⟨"default", "Default", none, true, []⟩
  [.upsert .default chains, .upsert .default nothing, .insertPolicy 0 5, .deleteRules 0, .insertRule 0, .commit 0,
    .insertPolicy 1 6, .deleteRules 1]

theorem policies_stored_whole_overlapping : ∃ s, Runs.run (PolicyWrites.step ⟨fun _ => true, false⟩)
    (.start [⟨"default", "Default", .active, 0⟩] []) overlappingUpserts = some s ∧ s.policies.map PolicyRow.id = ["default"] ∧
    ∃ loaded, s.database.loadRules ⟨fun _ => true, false⟩ .platform = .ok loaded ∧
      ∀ p ∈ loaded, ∃ w ∈ s.accepted, PolicyWrites.Reads ⟨fun _ => true, false⟩ p w.1 w.2 := by
  have h : (Runs.run (PolicyWrites.step ⟨fun _ => true, false⟩) (.start [⟨"default", "Default", .active, 0⟩] [])
      overlappingUpserts).map (fun s => s.policies.map PolicyRow.id) = some ["default"] := by
    decide +kernel
  obtain ⟨s, hrun, hview⟩ := Option.map_eq_some_iff.mp h
  obtain ⟨loaded, hload, -, -, -, hreads⟩ := policies_stored_whole hrun .platform ⟨[], List.nodup_nil⟩
  exact ⟨s, hrun, hview, loaded, hload, hreads⟩

end

end Paymaster
