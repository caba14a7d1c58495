import Mathlib

/-!
# Maps in the order of insertion

An association list, with the operations of a map that remembers in which order
its keys came: setting a key that is there keeps its place.
-/

namespace Assoc

variable {κ α : Type*} [DecidableEq κ]

def get : List (κ × α) → κ → Option α
  | [], _ => none
  | (k, a) :: m, key => if k = key then some a else get m key

def set : List (κ × α) → κ → α → List (κ × α)
  | [], key, a => [(key, a)]
  | (k, b) :: m, key, a => if k = key then (k, a) :: m else (k, b) :: set m key a

def restrict (m : List (κ × α)) (keep : κ → Bool) : List (κ × α) := m.filter fun entry => keep entry.1

variable {m : List (κ × α)} {key k : κ} {a b : α}

theorem lookup_eq_get : ∀ {m : List (κ × α)}, m.lookup key = get m key
  | [] => rfl
  | (k, a) :: m => by
    by_cases h : k = key
    · simp only [List.lookup, get, h, beq_self_eq_true, if_true]
    · simp only [List.lookup, get, beq_eq_false_iff_ne.mpr (Ne.symm h), if_neg h, lookup_eq_get]

theorem get_set_self : ∀ {m : List (κ × α)}, get (set m key a) key = some a
  | [] => if_pos rfl
  | (k, b) :: m => by
    by_cases h : k = key
    · simp [set, get, h]
    · simp [set, get, h, get_set_self]

theorem get_set_of_ne (hne : k ≠ key) : ∀ {m : List (κ × α)}, get (set m key a) k = get m k
  | [] => if_neg (Ne.symm hne)
  | (k', b) :: m => by
    by_cases h : k' = key
    · subst h
      simp [set, get, Ne.symm hne]
    · by_cases hk : k' = k
      · subst hk
        simp [set, get, h]
      · simp [set, get, h, hk, get_set_of_ne hne]

theorem mem_keys_set : ∀ {m : List (κ × α)}, k ∈ (set m key a).map Prod.fst ↔ k = key ∨ k ∈ m.map Prod.fst
  | [] => by simp [set]
  | (k', b) :: m => by
    by_cases h : k' = key
    · subst h
      simp [set]
    · simp only [set, if_neg h, List.map_cons, List.mem_cons, mem_keys_set]
      tauto

theorem nodup_keys_set : ∀ {m : List (κ × α)}, (m.map Prod.fst).Nodup → ((set m key a).map Prod.fst).Nodup
  | [], _ => List.nodup_singleton _
  | (k', b) :: m, hd => by
    by_cases h : k' = key
    · subst h
      simpa [set] using hd
    · have hd' := List.nodup_cons.mp hd
      simp only [set, if_neg h, List.map_cons]
      refine List.nodup_cons.mpr ⟨?_, nodup_keys_set hd'.2⟩
      rw [mem_keys_set]
      rintro (heq | hmem)
      · exact h heq
      · exact hd'.1 hmem

theorem get_restrict {keep : κ → Bool} (hkeep : keep key = true) : ∀ {m : List (κ × α)}, get (restrict m keep) key = get m key
  | [] => rfl
  | (k, b) :: m => by
    have ih := get_restrict hkeep (m := m)
    unfold restrict at ih ⊢
    by_cases h : k = key
    · subst h
      simp [get, hkeep]
    · by_cases hk : keep k = true
      · simp [get, hk, h, ih]
      · simp [get, hk, h, ih]

theorem get_restrict_eq_none {keep : κ → Bool} (hkeep : keep key = false) :
    ∀ {m : List (κ × α)}, get (restrict m keep) key = none
  | [] => rfl
  | (k, b) :: m => by
    have ih := get_restrict_eq_none hkeep (m := m)
    unfold restrict at ih ⊢
    by_cases hk : keep k = true
    · have h : k ≠ key := by
        rintro rfl
        rw [hk] at hkeep
        cases hkeep
      simp [get, hk, h, ih]
    · simp [hk, ih]

theorem get_isSome_iff : ∀ {m : List (κ × α)}, (get m key).isSome = true ↔ key ∈ m.map Prod.fst
  | [] => by simp [get]
  | (k, b) :: m => by
    have ih : (get m key).isSome = true ↔ key ∈ m.map Prod.fst := get_isSome_iff
    by_cases h : k = key
    · simp [get, h]
    · simp only [get, if_neg h, List.map_cons, List.mem_cons, ih]
      simp [Ne.symm h]

/-- A new key comes last. -/
theorem set_of_notMem : ∀ {m : List (κ × α)}, key ∉ m.map Prod.fst → set m key a = m ++ [(key, a)]
  | [], _ => rfl
  | (k, b) :: m, h => by
    have hk : k ≠ key := fun e => h (by simp [e])
    have hm : key ∉ m.map Prod.fst := fun hm => h (by simp [hm])
    rw [set, if_neg hk, set_of_notMem hm, List.cons_append]

theorem get_of_notMem : ∀ {m : List (κ × α)}, key ∉ m.map Prod.fst → get m key = none
  | [], _ => rfl
  | (k, b) :: m, h => by
    have hk : k ≠ key := fun e => h (by simp [e])
    have hm : key ∉ m.map Prod.fst := fun hm => h (by simp [hm])
    rw [get, if_neg hk, get_of_notMem hm]

theorem get_append_of_notMem {m' : List (κ × α)} : ∀ {m : List (κ × α)}, key ∉ m.map Prod.fst →
    get (m ++ m') key = get m' key
  | [], _ => rfl
  | (k, b) :: m, h => by
    have hk : k ≠ key := fun e => h (by simp [e])
    have hm : key ∉ m.map Prod.fst := fun hm => h (by simp [hm])
    rw [List.cons_append, get, if_neg hk, get_append_of_notMem hm]

theorem get_append_of_some {m' : List (κ × α)} : ∀ {m : List (κ × α)}, get m key = some a → get (m ++ m') key = some a
  | [], h => by cases h
  | (k, b) :: m, h => by
    by_cases hk : k = key
    · simpa [get, hk] using h
    · rw [get, if_neg hk] at h
      rw [List.cons_append, get, if_neg hk, get_append_of_some h]

theorem set_append_of_notMem {m' : List (κ × α)} : ∀ {m : List (κ × α)}, key ∉ m.map Prod.fst →
    set (m ++ m') key a = m ++ set m' key a
  | [], _ => rfl
  | (k, b) :: m, h => by
    have hk : k ≠ key := fun e => h (by simp [e])
    have hm : key ∉ m.map Prod.fst := fun hm => h (by simp [hm])
    rw [List.cons_append, set, if_neg hk, set_append_of_notMem hm, List.cons_append]

theorem get_of_mem : ∀ {m : List (κ × α)}, (m.map Prod.fst).Nodup → (key, a) ∈ m → get m key = some a
  | (k, b) :: m, hd, hmem => by
    obtain ⟨hnot, hrest⟩ := List.nodup_cons.mp hd
    rcases List.mem_cons.mp hmem with heq | hin
    · obtain ⟨rfl, rfl⟩ := Prod.mk.inj heq
      exact if_pos rfl
    · have hk : k ≠ key := by
        intro heq
        apply hnot
        rw [heq]
        exact List.mem_map.mpr ⟨(key, a), hin, rfl⟩
      rw [get, if_neg hk, get_of_mem hrest hin]

theorem mem_set {entry : κ × α} : ∀ {m : List (κ × α)}, entry ∈ set m key a → entry ∈ m ∨ entry = (key, a)
  | [], h => .inr (List.mem_singleton.mp h)
  | (k, b) :: m, h => by
    by_cases hk : k = key
    · rw [set, if_pos hk] at h
      rcases List.mem_cons.mp h with heq | hin
      · exact .inr (by rw [heq, hk])
      · exact .inl (List.mem_cons_of_mem _ hin)
    · rw [set, if_neg hk] at h
      rcases List.mem_cons.mp h with heq | hin
      · exact .inl (by rw [heq]; exact List.mem_cons_self)
      · exact (mem_set hin).imp_left (List.mem_cons_of_mem _)

theorem mem_of_get : ∀ {m : List (κ × α)}, get m key = some a → (key, a) ∈ m
  | (k, b) :: m, h => by
    by_cases hk : k = key
    · rw [get, if_pos hk, Option.some.injEq] at h
      rw [hk, h]
      exact List.mem_cons_self
    · rw [get, if_neg hk] at h
      exact List.mem_cons_of_mem _ (mem_of_get h)

section
variable {β : Type*} {row : β → κ} {value : β → α} {b : β}

/-- A key is set for the one that is held under it. -/
theorem set_map_of_mem : ∀ {bs : List β}, (bs.map row).Nodup → b ∈ bs →
    set (bs.map fun b => (row b, value b)) (row b) a = bs.map fun b' => (row b', if row b' = row b then a else value b')
  | c :: bs, hd, hmem => by
    obtain ⟨hnot, hrest⟩ := List.nodup_cons.mp hd
    by_cases h : row c = row b
    · have hother : ∀ b' ∈ bs, row b' ≠ row b := by
        intro b' hb' heq
        apply hnot
        rw [h, ← heq]
        exact List.mem_map_of_mem hb'
      simp only [List.map_cons, set, h, if_true, List.cons.injEq, true_and]
      apply List.map_congr_left
      intro b' hb'
      rw [if_neg (hother b' hb')]
    · have hin : b ∈ bs := by
        rcases List.mem_cons.mp hmem with heq | hin
        · exact absurd (congrArg row heq.symm) h
        · exact hin
      simp only [List.map_cons, set, if_neg h, set_map_of_mem hrest hin]

end

end Assoc
