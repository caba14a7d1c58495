import Mathlib

/-!
# Pools of processes

A list of processes addressed by position: new ones are appended, a step
replaces one. `total f` adds up what each process holds; it moves with the
process that stepped, and a family of claims on distinct processes never adds
up to more than all processes hold.
-/

namespace Pool

variable {α β : Type*} {f : α → ℕ} {ps : List α} {p q : α} {i j : ℕ}

def total (f : α → ℕ) (ps : List α) : ℕ := (ps.map f).sum

@[simp] theorem total_nil : total f [] = 0 := rfl

@[simp] theorem total_cons : total f (p :: ps) = f p + total f ps := by
  simp only [total, List.map_cons, List.sum_cons]

@[simp] theorem total_append {ps' : List α} : total f (ps ++ ps') = total f ps + total f ps' := by
  simp only [total, List.map_append, List.sum_append]

/-- A new process that holds nothing yet. -/
theorem total_concat_of_zero (h : f p = 0) : total f (ps ++ [p]) = total f ps := by
  rw [total_append, total_cons, total_nil, h]
  rfl

/-- Replacing a process moves the total by as much as what it holds. -/
theorem total_set : ∀ {ps : List α} {i : ℕ}, ps[i]? = some p → total f (ps.set i q) + f p = total f ps + f q
  | a :: ps, 0, h => by
    cases h
    simp only [List.set_cons_zero, total_cons]
    omega
  | a :: ps, i + 1, h => by
    have h' : ps[i]? = some p := h
    have ih := total_set h'
    simp only [List.set_cons_succ, total_cons]
    omega

theorem total_set_eq (h : ps[i]? = some p) (hf : f q = f p) : total f (ps.set i q) = total f ps := by
  have := total_set (f := f) (q := q) h
  omega

theorem total_eraseIdx : ∀ {ps : List α} {i : ℕ}, ps[i]? = some p → total f (ps.eraseIdx i) + f p = total f ps
  | a :: ps, 0, h => by
    cases h
    simp [Nat.add_comm]
  | a :: ps, i + 1, h => by
    have h' : ps[i]? = some p := h
    have ih := total_eraseIdx h'
    simp only [List.eraseIdx_cons_succ, total_cons]
    omega

theorem le_total : ∀ {ps : List α} {i : ℕ}, ps[i]? = some p → f p ≤ total f ps
  | a :: ps, 0, h => by
    cases h
    simp
  | a :: ps, i + 1, h => by
    have h' : ps[i]? = some p := h
    have ih := le_total h'
    simp only [total_cons]
    omega

theorem total_le_total {g : α → ℕ} (h : ∀ p ∈ ps, f p ≤ g p) : total f ps ≤ total g ps := by
  induction ps with
  | nil => exact Nat.le_refl 0
  | cons a ps ih =>
    rw [total_cons, total_cons]
    exact Nat.add_le_add (h a List.mem_cons_self) (ih fun p hp => h p (List.mem_cons_of_mem _ hp))

theorem total_congr {g : α → ℕ} (h : ∀ p ∈ ps, f p = g p) : total f ps = total g ps := by
  unfold total
  rw [List.map_congr_left h]

theorem total_perm {ps' : List α} (h : ps.Perm ps') : total f ps = total f ps' := (h.map f).sum_eq

theorem total_map {g : β → α} {qs : List β} : total f (qs.map g) = total (fun q => f (g q)) qs := by
  unfold total
  rw [List.map_map]
  rfl

theorem total_filter {P : α → Bool} : total f (ps.filter P) = total (fun p => if P p then f p else 0) ps := by
  induction ps with
  | nil => rfl
  | cons a ps ih =>
    rw [List.filter_cons, total_cons]
    split <;> simp only [total_cons, ih, Nat.zero_add]

theorem total_subperm {ps' : List α} (h : ps.Subperm ps') : total f ps ≤ total f ps' := by
  obtain ⟨l, hperm, hsub⟩ := h
  calc total f ps = total f l := (total_perm hperm).symm
    _ ≤ total f ps' := (hsub.map f).sum_le_sum fun _ _ => Nat.zero_le _

theorem total_mul (n : ℕ) : total (fun p => f p * n) ps = total f ps * n := by
  induction ps with
  | nil => exact (Nat.zero_mul n).symm
  | cons a ps ih => rw [total_cons, total_cons, ih, Nat.add_mul]

theorem total_add {g : α → ℕ} : total (fun p => f p + g p) ps = total f ps + total g ps := by
  induction ps with
  | nil => rfl
  | cons a ps ih =>
    simp only [total_cons, ih]
    omega

theorem total_eq_zero (h : ∀ p ∈ ps, f p = 0) : total f ps = 0 := by
  induction ps with
  | nil => rfl
  | cons a ps ih =>
    rw [total_cons, h a List.mem_cons_self, ih fun p hp => h p (List.mem_cons_of_mem _ hp)]

theorem getElem?_set_self_of_some (h : ps[i]? = some p) : (ps.set i q)[i]? = some q :=
  List.getElem?_set_self (List.getElem?_eq_some_iff.mp h).1

theorem set_of_getElem? (h : ps[i]? = some p) : ps.set i p = ps := by
  obtain ⟨hi, rfl⟩ := List.getElem?_eq_some_iff.mp h
  exact List.set_getElem_self hi

/-- Whoever is in the pool after a step was there before or is the one that stepped. -/
theorem getElem?_set_cases (h : (ps.set i q)[j]? = some p) : (j = i ∧ p = q) ∨ (j ≠ i ∧ ps[j]? = some p) := by
  by_cases hij : j = i
  · subst hij
    rw [List.getElem?_set_self'] at h
    obtain ⟨_, _, rfl⟩ := Option.map_eq_some_iff.mp h
    exact .inl ⟨rfl, rfl⟩
  · rw [List.getElem?_set_ne (Ne.symm hij)] at h
    exact .inr ⟨hij, h⟩

/-- What is in a pool with a new process is the new one, or was there. -/
theorem getElem?_append_cases (h : (ps ++ [q])[j]? = some p) : (j = ps.length ∧ p = q) ∨ ps[j]? = some p := by
  rcases Nat.lt_trichotomy j ps.length with hj | rfl | hj
  · rw [List.getElem?_append_left hj] at h
    exact .inr h
  · rw [List.getElem?_append_right (Nat.le_refl _), Nat.sub_self] at h
    exact .inl ⟨rfl, (Option.some.inj h).symm⟩
  · rw [List.getElem?_append_right (Nat.le_of_lt hj), List.getElem?_singleton,
      if_neg (by omega)] at h
    cases h

theorem getElem?_append_of_some (h : ps[j]? = some p) : (ps ++ [q])[j]? = some p := by
  obtain ⟨hj, -⟩ := List.getElem?_eq_some_iff.mp h
  rw [List.getElem?_append_left hj]
  exact h

theorem map_set_eq {g : α → β} (h : ps[i]? = some p) (hg : g q = g p) : (ps.set i q).map g = ps.map g := by
  rw [List.map_set]
  apply set_of_getElem?
  rw [List.getElem?_map, h, Option.map_some, hg]

theorem lt_of_getElem? (h : ps[i]? = some p) : i < ps.length := (List.getElem?_eq_some_iff.mp h).1

theorem eq_of_nodup_map {g : α → β} (hd : (ps.map g).Nodup) (hi : ps[i]? = some p) (hj : ps[j]? = some q)
    (h : g p = g q) : i = j := by
  have hlt : i < (ps.map g).length := by
    rw [List.length_map]
    exact lt_of_getElem? hi
  refine (List.getElem?_inj hlt hd).mp ?_
  rw [List.getElem?_map, List.getElem?_map, hi, hj, Option.map_some, Option.map_some, h]

theorem forall_set {P : α → Prop} (h : ∀ p ∈ ps, P p) (hq : P q) : ∀ p ∈ ps.set i q, P p := by
  intro p hp
  rcases List.mem_or_eq_of_mem_set hp with hp | rfl
  · exact h p hp
  · exact hq

def heldAt (f : α → ℕ) (ps : List α) (i : ℕ) : ℕ := (ps[i]?).elim 0 f

theorem total_eq_sum_heldAt (f : α → ℕ) : ∀ ps : List α, total f ps = ((List.range ps.length).map (heldAt f ps)).sum
  | [] => rfl
  | a :: ps => by
    rw [total_cons, total_eq_sum_heldAt f ps, List.length_cons, List.range_succ_eq_map, List.map_cons, List.sum_cons,
      List.map_map]
    rfl

/-- Claims on distinct processes, each within what its process holds, add up to
no more than all processes hold. -/
theorem claims_le_total {es : List β} {owner : β → ℕ} {g : β → ℕ} (hd : (es.map owner).Nodup)
    (h : ∀ e ∈ es, ∃ p, ps[owner e]? = some p ∧ g e ≤ f p) : (es.map g).sum ≤ total f ps := by
  have hle : (es.map g).sum ≤ ((es.map owner).map (heldAt f ps)).sum := by
    rw [List.map_map]
    refine List.sum_le_sum fun e he => ?_
    obtain ⟨p, hp, hg⟩ := h e he
    simpa only [Function.comp, heldAt, hp, Option.elim_some] using hg
  have hsub : es.map owner ⊆ List.range ps.length := by
    intro i hi
    obtain ⟨e, he, rfl⟩ := List.mem_map.mp hi
    obtain ⟨p, hp, -⟩ := h e he
    exact List.mem_range.mpr (lt_of_getElem? hp)
  obtain ⟨l, hperm, hl⟩ := hd.subperm hsub
  calc (es.map g).sum ≤ ((es.map owner).map (heldAt f ps)).sum := hle
    _ = (l.map (heldAt f ps)).sum := ((hperm.map _).sum_eq).symm
    _ ≤ ((List.range ps.length).map (heldAt f ps)).sum :=
      (hl.map _).sum_le_sum fun _ _ => Nat.zero_le _
    _ = total f ps := (total_eq_sum_heldAt f ps).symm

/-- Distinct numbers, each in the interval of some process, are no more than the
intervals are long together. -/
theorem length_le_total_intervals (lo hi : α → ℕ) : ∀ {ps : List α} {ts : List ℕ}, ts.Nodup →
    (∀ t ∈ ts, ∃ p ∈ ps, lo p ≤ t ∧ t < hi p) → ts.length ≤ total (fun p => hi p - lo p) ps
  | [], ts, _, h => by
    have hnil : ts = [] := List.eq_nil_iff_forall_not_mem.mpr fun t ht => by
      obtain ⟨p, hp, -⟩ := h t ht
      cases hp
    rw [hnil]
    exact Nat.zero_le _
  | p :: ps, ts, hts, h => by
    have hin : (ts.filter fun t => lo p ≤ t ∧ t < hi p).length ≤ hi p - lo p := by
      have hsub : (ts.filter fun t => lo p ≤ t ∧ t < hi p).toFinset ⊆ Finset.Ico (lo p) (hi p) := by
        intro t ht
        rw [List.mem_toFinset, List.mem_filter, decide_eq_true_eq] at ht
        exact Finset.mem_Ico.mpr ht.2
      have hcard := Finset.card_le_card hsub
      rwa [List.toFinset_card_of_nodup (hts.filter _), Nat.card_Ico] at hcard
    have hout : (ts.filter fun t => !decide (lo p ≤ t ∧ t < hi p)).length ≤ total (fun p => hi p - lo p) ps := by
      refine length_le_total_intervals lo hi (hts.filter _) fun t ht => ?_
      obtain ⟨hmem, hnot⟩ := List.mem_filter.mp ht
      obtain ⟨q, hq, hlo, hhi⟩ := h t hmem
      rcases List.mem_cons.mp hq with rfl | hrest
      · simp [hlo, hhi] at hnot
      · exact ⟨q, hrest, hlo, hhi⟩
    have hsplit := List.length_eq_length_filter_add (l := ts) fun t => decide (lo p ≤ t ∧ t < hi p)
    rw [total_cons]
    omega

end Pool
