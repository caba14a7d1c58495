import Mathlib

/-!
# Events in a window of time

Events come in groups of at most `k`, and a group comes at least `d` after every
event of the groups before it. Then a window of length `T` has at most
`k * (T / d + 1)` of them.
-/

namespace Window

def within (a T : ℕ) (ts : List ℕ) : List ℕ := ts.filter fun t => a ≤ t ∧ t ≤ a + T

variable {a T d k : ℕ} {ts : List ℕ} {groups : List (List ℕ)}

theorem within_append {ts' : List ℕ} : within a T (ts ++ ts') = within a T ts ++ within a T ts' := List.filter_append ..

theorem within_eq_nil (h : ∀ t ∈ ts, ¬ (a ≤ t ∧ t ≤ a + T)) : within a T ts = [] := by
  refine List.filter_eq_nil_iff.mpr fun t ht => ?_
  rw [decide_eq_true_eq]
  exact h t ht

/-- Where nothing comes before `a + d`, the window may as well begin there. -/
theorem within_later (hd : d ≤ T) (h : ∀ t ∈ ts, a + d ≤ t) : within a T ts = within (a + d) (T - d) ts := by
  refine List.filter_congr fun t ht => ?_
  have hlate := h t ht
  rw [decide_eq_decide]
  omega

/-- Each group comes at least `d` after the ones before it. -/
def Spaced (d : ℕ) (groups : List (List ℕ)) : Prop := groups.Pairwise fun g g' => ∀ t ∈ g, ∀ t' ∈ g', t + d ≤ t'

/-- By induction on the groups: the first that has an event in the window leaves
the others a window that is shorter by `d`. -/
theorem length_within_le (hk : ∀ g ∈ groups, g.length ≤ k) (hspaced : Spaced d groups) :
    (within a T groups.flatten).length * d ≤ k * (T + d) := by
  induction groups generalizing a T with
  | nil => exact (Nat.zero_mul d).le.trans (Nat.zero_le _)
  | cons g groups ih =>
    obtain ⟨hfirst, hrest⟩ := List.pairwise_cons.mp hspaced
    have hk' : ∀ g ∈ groups, g.length ≤ k := fun g' hg' => hk g' (List.mem_cons_of_mem _ hg')
    have hg : (within a T g).length ≤ k := (List.length_filter_le ..).trans (hk g List.mem_cons_self)
    rw [List.flatten_cons, within_append, List.length_append, Nat.add_mul]
    by_cases hin : ∃ t ∈ g, a ≤ t ∧ t ≤ a + T
    · obtain ⟨t, ht, hlo, -⟩ := hin
      have hlate : ∀ t' ∈ groups.flatten, a + d ≤ t' := by
        intro t' ht'
        obtain ⟨g', hg', hmem⟩ := List.mem_flatten.mp ht'
        have := hfirst g' hg' t ht t' hmem
        omega
      have hone : (within a T g).length * d ≤ k * d := Nat.mul_le_mul_right d hg
      by_cases hd : d ≤ T
      · have hmore := ih (a := a + d) (T := T - d) hk' hrest
        rw [← within_later hd hlate, Nat.sub_add_cancel hd] at hmore
        calc (within a T g).length * d + (within a T groups.flatten).length * d ≤ k * d + k * T := Nat.add_le_add hone hmore
          _ = k * (T + d) := by ring
      · have hnone : within a T groups.flatten = [] := within_eq_nil fun t' ht' => by
          have := hlate t' ht'
          omega
        rw [hnone, List.length_nil, Nat.zero_mul, Nat.add_zero]
        exact hone.trans (Nat.mul_le_mul_left k (Nat.le_add_left d T))
    · have hnone : within a T g = [] := within_eq_nil fun t ht h => hin ⟨t, ht, h⟩
      rw [hnone, List.length_nil, Nat.zero_mul, Nat.zero_add]
      exact ih hk' hrest

end Window
