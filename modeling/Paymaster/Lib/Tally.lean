import Mathlib

/-!
# Finitely supported tallies

A map of counters together with its running total. `SumsTo f n` says that `f`
vanishes off a finite set over which it sums to `n`; the rules below are the
ways a program maintains such a total: crediting one key and debiting one key.
-/

namespace Tally

variable {α : Type*} {f : α → ℕ} {n k : ℕ}

/-- `f` vanishes off a finite set, over which it sums to `n`. -/
def SumsTo (f : α → ℕ) (n : ℕ) : Prop :=
  ∃ s : Finset α, (∀ a ∉ s, f a = 0) ∧ ∑ a ∈ s, f a = n

theorem sumsTo_zero : SumsTo (fun _ : α => 0) 0 := ⟨∅, by simp, by simp⟩

theorem SumsTo.le (h : SumsTo f n) (a : α) : f a ≤ n := by
  obtain ⟨s, hs, rfl⟩ := h
  by_cases ha : a ∈ s
  · exact Finset.single_le_sum (fun _ _ => Nat.zero_le _) ha
  · rw [hs a ha]; exact Nat.zero_le _

variable [DecidableEq α]

/-- The support may be enlarged to hold any one key. -/
theorem SumsTo.mem (h : SumsTo f n) (a : α) :
    ∃ s : Finset α, a ∈ s ∧ (∀ b ∉ s, f b = 0) ∧ ∑ b ∈ s, f b = n := by
  obtain ⟨s, hs, hn⟩ := h
  refine ⟨insert a s, Finset.mem_insert_self a s, fun b hb => hs b ?_, ?_⟩
  · exact fun hbs => hb (Finset.mem_insert_of_mem hbs)
  · by_cases ha : a ∈ s
    · rw [Finset.insert_eq_of_mem ha, hn]
    · rw [Finset.sum_insert ha, hs a ha, hn, Nat.zero_add]

theorem SumsTo.update (h : SumsTo f n) (a : α) {v m : ℕ} (hv : m + f a = n + v) :
    SumsTo (Function.update f a v) m := by
  obtain ⟨s, ha, hs, rfl⟩ := h.mem a
  refine ⟨s, fun b hb => ?_, ?_⟩
  · have hne : b ≠ a := fun e => hb (e ▸ ha)
    rw [Function.update_of_ne hne, hs b hb]
  · rw [Finset.sum_update_of_mem ha]
    have := Finset.sum_sdiff (f := f) (Finset.singleton_subset_iff.mpr ha)
    rw [Finset.sum_singleton] at this
    omega

theorem SumsTo.credit (h : SumsTo f n) (a : α) (k : ℕ) :
    SumsTo (Function.update f a (f a + k)) (n + k) :=
  h.update a (by omega)

theorem SumsTo.debit (h : SumsTo f n) (a : α) (hk : k ≤ f a) :
    SumsTo (Function.update f a (f a - k)) (n - k) :=
  h.update a (by have := h.le a; omega)

/-! ## Amounts under keys -/

section
variable {κ : Type*} [DecidableEq κ] {puts : List (κ × ℕ)} {keys : List κ} {p : κ → Bool}

/-- What is under the keys of a kind, key by key, is what came with keys of that kind. -/
theorem sum_under (hd : keys.Nodup) (hkeys : ∀ put ∈ puts, put.1 ∈ keys) :
    ((keys.filter p).map fun key => ((puts.filter fun put => put.1 = key).map Prod.snd).sum).sum =
      ((puts.filter fun put => p put.1).map Prod.snd).sum := by
  induction puts with
  | nil => simp
  | cons put puts ih =>
    have hrest := ih fun put' hput' => hkeys put' (List.mem_cons_of_mem _ hput')
    have hone : ((keys.filter p).map fun key => if put.1 = key then put.2 else 0).sum = if p put.1 then put.2 else 0 := by
      rw [List.sum_map_eq_nsmul_single put.1 _ fun key hne _ => if_neg (Ne.symm hne), if_pos rfl]
      by_cases hp : p put.1 = true
      · have hmem : put.1 ∈ keys.filter p := List.mem_filter.mpr ⟨hkeys put List.mem_cons_self, hp⟩
        rw [List.count_eq_one_of_mem (hd.filter p) hmem, if_pos hp, one_nsmul]
      · have hnot : put.1 ∉ keys.filter p := fun hmem => hp (List.mem_filter.mp hmem).2
        rw [List.count_eq_zero_of_not_mem hnot, if_neg hp, zero_nsmul]
    have hsplit : ∀ key, (((put :: puts).filter fun put => put.1 = key).map Prod.snd).sum =
        (if put.1 = key then put.2 else 0) + ((puts.filter fun put => put.1 = key).map Prod.snd).sum := by
      intro key
      by_cases h : put.1 = key
      · simp [h]
      · simp [h]
    simp only [hsplit, List.sum_map_add, hone, hrest]
    by_cases hp : p put.1 = true
    · simp [hp]
    · simp [hp]

end

end Tally
