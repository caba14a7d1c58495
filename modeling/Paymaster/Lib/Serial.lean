import Mathlib

/-!
# Serial explanations

Transactions that overlap are explained by an order in which they would have
left the same state one after the other. The transactions that are done are
read off a pool of processes.
-/

namespace Serial

variable {σ τ α : Type*} {apply : σ → τ → σ} {start now : σ} {done done' : List τ}

/-- What is done has the effect of some order of it. -/
def Explains (apply : σ → τ → σ) (start : σ) (done : List τ) (now : σ) : Prop :=
  ∃ order : List τ, order.Perm done ∧ now = order.foldl apply start

theorem explains_nil : Explains apply start [] start := ⟨[], List.Perm.refl _, rfl⟩

theorem explains_perm (h : Explains apply start done now) (hperm : done.Perm done') :
    Explains apply start done' now := by
  obtain ⟨order, horder, rfl⟩ := h
  exact ⟨order, horder.trans hperm, rfl⟩

/-- What is done last comes last. -/
theorem explains_cons (h : Explains apply start done now) (t : τ) : Explains apply start (t :: done) (apply now t) := by
  obtain ⟨order, horder, rfl⟩ := h
  refine ⟨order ++ [t], (List.perm_append_singleton t order).trans (horder.cons t), ?_⟩
  rw [List.foldl_append]
  rfl

/-- What every transaction preserves holds of what they are explained by. -/
theorem explains_invariant {P : σ → Prop} (happly : ∀ s t, P s → P (apply s t)) (hstart : P start)
    (h : Explains apply start done now) : P now := by
  obtain ⟨order, -, rfl⟩ := h
  induction order generalizing start with
  | nil => exact hstart
  | cons t order ih => exact ih (happly start t hstart)

/-! ## Pools of transactions -/

variable {f : α → Option τ} {ps : List α} {p q : α} {i : ℕ} {t : τ}

theorem filterMap_eraseIdx_perm (h : ps[i]? = some p) :
    (ps.filterMap f).Perm ((f p).toList ++ (ps.eraseIdx i).filterMap f) := by
  obtain ⟨hi, rfl⟩ := List.getElem?_eq_some_iff.mp h
  refine ((List.getElem_cons_eraseIdx_perm hi).filterMap f).symm.trans ?_
  rw [List.filterMap_cons]
  cases f ps[i] <;> exact List.Perm.refl _

theorem filterMap_set_perm (h : ps[i]? = some p) :
    ((ps.set i q).filterMap f).Perm ((f q).toList ++ (ps.eraseIdx i).filterMap f) := by
  obtain ⟨hi, rfl⟩ := List.getElem?_eq_some_iff.mp h
  refine ((List.set_perm_cons_eraseIdx hi q).filterMap f).trans ?_
  rw [List.filterMap_cons]
  cases f q <;> exact List.Perm.refl _

theorem done_commit (h : ps[i]? = some p) (hp : f p = none) (hq : f q = some t) :
    (t :: ps.filterMap f).Perm ((ps.set i q).filterMap f) := by
  have hold := filterMap_eraseIdx_perm (f := f) h
  have hnew := filterMap_set_perm (f := f) (q := q) h
  rw [hp] at hold
  rw [hq] at hnew
  exact (hold.cons t).trans hnew.symm

theorem done_same (h : ps[i]? = some p) (hf : f q = f p) : (ps.filterMap f).Perm ((ps.set i q).filterMap f) := by
  have hold := filterMap_eraseIdx_perm (f := f) h
  have hnew := filterMap_set_perm (f := f) (q := q) h
  rw [hf] at hnew
  exact hold.trans hnew.symm

end Serial
