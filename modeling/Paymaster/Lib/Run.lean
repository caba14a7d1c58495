import Mathlib

/-!
# Runs of a partial step function

A transition system is a step `σ → ℓ → Option σ`: `none` means that the label
is not enabled. `run` folds it over a list of labels; every statement about
"every run" is about `run step s ls = some s'`, and is proved from what one
step preserves.
-/

namespace Runs

variable {σ ℓ : Type*} {step : σ → ℓ → Option σ} {s s' t : σ} {ls ls' : List ℓ} {l : ℓ}

/-- The state after a list of labels, if each was enabled in turn. -/
def run (step : σ → ℓ → Option σ) : σ → List ℓ → Option σ
  | s, [] => some s
  | s, l :: ls => (step s l).bind fun s' => run step s' ls

@[simp] theorem run_nil : run step s [] = some s := rfl

theorem run_cons : run step s (l :: ls) = some t ↔ ∃ m, step s l = some m ∧ run step m ls = some t := by
  simp only [run, Option.bind_eq_some_iff]

theorem run_append : ∀ (ls : List ℓ) (s : σ),
    run step s (ls ++ ls') = some t ↔ ∃ m, run step s ls = some m ∧ run step m ls' = some t
  | [], s => by simp
  | l :: ls, s => by
    simp only [List.cons_append, run_cons, run_append ls]
    constructor
    · rintro ⟨a, ha, b, hb, ht⟩
      exact ⟨b, ⟨a, ha, hb⟩, ht⟩
    · rintro ⟨b, ⟨a, ha, hb⟩, ht⟩
      exact ⟨a, ha, b, hb, ht⟩

theorem run_snoc : run step s (ls ++ [l]) = some t ↔ ∃ m, run step s ls = some m ∧ step m l = some t := by
  rw [run_append]
  simp only [run_cons, run_nil, Option.some.injEq, exists_eq_right]

/-- A run all of whose steps meet a condition on the state before the step. -/
def Meets (step : σ → ℓ → Option σ) (C : σ → ℓ → Prop) : σ → List ℓ → Prop
  | _, [] => True
  | s, l :: ls => C s l ∧ ∀ m, step s l = some m → Meets step C m ls

/-- Along a run that can be computed, a condition that can be computed is checked state by state. -/
instance decidableMeets {C : σ → ℓ → Prop} [∀ s l, Decidable (C s l)] :
    ∀ (s : σ) (ls : List ℓ), Decidable (Meets step C s ls)
  | _, [] => isTrue trivial
  | s, l :: ls =>
    have : Decidable (∀ m, step s l = some m → Meets step C m ls) :=
      match step s l with
      | none => isTrue fun _ hm => nomatch hm
      | some m =>
        match decidableMeets m ls with
        | isTrue hrest => isTrue fun _ hm => Option.some.inj hm ▸ hrest
        | isFalse hrest => isFalse fun hall => hrest (hall m rfl)
    inferInstanceAs (Decidable (_ ∧ _))

/-- What every step meeting `C` preserves, every run whose steps meet `C` preserves. -/
theorem invariant_of_meets {P : σ → Prop} {C : σ → ℓ → Prop}
    (hstep : ∀ {s l s'}, P s → C s l → step s l = some s' → P s') :
    ∀ {ls : List ℓ} {s : σ}, P s → Meets step C s ls → run step s ls = some t → P t
  | [], s, hP, _, h => by
    rw [run_nil, Option.some.injEq] at h
    exact h ▸ hP
  | l :: ls, s, hP, hC, h => by
    obtain ⟨m, hm, hr⟩ := run_cons.mp h
    exact invariant_of_meets hstep (hstep hP hC.1 hm) (hC.2 m hm) hr

theorem meets_and {C D : σ → ℓ → Prop} : ∀ {ls : List ℓ} {s : σ}, Meets step C s ls → Meets step D s ls →
    Meets step (fun s l => C s l ∧ D s l) s ls
  | [], _, _, _ => trivial
  | _ :: _, _, hC, hD => ⟨⟨hC.1, hD.1⟩, fun m hm => meets_and (hC.2 m hm) (hD.2 m hm)⟩

theorem meets_mono {C D : σ → ℓ → Prop} (hCD : ∀ s l, C s l → D s l) : ∀ {ls : List ℓ} {s : σ},
    Meets step C s ls → Meets step D s ls
  | [], _, _ => trivial
  | _ :: _, _, h => ⟨hCD _ _ h.1, fun m hm => meets_mono hCD (h.2 m hm)⟩

theorem meets_of_forall {C : ℓ → Prop} : ∀ {ls : List ℓ} {s : σ}, (∀ l ∈ ls, C l) →
    Meets step (fun _ l => C l) s ls
  | [], _, _ => trivial
  | l :: ls, _, h => ⟨h l (by simp), fun _ _ => meets_of_forall fun l' hl' => h l' (by simp [hl'])⟩

/-- What every step preserves, every run preserves. -/
theorem invariant {P : σ → Prop} (hstep : ∀ {s l s'}, P s → step s l = some s' → P s')
    (hP : P s) (h : run step s ls = some t) : P t :=
  invariant_of_meets (C := fun _ _ => True) (fun hs _ => hstep hs) hP
    (meets_of_forall (C := fun _ => True) fun _ _ => trivial) h

/-- What every step with an admitted label preserves, every run over such labels preserves. -/
theorem invariant_on {P : σ → Prop} {C : ℓ → Prop}
    (hstep : ∀ {s l s'}, P s → C l → step s l = some s' → P s')
    (hP : P s) (hls : ∀ l ∈ ls, C l) (h : run step s ls = some t) : P t :=
  invariant_of_meets (C := fun _ l => C l) hstep hP (meets_of_forall hls) h

/-- A property of every state of a run, the first and the last included. -/
def Always (step : σ → ℓ → Option σ) (P : σ → Prop) : σ → List ℓ → Prop
  | s, [] => P s
  | s, l :: ls => P s ∧ ∀ m, step s l = some m → Always step P m ls

instance decidableAlways {P : σ → Prop} [∀ s, Decidable (P s)] :
    ∀ (s : σ) (ls : List ℓ), Decidable (Always step P s ls)
  | s, [] => inferInstanceAs (Decidable (P s))
  | s, l :: ls =>
    have : Decidable (∀ m, step s l = some m → Always step P m ls) :=
      match step s l with
      | none => isTrue fun _ hm => nomatch hm
      | some m =>
        match decidableAlways m ls with
        | isTrue hrest => isTrue fun _ hm => Option.some.inj hm ▸ hrest
        | isFalse hrest => isFalse fun hall => hrest (hall m rfl)
    inferInstanceAs (Decidable (_ ∧ _))

theorem Always.head {P : σ → Prop} : ∀ {ls : List ℓ}, Always step P s ls → P s
  | [], h => h
  | _ :: _, h => h.1

theorem Always.last {P : σ → Prop} : ∀ {ls : List ℓ} {s : σ}, Always step P s ls → run step s ls = some t → P t
  | [], _, h, hr => by
    rw [run_nil, Option.some.injEq] at hr
    exact hr ▸ h
  | _ :: _, _, h, hr => by
    obtain ⟨m, hm, hr⟩ := run_cons.mp hr
    exact (h.2 m hm).last hr

/-- A condition that is exactly what keeps `P` from one state to the next, where
the invariant `I` holds and the step meets `H`, is exactly what keeps `P` along a run. -/
theorem always_iff_meets_on {I P : σ → Prop} {H C : σ → ℓ → Prop}
    (hI : ∀ {s l s'}, I s → H s l → step s l = some s' → I s')
    (hP : ∀ {s l s'}, I s → H s l → P s → step s l = some s' → (P s' ↔ C s l)) :
    ∀ {ls : List ℓ} {s : σ}, I s → P s → Meets step H s ls → run step s ls = some t →
      (Always step P s ls ↔ Meets step C s ls)
  | [], s, _, hs, _, _ => ⟨fun _ => trivial, fun _ => hs⟩
  | l :: ls, s, hi, hs, hH, h => by
    obtain ⟨m, hm, hr⟩ := run_cons.mp h
    have hone := hP hi hH.1 hs hm
    have hI' := hI hi hH.1 hm
    constructor
    · rintro ⟨-, hrest⟩
      have hPm : P m := (hrest m hm).head
      refine ⟨hone.mp hPm, fun m' hm' => ?_⟩
      obtain rfl := Option.some.inj (hm.symm.trans hm')
      exact (always_iff_meets_on hI hP hI' hPm (hH.2 m hm) hr).mp (hrest m hm)
    · rintro ⟨hC, hrest⟩
      refine ⟨hs, fun m' hm' => ?_⟩
      obtain rfl := Option.some.inj (hm.symm.trans hm')
      exact (always_iff_meets_on hI hP hI' (hone.mpr hC) (hH.2 m hm) hr).mpr (hrest m hm)

theorem always_iff_meets {I P : σ → Prop} {C : σ → ℓ → Prop}
    (hI : ∀ {s l s'}, I s → step s l = some s' → I s')
    (hP : ∀ {s l s'}, I s → P s → step s l = some s' → (P s' ↔ C s l)) (hi : I s) (hs : P s)
    (h : run step s ls = some t) : Always step P s ls ↔ Meets step C s ls :=
  always_iff_meets_on (H := fun _ _ => True) (fun hi _ => hI hi) (fun hi _ => hP hi) hi hs
    (meets_of_forall (C := fun _ => True) fun _ _ => trivial) h

/-- What holds of every two states in a row when the steps meet `C`. -/
theorem meets_of_step {I : σ → Prop} {C : σ → ℓ → Prop}
    (hI : ∀ {s l s'}, I s → step s l = some s' → I s') (hC : ∀ {s l}, I s → C s l) :
    ∀ {ls : List ℓ} {s : σ}, I s → Meets step C s ls
  | [], _, _ => trivial
  | _ :: _, _, hi => ⟨hC hi, fun _ hm => meets_of_step hI hC (hI hi hm)⟩

/-- Conditions that agree on every step agree along a run. -/
theorem meets_iff {I : σ → Prop} {H C D : σ → ℓ → Prop}
    (hI : ∀ {s l s'}, I s → H s l → step s l = some s' → I s') (hCD : ∀ {s l}, I s → H s l → (C s l ↔ D s l)) :
    ∀ {ls : List ℓ} {s : σ}, I s → Meets step H s ls → (Meets step C s ls ↔ Meets step D s ls)
  | [], _, _, _ => Iff.rfl
  | l :: ls, s, hi, ⟨hH, hrest⟩ => by
    have hone : C s l ↔ D s l := hCD hi hH
    have hmore : (∀ m, step s l = some m → Meets step C m ls) ↔ ∀ m, step s l = some m → Meets step D m ls := by
      refine forall_congr' fun m => imp_congr_right fun hm => ?_
      exact meets_iff hI hCD (hI hi hH hm) (hrest m hm)
    exact and_congr hone hmore

end Runs
