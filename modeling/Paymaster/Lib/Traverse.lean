import Mathlib

/-!
# Steps over a list that may fail

A traversal succeeds exactly when each of its steps does.
-/

namespace Traverse

variable {ε α β γ : Type}

theorem mapM_ok {f : α → Except ε β} {R : α → β → Prop} : ∀ {l : List α},
    (∀ a ∈ l, ∃ b, f a = .ok b ∧ R a b) → ∃ bs, l.mapM f = .ok bs ∧ List.Forall₂ R l bs
  | [], _ => ⟨[], rfl, .nil⟩
  | a :: l, h => by
    obtain ⟨b, hb, hR⟩ := h a List.mem_cons_self
    obtain ⟨bs, hbs, hall⟩ := mapM_ok fun a' ha' => h a' (List.mem_cons_of_mem a ha')
    refine ⟨b :: bs, ?_, .cons hR hall⟩
    rw [List.mapM_cons, hb, hbs]
    rfl

theorem forall₂_of_mapM {f : α → Except ε β} : ∀ {l : List α} {bs : List β}, l.mapM f = .ok bs →
    List.Forall₂ (fun a b => f a = .ok b) l bs
  | [], bs, h => by
    cases h
    exact .nil
  | a :: l, bs, h => by
    rw [List.mapM_cons] at h
    cases ha : f a with
    | error e =>
      rw [ha] at h
      cases h
    | ok b =>
      rw [ha] at h
      cases hl : l.mapM f with
      | error e =>
        rw [hl] at h
        cases h
      | ok bs' =>
        rw [hl] at h
        cases h
        exact .cons ha (forall₂_of_mapM hl)

theorem ok_of_mapM {f : α → Except ε β} : ∀ {l : List α} {bs : List β}, l.mapM f = .ok bs →
    ∀ a ∈ l, ∃ b, f a = .ok b := by
  intro l bs h
  have hall := forall₂_of_mapM h
  clear h
  induction hall with
  | nil =>
    intro a ha
    cases ha
  | cons hab _ ih =>
    intro a ha
    rcases List.mem_cons.mp ha with rfl | ha
    · exact ⟨_, hab⟩
    · exact ih a ha

/-- What becomes of each result becomes of them all. -/
theorem mapM_map_result (f : α → Except ε β) (g : β → γ) : ∀ l : List α,
    (l.mapM fun a => (f a).map g) = (l.mapM f).map (List.map g)
  | [] => rfl
  | a :: l => by
    rw [List.mapM_cons, List.mapM_cons, mapM_map_result f g l]
    cases f a with
    | error e => rfl
    | ok b =>
      cases l.mapM f with
      | error e => rfl
      | ok bs => rfl

theorem exists_of_mapM {f : α → Option β} : ∀ {l : List α} {bs : List β}, l.mapM f = some bs →
    ∀ b ∈ bs, ∃ a ∈ l, f a = some b
  | [], bs, h, b, hb => by
    cases h
    cases hb
  | a :: l, bs, h, b, hb => by
    simp only [List.mapM_cons, Option.bind_eq_bind, Option.bind_eq_some_iff] at h
    obtain ⟨b', ha, bs', hl, heq⟩ := h
    cases heq
    rcases List.mem_cons.mp hb with rfl | hrest
    · exact ⟨a, List.mem_cons_self, ha⟩
    · obtain ⟨a', ha', hb'⟩ := exists_of_mapM hl b hrest
      exact ⟨a', List.mem_cons_of_mem a ha', hb'⟩

theorem map_eq_of_forall₂ {g : α → γ} {g' : β → γ} : ∀ {l : List α} {bs : List β},
    List.Forall₂ (fun a b => g a = g' b) l bs → l.map g = bs.map g'
  | _, _, .nil => rfl
  | _, _, .cons h hall => by rw [List.map_cons, List.map_cons, h, map_eq_of_forall₂ hall]

theorem forall_of_forall₂ {P : β → Prop} {l : List α} {bs : List β} (h : List.Forall₂ (fun _ b => P b) l bs) :
    ∀ b ∈ bs, P b := by
  induction h with
  | nil =>
    intro b hb
    cases hb
  | cons hP _ ih =>
    intro b hb
    rcases List.mem_cons.mp hb with rfl | hb
    · exact hP
    · exact ih b hb

theorem forM_ok {f : α → Except ε β} : ∀ {l : List α},
    (l.forM fun a => do let _ ← f a) = .ok ⟨⟩ ↔ ∀ a ∈ l, ∃ b, f a = .ok b
  | [] => by
    constructor
    · intro _ a ha
      cases ha
    · intro _
      rfl
  | a :: l => by
    have hcons : ((a :: l).forM fun a => do let _ ← f a) = (do let _ ← f a; l.forM fun a => do let _ ← f a) := by
      show ((do let _ ← f a) >>= fun _ => l.forM fun a => do let _ ← f a) = _
      cases f a <;> rfl
    rw [hcons, List.forall_mem_cons, ← forM_ok]
    cases f a with
    | error e =>
      constructor
      · intro h
        cases h
      · rintro ⟨⟨b, hb⟩, -⟩
        cases hb
    | ok b =>
      constructor
      · intro h
        exact ⟨⟨b, rfl⟩, h⟩
      · rintro ⟨-, h⟩
        exact h

end Traverse
