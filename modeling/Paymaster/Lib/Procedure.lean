import Mathlib

/-!
# Procedures on a state, and what they let through

A procedure reads and changes a state and answers or throws; what was changed
before a throw stays changed. It is secure for a relation that says which
states look alike, and one that says what may change, if two runs from states
that look alike answer alike and look alike afterwards, and a run changes only
what it may.
-/

def Procedure (σ ε α : Type) : Type := σ → Except ε α × σ

namespace Procedure

variable {σ ε α β : Type}

def run (x : Procedure σ ε α) (s : σ) : Except ε α × σ := x s

protected def pure (a : α) : Procedure σ ε α := fun s => (.ok a, s)

protected def bind (x : Procedure σ ε α) (f : α → Procedure σ ε β) : Procedure σ ε β := fun s =>
  match x s with
  | (.ok a, s') => f a s'
  | (.error e, s') => (.error e, s')

instance : Monad (Procedure σ ε) where
  pure := Procedure.pure
  bind := Procedure.bind

def throw (e : ε) : Procedure σ ε α := fun s => (.error e, s)

def read (f : σ → Except ε α) : Procedure σ ε α := fun s => (f s, s)

/-- A change that happens whole or throws. -/
def write (f : σ → Except ε (α × σ)) : Procedure σ ε α := fun s =>
  match f s with
  | .ok (a, s') => (.ok a, s')
  | .error e => (.error e, s)

theorem run_pure (a : α) (s : σ) : (Pure.pure a : Procedure σ ε α).run s = (.ok a, s) := rfl

theorem run_bind (x : Procedure σ ε α) (f : α → Procedure σ ε β) (s : σ) :
    (x >>= f).run s =
      match x.run s with
      | (.ok a, s') => (f a).run s'
      | (.error e, s') => (.error e, s') := rfl

/-- A procedure that answered did its first part, and its second from there. -/
theorem bind_ok {x : Procedure σ ε α} {f : α → Procedure σ ε β} {s t : σ} {b : β}
    (h : (x >>= f).run s = (.ok b, t)) : ∃ a s', x.run s = (.ok a, s') ∧ (f a).run s' = (.ok b, t) := by
  rw [run_bind] at h
  split at h
  · rename_i a s' hx
    exact ⟨a, s', hx, h⟩
  · cases h

/-! ## What a run may change -/

def Framed (frame : σ → σ → Prop) (x : Procedure σ ε α) : Prop := ∀ s, frame s (x.run s).2

section
variable {frame : σ → σ → Prop}

theorem framed_pure (hrefl : ∀ s, frame s s) (a : α) : Framed frame (Pure.pure a : Procedure σ ε α) := hrefl

theorem framed_throw (hrefl : ∀ s, frame s s) (e : ε) : Framed frame (throw e : Procedure σ ε α) := hrefl

theorem framed_read (hrefl : ∀ s, frame s s) (f : σ → Except ε α) : Framed frame (read f) := hrefl

theorem framed_write (hrefl : ∀ s, frame s s) {f : σ → Except ε (α × σ)} (hf : ∀ {s a t}, f s = .ok (a, t) → frame s t) :
    Framed frame (write f) := by
  intro s
  unfold run write
  cases h : f s with
  | error e => exact hrefl s
  | ok result => exact hf h

theorem framed_bind (htrans : ∀ r s t, frame r s → frame s t → frame r t) {x : Procedure σ ε α}
    {f : α → Procedure σ ε β} (hx : Framed frame x) (hf : ∀ a, Framed frame (f a)) : Framed frame (x >>= f) := by
  intro s
  have hfirst := hx s
  rw [run_bind]
  generalize x.run s = y at hfirst
  obtain ⟨r, t⟩ := y
  cases r with
  | ok a => exact htrans _ _ _ hfirst (hf a t)
  | error e => exact hfirst

end

/-! ## What a run lets through -/

/-- Of two runs, and of one. -/
structure Secure (low frame : σ → σ → Prop) (x : Procedure σ ε α) : Prop where
  alike : ∀ {s₁ s₂}, low s₁ s₂ → (x.run s₁).1 = (x.run s₂).1 ∧ low (x.run s₁).2 (x.run s₂).2
  framed : Framed frame x

section
variable {low frame : σ → σ → Prop}

theorem secure_pure (hrefl : ∀ s, frame s s) (a : α) : Secure low frame (Pure.pure a : Procedure σ ε α) where
  alike hlow := ⟨rfl, hlow⟩
  framed := framed_pure hrefl a

theorem secure_throw (hrefl : ∀ s, frame s s) (e : ε) : Secure low frame (throw e : Procedure σ ε α) where
  alike hlow := ⟨rfl, hlow⟩
  framed := framed_throw hrefl e

theorem secure_bind (htrans : ∀ r s t, frame r s → frame s t → frame r t) {x : Procedure σ ε α}
    {f : α → Procedure σ ε β} (hx : Secure low frame x) (hf : ∀ a, Secure low frame (f a)) :
    Secure low frame (x >>= f) := by
  refine ⟨fun {s₁ s₂} hlow => ?_, framed_bind htrans hx.framed fun a => (hf a).framed⟩
  obtain ⟨hsame, hnext⟩ := hx.alike hlow
  rw [run_bind, run_bind]
  generalize x.run s₁ = y₁ at hsame hnext
  generalize x.run s₂ = y₂ at hsame hnext
  obtain ⟨r₁, t₁⟩ := y₁
  obtain ⟨r₂, t₂⟩ := y₂
  obtain rfl : r₁ = r₂ := hsame
  cases r₁ with
  | ok a => exact (hf a).alike hnext
  | error e => exact ⟨rfl, hnext⟩

/-- After a part that always succeeds, and whose answer nothing uses. -/
theorem secure_bind_silent (htrans : ∀ r s t, frame r s → frame s t → frame r t) {x : Procedure σ ε α}
    {y : Procedure σ ε β} (hframe : Framed frame x)
    (hx : ∀ {s₁ s₂}, low s₁ s₂ → ∃ a₁ t₁ a₂ t₂, x.run s₁ = (.ok a₁, t₁) ∧ x.run s₂ = (.ok a₂, t₂) ∧ low t₁ t₂)
    (hy : Secure low frame y) : Secure low frame (x >>= fun _ => y) := by
  refine ⟨fun {s₁ s₂} hlow => ?_, framed_bind htrans hframe fun _ => hy.framed⟩
  obtain ⟨a₁, t₁, a₂, t₂, h₁, h₂, ht⟩ := hx hlow
  rw [run_bind, run_bind, h₁, h₂]
  exact hy.alike ht

theorem secure_read (hrefl : ∀ s, frame s s) {f : σ → Except ε α} (hf : ∀ {s₁ s₂}, low s₁ s₂ → f s₁ = f s₂) :
    Secure low frame (read f) where
  alike hlow := ⟨hf hlow, hlow⟩
  framed := framed_read hrefl f

/-- A change that is refused alike, and otherwise answers and looks alike. -/
theorem secure_write (hrefl : ∀ s, frame s s) {f : σ → Except ε (α × σ)}
    (hf : ∀ {s₁ s₂}, low s₁ s₂ →
      (∃ e, f s₁ = .error e ∧ f s₂ = .error e) ∨
        ∃ a t₁ t₂, f s₁ = .ok (a, t₁) ∧ f s₂ = .ok (a, t₂) ∧ low t₁ t₂)
    (hframe : ∀ {s a t}, f s = .ok (a, t) → frame s t) : Secure low frame (write f) := by
  refine ⟨fun {s₁ s₂} hlow => ?_, framed_write hrefl hframe⟩
  unfold run write
  rcases hf hlow with ⟨e, h₁, h₂⟩ | ⟨a, t₁, t₂, h₁, h₂, ht⟩
  · rw [h₁, h₂]
    exact ⟨rfl, hlow⟩
  · rw [h₁, h₂]
    exact ⟨rfl, ht⟩

end

end Procedure
