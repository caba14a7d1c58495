import Mathlib

/-!
# Dialogues

A dialogue puts questions to what is outside of it, one after the other, and
goes on from what it is told, until it answers or throws. What it said and was
told is its log; a statement about a dialogue whatever it is told is one about
every log.
-/

inductive Dialogue (Q : Type) (A : Q → Type) (ε α : Type)
  | answer (a : α)
  | throw (e : ε)
  | ask (q : Q) (next : A q → Dialogue Q A ε α)
  /-- It would go on, but is not followed any further. -/
  | cut

abbrev Exchange (Q : Type) (A : Q → Type) : Type := (q : Q) × A q

namespace Dialogue

variable {Q : Type} {A : Q → Type} {ε α β : Type}

protected def bind : Dialogue Q A ε α → (α → Dialogue Q A ε β) → Dialogue Q A ε β
  | answer a, f => f a
  | throw e, _ => throw e
  | ask q next, f => ask q fun r => (next r).bind f
  | cut, _ => cut

instance : Monad (Dialogue Q A ε) where
  pure := answer
  bind := Dialogue.bind

def ofExcept : Except ε α → Dialogue Q A ε α
  | .ok a => answer a
  | .error e => throw e

def ofOption (e : ε) : Option α → Dialogue Q A ε α
  | some a => answer a
  | none => throw e

/-- What is left of a dialogue after a log. -/
inductive After : Dialogue Q A ε α → List (Exchange Q A) → Dialogue Q A ε α → Prop
  | here (d : Dialogue Q A ε α) : After d [] d
  | told {q : Q} {next : A q → Dialogue Q A ε α} {r : A q} {log : List (Exchange Q A)} {d : Dialogue Q A ε α}
      (h : After (next r) log d) : After (ask q next) (⟨q, r⟩ :: log) d

variable {d d' : Dialogue Q A ε α} {x : Dialogue Q A ε α} {f : α → Dialogue Q A ε β} {log : List (Exchange Q A)}

theorem after_answer {a : α} (h : After (answer a) log d) : log = [] ∧ d = answer a := by
  cases h with
  | here => exact ⟨rfl, rfl⟩

theorem after_throw {e : ε} (h : After (throw e) log d) : log = [] ∧ d = throw e := by
  cases h with
  | here => exact ⟨rfl, rfl⟩

theorem after_cut (h : After cut log d) : log = [] ∧ d = cut := by
  cases h with
  | here => exact ⟨rfl, rfl⟩

theorem after_ask {q : Q} {next : A q → Dialogue Q A ε α} (h : After (ask q next) log d) :
    (log = [] ∧ d = ask q next) ∨ ∃ r rest, log = ⟨q, r⟩ :: rest ∧ After (next r) rest d := by
  cases h with
  | here => exact .inl ⟨rfl, rfl⟩
  | told h => exact .inr ⟨_, _, rfl, h⟩

/-- A log of two dialogues in a row is one of the first, or ends the first with an answer and goes on with the second. -/
theorem after_bind {y : Dialogue Q A ε β} (h : After (x >>= f) log y) :
    (∃ x', After x log x' ∧ y = x' >>= f) ∨
      ∃ a before rest, log = before ++ rest ∧ After x before (answer a) ∧ After (f a) rest y := by
  induction x generalizing log with
  | answer a => exact .inr ⟨a, [], log, rfl, .here _, h⟩
  | throw e =>
    obtain ⟨rfl, rfl⟩ := after_throw h
    exact .inl ⟨throw e, .here _, rfl⟩
  | cut =>
    obtain ⟨rfl, rfl⟩ := after_cut h
    exact .inl ⟨cut, .here _, rfl⟩
  | ask q next ih =>
    obtain ⟨rfl, rfl⟩ | ⟨r, rest, rfl, hrest⟩ := after_ask h
    · exact .inl ⟨ask q next, .here _, rfl⟩
    · obtain ⟨x', hx, hy⟩ | ⟨a, before, rest', rfl, hx, hy⟩ := ih r hrest
      · exact .inl ⟨x', .told hx, hy⟩
      · exact .inr ⟨a, ⟨q, r⟩ :: before, rest', rfl, .told hx, hy⟩

theorem After.bind {a : α} {before rest : List (Exchange Q A)} {y : Dialogue Q A ε β} (hx : After x before (answer a))
    (hf : After (f a) rest y) : After (x >>= f) (before ++ rest) y := by
  induction x generalizing before with
  | answer b =>
    obtain ⟨rfl, hab⟩ := after_answer hx
    cases hab
    exact hf
  | throw e => cases (after_throw hx).2
  | cut => cases (after_cut hx).2
  | ask q next ih =>
    obtain ⟨-, hask⟩ | ⟨r, rest', rfl, hrest⟩ := after_ask hx
    · cases hask
    · exact .told (ih r hrest)

theorem bind_eq_answer {b : β} (h : x >>= f = answer b) : ∃ a, x = answer a ∧ f a = answer b := by
  cases x with
  | answer a => exact ⟨a, rfl, h⟩
  | throw e => cases h
  | ask q next => cases h
  | cut => cases h

theorem after_bind_answer {b : β} (h : After (x >>= f) log (answer b)) :
    ∃ a before rest, log = before ++ rest ∧ After x before (answer a) ∧ After (f a) rest (answer b) := by
  obtain ⟨x', hx, hy⟩ | hsplit := after_bind h
  · obtain ⟨a, rfl, ha⟩ := bind_eq_answer hy.symm
    exact ⟨a, log, [], (List.append_nil log).symm, hx, ha ▸ .here _⟩
  · exact hsplit

theorem after_ofExcept_answer {o : Except ε α} {a : α} (h : After (ofExcept o) log (answer a)) : log = [] ∧ o = .ok a := by
  cases o with
  | error e => cases (after_throw h).2
  | ok b =>
    obtain ⟨hlog, heq⟩ := after_answer h
    cases heq
    exact ⟨hlog, rfl⟩

theorem after_ofOption_answer {e : ε} {o : Option α} {a : α} (h : After (ofOption e o) log (answer a)) :
    log = [] ∧ o = some a := by
  cases o with
  | none => cases (after_throw h).2
  | some b =>
    obtain ⟨hlog, heq⟩ := after_answer h
    cases heq
    exact ⟨hlog, rfl⟩

/-! ## What is asked at all -/

def Asks (P : Q → Prop) : Dialogue Q A ε α → Prop
  | answer _ => True
  | throw _ => True
  | ask q next => P q ∧ ∀ r, Asks P (next r)
  | cut => True

variable {P : Q → Prop}

theorem asks_bind (hx : Asks P x) (hf : ∀ a, Asks P (f a)) : Asks P (x >>= f) := by
  induction x with
  | answer a => exact hf a
  | throw e => trivial
  | ask q next ih => exact ⟨hx.1, fun r => ih r (hx.2 r)⟩
  | cut => trivial

theorem asks_ofExcept (o : Except ε α) : Asks P (ofExcept o : Dialogue Q A ε α) := by
  cases o <;> trivial

theorem asks_ofOption (e : ε) (o : Option α) : Asks P (ofOption e o : Dialogue Q A ε α) := by
  cases o <;> trivial

theorem Asks.of_mem (hd : Asks P d) (h : After d log d') : ∀ y ∈ log, P y.1 := by
  induction h with
  | here => simp
  | told h ih =>
    intro y hy
    obtain rfl | hy := List.mem_cons.mp hy
    · exact hd.1
    · exact ih (hd.2 _) y hy

/-! ## What ends a dialogue -/

/-- An answer of this kind makes the dialogue throw, and nothing is asked any more. -/
def StopsAt (bad : Exchange Q A → Prop) : Dialogue Q A ε α → Prop
  | answer _ => True
  | throw _ => True
  | ask q next => ∀ r, StopsAt bad (next r) ∧ (bad ⟨q, r⟩ → ∃ e, next r = throw e)
  | cut => True

variable {bad : Exchange Q A → Prop}

theorem stopsAt_bind (hx : StopsAt bad x) (hf : ∀ a, StopsAt bad (f a)) : StopsAt bad (x >>= f) := by
  induction x with
  | answer a => exact hf a
  | throw e => trivial
  | cut => trivial
  | ask q next ih =>
    intro r
    refine ⟨ih r (hx r).1, fun hbad => ?_⟩
    obtain ⟨e, he⟩ := (hx r).2 hbad
    refine ⟨e, ?_⟩
    show (next r).bind f = throw e
    rw [he]
    rfl

theorem stopsAt_ofExcept (o : Except ε α) : StopsAt bad (ofExcept o : Dialogue Q A ε α) := by
  cases o <;> trivial

theorem stopsAt_ofOption (e : ε) (o : Option α) : StopsAt bad (ofOption e o : Dialogue Q A ε α) := by
  cases o <;> trivial

theorem ofExcept_throws {o : Except ε α} (h : ∀ a, o ≠ .ok a) : ∃ e, (ofExcept o : Dialogue Q A ε α) = throw e := by
  cases o with
  | error e => exact ⟨e, rfl⟩
  | ok a => exact absurd rfl (h a)

theorem ofExcept_bind_throws {o : Except ε α} (h : ∀ a, o = .ok a → ∃ e, f a = throw e) :
    ∃ e, (ofExcept o >>= f) = throw e := by
  cases o with
  | error e => exact ⟨e, rfl⟩
  | ok a => exact h a rfl

theorem ofOption_bind_throws {e : ε} {o : Option α} (h : o = none) : (ofOption e o >>= f) = throw e := by
  subst h
  rfl

theorem StopsAt.at_end (hd : StopsAt bad d) (h : After d log d') {before rest : List (Exchange Q A)} {y : Exchange Q A}
    (hlog : log = before ++ y :: rest) (hbad : bad y) : rest = [] ∧ ∃ e, d' = throw e := by
  induction h generalizing before with
  | here => simp at hlog
  | @told q next r log d h ih =>
    cases before with
    | nil =>
      obtain ⟨rfl, rfl⟩ := List.cons.inj hlog
      obtain ⟨e, he⟩ := (hd r).2 hbad
      rw [he] at h
      obtain ⟨hrest, hd'⟩ := after_throw h
      exact ⟨hrest, e, hd'⟩
    | cons z before => exact ih (hd r).1 (List.cons.inj hlog).2

end Dialogue
