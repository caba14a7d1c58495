import Mathlib

/-!
# Call stacks with rollback

A transactional machine keeps a stack of frames; each frame saves the state
in which it was entered, to which the machine returns if the frame reverts.
An invariant of such a machine has to hold of the current state and of every
saved one, each with the frames that lie below it. `Upheld` is that statement,
and its rules are the four things a machine does to its stack.
-/

namespace CallStack

variable {κ ω : Type*}

/-- A call in progress: what it is, and the state to return to if it reverts. -/
structure Frame (κ ω : Type*) where
  kind : κ
  saved : ω

/-- `P` holds of the current state over the whole stack, and of every saved
state over the frames below it. -/
def Upheld (P : ω → List κ → Prop) : ω → List (Frame κ ω) → Prop
  | w, [] => P w []
  | w, f :: fs => P w (f.kind :: fs.map Frame.kind) ∧ Upheld P f.saved fs

variable {P : ω → List κ → Prop} {w w' : ω} {f : Frame κ ω} {fs : List (Frame κ ω)} {k : κ}

theorem Upheld.top : ∀ {fs : List (Frame κ ω)}, Upheld P w fs → P w (fs.map Frame.kind)
  | [], h => h
  | _ :: _, h => h.1

theorem Upheld.stay : ∀ {fs : List (Frame κ ω)}, Upheld P w fs → P w' (fs.map Frame.kind) → Upheld P w' fs
  | [], _, h => h
  | _ :: _, hu, h => ⟨h, hu.2⟩

theorem Upheld.push (hu : Upheld P w fs) (h : P w' (k :: fs.map Frame.kind)) :
    Upheld P w' (⟨k, w⟩ :: fs) := ⟨h, hu⟩

/-- The top frame goes over to another phase. -/
theorem Upheld.switch (hu : Upheld P w (f :: fs)) (h : P w' (k :: fs.map Frame.kind)) :
    Upheld P w' ({ f with kind := k } :: fs) := ⟨h, hu.2⟩

theorem Upheld.revert (hu : Upheld P w (f :: fs)) : Upheld P f.saved fs := hu.2

theorem Upheld.commit (hu : Upheld P w (f :: fs)) (h : P w' (fs.map Frame.kind)) : Upheld P w' fs :=
  hu.2.stay h

/-- An invariant of states alone holds of the current state and of every saved one. -/
def Everywhere (Q : ω → Prop) (w : ω) (fs : List (Frame κ ω)) : Prop := Q w ∧ ∀ f ∈ fs, Q f.saved

variable {Q : ω → Prop}

theorem Everywhere.stay (he : Everywhere Q w fs) (h : Q w') : Everywhere Q w' fs := ⟨h, he.2⟩

theorem Everywhere.push (he : Everywhere Q w fs) (h : Q w') : Everywhere Q w' (⟨k, w⟩ :: fs) := by
  refine ⟨h, fun g hg => ?_⟩
  rcases List.mem_cons.mp hg with rfl | hg
  · exact he.1
  · exact he.2 g hg

theorem Everywhere.switch (he : Everywhere Q w (f :: fs)) (h : Q w') :
    Everywhere Q w' ({ f with kind := k } :: fs) := by
  refine ⟨h, fun g hg => ?_⟩
  rcases List.mem_cons.mp hg with rfl | hg
  · exact he.2 f List.mem_cons_self
  · exact he.2 g (List.mem_cons_of_mem _ hg)

theorem Everywhere.saved (he : Everywhere Q w (f :: fs)) : Q f.saved := he.2 f List.mem_cons_self

theorem Everywhere.pop (he : Everywhere Q w (f :: fs)) (h : Q w') : Everywhere Q w' fs :=
  ⟨h, fun g hg => he.2 g (List.mem_cons_of_mem _ hg)⟩

end CallStack
