import Mathlib

/-!
# Separators

Parts joined by a character that does not occur in one of them come apart again.
-/

namespace Separator

variable {α : Type*} {a : α}

theorem split_first : ∀ {p p' r r' : List α}, a ∉ p → a ∉ p' → p ++ a :: r = p' ++ a :: r' → p = p' ∧ r = r'
  | [], [], _, _, _, _, h => ⟨rfl, (List.cons.inj h).2⟩
  | [], x :: p', _, _, _, hp', h => by
    obtain ⟨hx, -⟩ := List.cons.inj h
    exact absurd (by simp [hx]) hp'
  | x :: p, [], _, _, hp, _, h => by
    obtain ⟨hx, -⟩ := List.cons.inj h
    exact absurd (by simp [hx]) hp
  | x :: p, y :: p', _, _, hp, hp', h => by
    obtain ⟨rfl, hrest⟩ := List.cons.inj h
    have hp₁ : a ∉ p := fun hm => hp (List.mem_cons_of_mem x hm)
    have hp₂ : a ∉ p' := fun hm => hp' (List.mem_cons_of_mem x hm)
    obtain ⟨rfl, hr⟩ := split_first hp₁ hp₂ hrest
    exact ⟨rfl, hr⟩

theorem split_last {p p' r r' : List α} (hr : a ∉ r) (hr' : a ∉ r') (h : p ++ a :: r = p' ++ a :: r') :
    p = p' ∧ r = r' := by
  have hreverse : r.reverse ++ a :: p.reverse = r'.reverse ++ a :: p'.reverse := by
    have := congrArg List.reverse h
    simpa using this
  obtain ⟨hrr, hpp⟩ := split_first (by simpa using hr) (by simpa using hr') hreverse
  exact ⟨List.reverse_injective hpp, List.reverse_injective hrr⟩

section
variable {c : Char} {s s' t t' : String}

theorem strings_first (hs : c ∉ s.toList) (hs' : c ∉ s'.toList)
    (h : s ++ String.singleton c ++ t = s' ++ String.singleton c ++ t') : s = s' ∧ t = t' := by
  have hlists : s.toList ++ c :: t.toList = s'.toList ++ c :: t'.toList := by
    simpa using congrArg String.toList h
  obtain ⟨h₁, h₂⟩ := split_first hs hs' hlists
  exact ⟨String.toList_inj.mp h₁, String.toList_inj.mp h₂⟩

theorem strings_last (ht : c ∉ t.toList) (ht' : c ∉ t'.toList)
    (h : s ++ String.singleton c ++ t = s' ++ String.singleton c ++ t') : s = s' ∧ t = t' := by
  have hlists : s.toList ++ c :: t.toList = s'.toList ++ c :: t'.toList := by
    simpa using congrArg String.toList h
  obtain ⟨h₁, h₂⟩ := split_last ht ht' hlists
  exact ⟨String.toList_inj.mp h₁, String.toList_inj.mp h₂⟩

end

end Separator
