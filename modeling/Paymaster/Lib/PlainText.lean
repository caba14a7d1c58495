import Mathlib

/-!
# Lines and white space

Text as the language's string functions and regular expressions take it apart:
the characters that `\s` and `trim` skip, those that `.` does not match, and
the lines between line feeds.
-/

namespace PlainText

/-- What `\s` matches and `trim` takes away. -/
def isSpace (c : Char) : Bool :=
  c = ' ' || (0x09 ≤ c.toNat && c.toNat ≤ 0x0d) || c = '\u00a0' || c = '\u1680' || (0x2000 ≤ c.toNat && c.toNat ≤ 0x200a) ||
    c = '\u2028' || c = '\u2029' || c = '\u202f' || c = '\u205f' || c = '\u3000' || c = '\ufeff'

/-- What `.` does not match. -/
def isTerminator (c : Char) : Bool := c = '\n' || c = '\r' || c = '\u2028' || c = '\u2029'

def trim (text : List Char) : List Char := ((text.dropWhile isSpace).reverse.dropWhile isSpace).reverse

structure Trimmed (text : List Char) : Prop where
  head : ∃ c rest, text = c :: rest ∧ isSpace c = false
  last : ∃ front c, text = front ++ [c] ∧ isSpace c = false

section
variable {text rest : List Char} {p : Char → Bool} {c : Char}

theorem trimmed_iff : Trimmed text ↔
    text.head?.any (fun c => !isSpace c) = true ∧ text.getLast?.any (fun c => !isSpace c) = true := by
  constructor
  · rintro ⟨⟨c, rest, rfl, hc⟩, ⟨front, d, hlast, hd⟩⟩
    refine ⟨by simp [hc], ?_⟩
    rw [hlast]
    simp [hd]
  · rintro ⟨hhead, hlast⟩
    cases text with
    | nil => cases hhead
    | cons c rest =>
      refine ⟨⟨c, rest, rfl, by simpa using hhead⟩, ?_⟩
      refine ⟨_, _, (List.dropLast_append_getLast (List.cons_ne_nil c rest)).symm, ?_⟩
      rw [List.getLast?_eq_some_getLast (List.cons_ne_nil c rest)] at hlast
      simpa using hlast

instance (text : List Char) : Decidable (Trimmed text) := decidable_of_iff _ trimmed_iff.symm

theorem toNat_of_isSpace (h : isSpace c = true) : c.toNat ≤ 32 ∨ 160 ≤ c.toNat := by
  simp only [isSpace, Bool.or_eq_true, Bool.and_eq_true, decide_eq_true_eq] at h
  rcases h with ((((((((((rfl | h) | rfl) | rfl) | h) | rfl) | rfl) | rfl) | rfl) | rfl) | rfl)
  case inl.inl.inl.inl.inl.inl.inl.inl.inl.inr => omega
  case inl.inl.inl.inl.inl.inl.inr => omega
  all_goals decide

theorem trim_eq (h : Trimmed text) : trim text = text := by
  obtain ⟨c, rest, hhead, hc⟩ := h.head
  obtain ⟨front, d, hlast, hd⟩ := h.last
  unfold trim
  rw [hhead, List.dropWhile_cons_of_neg (by simp [hc]), ← hhead, hlast, List.reverse_append]
  simp [hd]

theorem isSpace_of_isTerminator (h : isTerminator c = true) : isSpace c = true := by
  simp only [isTerminator, Bool.or_eq_true, decide_eq_true_eq] at h
  rcases h with ((rfl | rfl) | rfl) | rfl <;> rfl

theorem takeWhile_append_cons (h : ∀ c ∈ text, p c = true) (hc : p c = false) :
    (text ++ c :: rest).takeWhile p = text := by
  rw [List.takeWhile_append_of_pos h, List.takeWhile_cons_of_neg (by simp [hc]), List.append_nil]

theorem dropWhile_append_cons (h : ∀ c ∈ text, p c = true) (hc : p c = false) :
    (text ++ c :: rest).dropWhile p = c :: rest := by
  rw [List.dropWhile_append_of_pos h, List.dropWhile_cons_of_neg (by simp [hc])]

theorem takeWhile_all (h : ∀ c ∈ text, p c = true) : text.takeWhile p = text := by
  rw [List.takeWhile_eq_self_iff]
  exact h

theorem splitOn_lines {lines : List (List Char)} (h : ∀ line ∈ lines, '\n' ∉ line) (hne : lines ≠ []) :
    (['\n'].intercalate lines).splitOn '\n' = lines := List.splitOn_intercalate '\n' h hne

end

end PlainText
