import Mathlib

/-!
# Recovery of ECDSA keys

A group of prime order `n` whose elements have coordinates. A point and its
negative share the first one, and differ in the parity of the second. From a
signature `(r, s)` and that parity, the key is recovered; a signature whose `s` is
negated gives the key with the other parity.
-/

namespace Ecdsa

/-- What is used of a curve: its base point and how points are found by their coordinates. -/
structure Curve (Point : Type*) [AddCommGroup Point] where
  base : Point
  x : Point → ℕ
  odd : Point → Bool
  /-- The point with a first coordinate and a parity. -/
  lift : ℕ → Bool → Option Point
  lift_eq_some : ∀ {r b R}, lift r b = some R ↔ R ≠ 0 ∧ x R = r ∧ odd R = b
  x_neg : ∀ R, x (-R) = x R
  odd_neg : ∀ {R}, R ≠ 0 → odd (-R) = !odd R

variable {Point : Type*} [AddCommGroup Point] [DecidableEq Point]

namespace Curve

variable (curve : Curve Point) {n : ℕ} [Module (ZMod n) Point] {z r s : ℕ} {b : Bool} {Q R : Point}

/-- The key `r⁻¹ (s R - z G)`. There is none at the point at infinity. -/
def recover (n : ℕ) [Module (ZMod n) Point] (z r s : ℕ) (b : Bool) : Option Point :=
  match curve.lift r b with
  | none => none
  | some R =>
    let Q := (r : ZMod n)⁻¹ • ((s : ZMod n) • R - (z : ZMod n) • curve.base)
    if Q = 0 then none else some Q

/-- `(r, s)` is a signature of `z` by the key `Q`, made with a nonce whose point is `R`: `r` is the first coordinate of
the point modulo the group order. -/
structure Nonce (n : ℕ) [Module (ZMod n) Point] (Q : Point) (z r s : ℕ) (R : Point) : Prop where
  ne_zero : R ≠ 0
  x_mod : curve.x R % n = r
  signs : (s : ZMod n) • R = (z : ZMod n) • curve.base + (r : ZMod n) • Q

def Signs (n : ℕ) [Module (ZMod n) Point] (Q : Point) (z r s : ℕ) : Prop := ∃ R, curve.Nonce n Q z r s R

variable {curve}

theorem natCast_ne_zero (hr : 0 < r) (hrn : r < n) : (r : ZMod n) ≠ 0 := by
  rw [Ne, ZMod.natCast_eq_zero_iff]
  exact fun hdvd => absurd (Nat.le_of_dvd hr hdvd) (not_le.mpr hrn)

omit [DecidableEq Point] in
theorem lift_not : curve.lift r (!b) = (curve.lift r b).map (- ·) := by
  cases hlift : curve.lift r b with
  | none =>
    rw [Option.map_none]
    cases hother : curve.lift r (!b) with
    | none => rfl
    | some R =>
      obtain ⟨hne, hx, hodd⟩ := curve.lift_eq_some.mp hother
      have hneg : curve.lift r b = some (-R) :=
        curve.lift_eq_some.mpr ⟨neg_ne_zero.mpr hne, (curve.x_neg R).trans hx, by rw [curve.odd_neg hne, hodd, Bool.not_not]⟩
      rw [hlift] at hneg
      cases hneg
  | some R =>
    obtain ⟨hne, hx, hodd⟩ := curve.lift_eq_some.mp hlift
    exact curve.lift_eq_some.mpr ⟨neg_ne_zero.mpr hne, (curve.x_neg R).trans hx, by rw [curve.odd_neg hne, hodd]⟩

/-- Negating `s` flips the bit. -/
theorem recover_reflect (hs : s ≤ n) : curve.recover n z r (n - s) (!b) = curve.recover n z r s b := by
  have hcast : ((n - s : ℕ) : ZMod n) = -(s : ZMod n) := by
    rw [Nat.cast_sub hs, ZMod.natCast_self, zero_sub]
  unfold recover
  rw [lift_not]
  cases curve.lift r b with
  | none => rfl
  | some R =>
    rw [Option.map_some]
    dsimp only
    rw [hcast, neg_smul_neg]

variable [Fact n.Prime]

theorem recover_eq_some (hr : (r : ZMod n) ≠ 0) (hlift : curve.lift r b = some R) :
    curve.recover n z r s b = some Q ↔ Q ≠ 0 ∧ (s : ZMod n) • R = (z : ZMod n) • curve.base + (r : ZMod n) • Q := by
  have hkey : (r : ZMod n)⁻¹ • ((s : ZMod n) • R - (z : ZMod n) • curve.base) = Q ↔
      (s : ZMod n) • R = (z : ZMod n) • curve.base + (r : ZMod n) • Q := by
    rw [inv_smul_eq_iff₀ hr, sub_eq_iff_eq_add']
  unfold recover
  rw [hlift]
  dsimp only
  rw [Option.ite_none_left_eq_some, Option.some.injEq, hkey]
  constructor
  · rintro ⟨hne, h⟩
    rw [hkey.mpr h] at hne
    exact ⟨hne, h⟩
  · rintro ⟨hne, h⟩
    rw [hkey.mpr h]
    exact ⟨hne, h⟩

/-- The recovery from a point fails at the point at infinity only. -/
theorem recover_eq_none (hr : (r : ZMod n) ≠ 0) (hlift : curve.lift r b = some R) :
    curve.recover n z r s b = none ↔ (s : ZMod n) • R = (z : ZMod n) • curve.base := by
  have hzero : (r : ZMod n)⁻¹ • ((s : ZMod n) • R - (z : ZMod n) • curve.base) = 0 ↔
      (s : ZMod n) • R = (z : ZMod n) • curve.base := by
    rw [smul_eq_zero_iff_right (inv_ne_zero hr), sub_eq_zero]
  unfold recover
  rw [hlift]
  dsimp only
  rw [← hzero]
  split
  · rename_i h
    exact iff_of_true rfl h
  · rename_i h
    exact iff_of_false (Option.some_ne_none _) h

/-- Who signed is recovered with one of the bits, if the coordinate was not reduced. -/
theorem Nonce.recover (h : curve.Nonce n Q z r s R) (hr : (r : ZMod n) ≠ 0) (hQ : Q ≠ 0) (hx : curve.x R < n) :
    curve.recover n z r s (curve.odd R) = some Q := by
  have hcoordinate : curve.x R = r := by
    rw [← h.x_mod, Nat.mod_eq_of_lt hx]
  have hlift : curve.lift r (curve.odd R) = some R := curve.lift_eq_some.mpr ⟨h.ne_zero, hcoordinate, rfl⟩
  exact (recover_eq_some hr hlift).mpr ⟨hQ, h.signs⟩

/-- Whoever is recovered signed, with a nonce whose coordinate was not reduced. -/
theorem nonce_of_recover (hr : 0 < r) (hrn : r < n) (h : curve.recover n z r s b = some Q) :
    ∃ R, curve.Nonce n Q z r s R ∧ curve.x R = r := by
  cases hlift : curve.lift r b with
  | none =>
    unfold Curve.recover at h
    rw [hlift] at h
    cases h
  | some R =>
    obtain ⟨hR, hx, -⟩ := curve.lift_eq_some.mp hlift
    have hsigns := ((recover_eq_some (natCast_ne_zero hr hrn) hlift).mp h).2
    exact ⟨R, ⟨hR, by rw [hx, Nat.mod_eq_of_lt hrn], hsigns⟩, hx⟩

omit [DecidableEq Point] in
/-- A signature has one nonce. -/
theorem Nonce.unique {R' : Point} (h : curve.Nonce n Q z r s R) (h' : curve.Nonce n Q z r s R') (hs : (s : ZMod n) ≠ 0) :
    R = R' := by
  have hsame : (s : ZMod n) • R = (s : ZMod n) • R' := h.signs.trans h'.signs.symm
  exact smul_right_injective Point hs hsame

end Curve

end Ecdsa
