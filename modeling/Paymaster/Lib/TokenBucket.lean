import Paymaster.Lib.Window

/-!
# Token buckets

A bucket holds at most `capacity` tokens, is refilled at `rate` for the time since
its last refill, and is asked for one token at a time. A refill may come late: a
window then sees what the bucket held, what came in for the time before it, and
what came in for the time in it.
-/

namespace TokenBucket

structure Bucket where
  tokens : ℚ
  lastRefill : ℕ

def Bucket.refill (capacity rate : ℚ) (bucket : Bucket) (now : ℕ) : Bucket :=
  ⟨min capacity (bucket.tokens + (now - bucket.lastRefill) * rate), now⟩

def Bucket.take (bucket : Bucket) : Bucket := { bucket with tokens := bucket.tokens - 1 }

/-- A bucket at some time, with the times at which it gave a token. -/
structure History where
  bucket : Bucket
  now : ℕ
  grants : List ℕ

def History.granted (h : History) (a T : ℕ) : ℕ := (Window.within a T h.grants).length

def History.start (capacity : ℚ) (now : ℕ) : History := ⟨⟨capacity, now⟩, now, []⟩

def History.at (h : History) (now : ℕ) : History := { h with now := now }

def History.refill (capacity rate : ℚ) (h : History) : History := { h with bucket := h.bucket.refill capacity rate h.now }

def History.take (h : History) : History := { h with bucket := h.bucket.take, grants := h.grants ++ [h.now] }

/-- The invariant, for a window: before a refill in it, no more than the bucket can
hold was given or is left; after one, twice that, and what came in since its begin. -/
structure Bounded (capacity rate : ℚ) (a T : ℕ) (h : History) : Prop where
  nonneg : 0 ≤ h.bucket.tokens
  le_capacity : h.bucket.tokens ≤ capacity
  refilled : h.bucket.lastRefill ≤ h.now
  past : ∀ t ∈ h.grants, t ≤ h.now
  early : h.bucket.lastRefill < a → h.now ≤ a + T → h.granted a T + h.bucket.tokens ≤ capacity
  late : a ≤ h.bucket.lastRefill → h.now ≤ a + T →
    h.granted a T + h.bucket.tokens ≤ 2 * capacity + (h.bucket.lastRefill - a) * rate
  bound : h.granted a T ≤ 2 * capacity + T * rate

variable {capacity rate : ℚ} {a T now : ℕ} {h : History}

theorem bounded_start (hcapacity : 0 ≤ capacity) (hrate : 0 ≤ rate) (now : ℕ) :
    Bounded capacity rate a T (.start capacity now) where
  nonneg := hcapacity
  le_capacity := le_rfl
  refilled := le_rfl
  past := nofun
  early _ _ := by
    show ((0 : ℕ) : ℚ) + capacity ≤ capacity
    rw [Nat.cast_zero, zero_add]
  late hle _ := by
    show ((0 : ℕ) : ℚ) + capacity ≤ 2 * capacity + (now - a) * rate
    have hcast : (a : ℚ) ≤ now := Nat.cast_le.mpr hle
    have hcame : 0 ≤ (now - a : ℚ) * rate := mul_nonneg (sub_nonneg.mpr hcast) hrate
    rw [Nat.cast_zero]
    linarith
  bound := by
    show ((0 : ℕ) : ℚ) ≤ 2 * capacity + T * rate
    rw [Nat.cast_zero]
    positivity

theorem bounded_at (hb : Bounded capacity rate a T h) (hnow : h.now ≤ now) : Bounded capacity rate a T (h.at now) where
  nonneg := hb.nonneg
  le_capacity := hb.le_capacity
  refilled := hb.refilled.trans hnow
  past t ht := (hb.past t ht).trans hnow
  early hlast hle := hb.early hlast (hnow.trans hle)
  late hlast hle := hb.late hlast (hnow.trans hle)
  bound := hb.bound

/-- A refill in the window adds what the bucket can hold, if it is the first, and else what came in since the last. -/
theorem bounded_refill (hrate : 0 ≤ rate) (hb : Bounded capacity rate a T h) :
    Bounded capacity rate a T (h.refill capacity rate) := by
  have hcast : (h.bucket.lastRefill : ℚ) ≤ h.now := Nat.cast_le.mpr hb.refilled
  have hcame : 0 ≤ (h.now - h.bucket.lastRefill : ℚ) * rate := mul_nonneg (sub_nonneg.mpr hcast) hrate
  have hmin : (h.refill capacity rate).bucket.tokens ≤ capacity := min_le_left _ _
  have hadded : (h.refill capacity rate).bucket.tokens ≤
      h.bucket.tokens + (h.now - h.bucket.lastRefill) * rate := min_le_right _ _
  refine ⟨le_min (hb.nonneg.trans hb.le_capacity) (add_nonneg hb.nonneg hcame), hmin, le_rfl, hb.past, ?_, ?_, hb.bound⟩
  · intro hbefore _
    have hnone : h.granted a T = 0 := by
      unfold History.granted
      rw [Window.within_eq_nil, List.length_nil]
      intro t ht hin
      have hpast := hb.past t ht
      have hlast : h.now < a := hbefore
      omega
    show ((h.granted a T : ℕ) : ℚ) + _ ≤ capacity
    rw [hnone, Nat.cast_zero, zero_add]
    exact hmin
  · intro hafter hle
    show ((h.granted a T : ℕ) : ℚ) + _ ≤ 2 * capacity + (h.now - a) * rate
    have hcast' : (a : ℚ) ≤ h.now := Nat.cast_le.mpr hafter
    have hsince : 0 ≤ (h.now - a : ℚ) * rate := mul_nonneg (sub_nonneg.mpr hcast') hrate
    have hnonneg := hb.nonneg
    rcases Nat.lt_or_ge h.bucket.lastRefill a with hlast | hlast
    · have hgiven := hb.early hlast hle
      linarith
    · have hgiven := hb.late hlast hle
      have hsplit : (h.now - a : ℚ) * rate =
          (h.now - h.bucket.lastRefill) * rate + (h.bucket.lastRefill - a) * rate := by ring
      linarith

theorem bounded_take (hrate : 0 ≤ rate) (hb : Bounded capacity rate a T h) (hone : 1 ≤ h.bucket.tokens) :
    Bounded capacity rate a T h.take := by
  have hgranted : h.take.granted a T = h.granted a T + if a ≤ h.now ∧ h.now ≤ a + T then 1 else 0 := by
    show (Window.within a T (h.grants ++ [h.now])).length = _
    rw [Window.within_append, List.length_append]
    congr 1
    unfold Window.within
    split
    · rename_i hin
      rw [List.filter_singleton, decide_eq_true hin]
      rfl
    · rename_i hout
      rw [List.filter_singleton, decide_eq_false hout]
      rfl
  have htokens : h.take.bucket.tokens = h.bucket.tokens - 1 := rfl
  have hle : (h.take.granted a T : ℚ) ≤ h.granted a T + 1 := by
    rw [hgranted, Nat.cast_add]
    split <;> simp
  have hcapacity := hb.le_capacity
  refine ⟨by rw [htokens]; linarith, by rw [htokens]; linarith, hb.refilled, ?_, ?_, ?_, ?_⟩
  · intro t ht
    rcases List.mem_append.mp ht with ht | ht
    · exact hb.past t ht
    · exact (List.mem_singleton.mp ht).le
  · intro hlast hnow
    have hgiven := hb.early hlast hnow
    rw [htokens]
    linarith
  · intro hlast hnow
    have hgiven := hb.late hlast hnow
    rw [htokens]
    show _ ≤ 2 * capacity + (h.bucket.lastRefill - a) * rate
    linarith
  · by_cases hin : a ≤ h.now ∧ h.now ≤ a + T
    · have hT : 0 ≤ (T : ℚ) * rate := mul_nonneg (Nat.cast_nonneg T) hrate
      rcases Nat.lt_or_ge h.bucket.lastRefill a with hlast | hlast
      · have hgiven := hb.early hlast hin.2
        linarith
      · have hgiven := hb.late hlast hin.2
        have hlength : (h.bucket.lastRefill : ℚ) - a ≤ T := by
          have hlate : (h.bucket.lastRefill : ℚ) ≤ (a + T : ℕ) := Nat.cast_le.mpr (hb.refilled.trans hin.2)
          rw [Nat.cast_add] at hlate
          linarith
        have hcame := mul_le_mul_of_nonneg_right hlength hrate
        linarith
    · rw [hgranted, if_neg hin]
      exact hb.bound

end TokenBucket
