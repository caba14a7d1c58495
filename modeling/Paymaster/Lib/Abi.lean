import Mathlib
import Paymaster.Lib.Bytes

/-!
# The dynamic contract ABI

Arguments are laid out as a head of one word for each, followed by a tail. A
static argument is its word in the head; a dynamic one has its contents in the
tail and their offset in the head. Reading follows the offsets wherever they
point and ignores padding, what lies behind the arguments, and the unused high
bytes of an address; what was laid out is read back.
-/

namespace Abi

open Bytes

inductive AbiType
  | address
  | uint256
  | bytes
  | array (element : AbiType)
deriving DecidableEq

@[reducible] def AbiType.Val : AbiType → Type
  | .address => BitVec 160
  | .uint256 => BitVec 256
  | .bytes => List UInt8
  | .array t => List t.Val

@[reducible] def Vals : List AbiType → Type
  | [] => Unit
  | t :: ts => t.Val × Vals ts

def AbiType.dynamic : AbiType → Bool
  | .address | .uint256 => false
  | .bytes | .array _ => true

/-! ## Laying out -/

/-- What an argument contributes: a word of the head, or contents in the tail. -/
structure Part where
  dynamic : Bool
  content : List UInt8

/-- The head, where the next contents will lie at `offset`. -/
def heads : Nat → List Part → List UInt8
  | _, [] => []
  | offset, p :: ps =>
    if p.dynamic then beBytes 32 offset ++ heads (offset + p.content.length) ps else p.content ++ heads offset ps

def tails : List Part → List UInt8
  | [] => []
  | p :: ps => if p.dynamic then p.content ++ tails ps else tails ps

def layOut (ps : List Part) : List UInt8 := heads (32 * ps.length) ps ++ tails ps

def padded (b : List UInt8) : List UInt8 := b ++ List.replicate ((32 - b.length % 32) % 32) 0

def encode : (t : AbiType) → t.Val → List UInt8
  | .address, a => beBytes 32 a.toNat
  | .uint256, n => beBytes 32 n.toNat
  | .bytes, b => beBytes 32 b.length ++ padded b
  | .array t, vs => beBytes 32 vs.length ++ layOut (vs.map fun v => ⟨t.dynamic, encode t v⟩)

def partsOf : (ts : List AbiType) → Vals ts → List Part
  | [], _ => []
  | t :: ts, (v, vs) => ⟨t.dynamic, encode t v⟩ :: partsOf ts vs

def encodeArgs (ts : List AbiType) (vs : Vals ts) : List UInt8 := layOut (partsOf ts vs)

/-! ## Reading -/

def word? (data : List UInt8) (i : Nat) : Option Nat := if i + 32 ≤ data.length then some (wordAt data i (i + 32)) else none

def readMany {α : Type} (read : Nat → Option α) : (count i : Nat) → Option (List α)
  | 0, _ => some []
  | count + 1, i => do
    let a ← read i
    let as ← readMany read count (i + 32)
    some (a :: as)

/-- The value of the argument whose head is at `i`; offsets count from `base`. -/
def readAt (data : List UInt8) : (t : AbiType) → (base i : Nat) → Option t.Val
  | .address, _, i => (word? data i).map (BitVec.ofNat 160)
  | .uint256, _, i => (word? data i).map (BitVec.ofNat 256)
  | .bytes, base, i => do
    let offset ← word? data i
    let length ← word? data (base + offset)
    if base + offset + 32 + length ≤ data.length then some ((data.drop (base + offset + 32)).take length) else none
  | .array t, base, i => do
    let offset ← word? data i
    let length ← word? data (base + offset)
    readMany (fun j => readAt data t (base + offset + 32) j) length (base + offset + 32)

def readArgsAt (data : List UInt8) : (ts : List AbiType) → (i : Nat) → Option (Vals ts)
  | [], _ => some ()
  | t :: ts, i => do
    let v ← readAt data t 0 i
    let vs ← readArgsAt data ts (i + 32)
    some (v, vs)

def readArgs (data : List UInt8) (ts : List AbiType) : Option (Vals ts) := readArgsAt data ts 0

/-! ## What was laid out is read back -/

section
variable {data x y : List UInt8} {i n : Nat}

theorem prefix_append_iff : x ++ y <+: data.drop i ↔ x <+: data.drop i ∧ y <+: data.drop (i + x.length) := by
  constructor
  · rintro ⟨rest, h⟩
    refine ⟨⟨y ++ rest, by rw [← h, List.append_assoc]⟩, ⟨rest, ?_⟩⟩
    rw [← List.drop_drop, ← h, List.append_assoc, List.drop_left]
  · rintro ⟨⟨rest, h⟩, ⟨rest', h'⟩⟩
    rw [← List.drop_drop, ← h, List.drop_left] at h'
    exact ⟨rest', by rw [← h, ← h', List.append_assoc]⟩

theorem within_of_prefix (h : x <+: data.drop i) (hx : 0 < x.length) : i + x.length ≤ data.length := by
  have hle := h.length_le
  rw [List.length_drop] at hle
  omega

theorem word?_of_prefix (hn : n < 2 ^ 256) (h : beBytes 32 n <+: data.drop i) : word? data i = some n := by
  have hlength : (beBytes 32 n).length = 32 := length_beBytes ..
  have hwithin : i + 32 ≤ data.length := hlength ▸ within_of_prefix h (by rw [hlength]; decide)
  obtain ⟨rest, h⟩ := h
  unfold word? wordAt
  rw [if_pos hwithin, ← h, Nat.add_sub_cancel_left, List.take_left' hlength]
  have hsize : n < 256 ^ 32 := by
    rw [show (256 : Nat) ^ 32 = 2 ^ 256 by norm_num]
    exact hn
  rw [ofBytes_beBytes 32 n hsize]

theorem readMany_eq {α : Type} {read : Nat → Option α} {vs : List α}
    (h : ∀ k v, vs[k]? = some v → read (i + 32 * k) = some v) : readMany read vs.length i = some vs := by
  induction vs generalizing i with
  | nil => rfl
  | cons v vs ih =>
    have hv : read i = some v := h 0 v rfl
    have hvs : readMany read vs.length (i + 32) = some vs := by
      apply ih
      intro k w hw
      have := h (k + 1) w (by simpa using hw)
      rwa [show i + 32 * (k + 1) = i + 32 + 32 * k by omega] at this
    simp [readMany, hv, hvs]

/-- A part has its head at `i` and, if it is dynamic, its contents where the head says. -/
def Placed (data : List UInt8) (base i : Nat) (p : Part) : Prop :=
  if p.dynamic then ∃ offset < 2 ^ 256, beBytes 32 offset <+: data.drop i ∧ p.content <+: data.drop (base + offset)
  else p.content <+: data.drop i

theorem placed_of_heads {base offset k : Nat} {p : Part} {ps : List Part}
    (hstatic : ∀ p ∈ ps, p.dynamic = false → p.content.length = 32) (hheads : heads offset ps <+: data.drop i)
    (htails : tails ps <+: data.drop (base + offset)) (hsize : offset + (tails ps).length < 2 ^ 256)
    (hk : ps[k]? = some p) : Placed data base (i + 32 * k) p := by
  induction ps generalizing i offset k with
  | nil => simp at hk
  | cons q ps ih =>
    by_cases hq : q.dynamic
    · simp only [heads, tails, hq, if_true] at hheads htails hsize
      obtain ⟨hword, hheads⟩ := prefix_append_iff.mp hheads
      obtain ⟨hcontent, htails⟩ := prefix_append_iff.mp htails
      rw [List.length_append] at hsize
      rw [length_beBytes] at hheads
      cases k with
      | zero =>
        obtain rfl : q = p := by simpa using hk
        rw [Placed, if_pos hq]
        exact ⟨offset, by omega, hword, hcontent⟩
      | succ k =>
        have := ih (fun p hp => hstatic p (by simp [hp])) hheads (by rwa [← Nat.add_assoc]) (by omega) (by simpa using hk)
        rwa [show i + 32 * (k + 1) = i + 32 + 32 * k by omega]
    · simp only [heads, tails, hq, Bool.false_eq_true, if_false] at hheads htails hsize
      have hlength : q.content.length = 32 := hstatic q (by simp) (by simpa using hq)
      obtain ⟨hcontent, hheads⟩ := prefix_append_iff.mp hheads
      rw [hlength] at hheads
      cases k with
      | zero =>
        obtain rfl : q = p := by simpa using hk
        rw [Placed, if_neg hq]
        exact hcontent
      | succ k =>
        have := ih (fun p hp => hstatic p (by simp [hp])) hheads htails (by omega) (by simpa using hk)
        rwa [show i + 32 * (k + 1) = i + 32 + 32 * k by omega]

theorem length_heads {ps : List Part} (h : ∀ p ∈ ps, p.dynamic = false → p.content.length = 32) (offset : Nat) :
    (heads offset ps).length = 32 * ps.length := by
  induction ps generalizing offset with
  | nil => rfl
  | cons p ps ih =>
    have hrest := fun offset => ih (fun q hq => h q (by simp [hq])) offset
    by_cases hp : p.dynamic
    · simp [heads, hp, hrest]
      omega
    · simp [heads, hp, hrest, h p (by simp) (by simpa using hp)]
      omega

theorem length_layOut {ps : List Part} (h : ∀ p ∈ ps, p.dynamic = false → p.content.length = 32) :
    (layOut ps).length = 32 * ps.length + (tails ps).length := by
  rw [layOut, List.length_append, length_heads h]

theorem placed_of_layOut {base k : Nat} {p : Part} {ps : List Part}
    (hstatic : ∀ p ∈ ps, p.dynamic = false → p.content.length = 32) (h : layOut ps <+: data.drop base)
    (hsize : (layOut ps).length < 2 ^ 256) (hk : ps[k]? = some p) : Placed data base (base + 32 * k) p := by
  obtain ⟨hheads, htails⟩ := prefix_append_iff.mp h
  rw [length_heads hstatic] at htails
  rw [length_layOut hstatic] at hsize
  exact placed_of_heads hstatic hheads htails hsize hk

theorem content_le_tails {p : Part} {ps : List Part} (hp : p ∈ ps) (hd : p.dynamic = true) :
    p.content.length ≤ (tails ps).length := by
  induction ps with
  | nil => cases hp
  | cons q ps ih =>
    rcases List.mem_cons.mp hp with rfl | hp
    · simp [tails, hd]
    · have := ih hp
      by_cases hq : q.dynamic
      · simp only [tails, hq, if_true, List.length_append]
        omega
      · simpa [tails, hq] using this

theorem length_encode_static {t : AbiType} (ht : t.dynamic = false) (v : t.Val) : (encode t v).length = 32 := by
  cases t with
  | address => exact length_beBytes ..
  | uint256 => exact length_beBytes ..
  | bytes => cases ht
  | array t => cases ht

theorem partsOf_static {ts : List AbiType} {vs : Vals ts} :
    ∀ p ∈ partsOf ts vs, p.dynamic = false → p.content.length = 32 := by
  induction ts with
  | nil => intro p hp; cases hp
  | cons t ts ih =>
    intro p hp hd
    rcases List.mem_cons.mp hp with rfl | hp
    · exact length_encode_static hd vs.1
    · exact ih p hp hd

theorem map_static {t : AbiType} {vs : List t.Val} :
    ∀ p ∈ vs.map (fun v => Part.mk t.dynamic (encode t v)), p.dynamic = false → p.content.length = 32 := by
  intro p hp hd
  obtain ⟨v, -, rfl⟩ := List.mem_map.mp hp
  exact length_encode_static hd v

theorem readAt_placed {t : AbiType} {v : t.Val} {base : Nat} (hsize : (encode t v).length < 2 ^ 256)
    (h : Placed data base i ⟨t.dynamic, encode t v⟩) : readAt data t base i = some v := by
  induction t generalizing base i with
  | address =>
    have hlt := v.isLt
    have hword : word? data i = some v.toNat := word?_of_prefix (by omega) h
    simp [readAt, hword]
  | uint256 =>
    have hword : word? data i = some v.toNat := word?_of_prefix v.isLt h
    simp [readAt, hword]
  | bytes =>
    obtain ⟨offset, hoffset, hhead, hcontent⟩ := h
    obtain ⟨hlength, hcontent⟩ := prefix_append_iff.mp hcontent
    obtain ⟨hbytes, -⟩ := prefix_append_iff.mp hcontent
    rw [length_beBytes] at hbytes
    have hlt : v.length < 2 ^ 256 := by
      simp only [encode, padded, List.length_append] at hsize
      omega
    have hwithin : base + offset + 32 ≤ data.length := by
      have := within_of_prefix hlength (by rw [length_beBytes]; decide)
      rwa [length_beBytes] at this
    have hle := hbytes.length_le
    rw [List.length_drop] at hle
    obtain ⟨rest, hrest⟩ := hbytes
    have hfits : base + offset + 32 + v.length ≤ data.length := by omega
    simp only [readAt, word?_of_prefix hoffset hhead, word?_of_prefix hlt hlength, Option.bind_eq_bind, Option.bind_some,
      if_pos hfits, ← hrest, List.take_left]
  | array t ih =>
    obtain ⟨offset, hoffset, hhead, hcontent⟩ := h
    obtain ⟨hlength, hcontent⟩ := prefix_append_iff.mp hcontent
    rw [length_beBytes] at hcontent
    simp only [encode, List.length_append, length_beBytes] at hsize
    have hcount := length_layOut (@map_static t v)
    rw [List.length_map] at hcount
    have hread : readMany (fun j => readAt data t (base + offset + 32) j) v.length (base + offset + 32) = some v := by
      apply readMany_eq
      intro k w hw
      have hk : (v.map fun w => Part.mk t.dynamic (encode t w))[k]? = some ⟨t.dynamic, encode t w⟩ := by
        rw [List.getElem?_map, hw]
        rfl
      apply ih _ (placed_of_layOut map_static hcontent (by omega) hk)
      by_cases hd : t.dynamic
      · have := content_le_tails (List.mem_of_getElem? hk) hd
        simp only at this
        omega
      · rw [length_encode_static (by simpa using hd)]
        norm_num
    simp only [readAt, word?_of_prefix hoffset hhead, word?_of_prefix (n := v.length) (by omega) hlength,
      Option.bind_eq_bind, Option.bind_some, hread]

theorem readArgsAt_eq {ts : List AbiType} {vs : Vals ts}
    (hsize : ∀ p ∈ partsOf ts vs, p.content.length < 2 ^ 256)
    (h : ∀ k p, (partsOf ts vs)[k]? = some p → Placed data 0 (i + 32 * k) p) : readArgsAt data ts i = some vs := by
  induction ts generalizing i with
  | nil => rfl
  | cons t ts ih =>
    obtain ⟨v, vs⟩ := vs
    have hv : readAt data t 0 i = some v := readAt_placed (hsize ⟨t.dynamic, encode t v⟩ (by simp [partsOf])) (h 0 _ rfl)
    have hvs : readArgsAt data ts (i + 32) = some vs := by
      apply ih (fun p hp => hsize p (by simp [partsOf, hp]))
      intro k p hp
      have := h (k + 1) p (by simpa [partsOf] using hp)
      rwa [show i + 32 * (k + 1) = i + 32 + 32 * k by omega] at this
    simp [readArgsAt, hv, hvs]

/-- Arguments that fit the address space are read back, whatever follows them. -/
theorem readArgs_encodeArgs {ts : List AbiType} {vs : Vals ts} (hsize : (encodeArgs ts vs).length < 2 ^ 256)
    (rest : List UInt8) : readArgs (encodeArgs ts vs ++ rest) ts = some vs := by
  have hlayOut := length_layOut (@partsOf_static ts vs)
  unfold encodeArgs at hsize
  apply readArgsAt_eq
  · intro p hp
    by_cases hd : p.dynamic
    · have := content_le_tails hp hd
      omega
    · rw [partsOf_static p hp (by simpa using hd)]
      norm_num
  · intro k p hp
    apply placed_of_layOut partsOf_static _ hsize hp
    rw [List.drop_zero]
    exact List.prefix_append ..

end

end Abi
