import Paymaster.Lib.Bytes
import Paymaster.Lib.Ecdsa
import Paymaster.Lib.Lucas
import Paymaster.Lib.Numeral

/-!
# The KMS signer

A key management service signs digests, and returns DER. The signer reads it,
reflects `s` into the lower half of the group order, and tries the two values of
`v` until its own address is recovered. The curve and the address of a key are
parameters.
-/

namespace Paymaster

open Ecdsa

/-! ## DER -/

def readByte : List UInt8 → Except String (UInt8 × List UInt8)
  | [] => .error "truncated DER signature"
  | byte :: rest => .ok (byte, rest)

def readInteger (der : List UInt8) : Except String (Nat × List UInt8) := do
  let (tag, der) ← readByte der
  if tag ≠ 0x02 then throw "expected DER INTEGER"
  else do
    let (len, der) ← readByte der
    if len = 0 ∨ der.length < len.toNat then throw "invalid DER INTEGER length"
    else .ok (Bytes.ofBytes (der.take len.toNat), der.drop len.toNat)

/-- The length of the sequence is not looked at, nor what follows it. -/
def decodeDerSignature (der : List UInt8) : Except String (Nat × Nat) := do
  let (tag, der) ← readByte der
  if tag ≠ 0x30 then throw "DER signature is not a SEQUENCE"
  else do
    let (_, der) ← readByte der
    let (r, der) ← readInteger der
    let (s, _) ← readInteger der
    .ok (r, s)

def minimalBytes (n : Nat) : List UInt8 := ((Nat.digits 256 n).map UInt8.ofNat).reverse

/-- A zero in front keeps a number with a high first bit positive. -/
def integerBytes (n : Nat) : List UInt8 :=
  let bytes := minimalBytes n
  if bytes.head?.all (· < 0x80) then bytes else 0 :: bytes

def derInteger (n : Nat) : List UInt8 := 0x02 :: UInt8.ofNat (integerBytes n).length :: integerBytes n

def derSignature (r s : Nat) : List UInt8 :=
  let integers := derInteger r ++ derInteger s
  0x30 :: UInt8.ofNat integers.length :: integers

/-! ## Signatures -/

def secp256k1N : Nat := 0xfffffffffffffffffffffffffffffffebaaedce6af48a03bbfd25e8cd0364141

def secp256k1HalfN : Nat := secp256k1N >>> 1

/-- `toString(16)`. -/
def hexText : ℤ → List Char
  | .ofNat n => Nat.toDigits 16 n
  | .negSucc n => '-' :: Nat.toDigits 16 (n + 1)

/-- Without the `0x` that `concatHex` takes away again. -/
def toBytes32 (value : ℤ) : List Char := List.leftpad 64 '0' (hexText value)

def concatSignature (r s : ℤ) (v : Nat) : List Char := '0' :: 'x' :: (toBytes32 r ++ toBytes32 s ++ Nat.toDigits 16 v)

def parseSignature : List Char → Option (Nat × Nat × Nat)
  | '0' :: 'x' :: digits =>
    if digits.length = 130 then do
      let r ← Numeral.read 16 (digits.take 64)
      let s ← Numeral.read 16 ((digits.drop 64).take 64)
      let v ← Numeral.read 16 (digits.drop 128)
      some (r, s, v)
    else none
  | _ => none

def toRecoveryBit : Nat → Option Bool
  | 0 | 27 => some false
  | 1 | 28 => some true
  | _ => none

section

variable {Point Address : Type} [AddCommGroup Point] [DecidableEq Point] [Module (ZMod secp256k1N) Point]
  (curve : Curve Point) (addressOf : Point → Address)

/-- `recoverAddress`; it throws on `none`. -/
def recoverAddress (digest : List UInt8) (signature : List Char) : Option Address :=
  match parseSignature signature with
  | none => none
  | some (r, s, v) =>
    if 0 < r ∧ r < secp256k1N ∧ 0 < s ∧ s < secp256k1N then
      match toRecoveryBit v with
      | none => none
      | some bit => (curve.recover secp256k1N (Bytes.ofBytes digest) r s bit).map addressOf
    else none

variable [DecidableEq Address]

def searchV (address : Address) (digest : List UInt8) (r s : ℤ) : List Nat → Except String (List Char)
  | [] => .error "could not recover signer address from KMS signature (wrong key or corrupt DER?)"
  | v :: vs =>
    let signature := concatSignature r s v
    match recoverAddress curve addressOf digest signature with
    | none => .error "recoverAddress failed"
    | some recovered => if recovered = address then .ok signature else searchV address digest r s vs

def lowS (rawS : Nat) : ℤ := if secp256k1HalfN < rawS then secp256k1N - rawS else rawS

/-- `signDigest`, of a signer with an address, when the service returns some bytes. -/
def signDigest (address : Address) (digest der : List UInt8) : Except String (List Char) :=
  if digest.length ≠ 32 then .error ("digest must be 32 bytes, got " ++ toString digest.length)
  else do
    let (r, rawS) ← decodeDerSignature der
    searchV curve addressOf address digest r (lowS rawS) [27, 28]

end

/-! ## The group order -/

/-- Each factor of what is tested is small, or was tested before. -/
def groupOrderTests : List Lucas.Test :=
  [⟨44706919, 6, [2, 3, 797, 9349]⟩,
    ⟨120233, 3, [2, 2, 2, 7, 19, 113]⟩,
    ⟨174723607534414371449, 3, [2, 2, 2, 17, 59, 4051, 120233, 44706919]⟩,
    ⟨4681609, 23, [2, 2, 2, 3, 97, 2011]⟩,
    ⟨16699, 3, [2, 3, 11, 11, 23]⟩,
    ⟨85831, 3, [2, 3, 5, 2861]⟩,
    ⟨107361793816595537, 3, [2, 2, 2, 2, 16699, 85831, 4681609]⟩,
    ⟨305873, 3, [2, 2, 2, 2, 7, 2731]⟩,
    ⟨1627771, 3, [2, 3, 5, 29, 1871]⟩,
    ⟨297159362677, 2, [2, 2, 3, 3, 11, 461, 1627771]⟩,
    ⟨28181, 2, [2, 2, 5, 1409]⟩,
    ⟨545358713, 5, [2, 2, 2, 41, 59, 28181]⟩,
    ⟨29047611873442575647497758179, 2, [2, 293, 305873, 545358713, 297159362677]⟩,
    ⟨341948486974166000522343609283189, 2, [2, 2, 3, 3, 3, 109, 29047611873442575647497758179]⟩,
    ⟨secp256k1N, 7, [2, 2, 2, 2, 2, 2, 3, 149, 631, 107361793816595537, 174723607534414371449,
      341948486974166000522343609283189]⟩]

theorem secp256k1N_prime : secp256k1N.Prime := by
  have hproved : Lucas.proved [] groupOrderTests = true ∧ groupOrderTests.any (·.p = secp256k1N) = true := by
    decide +kernel
  obtain ⟨test, htest, hp⟩ := List.any_eq_true.mp hproved.2
  rw [← of_decide_eq_true hp]
  exact Lucas.prime_of_proved (fun q hq => absurd hq List.not_mem_nil) hproved.1 test htest

instance : Fact secp256k1N.Prime := ⟨secp256k1N_prime⟩

theorem secp256k1N_eq : secp256k1N = 2 * secp256k1HalfN + 1 := by
  unfold secp256k1HalfN secp256k1N
  rw [Nat.shiftRight_eq_div_pow]

theorem secp256k1N_lt : secp256k1N < 2 ^ 256 := by
  unfold secp256k1N
  norm_num

/-! ## What is encoded is read -/

theorem ofBytes_reverse : ∀ {digits : List Nat}, (∀ d ∈ digits, d < 256) →
    Bytes.ofBytes ((digits.map UInt8.ofNat).reverse) = Nat.ofDigits 256 digits
  | [], _ => rfl
  | d :: digits, h => by
    have hd : (UInt8.ofNat d).toNat = d := by
      rw [UInt8.toNat_ofNat']
      exact Nat.mod_eq_of_lt (h d List.mem_cons_self)
    rw [List.map_cons, List.reverse_cons, Bytes.ofBytes_snoc, hd, Nat.ofDigits_cons,
      ofBytes_reverse fun d hd => h d (List.mem_cons_of_mem _ hd)]
    omega

theorem ofBytes_minimalBytes (n : Nat) : Bytes.ofBytes (minimalBytes n) = n := by
  unfold minimalBytes
  rw [ofBytes_reverse fun d hd => Nat.digits_lt_base (by decide) hd, Nat.ofDigits_digits]

theorem ofBytes_zero_cons (bytes : List UInt8) : Bytes.ofBytes (0 :: bytes) = Bytes.ofBytes bytes := rfl

theorem ofBytes_integerBytes (n : Nat) : Bytes.ofBytes (integerBytes n) = n := by
  unfold integerBytes
  dsimp only
  split
  · exact ofBytes_minimalBytes n
  · rw [ofBytes_zero_cons, ofBytes_minimalBytes]

theorem length_integerBytes {n : Nat} (hn : 0 < n) (hlt : n < 2 ^ 256) :
    0 < (integerBytes n).length ∧ (integerBytes n).length ≤ 33 := by
  have hminimal : 0 < (minimalBytes n).length ∧ (minimalBytes n).length ≤ 32 := by
    unfold minimalBytes
    rw [List.length_reverse, List.length_map]
    exact ⟨List.length_pos_of_ne_nil (Nat.digits_ne_nil_iff_ne_zero.mpr (by omega)),
      (Nat.digits_length_le_iff (by decide) n).mpr hlt⟩
  unfold integerBytes
  dsimp only
  split
  · omega
  · rw [List.length_cons]
    omega

theorem readInteger_derInteger {n : Nat} {rest : List UInt8} (hn : 0 < n) (hlt : n < 2 ^ 256) :
    readInteger (derInteger n ++ rest) = .ok (n, rest) := by
  obtain ⟨hpos, hle⟩ := length_integerBytes hn hlt
  have hlen : (UInt8.ofNat (integerBytes n).length).toNat = (integerBytes n).length := by
    rw [UInt8.toNat_ofNat']
    exact Nat.mod_eq_of_lt (by omega)
  have hfits : ¬ (UInt8.ofNat (integerBytes n).length = 0 ∨
      (integerBytes n ++ rest).length < (UInt8.ofNat (integerBytes n).length).toNat) := by
    rw [← UInt8.toNat_inj, hlen, List.length_append]
    have hzero : (0 : UInt8).toNat = 0 := rfl
    omega
  unfold readInteger derInteger
  simp only [List.cons_append, readByte, bind, Except.bind, ne_eq, not_true, if_false]
  rw [if_neg hfits, hlen, List.take_left, List.drop_left, ofBytes_integerBytes]

theorem decode_derSignature {r s : Nat} (hr : 0 < r) (hr' : r < 2 ^ 256) (hs : 0 < s) (hs' : s < 2 ^ 256) :
    decodeDerSignature (derSignature r s) = .ok (r, s) := by
  have hsecond : readInteger (derInteger s ++ []) = .ok (s, []) := readInteger_derInteger hs hs'
  rw [List.append_nil] at hsecond
  unfold decodeDerSignature derSignature
  simp only [readByte, bind, Except.bind, ne_eq, not_true, if_false]
  rw [readInteger_derInteger hr hr']
  simp only
  rw [hsecond]

/-! ## Texts of signatures -/

theorem length_toBytes32 (value : ℤ) : 64 ≤ (toBytes32 value).length := by
  unfold toBytes32
  rw [List.length_leftpad]
  exact Nat.le_max_left _ _

theorem length_toBytes32_natCast {n : Nat} (hn : n < 2 ^ 256) : (toBytes32 n).length = 64 := by
  have hdigits : (Nat.toDigits 16 n).length ≤ 64 := (Nat.length_toDigits_le_iff (by decide) (by decide)).mpr hn
  show (List.leftpad 64 '0' (Nat.toDigits 16 n)).length = 64
  rw [List.length_leftpad]
  exact Nat.max_eq_left hdigits

theorem read_toBytes32 {value : ℤ} {n : Nat} : Numeral.read 16 (toBytes32 value) = some n ↔ value = n := by
  unfold toBytes32 List.leftpad
  rw [Numeral.read_replicate_append (by decide)]
  cases value with
  | ofNat m =>
    show Numeral.read 16 (Nat.toDigits 16 m) = some n ↔ _
    rw [Numeral.read_toDigits (by decide) (by decide), Option.some.injEq]
    exact Int.natCast_inj.symm
  | negSucc m =>
    have hminus : Numeral.read 16 (hexText (.negSucc m)) = none :=
      Numeral.read_eq_none (by decide) (List.mem_cons_self (a := '-'))
    rw [hminus]
    exact iff_of_false (Option.some_ne_none _).symm (by omega)

theorem read_v {v : Nat} (hv : v = 27 ∨ v = 28) :
    (Nat.toDigits 16 v).length = 2 ∧ Numeral.read 16 (Nat.toDigits 16 v) = some v := by
  refine ⟨?_, Numeral.read_toDigits (by decide) (by decide) v⟩
  rcases hv with rfl | rfl <;> decide

theorem parse_concatSignature {r s : ℤ} {v r' s' v' : Nat} (hv : v = 27 ∨ v = 28) :
    parseSignature (concatSignature r s v) = some (r', s', v') ↔
      (toBytes32 r).length = 64 ∧ (toBytes32 s).length = 64 ∧ r = r' ∧ s = s' ∧ v = v' := by
  obtain ⟨hlength, hread⟩ := read_v hv
  have hr := length_toBytes32 r
  have hs := length_toBytes32 s
  have hall : (toBytes32 r ++ toBytes32 s ++ Nat.toDigits 16 v).length = 130 ↔
      (toBytes32 r).length = 64 ∧ (toBytes32 s).length = 64 := by
    rw [List.length_append, List.length_append, hlength]
    omega
  rw [concatSignature, parseSignature]
  by_cases hfits : (toBytes32 r).length = 64 ∧ (toBytes32 s).length = 64
  · obtain ⟨hr64, hs64⟩ := hfits
    have htake : (toBytes32 r ++ toBytes32 s ++ Nat.toDigits 16 v).take 64 = toBytes32 r := by
      rw [List.append_assoc, ← hr64, List.take_left]
    have hmiddle : ((toBytes32 r ++ toBytes32 s ++ Nat.toDigits 16 v).drop 64).take 64 = toBytes32 s := by
      rw [List.append_assoc, ← hr64, List.drop_left, hr64, ← hs64, List.take_left]
    have hdrop : (toBytes32 r ++ toBytes32 s ++ Nat.toDigits 16 v).drop 128 = Nat.toDigits 16 v := by
      have hboth : (toBytes32 r ++ toBytes32 s).length = 128 := by
        rw [List.length_append]
        omega
      rw [← hboth, List.drop_left]
    rw [if_pos (hall.mpr ⟨hr64, hs64⟩), htake, hmiddle, hdrop, hread]
    simp only [Option.bind_eq_bind, Option.bind_eq_some_iff, Option.some.injEq, Prod.mk.injEq, read_toBytes32]
    constructor
    · rintro ⟨r'', rfl, s'', rfl, v'', rfl, rfl, rfl, rfl⟩
      exact ⟨hr64, hs64, rfl, rfl, rfl⟩
    · rintro ⟨-, -, rfl, rfl, rfl⟩
      exact ⟨r', rfl, s', rfl, v, rfl, rfl, rfl, rfl⟩
  · rw [if_neg (mt hall.mp hfits)]
    exact iff_of_false (Option.some_ne_none _).symm fun h => hfits ⟨h.1, h.2.1⟩

theorem lowS_le (rawS : Nat) : lowS rawS ≤ secp256k1HalfN := by
  have hN := secp256k1N_eq
  unfold lowS
  split
  · omega
  · omega

section

variable {Point Address : Type} [AddCommGroup Point] [DecidableEq Point] [Module (ZMod secp256k1N) Point]
  {curve : Curve Point} {addressOf : Point → Address} {address : Address} {digest der : List UInt8}
  {signature : List Char} {own : Point}

theorem recoverAddress_eq_some {r s : ℤ} {v : Nat} (hv : v = 27 ∨ v = 28)
    (h : recoverAddress curve addressOf digest (concatSignature r s v) = some address) :
    ∃ r' s' : Nat, r = r' ∧ s = s' ∧ 0 < r' ∧ r' < secp256k1N ∧ 0 < s' ∧ s' < secp256k1N := by
  unfold recoverAddress at h
  split at h
  · cases h
  · rename_i r' s' v' hparse
    obtain ⟨-, -, hr, hs, -⟩ := (parse_concatSignature hv).mp hparse
    split at h
    · rename_i hvalid
      exact ⟨r', s', hr, hs, hvalid⟩
    · cases h

theorem recoverAddress_concat {r s v : Nat} {bit : Bool} (hr : 0 < r) (hr' : r < secp256k1N) (hs : 0 < s)
    (hs' : s < secp256k1N) (hv : v = 27 ∨ v = 28) (hbit : toRecoveryBit v = some bit) :
    recoverAddress curve addressOf digest (concatSignature r s v) =
      (curve.recover secp256k1N (Bytes.ofBytes digest) r s bit).map addressOf := by
  have hN := secp256k1N_lt
  have hparse : parseSignature (concatSignature r s v) = some (r, s, v) :=
    (parse_concatSignature hv).mpr
      ⟨length_toBytes32_natCast (hr'.trans hN), length_toBytes32_natCast (hs'.trans hN), rfl, rfl, rfl⟩
  unfold recoverAddress
  rw [hparse]
  dsimp only
  rw [if_pos ⟨hr, hr', hs, hs'⟩, hbit]

variable [DecidableEq Address]

theorem searchV_ok {r s : ℤ} : ∀ {vs : List Nat}, searchV curve addressOf address digest r s vs = .ok signature →
    ∃ v ∈ vs, signature = concatSignature r s v ∧
      recoverAddress curve addressOf digest (concatSignature r s v) = some address
  | [], h => by cases h
  | v :: vs, h => by
    unfold searchV at h
    dsimp only at h
    split at h
    · cases h
    · rename_i recovered hrecovered
      split at h
      · rename_i hown
        cases h
        exact ⟨v, List.mem_cons_self, rfl, hown ▸ hrecovered⟩
      · obtain ⟨v', hmem, hrest⟩ := searchV_ok h
        exact ⟨v', List.mem_cons_of_mem _ hmem, hrest⟩

/-! ## Who is recovered -/

def reflected (s : Nat) : Nat := if secp256k1HalfN < s then secp256k1N - s else s

theorem lowS_eq {s : Nat} (hs : s < secp256k1N) : lowS s = reflected s := by
  unfold lowS reflected
  split
  · rw [Nat.cast_sub hs.le]
  · rfl

theorem reflected_bounds {s : Nat} (hs : 0 < s) (hs' : s < secp256k1N) : 0 < reflected s ∧ reflected s < secp256k1N := by
  unfold reflected
  split <;> omega

theorem recover_reflected {z r s : Nat} {bit : Bool} (hs : s < secp256k1N)
    (h : curve.recover secp256k1N z r s bit = some own) :
    ∃ bit', curve.recover secp256k1N z r (reflected s) bit' = some own := by
  unfold reflected
  split
  · refine ⟨!bit, ?_⟩
    rw [Curve.recover_reflect hs.le]
    exact h
  · exact ⟨bit, h⟩

/-- The search ends with a signature unless the first candidate is no key. -/
theorem searchV_isOk {r s : Nat} {bit : Bool} (hr : 0 < r) (hr' : r < secp256k1N) (hs : 0 < s) (hs' : s < secp256k1N)
    (hown : curve.recover secp256k1N (Bytes.ofBytes digest) r s bit = some own) :
    (∃ signature, searchV curve addressOf (addressOf own) digest r s [27, 28] = .ok signature) ↔
      curve.recover secp256k1N (Bytes.ofBytes digest) r s false ≠ none := by
  have hfirst : recoverAddress curve addressOf digest (concatSignature r s 27) =
      (curve.recover secp256k1N (Bytes.ofBytes digest) r s false).map addressOf :=
    recoverAddress_concat hr hr' hs hs' (.inl rfl) rfl
  have hsecond : recoverAddress curve addressOf digest (concatSignature r s 28) =
      (curve.recover secp256k1N (Bytes.ofBytes digest) r s true).map addressOf :=
    recoverAddress_concat hr hr' hs hs' (.inr rfl) rfl
  unfold searchV
  dsimp only
  rw [hfirst]
  cases heven : curve.recover secp256k1N (Bytes.ofBytes digest) r s false with
  | none =>
    refine iff_of_false ?_ fun h => h rfl
    rintro ⟨signature, h⟩
    cases h
  | some other =>
    refine iff_of_true ?_ (Option.some_ne_none _)
    rw [Option.map_some]
    dsimp only
    split
    · exact ⟨_, rfl⟩
    · rename_i hother
      have hodd : curve.recover secp256k1N (Bytes.ofBytes digest) r s true = some own := by
        cases bit with
        | false =>
          rw [heven, Option.some.injEq] at hown
          exact absurd (congrArg addressOf hown) hother
        | true => exact hown
      unfold searchV
      dsimp only
      rw [hsecond, hodd, Option.map_some]
      dsimp only
      rw [if_pos rfl]
      exact ⟨_, rfl⟩

theorem signDigest_der {r s : Nat} (hdigest : digest.length = 32) (hr : 0 < r) (hr' : r < secp256k1N) (hs : 0 < s)
    (hs' : s < secp256k1N) : signDigest curve addressOf address digest (derSignature r s) =
      searchV curve addressOf address digest r (reflected s) [27, 28] := by
  have hN := secp256k1N_lt
  unfold signDigest
  rw [if_neg (not_not.mpr hdigest), decode_derSignature hr (hr'.trans hN) hs (hs'.trans hN)]
  show searchV curve addressOf address digest r (lowS s) [27, 28] = _
  rw [lowS_eq hs']

/-- A signature by the own key with a nonce whose coordinate was not reduced: `signDigest` throws only if the point with an
even coordinate gives the point at infinity. -/
theorem signDigest_isOk {r s : Nat} {R : Point} (hdigest : digest.length = 32) (hown : own ≠ 0) (hr : 0 < r)
    (hr' : r < secp256k1N) (hs : 0 < s) (hs' : s < secp256k1N)
    (hnonce : curve.Nonce secp256k1N own (Bytes.ofBytes digest) r s R) (hx : curve.x R < secp256k1N) :
    (∃ signature, signDigest curve addressOf (addressOf own) digest (derSignature r s) = .ok signature) ↔
      ∀ P, curve.lift r false = some P →
        (reflected s : ZMod secp256k1N) • P ≠ (Bytes.ofBytes digest : ZMod secp256k1N) • curve.base := by
  have hrne : (r : ZMod secp256k1N) ≠ 0 := Curve.natCast_ne_zero hr hr'
  obtain ⟨bit', hreflected⟩ := recover_reflected hs' (hnonce.recover hrne hown hx)
  obtain ⟨hpos, hlt⟩ := reflected_bounds hs hs'
  have hcoordinate : curve.x R = r := by
    rw [← hnonce.x_mod, Nat.mod_eq_of_lt hx]
  have hlift : ∃ P, curve.lift r false = some P := by
    have hodd : curve.lift r (curve.odd R) = some R := curve.lift_eq_some.mpr ⟨hnonce.ne_zero, hcoordinate, rfl⟩
    cases hb : curve.odd R with
    | false =>
      rw [hb] at hodd
      exact ⟨R, hodd⟩
    | true =>
      rw [hb] at hodd
      have hnot : curve.lift r (!true) = (curve.lift r true).map (- ·) := curve.lift_not
      rw [hodd] at hnot
      exact ⟨-R, hnot⟩
  obtain ⟨P, hP⟩ := hlift
  rw [signDigest_der hdigest hr hr' hs hs', searchV_isOk hr hr' hpos hlt hreflected, ne_eq,
    Curve.recover_eq_none hrne hP, hP]
  constructor
  · rintro hne P' hP'
    obtain rfl := Option.some.inj hP'
    exact hne
  · intro hall
    exact hall P rfl

/-- Both candidates read `r` as a coordinate, so neither is the key of a signature whose coordinate was reduced to `r`. -/
theorem recover_ne_own {z r s : Nat} {bit : Bool} {R : Point} (hr : 0 < r) (hr' : r < secp256k1N) (hs : 0 < s)
    (hs' : s < secp256k1N) (hnonce : curve.Nonce secp256k1N own z r s R) (hx : secp256k1N ≤ curve.x R) :
    curve.recover secp256k1N z r (reflected s) bit ≠ some own := by
  intro hrecover
  have hback : ∃ bit', curve.recover secp256k1N z r s bit' = some own := by
    unfold reflected at hrecover
    split at hrecover
    · refine ⟨!bit, ?_⟩
      rw [← Curve.recover_reflect hs'.le, Bool.not_not]
      exact hrecover
    · exact ⟨bit, hrecover⟩
  obtain ⟨bit', hbit'⟩ := hback
  obtain ⟨R', hnonce', hx'⟩ := Curve.nonce_of_recover hr hr' hbit'
  have hsame : R = R' := hnonce.unique hnonce' (Curve.natCast_ne_zero hs hs')
  rw [hsame] at hx
  omega

/-- What `signDigest` returns is a candidate with the own address. -/
theorem signDigest_recovers {r s : Nat} (hdigest : digest.length = 32) (hr : 0 < r) (hr' : r < secp256k1N) (hs : 0 < s)
    (hs' : s < secp256k1N) (h : signDigest curve addressOf address digest (derSignature r s) = .ok signature) :
    ∃ bit key, curve.recover secp256k1N (Bytes.ofBytes digest) r (reflected s) bit = some key ∧
      addressOf key = address := by
  obtain ⟨hpos, hlt⟩ := reflected_bounds hs hs'
  rw [signDigest_der hdigest hr hr' hs hs'] at h
  obtain ⟨v, hv, -, hrecover⟩ := searchV_ok h
  have hv' : v = 27 ∨ v = 28 := by simpa using hv
  obtain ⟨bit, hbit⟩ : ∃ bit, toRecoveryBit v = some bit := by
    rcases hv' with rfl | rfl
    · exact ⟨false, rfl⟩
    · exact ⟨true, rfl⟩
  rw [recoverAddress_concat hr hr' hpos hlt hv' hbit] at hrecover
  obtain ⟨key, hkey, haddress⟩ := Option.map_eq_some_iff.mp hrecover
  exact ⟨bit, key, hkey, haddress⟩

theorem signDigest_ok (h : signDigest curve addressOf address digest der = .ok signature) :
    digest.length = 32 ∧ ∃ r s v : Nat, parseSignature signature = some (r, s, v) ∧ 0 < r ∧ r < secp256k1N ∧
      0 < s ∧ s ≤ secp256k1HalfN ∧ (v = 27 ∨ v = 28) ∧
      recoverAddress curve addressOf digest signature = some address := by
  unfold signDigest at h
  split at h
  · cases h
  · rename_i hlength
    cases hdecode : decodeDerSignature der with
    | error e =>
      rw [hdecode] at h
      cases h
    | ok numbers =>
      obtain ⟨r, rawS⟩ := numbers
      rw [hdecode] at h
      obtain ⟨v, hv, rfl, hrecover⟩ := searchV_ok h
      have hv' : v = 27 ∨ v = 28 := by simpa using hv
      obtain ⟨r', s', hr', hs', hrpos, hrlt, hspos, hslt⟩ := recoverAddress_eq_some hv' hrecover
      have hlow := lowS_le rawS
      rw [hs'] at hlow
      have hN := secp256k1N_lt
      refine ⟨not_not.mp hlength, r', s', v, ?_, hrpos, hrlt, hspos, Nat.cast_le.mp hlow, hv', hrecover⟩
      rw [hr', hs']
      exact (parse_concatSignature hv').mpr ⟨length_toBytes32_natCast (hrlt.trans hN),
        length_toBytes32_natCast (hslt.trans hN), rfl, rfl, rfl⟩

/-- What is signed, what is thrown on, and what is decoded. Where the coordinate of the nonce was reduced, no other key
among the candidates has the own address. -/
theorem kms_signatures_canonical (curve : Curve Point) (addressOf : Point → Address) (own : Point) (hown : own ≠ 0) :
    (∀ digest der signature, signDigest curve addressOf (addressOf own) digest der = .ok signature →
      digest.length = 32 ∧ ∃ r s v : Nat, parseSignature signature = some (r, s, v) ∧ 0 < r ∧ r < secp256k1N ∧
        0 < s ∧ s ≤ secp256k1HalfN ∧ (v = 27 ∨ v = 28) ∧
        recoverAddress curve addressOf digest signature = some (addressOf own)) ∧
    (∀ (digest : List UInt8) (r s : Nat) (R : Point), digest.length = 32 → 0 < r → r < secp256k1N → 0 < s →
      s < secp256k1N → curve.Nonce secp256k1N own (Bytes.ofBytes digest) r s R →
      (secp256k1N ≤ curve.x R → ∀ bit key, curve.recover secp256k1N (Bytes.ofBytes digest) r (reflected s) bit = some key →
        addressOf key = addressOf own → key = own) →
      ((∃ signature, signDigest curve addressOf (addressOf own) digest (derSignature r s) = .ok signature) ↔
        curve.x R < secp256k1N ∧ ∀ P, curve.lift r false = some P →
          (reflected s : ZMod secp256k1N) • P ≠ (Bytes.ofBytes digest : ZMod secp256k1N) • curve.base)) ∧
    ∀ r s, 0 < r → r < 2 ^ 256 → 0 < s → s < 2 ^ 256 → decodeDerSignature (derSignature r s) = .ok (r, s) := by
  refine ⟨?_, ?_, ?_⟩
  · intro digest der signature h
    exact signDigest_ok h
  · intro digest r s R hdigest hr hr' hs hs' hnonce hcandidates
    by_cases hx : curve.x R < secp256k1N
    · rw [signDigest_isOk hdigest hown hr hr' hs hs' hnonce hx, and_iff_right hx]
    · refine iff_of_false ?_ fun h => hx h.1
      intro h
      obtain ⟨signature, hok⟩ := h
      obtain ⟨bit, key, hkey, haddress⟩ := signDigest_recovers hdigest hr hr' hs hs' hok
      rw [hcandidates (not_lt.mp hx) bit key hkey haddress] at hkey
      exact recover_ne_own hr hr' hs hs' hnonce (not_lt.mp hx) hkey
  · intro r s hr hr' hs hs'
    exact decode_derSignature hr hr' hs hs'

end

/-! ## A group with coordinates -/

def baseX : Nat := 0x79be667ef9dcbbac55a06295ce870b07029bfcdb2dce28d959f2815b16f81798

theorem baseX_bounds : 0 < baseX ∧ baseX ≤ secp256k1HalfN := by
  unfold baseX secp256k1HalfN secp256k1N
  rw [Nat.shiftRight_eq_div_pow]
  norm_num

def magnitude (k : ZMod secp256k1N) : Nat := if k.val ≤ secp256k1HalfN then k.val else secp256k1N - k.val

theorem magnitude_le (k : ZMod secp256k1N) : magnitude k ≤ secp256k1HalfN := by
  have hN := secp256k1N_eq
  have hlt := ZMod.val_lt k
  unfold magnitude
  split <;> omega

theorem magnitude_pos {k : ZMod secp256k1N} (hk : k ≠ 0) : 0 < magnitude k := by
  have hlt := ZMod.val_lt k
  have hpos : 0 < k.val := Nat.pos_of_ne_zero (mt (ZMod.val_eq_zero k).mp hk)
  unfold magnitude
  split <;> omega

theorem val_eq_magnitude (k : ZMod secp256k1N) :
    k.val = if secp256k1HalfN < k.val then secp256k1N - magnitude k else magnitude k := by
  have hlt := ZMod.val_lt k
  unfold magnitude
  split <;> split <;> omega

theorem val_ofSign {m : Nat} (hpos : 0 < m) (hle : m ≤ secp256k1HalfN) (b : Bool) :
    (if b then -(m : ZMod secp256k1N) else m).val = if b then secp256k1N - m else m := by
  have hN := secp256k1N_eq
  have hval : (m : ZMod secp256k1N).val = m := ZMod.val_natCast_of_lt (by omega)
  cases b with
  | false => exact hval
  | true =>
    show (-(m : ZMod secp256k1N)).val = secp256k1N - m
    rw [ZMod.neg_val, if_neg ?_, hval]
    intro hzero
    rw [hzero, ZMod.val_zero] at hval
    omega

theorem magnitude_ofSign {m : Nat} (hpos : 0 < m) (hle : m ≤ secp256k1HalfN) (b : Bool) :
    magnitude (if b then -(m : ZMod secp256k1N) else m) = m ∧
      decide (secp256k1HalfN < (if b then -(m : ZMod secp256k1N) else m).val) = b := by
  have hN := secp256k1N_eq
  have hval := val_ofSign hpos hle b
  unfold magnitude
  rw [hval]
  cases b with
  | false =>
    refine ⟨if_pos hle, ?_⟩
    exact decide_eq_false (not_lt.mpr hle)
  | true =>
    have hhigh : secp256k1HalfN < secp256k1N - m := by omega
    refine ⟨?_, decide_eq_true hhigh⟩
    show (if secp256k1N - m ≤ secp256k1HalfN then secp256k1N - m else secp256k1N - (secp256k1N - m)) = m
    rw [if_neg (not_le.mpr hhigh)]
    omega

/-- The group has one element of each sign and magnitude. -/
theorem eq_ofSign (k : ZMod secp256k1N) :
    k = if decide (secp256k1HalfN < k.val) then -(magnitude k : ZMod secp256k1N) else magnitude k := by
  have hcast : ((k.val : Nat) : ZMod secp256k1N) = k := ZMod.natCast_zmod_val k
  have hval := val_eq_magnitude k
  by_cases hhigh : secp256k1HalfN < k.val
  · have hle : magnitude k ≤ secp256k1N := by
      have hN := secp256k1N_eq
      have hlow := magnitude_le k
      omega
    rw [if_pos hhigh] at hval
    rw [decide_eq_true hhigh, if_pos rfl]
    calc k = (k.val : ZMod secp256k1N) := hcast.symm
      _ = (secp256k1N - magnitude k : Nat) := congrArg Nat.cast hval
      _ = -(magnitude k : ZMod secp256k1N) := by
        rw [Nat.cast_sub hle, ZMod.natCast_self, zero_sub]
  · rw [if_neg hhigh] at hval
    rw [decide_eq_false hhigh, if_neg Bool.false_ne_true, ← hval, hcast]

theorem neg_eq_ofSign {k : ZMod secp256k1N} (hk : k ≠ 0) :
    magnitude (-k) = magnitude k ∧
      decide (secp256k1HalfN < (-k).val) = !decide (secp256k1HalfN < k.val) := by
  have hneg : -k = if !decide (secp256k1HalfN < k.val) then -(magnitude k : ZMod secp256k1N) else magnitude k := by
    conv_lhs => rw [eq_ofSign k]
    cases decide (secp256k1HalfN < k.val) with
    | false => rfl
    | true => exact neg_neg _
  have hsign := magnitude_ofSign (magnitude_pos hk) (magnitude_le k) (!decide (secp256k1HalfN < k.val))
  rw [← hneg] at hsign
  exact hsign

def coordinate : Equiv.Perm Nat := Equiv.swap 1 baseX

def liftNumber (r : Nat) (b : Bool) : Option (ZMod secp256k1N) :=
  let m := coordinate r
  if 0 < m ∧ m ≤ secp256k1HalfN then some (if b then -(m : ZMod secp256k1N) else m) else none

theorem liftNumber_eq_some {r : Nat} {b : Bool} {R : ZMod secp256k1N} :
    liftNumber r b = some R ↔ R ≠ 0 ∧ coordinate (magnitude R) = r ∧ decide (secp256k1HalfN < R.val) = b := by
  have hback : ∀ m, coordinate (coordinate m) = m := Equiv.swap_apply_self 1 baseX
  unfold liftNumber
  dsimp only
  rw [Option.ite_none_right_eq_some, Option.some.injEq]
  constructor
  · rintro ⟨⟨hpos, hle⟩, rfl⟩
    obtain ⟨hmagnitude, hsign⟩ := magnitude_ofSign hpos hle b
    refine ⟨?_, ?_, hsign⟩
    · intro hzero
      rw [hzero] at hmagnitude
      have hnone : magnitude 0 = 0 := by
        unfold magnitude
        rw [ZMod.val_zero, if_pos (Nat.zero_le _)]
      omega
    · rw [hmagnitude]
      exact hback r
  · rintro ⟨hR, rfl, rfl⟩
    rw [hback]
    exact ⟨⟨magnitude_pos hR, magnitude_le R⟩, (eq_ofSign R).symm⟩

theorem coordinate_neg (k : ZMod secp256k1N) : coordinate (magnitude (-k)) = coordinate (magnitude k) := by
  by_cases hk : k = 0
  · rw [hk, neg_zero]
  · rw [(neg_eq_ofSign hk).1]

def numbers : Curve (ZMod secp256k1N) where
  base := 1
  x k := coordinate (magnitude k)
  odd k := decide (secp256k1HalfN < k.val)
  lift := liftNumber
  lift_eq_some := liftNumber_eq_some
  x_neg := coordinate_neg
  odd_neg hk := (neg_eq_ofSign hk).2

theorem lift_baseX : numbers.lift baseX false = some 1 := by
  have hone : coordinate baseX = 1 := Equiv.swap_apply_right 1 baseX
  have hle : 1 ≤ secp256k1HalfN := baseX_bounds.1.trans_le baseX_bounds.2
  show liftNumber baseX false = some 1
  unfold liftNumber
  rw [hone]
  dsimp only
  rw [if_pos ⟨Nat.one_pos, hle⟩, Nat.cast_one]
  rfl

theorem x_one : numbers.x 1 = baseX := (numbers.lift_eq_some.mp lift_baseX).2.1

/-- A digest and a signature of it by minus the base point. -/
theorem kms_signatures_canonical_sample :
    ∃ signature, signDigest numbers id (-1) (Bytes.beBytes 32 (2 * baseX)) (derSignature baseX baseX) =
      .ok signature := by
  have hN := secp256k1N_eq
  have hN' := secp256k1N_lt
  obtain ⟨hpos, hle⟩ := baseX_bounds
  have hlt : baseX < secp256k1N := by omega
  have hbytes : Bytes.ofBytes (Bytes.beBytes 32 (2 * baseX)) = 2 * baseX := Bytes.ofBytes_beBytes 32 _ (by omega)
  have hbase : numbers.base = 1 := rfl
  obtain ⟨hne, -, -⟩ := numbers.lift_eq_some.mp lift_baseX
  refine ((kms_signatures_canonical numbers id (-1) (neg_ne_zero.mpr hne)).2.1 _ baseX baseX 1
    (Bytes.length_beBytes _ _) hpos hlt hpos hlt ⟨hne, ?_, ?_⟩ (fun _ _ _ _ hkey => hkey)).mpr ⟨?_, ?_⟩
  · rw [x_one, Nat.mod_eq_of_lt hlt]
  · rw [hbytes, hbase, smul_eq_mul, smul_eq_mul, smul_eq_mul, Nat.cast_mul, Nat.cast_ofNat]
    ring
  · rw [x_one]
    exact hlt
  · intro P hP hinfinity
    rw [lift_baseX, Option.some.injEq] at hP
    subst hP
    rw [hbytes, hbase, reflected, if_neg (not_lt.mpr hle), smul_eq_mul, smul_eq_mul, Nat.cast_mul, Nat.cast_ofNat,
      mul_one, mul_one, two_mul, left_eq_add] at hinfinity
    exact Curve.natCast_ne_zero hpos hlt hinfinity

/-- The key is minus twice the base point, and the nonce minus one: the first candidate is no key. -/
theorem kms_signature_thrown_on :
    ¬ ∀ (own : ZMod secp256k1N) (digest : List UInt8) (r s : Nat), own ≠ 0 → digest.length = 32 → 0 < r →
      r < secp256k1N → 0 < s → s < secp256k1N → numbers.Signs secp256k1N own (Bytes.ofBytes digest) r s →
      ∃ signature, signDigest numbers id own digest (derSignature r s) = .ok signature := by
  intro hall
  have hN := secp256k1N_eq
  have hN' := secp256k1N_lt
  obtain ⟨hpos, hle⟩ := baseX_bounds
  have hlt : baseX < secp256k1N := by omega
  have hown : (-2 : ZMod secp256k1N) ≠ 0 := by
    have htwo : ((2 : Nat) : ZMod secp256k1N) ≠ 0 := Curve.natCast_ne_zero Nat.two_pos (by omega)
    exact neg_ne_zero.mpr htwo
  have hbytes : Bytes.ofBytes (Bytes.beBytes 32 baseX) = baseX := Bytes.ofBytes_beBytes 32 _ (by omega)
  have hbase : numbers.base = 1 := rfl
  obtain ⟨hne, -, -⟩ := numbers.lift_eq_some.mp lift_baseX
  have hx : numbers.x (-1) = baseX := (numbers.x_neg 1).trans x_one
  have hnonce : numbers.Nonce secp256k1N (-2) (Bytes.ofBytes (Bytes.beBytes 32 baseX)) baseX baseX (-1) := by
    refine ⟨neg_ne_zero.mpr hne, ?_, ?_⟩
    · rw [hx, Nat.mod_eq_of_lt hlt]
    · rw [hbytes, hbase, smul_eq_mul, smul_eq_mul, smul_eq_mul]
      ring
  have hok := hall (-2) (Bytes.beBytes 32 baseX) baseX baseX hown (Bytes.length_beBytes _ _) hpos hlt hpos hlt ⟨-1, hnonce⟩
  rw [← id_eq (-2 : ZMod secp256k1N),
    signDigest_isOk (Bytes.length_beBytes _ _) hown hpos hlt hpos hlt hnonce (by rw [hx]; exact hlt)] at hok
  refine hok 1 lift_baseX ?_
  rw [hbytes, hbase, reflected, if_neg (not_lt.mpr hle)]

end Paymaster
