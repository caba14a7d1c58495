import Paymaster.Backend.PolicyFactory
import Paymaster.Lib.Utf8

/-!
# JSON texts

`JSON.parse`, and of `JSON.stringify` what the service writes: strings, integers,
arrays and objects. A string is read as code units of UTF-16. What is written is
read back, whatever stands around it.
-/

namespace Paymaster

namespace Json

/-! ## Code units -/

def unitsOf (c : Char) : List Nat :=
  if c.toNat < 0x10000 then [c.toNat]
  else [0xD800 + (c.toNat - 0x10000) / 0x400, 0xDC00 + (c.toNat - 0x10000) % 0x400]

def isHigh (u : Nat) : Bool := 0xD800 ≤ u && u < 0xDC00

def isLow (u : Nat) : Bool := 0xDC00 ≤ u && u < 0xE000

/-- A lone surrogate has no character, and is read as U+FFFD. -/
def ofUnit (u : Nat) : Char := if isHigh u || isLow u then Utf8.replacement else Char.ofNat u

def ofUnits : List Nat → List Char
  | h :: l :: rest =>
    if isHigh h && isLow l then Char.ofNat (0x10000 + (h - 0xD800) * 0x400 + (l - 0xDC00)) :: ofUnits rest
    else ofUnit h :: ofUnits (l :: rest)
  | [u] => [ofUnit u]
  | [] => []

/-! ## Parsing -/

def isSpace (c : Char) : Bool := c = ' ' || c = '\t' || c = '\n' || c = '\r'

def skipSpace (text : List Char) : List Char := text.dropWhile isSpace

def expect (c : Char) (text : List Char) : Option (List Char) :=
  match skipSpace text with
  | d :: rest => if d = c then some rest else none
  | [] => none

def escape? : Char → Option Nat
  | '"' => some 0x22
  | '\\' => some 0x5C
  | '/' => some 0x2F
  | 'b' => some 0x08
  | 'f' => some 0x0C
  | 'n' => some 0x0A
  | 'r' => some 0x0D
  | 't' => some 0x09
  | _ => none

def readUnits : List Char → Option (List Nat × List Char)
  | '"' :: rest => some ([], rest)
  | '\\' :: 'u' :: a :: b :: c :: d :: rest => do
    let u ← Numeral.read 16 [a, b, c, d]
    let (units, rest) ← readUnits rest
    some (u :: units, rest)
  | '\\' :: e :: rest => do
    let u ← escape? e
    let (units, rest) ← readUnits rest
    some (u :: units, rest)
  | c :: rest =>
    if c = '\\' ∨ c.toNat < 0x20 then none
    else do
      let (units, rest) ← readUnits rest
      some (unitsOf c ++ units, rest)
  | [] => none

def readString (text : List Char) : Option (String × List Char) := do
  let (units, rest) ← readUnits text
  some (String.ofList (ofUnits units), rest)

def readDigits (text : List Char) : Option (List Char × List Char) :=
  let digits := text.takeWhile Char.isDigit
  if digits = [] then none else some (digits, text.dropWhile Char.isDigit)

def readInteger (text : List Char) : Option (ℚ × List Char) := do
  let (digits, rest) ← readDigits text
  if digits.head? = some '0' ∧ digits ≠ ['0'] then none
  else do
    let n ← Numeral.read 10 digits
    some ((n : ℚ), rest)

def readFraction : List Char → Option (ℚ × List Char)
  | '.' :: text => do
    let (digits, rest) ← readDigits text
    let n ← Numeral.read 10 digits
    some ((n : ℚ) / 10 ^ digits.length, rest)
  | text => some (0, text)

def readSignedDigits (text : List Char) : Option (ℤ × List Char) := do
  let (sign, text) : ℤ × List Char :=
    match text with
    | '-' :: rest => (-1, rest)
    | '+' :: rest => (1, rest)
    | _ => (1, text)
  let (digits, rest) ← readDigits text
  let n ← Numeral.read 10 digits
  some (sign * n, rest)

def readExponent : List Char → Option (ℤ × List Char)
  | 'e' :: text | 'E' :: text => readSignedDigits text
  | text => some (0, text)

def readUnsigned (text : List Char) : Option (ℚ × List Char) := do
  let (integer, text) ← readInteger text
  let (fraction, text) ← readFraction text
  let (exponent, rest) ← readExponent text
  some ((integer + fraction) * 10 ^ exponent, rest)

def readNumber : List Char → Option (ℚ × List Char)
  | '-' :: text => do
    let (x, rest) ← readUnsigned text
    some (-x, rest)
  | text => readUnsigned text

def readScalar : List Char → Option (Json × List Char)
  | 'n' :: 'u' :: 'l' :: 'l' :: rest => some (.null, rest)
  | 't' :: 'r' :: 'u' :: 'e' :: rest => some (.bool true, rest)
  | 'f' :: 'a' :: 'l' :: 's' :: 'e' :: rest => some (.bool false, rest)
  | text => do
    let (x, rest) ← readNumber text
    some (.num x, rest)

mutual

/-- A value, to a depth that the length of the text bounds. -/
def readValue : Nat → List Char → Option (Json × List Char)
  | 0, _ => none
  | depth + 1, text =>
    match skipSpace text with
    | '"' :: rest => do
      let (s, rest) ← readString rest
      some (.str s, rest)
    | '[' :: rest =>
      match expect ']' rest with
      | some rest => some (.arr [], rest)
      | none => do
        let (items, rest) ← readItems depth rest
        some (.arr items, rest)
    | '{' :: rest =>
      match expect '}' rest with
      | some rest => some (.obj [], rest)
      | none => do
        let (properties, rest) ← readProperties depth rest
        some (.obj properties, rest)
    | text => readScalar text

def readItems : Nat → List Char → Option (List Json × List Char)
  | 0, _ => none
  | depth + 1, text => do
    let (item, rest) ← readValue depth text
    match expect ',' rest with
    | some rest => do
      let (items, rest) ← readItems depth rest
      some (item :: items, rest)
    | none => do
      let rest ← expect ']' rest
      some ([item], rest)

def readProperties : Nat → List Char → Option (List (String × Json) × List Char)
  | 0, _ => none
  | depth + 1, text => do
    let rest ← expect '"' text
    let (key, rest) ← readString rest
    let rest ← expect ':' rest
    let (value, rest) ← readValue depth rest
    match expect ',' rest with
    | some rest => do
      let (properties, rest) ← readProperties depth rest
      some ((key, value) :: properties, rest)
    | none => do
      let rest ← expect '}' rest
      some ([(key, value)], rest)

end

/-- `JSON.parse`; it throws on `none`. -/
def parse (text : List Char) : Option Json := do
  let (value, rest) ← readValue (2 * text.length + 1) text
  if skipSpace rest = [] then some value else none

/-! ## What is in a value -/

/-- Of two properties of one name, `JSON.parse` keeps the last. An item of an array
has no such name. -/
def property (key : String) : Json → Option Json
  | .obj properties => properties.reverse.lookup key
  | _ => none

def string? : Json → Option String
  | .str s => some s
  | _ => none

def number? : Json → Option ℚ
  | .num x => some x
  | _ => none

def items? : Json → Option (List Json)
  | .arr items => some items
  | _ => none

def isObject : Json → Bool
  | .obj _ | .arr _ => true
  | _ => false

/-! ## Writing -/

def hexDigits (n : Nat) : List Char := [(n / 16).digitChar, (n % 16).digitChar]

def quoteChar (c : Char) : List Char :=
  if c = '"' then ['\\', '"']
  else if c = '\\' then ['\\', '\\']
  else if c.toNat = 0x08 then ['\\', 'b']
  else if c.toNat = 0x09 then ['\\', 't']
  else if c.toNat = 0x0A then ['\\', 'n']
  else if c.toNat = 0x0C then ['\\', 'f']
  else if c.toNat = 0x0D then ['\\', 'r']
  else if c.toNat < 0x20 then ['\\', 'u', '0', '0'] ++ hexDigits c.toNat
  else [c]

def quote (s : String) : List Char := '"' :: (s.toList.flatMap quoteChar ++ ['"'])

def writeInteger : ℤ → List Char
  | .ofNat n => Nat.toDigits 10 n
  | .negSucc n => '-' :: Nat.toDigits 10 (n + 1)

def writeArray (items : List (List Char)) : List Char := '[' :: ([','].intercalate items ++ [']'])

def writeProperty (property : String × List Char) : List Char := quote property.1 ++ ':' :: property.2

def writeObject (properties : List (String × List Char)) : List Char :=
  '{' :: ([','].intercalate (properties.map writeProperty) ++ ['}'])

/-! ## Strings -/

section

variable {u h l : Nat} {c : Char} {units rest : List Nat}

theorem ofUnits_cons (hu : isHigh u = false) : ofUnits (u :: rest) = ofUnit u :: ofUnits rest := by
  cases rest with
  | nil => rfl
  | cons l rest =>
    rw [ofUnits, hu]
    rfl

theorem ofUnits_pair (hh : isHigh h = true) (hl : isLow l = true) :
    ofUnits (h :: l :: rest) = Char.ofNat (0x10000 + (h - 0xD800) * 0x400 + (l - 0xDC00)) :: ofUnits rest := by
  rw [ofUnits, hh, hl]
  rfl

/-- No character is a surrogate. -/
theorem toNat_cases (c : Char) : c.toNat < 0xD800 ∨ 0xE000 ≤ c.toNat ∧ c.toNat < 0x110000 := by
  have hvalid : c.toNat < 0xD800 ∨ 0xDFFF < c.toNat ∧ c.toNat < 0x110000 := c.valid
  omega

theorem ofUnits_unitsOf_append : ofUnits (unitsOf c ++ rest) = c :: ofUnits rest := by
  have hcases := toNat_cases c
  unfold unitsOf
  split
  · rename_i hbasic
    have hhigh : isHigh c.toNat = false := by
      simp only [isHigh, Bool.and_eq_false_iff, decide_eq_false_iff_not]
      omega
    have hlow : isLow c.toNat = false := by
      simp only [isLow, Bool.and_eq_false_iff, decide_eq_false_iff_not]
      omega
    rw [List.singleton_append, ofUnits_cons hhigh, ofUnit, hhigh, hlow]
    exact congrArg (· :: ofUnits rest) (Char.ofNat_toNat c)
  · rename_i hpair
    have hhigh : isHigh (0xD800 + (c.toNat - 0x10000) / 0x400) = true := by
      simp only [isHigh, Bool.and_eq_true, decide_eq_true_eq]
      omega
    have hlow : isLow (0xDC00 + (c.toNat - 0x10000) % 0x400) = true := by
      simp only [isLow, Bool.and_eq_true, decide_eq_true_eq]
      omega
    have hvalue : 0x10000 + (0xD800 + (c.toNat - 0x10000) / 0x400 - 0xD800) * 0x400 +
        (0xDC00 + (c.toNat - 0x10000) % 0x400 - 0xDC00) = c.toNat := by
      omega
    rw [List.cons_append, List.singleton_append, ofUnits_pair hhigh hlow, hvalue, Char.ofNat_toNat]

theorem ofUnits_flatMap (text : List Char) : ofUnits (text.flatMap unitsOf) = text := by
  induction text with
  | nil => rfl
  | cons c text ih => rw [List.flatMap_cons, ofUnits_unitsOf_append, ih]

end

section

variable {c : Char} {text rest : List Char}

def prepend (units : List Nat) (read : List Nat × List Char) : List Nat × List Char := (units ++ read.1, read.2)

theorem readUnits_escape {e : Char} {u : Nat} (hu : e ≠ 'u') (he : escape? e = some u) :
    readUnits ('\\' :: e :: text) = (readUnits text).map (prepend [u]) := by
  rw [readUnits.eq_3 _ _ fun _ _ _ _ _ h _ => hu h, he]
  cases readUnits text <;> rfl

theorem readUnits_plain (hquote : c ≠ '"') (hescape : c ≠ '\\') (hcontrol : ¬ c.toNat < 0x20) :
    readUnits (c :: text) = (readUnits text).map (prepend (unitsOf c)) := by
  rw [readUnits.eq_4 _ _ hquote (fun _ _ _ _ _ h _ => hescape h) (fun _ _ h _ => hescape h),
    if_neg (not_or.mpr ⟨hescape, hcontrol⟩)]
  cases readUnits text <;> rfl

theorem unitsOf_eq {u : Nat} (hu : c.toNat = u) (hlt : u < 0x10000) : unitsOf c = [u] := by
  unfold unitsOf
  rw [hu, if_pos hlt]

theorem readUnits_quoteChar : readUnits (quoteChar c ++ text) = (readUnits text).map (prepend (unitsOf c)) := by
  unfold quoteChar
  split
  · rename_i hc
    subst hc
    exact readUnits_escape (by decide) rfl
  split
  · rename_i hc
    subst hc
    exact readUnits_escape (by decide) rfl
  split
  · rename_i hc
    rw [unitsOf_eq hc (by decide)]
    exact readUnits_escape (by decide) rfl
  split
  · rename_i hc
    rw [unitsOf_eq hc (by decide)]
    exact readUnits_escape (by decide) rfl
  split
  · rename_i hc
    rw [unitsOf_eq hc (by decide)]
    exact readUnits_escape (by decide) rfl
  split
  · rename_i hc
    rw [unitsOf_eq hc (by decide)]
    exact readUnits_escape (by decide) rfl
  split
  · rename_i hc
    rw [unitsOf_eq hc (by decide)]
    exact readUnits_escape (by decide) rfl
  split
  · rename_i hc
    have hall : ∀ n < 0x20, Numeral.read 16 ('0' :: '0' :: hexDigits n) = some n := by decide
    have hread := hall c.toNat hc
    unfold hexDigits at hread ⊢
    rw [unitsOf_eq rfl (by omega), List.append_assoc, List.cons_append, List.cons_append, List.cons_append,
      List.cons_append, List.nil_append, List.cons_append, List.cons_append, List.nil_append, readUnits.eq_2, hread]
    cases readUnits text <;> rfl
  · rename_i hquote hescape _ _ _ _ _ hcontrol
    exact readUnits_plain hquote hescape hcontrol

theorem readUnits_quoted (text : List Char) :
    readUnits (text.flatMap quoteChar ++ '"' :: rest) = some (text.flatMap unitsOf, rest) := by
  induction text with
  | nil => exact readUnits.eq_1 rest
  | cons c text ih =>
    rw [List.flatMap_cons, List.append_assoc, readUnits_quoteChar, ih]
    rfl

theorem readString_quoted (s : String) : readString (s.toList.flatMap quoteChar ++ '"' :: rest) = some (s, rest) := by
  unfold readString
  rw [readUnits_quoted, Option.bind_eq_bind, Option.bind_some]
  dsimp only
  rw [ofUnits_flatMap, String.ofList_toList]

end

/-! ## Numbers -/

def Follows (rest : List Char) : Prop := ∀ c ∈ rest.head?, c = ',' ∨ c = ']' ∨ c = '}'

section

variable {rest : List Char} {n : Nat}

theorem Follows.head {c : Char} (h : Follows rest) (hc : c ≠ ',' ∧ c ≠ ']' ∧ c ≠ '}') : rest.head? ≠ some c := by
  intro hhead
  rcases h c hhead with rfl | rfl | rfl
  · exact hc.1 rfl
  · exact hc.2.1 rfl
  · exact hc.2.2 rfl

theorem head?_toDigits (n : Nat) : (Nat.toDigits 10 n).head? = some '0' → n = 0 := by
  induction n using Nat.strongRecOn with
  | ind n ih =>
    by_cases hn : n < 10
    · have hall : ∀ n < 10, (Nat.toDigits 10 n).head? = some '0' → n = 0 := by decide
      exact hall n hn
    · intro hhead
      have hne : Nat.toDigits 10 (n / 10) ≠ [] := Nat.toDigits_ne_nil
      rw [Nat.toDigits_of_base_le (by decide) (Nat.not_lt.mp hn), List.head?_append_of_ne_nil _ hne] at hhead
      have := ih (n / 10) (Nat.div_lt_self (by omega) (by decide)) hhead
      omega

theorem readDigits_toDigits (h : Follows rest) :
    readDigits (Nat.toDigits 10 n ++ rest) = some (Nat.toDigits 10 n, rest) := by
  have hdigits : ∀ c ∈ Nat.toDigits 10 n, c.isDigit = true := fun c hc => Nat.isDigit_of_mem_toDigits (by decide) (by decide) hc
  have hnone : rest.takeWhile Char.isDigit = [] ∧ rest.dropWhile Char.isDigit = rest := by
    cases rest with
    | nil => exact ⟨rfl, rfl⟩
    | cons c rest =>
      have hc : c.isDigit = false := by
        rcases h c rfl with rfl | rfl | rfl <;> rfl
      constructor
      · rw [List.takeWhile_cons_of_neg (by rw [hc]; decide)]
      · rw [List.dropWhile_cons_of_neg (by rw [hc]; decide)]
  unfold readDigits
  rw [List.takeWhile_append_of_pos hdigits, List.dropWhile_append_of_pos hdigits, hnone.1, hnone.2, List.append_nil,
    if_neg Nat.toDigits_ne_nil]

theorem readFraction_of_follows (h : Follows rest) : readFraction rest = some (0, rest) := by
  rw [readFraction.eq_2]
  rintro text rfl
  exact h.head (by decide) rfl

theorem readExponent_of_follows (h : Follows rest) : readExponent rest = some (0, rest) := by
  rw [readExponent.eq_3]
  · rintro text rfl
    exact h.head (by decide) rfl
  · rintro text rfl
    exact h.head (by decide) rfl

theorem readUnsigned_toDigits (h : Follows rest) :
    readUnsigned (Nat.toDigits 10 n ++ rest) = some ((n : ℚ), rest) := by
  have hinteger : readInteger (Nat.toDigits 10 n ++ rest) = some ((n : ℚ), rest) := by
    have hzero : ¬ ((Nat.toDigits 10 n).head? = some '0' ∧ Nat.toDigits 10 n ≠ ['0']) := by
      rintro ⟨hhead, hne⟩
      obtain rfl := head?_toDigits n hhead
      exact hne rfl
    unfold readInteger
    rw [readDigits_toDigits h, Option.bind_eq_bind, Option.bind_some]
    dsimp only
    rw [if_neg hzero, Numeral.read_toDigits (by decide) (by decide)]
    rfl
  unfold readUnsigned
  rw [hinteger, Option.bind_eq_bind, Option.bind_some]
  dsimp only
  rw [readFraction_of_follows h, Option.bind_eq_bind, Option.bind_some]
  dsimp only
  rw [readExponent_of_follows h, Option.bind_some]
  dsimp only
  rw [add_zero, zpow_zero, mul_one]

theorem readNumber_writeInteger (z : ℤ) (h : Follows rest) :
    readNumber (writeInteger z ++ rest) = some ((z : ℚ), rest) := by
  cases z with
  | ofNat n =>
    have hminus : ∀ text, Nat.toDigits 10 n ++ rest ≠ '-' :: text := by
      intro text heq
      obtain ⟨c, ds, hds⟩ := List.exists_cons_of_ne_nil (Nat.toDigits_ne_nil (n := n) (b := 10))
      have hdigit : c.isDigit = true :=
        Nat.isDigit_of_mem_toDigits (by decide) (by decide) (hds ▸ List.mem_cons_self)
      rw [hds, List.cons_append] at heq
      obtain ⟨rfl, -⟩ := List.cons.inj heq
      exact absurd hdigit (by decide)
    unfold writeInteger
    rw [readNumber.eq_2 _ hminus, readUnsigned_toDigits h]
    rfl
  | negSucc n =>
    unfold writeInteger
    rw [List.cons_append, readNumber.eq_1, readUnsigned_toDigits h]
    simp only [Option.bind_eq_bind, Option.bind_some, Int.cast_negSucc]

end

/-! ## Values -/

/-- A text of a value: it is read wherever a value may stand. -/
structure Reads (text : List Char) (value : Json) : Prop where
  starts : ∃ c rest, text = c :: rest ∧ isSpace c = false ∧ c ≠ ']'
  reads : ∀ depth rest, text.length ≤ depth → Follows rest → readValue depth (text ++ rest) = some (value, rest)

section

variable {c : Char} {text rest : List Char} {value : Json} {depth : Nat}

theorem skipSpace_cons (hc : isSpace c = false) : skipSpace (c :: rest) = c :: rest := by
  unfold skipSpace
  rw [List.dropWhile_cons_of_neg (by rw [hc]; decide)]

theorem expect_self (hc : isSpace c = false) : expect c (c :: rest) = some rest := by
  unfold expect
  rw [skipSpace_cons hc]
  exact if_pos rfl

theorem expect_ne {d : Char} (hc : isSpace c = false) (hd : c ≠ d) : expect d (c :: rest) = none := by
  unfold expect
  rw [skipSpace_cons hc]
  exact if_neg hd

theorem depth_eq_succ (h : (c :: text).length ≤ depth) : ∃ d, depth = d + 1 ∧ text.length ≤ d := by
  rw [List.length_cons] at h
  exact ⟨depth - 1, by omega, by omega⟩

theorem readValue_scalar (hspace : isSpace c = false) (hc : c ≠ '"' ∧ c ≠ '[' ∧ c ≠ '{') :
    readValue (depth + 1) (c :: text) = readScalar (c :: text) := by
  rw [readValue, skipSpace_cons hspace]
  split
  · rename_i heq
    exact absurd (List.cons.inj heq).1 hc.1
  · rename_i heq
    exact absurd (List.cons.inj heq).1 hc.2.1
  · rename_i heq
    exact absurd (List.cons.inj heq).1 hc.2.2
  · rfl

theorem readValue_string :
    readValue (depth + 1) ('"' :: rest) = (readString rest).map fun read => (.str read.1, read.2) := by
  rw [readValue, skipSpace_cons rfl]
  cases hread : readString rest <;> simp [hread]

theorem readValue_array (h : expect ']' rest = none) :
    readValue (depth + 1) ('[' :: rest) = (readItems depth rest).map fun read => (.arr read.1, read.2) := by
  rw [readValue, skipSpace_cons rfl]
  cases hread : readItems depth rest <;> simp [h, hread]

theorem readValue_object (h : expect '}' rest = none) :
    readValue (depth + 1) ('{' :: rest) = (readProperties depth rest).map fun read => (.obj read.1, read.2) := by
  rw [readValue, skipSpace_cons rfl]
  cases hread : readProperties depth rest <;> simp [h, hread]

theorem readScalar_number (hc : c ≠ 'n' ∧ c ≠ 't' ∧ c ≠ 'f') :
    readScalar (c :: text) = (readNumber (c :: text)).map fun read => (.num read.1, read.2) := by
  rw [readScalar.eq_4]
  · cases readNumber (c :: text) <;> rfl
  · intro rest heq
    exact hc.1 (List.cons.inj heq).1
  · intro rest heq
    exact hc.2.1 (List.cons.inj heq).1
  · intro rest heq
    exact hc.2.2 (List.cons.inj heq).1

theorem reads_quote (s : String) : Reads (quote s) (.str s) := by
  refine ⟨⟨'"', _, rfl, rfl, by decide⟩, fun depth rest hdepth _ => ?_⟩
  obtain ⟨depth, rfl, -⟩ := depth_eq_succ hdepth
  unfold quote
  rw [List.cons_append, List.append_assoc, List.singleton_append, readValue_string, readString_quoted]
  rfl

theorem isSpace_of_isDigit (hc : c.isDigit = true) : isSpace c = false := by
  cases hspace : isSpace c with
  | false => rfl
  | true =>
    simp only [isSpace, Bool.or_eq_true, decide_eq_true_eq] at hspace
    rcases hspace with ((rfl | rfl) | rfl) | rfl <;> revert hc <;> decide

theorem reads_writeInteger (z : ℤ) : Reads (writeInteger z) (.num z) := by
  have hdigit : ∀ n : Nat, ∃ c rest, Nat.toDigits 10 n = c :: rest ∧ c.isDigit = true := by
    intro n
    obtain ⟨c, rest, hrest⟩ := List.exists_cons_of_ne_nil (Nat.toDigits_ne_nil (n := n) (b := 10))
    exact ⟨c, rest, hrest, Nat.isDigit_of_mem_toDigits (by decide) (by decide) (hrest ▸ List.mem_cons_self)⟩
  have hstarts : ∃ c rest, writeInteger z = c :: rest ∧ (c.isDigit = true ∨ c = '-') := by
    cases z with
    | ofNat n =>
      obtain ⟨c, rest, hrest, hc⟩ := hdigit n
      exact ⟨c, rest, hrest, .inl hc⟩
    | negSucc n => exact ⟨'-', _, rfl, .inr rfl⟩
  obtain ⟨c, text, htext, hc⟩ := hstarts
  have hspace : isSpace c = false := by
    rcases hc with hc | rfl
    · exact isSpace_of_isDigit hc
    · rfl
  have hother : ∀ d, ¬ (d.isDigit = true ∨ d = '-') → c ≠ d := by
    rintro d hd rfl
    exact hd hc
  refine ⟨⟨c, text, htext, hspace, hother ']' (by decide)⟩, fun depth rest hdepth hrest => ?_⟩
  have hread := readNumber_writeInteger z hrest
  rw [htext] at hdepth hread ⊢
  obtain ⟨depth, rfl, -⟩ := depth_eq_succ hdepth
  rw [List.cons_append] at hread ⊢
  rw [readValue_scalar hspace ⟨hother '"' (by decide), hother '[' (by decide), hother '{' (by decide)⟩,
    readScalar_number ⟨hother 'n' (by decide), hother 't' (by decide), hother 'f' (by decide)⟩, hread]
  rfl

theorem follows_cons (hc : c = ',' ∨ c = ']' ∨ c = '}') : Follows (c :: rest) := by
  intro d hd
  obtain rfl := Option.some.inj hd
  exact hc

/-- By induction on the items, at a depth that goes down with them. -/
theorem readItems_intercalate {items : List (List Char)} {values : List Json} (hne : items ≠ [])
    (h : List.Forall₂ Reads items values) :
    ∀ depth, ([','].intercalate items).length < depth →
      readItems depth ([','].intercalate items ++ ']' :: rest) = some (values, rest) := by
  induction h with
  | nil => exact absurd rfl hne
  | @cons item value items values hitem hitems ih =>
    intro depth hdepth
    obtain ⟨depth, rfl⟩ : ∃ d, depth = d + 1 := ⟨depth - 1, by omega⟩
    cases hitems with
    | nil =>
      rw [List.intercalate_singleton] at hdepth ⊢
      rw [readItems, hitem.reads depth _ (by omega) (follows_cons (by simp)), Option.bind_eq_bind, Option.bind_some]
      dsimp only
      rw [expect_ne rfl (by decide)]
      dsimp only
      rw [expect_self rfl]
      rfl
    | @cons next value' items values' hnext hmore =>
      rw [List.intercalate_cons_cons, List.length_append, List.length_append, List.length_singleton] at hdepth
      have hrest := ih (List.cons_ne_nil _ _) depth (by omega)
      rw [List.intercalate_cons_cons, List.append_assoc, List.append_assoc, List.singleton_append, readItems,
        hitem.reads depth _ (by omega) (follows_cons (by simp)), Option.bind_eq_bind, Option.bind_some]
      dsimp only
      rw [expect_self rfl]
      dsimp only
      rw [hrest]
      rfl

theorem reads_writeArray {items : List (List Char)} {values : List Json} (h : List.Forall₂ Reads items values) :
    Reads (writeArray items) (.arr values) := by
  refine ⟨⟨'[', _, rfl, rfl, by decide⟩, fun depth rest hdepth _ => ?_⟩
  obtain ⟨depth, rfl, hlength⟩ := depth_eq_succ hdepth
  unfold writeArray
  rw [List.cons_append, List.append_assoc, List.singleton_append]
  cases h with
  | nil =>
    have hclosed : expect ']' (']' :: rest) = some rest := expect_self rfl
    rw [List.intercalate_nil, List.nil_append, readValue, skipSpace_cons rfl]
    simp [hclosed]
  | @cons item value items values hitem hitems =>
    have hnone : expect ']' ([','].intercalate (item :: items) ++ ']' :: rest) = none := by
      obtain ⟨c, text, rfl, hspace, hc⟩ := hitem.starts
      rw [List.intercalate_cons_cons_left, List.cons_append, expect_ne hspace hc]
    rw [List.length_append, List.length_singleton] at hlength
    rw [readValue_array hnone, readItems_intercalate (List.cons_ne_nil _ _) (.cons hitem hitems) depth (by omega)]
    rfl

def ReadsProperty (text : String × List Char) (property : String × Json) : Prop :=
  text.1 = property.1 ∧ Reads text.2 property.2

theorem readProperties_intercalate {texts : List (String × List Char)} {properties : List (String × Json)}
    (hne : texts ≠ []) (h : List.Forall₂ ReadsProperty texts properties) :
    ∀ depth, ([','].intercalate (texts.map writeProperty)).length < depth →
      readProperties depth ([','].intercalate (texts.map writeProperty) ++ '}' :: rest) = some (properties, rest) := by
  induction h with
  | nil => exact absurd rfl hne
  | @cons item property texts properties hitem hitems ih =>
    intro depth hdepth
    obtain ⟨depth, rfl⟩ : ∃ d, depth = d + 1 := ⟨depth - 1, by omega⟩
    obtain ⟨key, text⟩ := item
    obtain ⟨key', value⟩ := property
    obtain ⟨hkey, hvalue⟩ := hitem
    dsimp only at hkey hvalue
    subst hkey
    have hlength : text.length < (writeProperty (key, text)).length := by
      unfold writeProperty
      rw [List.length_append, List.length_cons]
      dsimp only
      omega
    have hquote : ∀ more, expect '"' (writeProperty (key, text) ++ more) =
        some (key.toList.flatMap quoteChar ++ '"' :: ':' :: (text ++ more)) := by
      intro more
      unfold writeProperty quote
      rw [List.cons_append, List.cons_append, expect_self rfl]
      simp only [List.append_assoc, List.cons_append, List.nil_append]
    cases hitems with
    | nil =>
      rw [List.map_singleton, List.intercalate_singleton] at hdepth ⊢
      rw [readProperties, hquote]
      simp only [Option.bind_eq_bind, Option.bind_some]
      rw [readString_quoted]
      simp only [Option.bind_some]
      rw [expect_self rfl]
      simp only [Option.bind_some]
      rw [hvalue.reads depth _ (by omega) (follows_cons (by simp))]
      simp only [Option.bind_some]
      rw [expect_ne rfl (by decide)]
      simp only
      rw [expect_self rfl]
      rfl
    | @cons next property' texts properties' hnext hmore =>
      rw [List.map_cons, List.map_cons, List.intercalate_cons_cons, List.length_append, List.length_append,
        List.length_singleton, ← List.map_cons] at hdepth
      have hrest := ih (List.cons_ne_nil _ _) depth (by omega)
      rw [List.map_cons, List.map_cons, List.intercalate_cons_cons, List.append_assoc, List.append_assoc,
        List.singleton_append, ← List.map_cons, readProperties, hquote]
      simp only [Option.bind_eq_bind, Option.bind_some]
      rw [readString_quoted]
      simp only [Option.bind_some]
      rw [expect_self rfl]
      simp only [Option.bind_some]
      rw [hvalue.reads depth _ (by omega) (follows_cons (by simp))]
      simp only [Option.bind_some]
      rw [expect_self rfl]
      simp only
      rw [hrest]
      rfl

theorem reads_writeObject {texts : List (String × List Char)} {properties : List (String × Json)}
    (h : List.Forall₂ ReadsProperty texts properties) : Reads (writeObject texts) (.obj properties) := by
  refine ⟨⟨'{', _, rfl, rfl, by decide⟩, fun depth rest hdepth _ => ?_⟩
  obtain ⟨depth, rfl, hlength⟩ := depth_eq_succ hdepth
  unfold writeObject
  rw [List.cons_append, List.append_assoc, List.singleton_append]
  cases h with
  | nil =>
    have hclosed : expect '}' ('}' :: rest) = some rest := expect_self rfl
    rw [List.map_nil, List.intercalate_nil, List.nil_append, readValue, skipSpace_cons rfl]
    simp [hclosed]
  | @cons text property texts properties htext htexts =>
    have hnone : expect '}' ([','].intercalate ((text :: texts).map writeProperty) ++ '}' :: rest) = none := by
      rw [List.map_cons]
      unfold writeProperty quote
      rw [List.cons_append, List.intercalate_cons_cons_left, List.cons_append, expect_ne rfl (by decide)]
    rw [List.length_append, List.length_singleton] at hlength
    rw [readValue_object hnone, readProperties_intercalate (List.cons_ne_nil _ _) (.cons htext htexts) depth (by omega)]
    rfl

/-- What is read wherever it stands is read when it stands alone. -/
theorem Reads.parse (h : Reads text value) : parse text = some value := by
  have hread := h.reads (2 * text.length + 1) [] (by omega) fun c hc => by cases hc
  rw [List.append_nil] at hread
  unfold Json.parse
  rw [hread, Option.bind_eq_bind, Option.bind_some]
  rfl

end

/-! ## The depth -/

section

variable {text rest : List Char} {depth : Nat}

theorem length_expect {c : Char} (h : expect c text = some rest) : rest.length < text.length := by
  have hle : (skipSpace text).length ≤ text.length := (List.dropWhile_sublist _).length_le
  unfold expect at h
  split at h
  · rename_i hskip
    split at h
    · cases h
      rw [hskip, List.length_cons] at hle
      exact hle
    · cases h
  · cases h

theorem length_readUnits {units : List Nat} (h : readUnits text = some (units, rest)) : rest.length < text.length := by
  induction text using readUnits.induct generalizing units rest with
  | case1 rest' =>
    rw [readUnits.eq_1] at h
    cases h
    exact Nat.lt_succ_self _
  | case2 a b c d rest' ih =>
    rw [readUnits.eq_2] at h
    simp only [Option.bind_eq_bind, Option.bind_eq_some_iff, Option.some.injEq, Prod.mk.injEq] at h
    obtain ⟨u, -, ⟨us, more⟩, hmore, -, rfl⟩ := h
    have := ih hmore
    simp only [List.length_cons]
    omega
  | case3 e rest' hu ih =>
    rw [readUnits.eq_3 _ _ hu] at h
    simp only [Option.bind_eq_bind, Option.bind_eq_some_iff, Option.some.injEq, Prod.mk.injEq] at h
    obtain ⟨u, -, ⟨us, more⟩, hmore, -, rfl⟩ := h
    have := ih hmore
    simp only [List.length_cons]
    omega
  | case4 c rest' hquote hunit hescape hbad =>
    rw [readUnits.eq_4 _ _ hquote hunit hescape, if_pos hbad] at h
    cases h
  | case5 c rest' hquote hunit hescape hgood ih =>
    rw [readUnits.eq_4 _ _ hquote hunit hescape, if_neg hgood] at h
    simp only [Option.bind_eq_bind, Option.bind_eq_some_iff, Option.some.injEq, Prod.mk.injEq] at h
    obtain ⟨⟨us, more⟩, hmore, -, rfl⟩ := h
    have := ih hmore
    simp only [List.length_cons]
    omega
  | case6 => cases h

theorem length_readString {s : String} (h : readString text = some (s, rest)) : rest.length < text.length := by
  unfold readString at h
  simp only [Option.bind_eq_bind, Option.bind_eq_some_iff, Option.some.injEq, Prod.mk.injEq] at h
  obtain ⟨⟨units, more⟩, hmore, -, rfl⟩ := h
  exact length_readUnits hmore

theorem length_readDigits {digits : List Char} (h : readDigits text = some (digits, rest)) :
    rest.length < text.length := by
  unfold readDigits at h
  dsimp only at h
  split at h
  · cases h
  · rename_i hne
    cases h
    have hsplit := congrArg List.length (List.takeWhile_append_dropWhile (p := Char.isDigit) (l := text))
    have hpos := List.length_pos_of_ne_nil hne
    rw [List.length_append] at hsplit
    omega

theorem length_readUnsigned {x : ℚ} (h : readUnsigned text = some (x, rest)) : rest.length < text.length := by
  unfold readUnsigned at h
  simp only [Option.bind_eq_bind, Option.bind_eq_some_iff, Option.some.injEq, Prod.mk.injEq] at h
  obtain ⟨⟨integer, text₁⟩, hinteger, ⟨fraction, text₂⟩, hfraction, ⟨exponent, text₃⟩, hexponent, -, rfl⟩ := h
  dsimp only at hfraction hexponent
  have h₁ : text₁.length < text.length := by
    unfold readInteger at hinteger
    simp only [Option.bind_eq_bind, Option.bind_eq_some_iff] at hinteger
    obtain ⟨⟨digits, more⟩, hdigits, hrest⟩ := hinteger
    dsimp only at hrest
    split at hrest
    · cases hrest
    · simp only [Option.bind_eq_some_iff, Option.some.injEq, Prod.mk.injEq] at hrest
      obtain ⟨n, -, -, rfl⟩ := hrest
      exact length_readDigits hdigits
  have h₂ : text₂.length ≤ text₁.length := by
    unfold readFraction at hfraction
    split at hfraction
    · simp only [Option.bind_eq_bind, Option.bind_eq_some_iff, Option.some.injEq, Prod.mk.injEq] at hfraction
      obtain ⟨⟨digits, more⟩, hdigits, n, -, -, rfl⟩ := hfraction
      have := length_readDigits hdigits
      simp only [List.length_cons]
      omega
    · cases hfraction
      exact Nat.le_refl _
  have hsigned : ∀ {text : List Char} {z : ℤ} {rest : List Char}, readSignedDigits text = some (z, rest) →
      rest.length ≤ text.length := by
    intro text z rest h
    unfold readSignedDigits at h
    simp only [Option.bind_eq_bind, Option.bind_eq_some_iff, Option.some.injEq, Prod.mk.injEq] at h
    obtain ⟨⟨digits, more⟩, hdigits, n, -, -, rfl⟩ := h
    have hlt := length_readDigits hdigits
    split at hlt <;> simp only [List.length_cons] at hlt ⊢ <;> omega
  have h₃ : text₃.length ≤ text₂.length := by
    unfold readExponent at hexponent
    split at hexponent
    · exact (hsigned hexponent).trans (Nat.le_succ _)
    · exact (hsigned hexponent).trans (Nat.le_succ _)
    · cases hexponent
      exact Nat.le_refl _
  show text₃.length < text.length
  omega

theorem length_readNumber {x : ℚ} (h : readNumber text = some (x, rest)) : rest.length < text.length := by
  unfold readNumber at h
  split at h
  · simp only [Option.bind_eq_bind, Option.bind_eq_some_iff, Option.some.injEq, Prod.mk.injEq] at h
    obtain ⟨⟨y, more⟩, hmore, -, rfl⟩ := h
    exact (length_readUnsigned hmore).trans (Nat.lt_succ_self _)
  · exact length_readUnsigned h

theorem length_readScalar {value : Json} (h : readScalar text = some (value, rest)) : rest.length < text.length := by
  unfold readScalar at h
  split at h
  · cases h
    simp only [List.length_cons]
    omega
  · cases h
    simp only [List.length_cons]
    omega
  · cases h
    simp only [List.length_cons]
    omega
  · simp only [Option.bind_eq_bind, Option.bind_eq_some_iff, Option.some.injEq, Prod.mk.injEq] at h
    obtain ⟨⟨x, more⟩, hmore, -, rfl⟩ := h
    exact length_readNumber hmore

structure Shortens (depth : Nat) : Prop where
  value : ∀ {text rest v}, readValue depth text = some (v, rest) → rest.length < text.length
  items : ∀ {text rest vs}, readItems depth text = some (vs, rest) → rest.length < text.length
  properties : ∀ {text rest ps}, readProperties depth text = some (ps, rest) → rest.length < text.length

theorem skipSpace_length_le (text : List Char) : (skipSpace text).length ≤ text.length :=
  (List.dropWhile_sublist _).length_le

theorem shortens_succ (hs : Shortens depth) : Shortens (depth + 1) := by
  constructor
  · intro text rest v h
    have hle := skipSpace_length_le text
    rw [readValue] at h
    split at h
    · rename_i more hskip
      simp only [Option.bind_eq_bind, Option.bind_eq_some_iff, Option.some.injEq, Prod.mk.injEq] at h
      obtain ⟨⟨s, end'⟩, hread, -, rfl⟩ := h
      have := length_readString hread
      rw [hskip, List.length_cons] at hle
      show end'.length < text.length
      omega
    · rename_i more hskip
      rw [hskip, List.length_cons] at hle
      split at h
      · rename_i hclosed
        cases h
        have := length_expect hclosed
        omega
      · simp only [Option.bind_eq_bind, Option.bind_eq_some_iff, Option.some.injEq, Prod.mk.injEq] at h
        obtain ⟨⟨vs, end'⟩, hread, -, rfl⟩ := h
        have := hs.items hread
        show end'.length < text.length
        omega
    · rename_i more hskip
      rw [hskip, List.length_cons] at hle
      split at h
      · rename_i hclosed
        cases h
        have := length_expect hclosed
        omega
      · simp only [Option.bind_eq_bind, Option.bind_eq_some_iff, Option.some.injEq, Prod.mk.injEq] at h
        obtain ⟨⟨ps, end'⟩, hread, -, rfl⟩ := h
        have := hs.properties hread
        show end'.length < text.length
        omega
    · exact (length_readScalar h).trans_le hle
  · intro text rest vs h
    rw [readItems] at h
    simp only [Option.bind_eq_bind, Option.bind_eq_some_iff] at h
    obtain ⟨⟨v, more⟩, hvalue, h⟩ := h
    have hshort := hs.value hvalue
    dsimp only at h
    split at h
    · rename_i next hnext
      simp only [Option.bind_eq_some_iff, Option.some.injEq, Prod.mk.injEq] at h
      obtain ⟨⟨vs', end'⟩, hread, -, rfl⟩ := h
      have hitems := hs.items hread
      have hcomma := length_expect hnext
      show end'.length < text.length
      omega
    · simp only [Option.bind_eq_some_iff, Option.some.injEq, Prod.mk.injEq] at h
      obtain ⟨end', hclosed, -, rfl⟩ := h
      have := length_expect hclosed
      omega
  · intro text rest ps h
    rw [readProperties] at h
    simp only [Option.bind_eq_bind, Option.bind_eq_some_iff] at h
    obtain ⟨text₁, hquote, ⟨key, text₂⟩, hkey, text₃, hcolon, ⟨v, more⟩, hvalue, h⟩ := h
    have hquote' := length_expect hquote
    have hkey' := length_readString hkey
    have hcolon' := length_expect hcolon
    have hshort := hs.value hvalue
    dsimp only at h hcolon'
    split at h
    · rename_i next hnext
      simp only [Option.bind_eq_some_iff, Option.some.injEq, Prod.mk.injEq] at h
      obtain ⟨⟨ps', end'⟩, hread, -, rfl⟩ := h
      have hproperties := hs.properties hread
      have hcomma := length_expect hnext
      show end'.length < text.length
      omega
    · simp only [Option.bind_eq_some_iff, Option.some.injEq, Prod.mk.injEq] at h
      obtain ⟨end', hclosed, -, rfl⟩ := h
      have := length_expect hclosed
      omega

theorem shortens (depth : Nat) : Shortens depth := by
  induction depth with
  | zero =>
    constructor
    · intro text rest v h
      cases h
    · intro text rest vs h
      cases h
    · intro text rest ps h
      cases h
  | succ depth ih => exact shortens_succ ih

/-- One more level makes no difference to a text that is short enough. -/
structure Suffices (depth : Nat) : Prop where
  value : ∀ {text : List Char}, 2 * text.length + 1 ≤ depth → readValue (depth + 1) text = readValue depth text
  items : ∀ {text : List Char}, 2 * text.length + 2 ≤ depth → readItems (depth + 1) text = readItems depth text
  properties : ∀ {text : List Char}, 2 * text.length + 2 ≤ depth →
    readProperties (depth + 1) text = readProperties depth text

theorem suffices_succ (hs : Suffices depth) : Suffices (depth + 1) := by
  constructor
  · intro text hdepth
    have hle := skipSpace_length_le text
    rw [readValue, readValue]
    split
    · rfl
    · rename_i more hskip
      rw [hskip, List.length_cons] at hle
      rw [hs.items (by omega)]
    · rename_i more hskip
      rw [hskip, List.length_cons] at hle
      rw [hs.properties (by omega)]
    · rfl
  · intro text hdepth
    rw [readItems, readItems, hs.value (by omega)]
    refine Option.bind_congr fun read hread => ?_
    obtain ⟨v, more⟩ := read
    have hshort := (shortens depth).value hread
    dsimp only
    split
    · rename_i next hnext
      have hcomma := length_expect hnext
      rw [hs.items (by omega)]
    · rfl
  · intro text hdepth
    rw [readProperties, readProperties]
    refine Option.bind_congr fun text₁ hquote => ?_
    have hquote' := length_expect hquote
    refine Option.bind_congr fun key hkey => ?_
    have hkey' := length_readString hkey
    refine Option.bind_congr fun text₃ hcolon => ?_
    have hcolon' := length_expect hcolon
    rw [hs.value (by omega)]
    refine Option.bind_congr fun read hread => ?_
    obtain ⟨v, more⟩ := read
    have hshort := (shortens depth).value hread
    dsimp only
    split
    · rename_i next hnext
      have hcomma := length_expect hnext
      rw [hs.properties (by omega)]
    · rfl

theorem suffices_depth (depth : Nat) : Suffices depth := by
  induction depth with
  | zero =>
    constructor
    · intro text h
      omega
    · intro text h
      omega
    · intro text h
      omega
  | succ depth ih => exact suffices_succ ih

/-- The bound on the depth refuses no text: any larger one gives the same. -/
theorem readValue_depth (h : 2 * text.length + 1 ≤ depth) :
    readValue depth text = readValue (2 * text.length + 1) text := by
  induction depth, h using Nat.le_induction with
  | base => rfl
  | succ depth hle ih => rw [(suffices_depth depth).value hle, ih]

end

end Json

end Paymaster
