import Mathlib
import Paymaster.Lib.Bytes

/-!
# EIP-712 typed data

The standard's encoding of a message whose type is given as a list of named
fields, over any hash. The type string is generated from the list, and so is
the order in which the members are encoded; a member is found by its name.
Where the hash has no collision among the strings it is applied to, a digest
determines the domain, the type string and every member.
-/

namespace Eip712

open Bytes

/-- The member types that are used: three kinds of words, and strings. -/
inductive FieldType
  | address
  | bytes32
  | uint (bits : Nat)
  | string
deriving DecidableEq

def FieldType.name : FieldType → String
  | .address => "address"
  | .bytes32 => "bytes32"
  | .uint bits => "uint" ++ toString bits
  | .string => "string"

structure Field where
  name : String
  type : FieldType
deriving DecidableEq

/-- A member as the caller holds it: a number, the bytes of a hex string, or a text. -/
inductive Value
  | number (n : Nat)
  | hex (b : List UInt8)
  | text (s : String)
deriving DecidableEq

abbrev Message := List (String × Value)

structure Domain where
  name : String
  version : String
  chainId : Nat
  verifyingContract : List UInt8
deriving DecidableEq

def domainFields : List Field :=
  [⟨"name", .string⟩, ⟨"version", .string⟩, ⟨"chainId", .uint 256⟩, ⟨"verifyingContract", .address⟩]

def Domain.message (d : Domain) : Message :=
  [("name", .text d.name), ("version", .text d.version), ("chainId", .number d.chainId),
    ("verifyingContract", .hex d.verifyingContract)]

def utf8 (s : String) : List UInt8 := s.toUTF8.data.toList

def encodeType (primaryType : String) (fields : List Field) : String :=
  primaryType ++ "(" ++ ",".intercalate (fields.map fun f => f.type.name ++ " " ++ f.name) ++ ")"

section
variable (hash : List UInt8 → BitVec 256)

def hashWord (b : List UInt8) : List UInt8 := beBytes 32 (hash b).toNat

/-- The word a member is encoded as; `none` if it is no value of its type. -/
def encodeField : FieldType → Value → Option (List UInt8)
  | .address, .hex b => if b.length = 20 then some (List.replicate 12 0 ++ b) else none
  | .bytes32, .hex b => if b.length = 32 then some b else none
  | .uint bits, .number n => if n < 2 ^ bits ∧ bits ≤ 256 then some (beBytes 32 n) else none
  | .string, .text s => some (hashWord hash (utf8 s))
  | _, _ => none

def encodeFields (message : Message) : List Field → Option (List UInt8)
  | [] => some []
  | f :: fields => do
    let value ← message.lookup f.name
    let word ← encodeField hash f.type value
    let words ← encodeFields message fields
    some (word ++ words)

def encodeData (primaryType : String) (fields : List Field) (message : Message) : Option (List UInt8) :=
  (encodeFields hash message fields).map fun words => hashWord hash (utf8 (encodeType primaryType fields)) ++ words

def typedDataOf (domain : Domain) (primaryType : String) (fields : List Field) (message : Message) :
    Option (List UInt8) := do
  let separator ← encodeData hash "EIP712Domain" domainFields domain.message
  let struct ← encodeData hash primaryType fields message
  some ([0x19, 0x01] ++ hashWord hash separator ++ hashWord hash struct)

def hashTypedData (domain : Domain) (primaryType : String) (fields : List Field) (message : Message) :
    Option (BitVec 256) := (typedDataOf hash domain primaryType fields message).map hash

end

/-- The plain ABI encoding of static values; what is hashed into a word is not one. -/
def abiEncode : List (FieldType × Value) → Option (List UInt8)
  | [] => some []
  | (.string, _) :: _ => none
  | (type, value) :: rest => do
    let word ← encodeField (fun _ => 0) type value
    let words ← abiEncode rest
    some (word ++ words)

section
variable (hash : List UInt8 → BitVec 256)

/-! ## What is hashed on the way to a digest -/

def textsOf (message : Message) : List (List UInt8) :=
  message.filterMap fun
    | (_, .text s) => some (utf8 s)
    | _ => none

def structPreimages (primaryType : String) (fields : List Field) (message : Message) : List (List UInt8) :=
  utf8 (encodeType primaryType fields) :: textsOf message ++ (encodeData hash primaryType fields message).toList

def preimages (domain : Domain) (primaryType : String) (fields : List Field) (message : Message) :
    List (List UInt8) :=
  structPreimages hash "EIP712Domain" domainFields domain.message ++
    structPreimages hash primaryType fields message ++ (typedDataOf hash domain primaryType fields message).toList

end

/-! ## Words determine members -/

theorem utf8_inj {s t : String} (h : utf8 s = utf8 t) : s = t := by
  apply String.toByteArray_inj.mp
  apply ByteArray.ext
  exact Array.toList_inj.mp h

theorem utf8_ofList {l : List Char} : utf8 (String.ofList l) = l.flatMap String.utf8EncodeChar := by
  unfold utf8
  rw [String.toUTF8, String.toByteArray_ofList, List.utf8Encode]
  exact List.toList_data_toByteArray

theorem utf8EncodeChar_ascii {c : Char} (h : c.toNat < 128) : String.utf8EncodeChar c = [UInt8.ofNat c.toNat] := by
  have hsize : c.utf8Size = 1 := by
    unfold Char.utf8Size
    rw [if_pos]
    exact UInt32.le_iff_toNat_le.mpr (Nat.le_of_lt_succ h)
  rw [String.utf8EncodeChar_eq_singleton hsize]
  congr 1

section
variable {hash : List UInt8 → BitVec 256} {S : Set (List UInt8)}

theorem hashWord_inj (hinj : Set.InjOn hash S) {a b : List UInt8} (ha : a ∈ S) (hb : b ∈ S)
    (h : hashWord hash a = hashWord hash b) : a = b := by
  have hlt : ∀ x : BitVec 256, x.toNat < 256 ^ 32 := fun x => Nat.lt_of_lt_of_eq x.isLt (by decide)
  exact hinj ha hb (BitVec.eq_of_toNat_eq (beBytes_inj (hlt _) (hlt _) h))

theorem length_encodeField {type : FieldType} {value : Value} {word : List UInt8}
    (h : encodeField hash type value = some word) : word.length = 32 := by
  cases type <;> cases value <;> simp only [encodeField, Option.ite_none_right_eq_some, Option.some.injEq,
    reduceCtorEq] at h
  case address.hex b => rw [← h.2, List.length_append, List.length_replicate, h.1]
  case bytes32.hex b => rw [← h.2, h.1]
  case uint.number bits n => rw [← h.2, length_beBytes]
  case string.text s => rw [← h, hashWord, length_beBytes]

/-- The words of two values of one type differ, unless two texts collide. -/
theorem encodeField_inj (hinj : Set.InjOn hash S) {type : FieldType} {v v' : Value} {word : List UInt8}
    (hv : ∀ s, v = .text s → utf8 s ∈ S) (hv' : ∀ s, v' = .text s → utf8 s ∈ S)
    (h : encodeField hash type v = some word) (h' : encodeField hash type v' = some word) : v = v' := by
  cases type with
  | address =>
    cases v <;> cases v' <;> simp only [encodeField, Option.ite_none_right_eq_some, Option.some.injEq,
      reduceCtorEq] at h h'
    rename_i b b'
    rw [List.append_cancel_left (h.2.trans h'.2.symm)]
  | bytes32 =>
    cases v <;> cases v' <;> simp only [encodeField, Option.ite_none_right_eq_some, Option.some.injEq,
      reduceCtorEq] at h h'
    rw [h.2, h'.2]
  | uint bits =>
    cases v <;> cases v' <;> simp only [encodeField, Option.ite_none_right_eq_some, Option.some.injEq,
      reduceCtorEq] at h h'
    rename_i n m
    have hlt : ∀ k, k < 2 ^ bits ∧ bits ≤ 256 → k < 256 ^ 32 := fun k hk =>
      Nat.lt_of_lt_of_le hk.1 (Nat.le_trans (Nat.pow_le_pow_right (by decide) hk.2) (by decide))
    rw [beBytes_inj (hlt n h.1) (hlt m h'.1) (h.2.trans h'.2.symm)]
  | string =>
    cases v <;> cases v' <;> simp only [encodeField, Option.some.injEq, reduceCtorEq] at h h'
    rename_i s t
    rw [utf8_inj (hashWord_inj hinj (hv s rfl) (hv' t rfl) (h.trans h'.symm))]

theorem mem_textsOf {message : Message} {name s : String} (h : message.lookup name = some (.text s)) :
    utf8 s ∈ textsOf message := by
  obtain ⟨l, k, hm⟩ := List.lookup_eq_some_iff.mp h
  apply List.mem_filterMap.mpr
  exact ⟨(name, .text s), by simp [hm], rfl⟩

theorem encodeFields_cons {message : Message} {f : Field} {fields : List Field} {data : List UInt8}
    (h : encodeFields hash message (f :: fields) = some data) :
    ∃ value word words, message.lookup f.name = some value ∧ encodeField hash f.type value = some word ∧
      encodeFields hash message fields = some words ∧ data = word ++ words := by
  simp only [encodeFields, Option.bind_eq_bind, Option.bind_eq_some_iff, Option.some.injEq] at h
  obtain ⟨value, hvalue, word, hword, words, hwords, rfl⟩ := h
  exact ⟨value, word, words, hvalue, hword, hwords, rfl⟩

theorem encodeFields_inj (hinj : Set.InjOn hash S) {fields : List Field} {m m' : Message} {data : List UInt8}
    (hm : ∀ b ∈ textsOf m, b ∈ S) (hm' : ∀ b ∈ textsOf m', b ∈ S)
    (h : encodeFields hash m fields = some data) (h' : encodeFields hash m' fields = some data) :
    ∀ f ∈ fields, m.lookup f.name = m'.lookup f.name := by
  induction fields generalizing data with
  | nil => simp
  | cons f fields ih =>
    obtain ⟨v, w, ws, hv, hw, hws, rfl⟩ := encodeFields_cons h
    obtain ⟨v', w', ws', hv', hw', hws', heq⟩ := encodeFields_cons h'
    obtain ⟨rfl, rfl⟩ := List.append_inj heq ((length_encodeField hw).trans (length_encodeField hw').symm)
    have hvv : v = v' := encodeField_inj hinj (fun s hs => hm _ (mem_textsOf (hs ▸ hv)))
      (fun s hs => hm' _ (mem_textsOf (hs ▸ hv'))) hw hw'
    intro g hg
    rcases List.mem_cons.mp hg with rfl | hg
    · rw [hv, hv', hvv]
    · exact ih hws hws' g hg

/-- Equal struct encodings have one type string and, if they are of one list of fields, equal members. -/
theorem encodeData_inj (hinj : Set.InjOn hash S) {type type' : String} {fields fields' : List Field} {m m' : Message}
    {data : List UInt8} (hs : ∀ b ∈ structPreimages hash type fields m, b ∈ S)
    (hs' : ∀ b ∈ structPreimages hash type' fields' m', b ∈ S) (h : encodeData hash type fields m = some data)
    (h' : encodeData hash type' fields' m' = some data) :
    encodeType type fields = encodeType type' fields' ∧
      (fields = fields' → ∀ f ∈ fields, m.lookup f.name = m'.lookup f.name) := by
  obtain ⟨ws, hws, rfl⟩ := Option.map_eq_some_iff.mp h
  obtain ⟨ws', hws', heq⟩ := Option.map_eq_some_iff.mp h'
  obtain ⟨htype, hwords⟩ := List.append_inj heq (by simp [hashWord])
  have htypes := hashWord_inj hinj (hs' _ (by simp [structPreimages])) (hs _ (by simp [structPreimages])) htype
  refine ⟨(utf8_inj htypes).symm, ?_⟩
  rintro rfl
  subst hwords
  apply encodeFields_inj hinj _ _ hws hws'
  · exact fun b hb => hs b (by simp [structPreimages, hb])
  · exact fun b hb => hs' b (by simp [structPreimages, hb])

theorem Domain.eq_of_lookup {d d' : Domain} (h : ∀ f ∈ domainFields, d.message.lookup f.name = d'.message.lookup f.name) :
    d = d' := by
  cases d
  cases d'
  have h1 := h ⟨"name", .string⟩ (by decide)
  have h2 := h ⟨"version", .string⟩ (by decide)
  have h3 := h ⟨"chainId", .uint 256⟩ (by decide)
  have h4 := h ⟨"verifyingContract", .address⟩ (by decide)
  simp_all [Domain.message, List.lookup]

/-- **Binding.** Digests that agree are of one domain, one type string and,
under one list of fields, equal members. -/
theorem hashTypedData_inj (hinj : Set.InjOn hash S) {d d' : Domain} {type type' : String} {fields fields' : List Field}
    {m m' : Message} {digest : BitVec 256} (hs : ∀ b ∈ preimages hash d type fields m, b ∈ S)
    (hs' : ∀ b ∈ preimages hash d' type' fields' m', b ∈ S) (h : hashTypedData hash d type fields m = some digest)
    (h' : hashTypedData hash d' type' fields' m' = some digest) :
    d = d' ∧ encodeType type fields = encodeType type' fields' ∧
      (fields = fields' → ∀ f ∈ fields, m.lookup f.name = m'.lookup f.name) := by
  obtain ⟨b, hb, rfl⟩ := Option.map_eq_some_iff.mp h
  obtain ⟨b', hb', heq⟩ := Option.map_eq_some_iff.mp h'
  have hbb : b' = b := by
    apply hinj _ _ heq
    · exact hs' b' (by simp [preimages, hb'])
    · exact hs b (by simp [preimages, hb])
  subst hbb
  simp only [typedDataOf, Option.bind_eq_bind, Option.bind_eq_some_iff, Option.some.injEq] at hb hb'
  obtain ⟨sep, hsep, str, hstr, hdata⟩ := hb
  obtain ⟨sep', hsep', str', hstr', hdata'⟩ := hb'
  obtain ⟨hwords, hstruct⟩ := List.append_inj (hdata.trans hdata'.symm) (by simp [hashWord])
  have hin : ∀ x ∈ structPreimages hash type fields m, x ∈ S := fun x hx => hs x (by simp [preimages, hx])
  have hin' : ∀ x ∈ structPreimages hash type' fields' m', x ∈ S := fun x hx => hs' x (by simp [preimages, hx])
  have hdom : ∀ x ∈ structPreimages hash "EIP712Domain" domainFields d.message, x ∈ S :=
    fun x hx => hs x (by simp [preimages, hx])
  have hdom' : ∀ x ∈ structPreimages hash "EIP712Domain" domainFields d'.message, x ∈ S :=
    fun x hx => hs' x (by simp [preimages, hx])
  have hseps : sep = sep' := by
    apply hashWord_inj hinj _ _ (List.append_cancel_left hwords)
    · exact hdom _ (by simp [structPreimages, hsep])
    · exact hdom' _ (by simp [structPreimages, hsep'])
  have hstrs : str = str' := by
    apply hashWord_inj hinj _ _ hstruct
    · exact hin _ (by simp [structPreimages, hstr])
    · exact hin' _ (by simp [structPreimages, hstr'])
  subst hseps hstrs
  obtain ⟨-, hdomains⟩ := encodeData_inj hinj hdom hdom' hsep hsep'
  obtain ⟨htype, hmembers⟩ := encodeData_inj hinj hin hin' hstr hstr'
  exact ⟨Domain.eq_of_lookup (hdomains rfl), htype, hmembers⟩

end

end Eip712
