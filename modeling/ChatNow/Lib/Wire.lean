import Mathlib.Tactic.Ring
import Mathlib.Data.List.Basic

/-!
# The protobuf wire format

A protobuf message on the wire is a sequence of fields, each a number with a value of one of four
shapes: a varint, eight bytes, four bytes, or a length and that many bytes. This module has the
bytes: `encode` writes a list of fields and `parse` reads one back, and `parse_encode` says that the
second undoes the first. What the numbers *mean* is the business of a schema (`Codec.lean`).

Numbers are unbounded here. Protobuf refuses a varint of more than ten bytes and a message of more
than two gibibytes; `encode` writes the first for no 64-bit number, and the second limit is left
out. Groups, the two deprecated shapes, are refused.
-/

namespace Wire

/-! ### Varints -/

/-- Seven bits a byte, the low ones first, the top bit set on all but the last. -/
def encodeVarint (n : ℕ) : List UInt8 :=
  if n < 128 then [UInt8.ofNat n]
  else UInt8.ofNat (n % 128 + 128) :: encodeVarint (n / 128)

/-- Read a varint off the front. -/
def decodeVarint : List UInt8 → Option (ℕ × List UInt8)
  | [] => none
  | b :: bs =>
    if b.toNat < 128 then some (b.toNat, bs)
    else (decodeVarint bs).map fun r ↦ (b.toNat - 128 + 128 * r.1, r.2)

theorem decodeVarint_encodeVarint (n : ℕ) (rest : List UInt8) :
    decodeVarint (encodeVarint n ++ rest) = some (n, rest) := by
  induction n using Nat.strongRecOn with
  | ind n ih =>
    rw [encodeVarint]
    split
    · next hn =>
      have hb : (UInt8.ofNat n).toNat = n := by
        rw [UInt8.toNat_ofNat']
        omega
      rw [List.singleton_append, decodeVarint, hb, if_pos hn]
    · next hn =>
      have hb : (UInt8.ofNat (n % 128 + 128)).toNat = n % 128 + 128 := by
        rw [UInt8.toNat_ofNat']
        omega
      rw [List.cons_append, decodeVarint, hb, if_neg (by omega), ih (n / 128) (by omega)]
      simp only [Option.map_some, Nat.add_sub_cancel, Option.some.injEq, Prod.mk.injEq, and_true]
      omega

/-! ### Fixed-width numbers -/

/-- The `k` low bytes, the lowest first. -/
def encodeFixed : ℕ → ℕ → List UInt8
  | 0, _ => []
  | k + 1, n => UInt8.ofNat (n % 256) :: encodeFixed k (n / 256)

/-- Read `k` bytes off the front. -/
def decodeFixed : ℕ → List UInt8 → Option (ℕ × List UInt8)
  | 0, bs => some (0, bs)
  | _ + 1, [] => none
  | k + 1, b :: bs => (decodeFixed k bs).map fun r ↦ (b.toNat + 256 * r.1, r.2)

theorem decodeFixed_encodeFixed (k n : ℕ) (hn : n < 256 ^ k) (rest : List UInt8) :
    decodeFixed k (encodeFixed k n ++ rest) = some (n, rest) := by
  induction k generalizing n with
  | zero =>
    obtain rfl : n = 0 := by simpa using hn
    rfl
  | succ k ih =>
    have hb : (UInt8.ofNat (n % 256)).toNat = n % 256 := by
      rw [UInt8.toNat_ofNat']
      omega
    have hlt : n / 256 < 256 ^ k := by
      rw [Nat.div_lt_iff_lt_mul (by omega), ← pow_succ]
      exact hn
    rw [encodeFixed, List.cons_append, decodeFixed, ih _ hlt, Option.map_some, hb]
    simp only [Option.some.injEq, Prod.mk.injEq, and_true]
    omega

/-! ### Values and fields -/

/-- A value on the wire. -/
inductive Value
  | varint (n : ℕ)
  | i64 (n : UInt64)
  | len (bytes : List UInt8)
  | i32 (n : UInt32)
  deriving DecidableEq

/-- A field: its number and its value. -/
abbrev Field := ℕ × Value

/-- The number of a shape. -/
def Value.wireType : Value → ℕ
  | varint _ => 0
  | i64 _ => 1
  | len _ => 2
  | i32 _ => 5

def Value.encode : Value → List UInt8
  | varint n => encodeVarint n
  | i64 n => encodeFixed 8 n.toNat
  | len bytes => encodeVarint bytes.length ++ bytes
  | i32 n => encodeFixed 4 n.toNat

/-- Read a value of the given shape off the front. -/
def decodeValue (wireType : ℕ) (bs : List UInt8) : Option (Value × List UInt8) :=
  match wireType with
  | 0 => (decodeVarint bs).map fun r ↦ (.varint r.1, r.2)
  | 1 => (decodeFixed 8 bs).map fun r ↦ (.i64 (UInt64.ofNat r.1), r.2)
  | 2 => (decodeVarint bs).bind fun r ↦
      if r.1 ≤ r.2.length then some (.len (r.2.take r.1), r.2.drop r.1) else none
  | 5 => (decodeFixed 4 bs).map fun r ↦ (.i32 (UInt32.ofNat r.1), r.2)
  | _ => none

theorem decodeValue_encode (v : Value) (rest : List UInt8) :
    decodeValue v.wireType (v.encode ++ rest) = some (v, rest) := by
  cases v with
  | varint n =>
    show (decodeVarint (encodeVarint n ++ rest)).map _ = _
    rw [decodeVarint_encodeVarint]
    rfl
  | i64 n =>
    simp only [Value.wireType, Value.encode, decodeValue]
    rw [decodeFixed_encodeFixed 8 _ (by simpa using n.toNat_lt)]
    simp
  | len bytes =>
    show (decodeVarint (encodeVarint bytes.length ++ bytes ++ rest)).bind _ = _
    rw [List.append_assoc, decodeVarint_encodeVarint]
    simp
  | i32 n =>
    simp only [Value.wireType, Value.encode, decodeValue]
    rw [decodeFixed_encodeFixed 4 _ (by simpa using n.toNat_lt)]
    simp

def encodeField (f : Field) : List UInt8 := encodeVarint (f.1 * 8 + f.2.wireType) ++ f.2.encode

/-- Read a field off the front; zero is not a field number. -/
def decodeField (bs : List UInt8) : Option (Field × List UInt8) :=
  (decodeVarint bs).bind fun tag ↦
    if tag.1 / 8 = 0 then none
    else (decodeValue (tag.1 % 8) tag.2).map fun r ↦ ((tag.1 / 8, r.1), r.2)

theorem Value.wireType_lt (v : Value) : v.wireType < 8 := by
  cases v <;> simp [wireType]

theorem decodeField_encodeField {f : Field} (hf : f.1 ≠ 0) (rest : List UInt8) :
    decodeField (encodeField f ++ rest) = some (f, rest) := by
  have hlt := f.2.wireType_lt
  have hdiv : (f.1 * 8 + f.2.wireType) / 8 = f.1 := by omega
  have hmod : (f.1 * 8 + f.2.wireType) % 8 = f.2.wireType := by omega
  rw [encodeField, List.append_assoc, decodeField, decodeVarint_encodeVarint, Option.bind_some]
  dsimp only
  rw [hdiv, hmod, if_neg hf, decodeValue_encode]
  rfl

/-! ### Messages -/

def encode (fs : List Field) : List UInt8 := fs.flatMap encodeField

/-- Read fields to the end of the input, at most `k` of them. -/
def parseFuel : ℕ → List UInt8 → Option (List Field)
  | _, [] => some []
  | 0, _ :: _ => none
  | k + 1, b :: bs =>
    (decodeField (b :: bs)).bind fun r ↦ (parseFuel k r.2).map fun fs ↦ r.1 :: fs

/-- Read a message. A field takes at least a byte, so the length of the input is fuel enough. -/
def parse (bs : List UInt8) : Option (List Field) := parseFuel bs.length bs

theorem encodeVarint_ne_nil (n : ℕ) : encodeVarint n ≠ [] := by
  rw [encodeVarint]
  split <;> simp

theorem encodeField_ne_nil (f : Field) : encodeField f ≠ [] := by
  simp [encodeField, encodeVarint_ne_nil]

theorem length_le_length_encode (fs : List Field) : fs.length ≤ (encode fs).length := by
  induction fs with
  | nil => simp
  | cons f fs ih =>
    have hpos := List.length_pos_iff.2 (encodeField_ne_nil f)
    rw [encode, List.flatMap_cons, List.length_append, List.length_cons]
    rw [encode] at ih
    omega

theorem parseFuel_encode {fs : List Field} (hfs : ∀ f ∈ fs, f.1 ≠ 0) {k : ℕ}
    (hk : fs.length ≤ k) : parseFuel k (encode fs) = some fs := by
  induction fs generalizing k with
  | nil => cases k <;> rfl
  | cons f fs ih =>
    obtain ⟨k, rfl⟩ : ∃ j, k = j + 1 := ⟨k - 1, by simp at hk; omega⟩
    have hrest : parseFuel k (encode fs) = some fs :=
      ih (fun f' hf' ↦ hfs f' (List.mem_cons_of_mem _ hf')) (by simpa using hk)
    have hdec := decodeField_encodeField (hfs f List.mem_cons_self) (encode fs)
    have henc : encode (f :: fs) = encodeField f ++ encode fs := List.flatMap_cons
    -- the input is not empty, so the third equation of the loop applies
    obtain ⟨b, bs, hbs⟩ := List.exists_cons_of_ne_nil
      (List.append_ne_nil_of_left_ne_nil (encodeField_ne_nil f) (encode fs))
    rw [henc, hbs, parseFuel, ← hbs, hdec, Option.bind_some, hrest]
    rfl

/-- **Reading undoes writing.** -/
theorem parse_encode {fs : List Field} (hfs : ∀ f ∈ fs, f.1 ≠ 0) : parse (encode fs) = some fs :=
  parseFuel_encode hfs (length_le_length_encode fs)

end Wire
