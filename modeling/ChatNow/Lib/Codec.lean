import ChatNow.Lib.Wire
import Mathlib.Logic.Equiv.Prod
import Mathlib.Logic.Equiv.Sum
import Mathlib.Logic.Equiv.Option

/-!
# Schemas for the protobuf wire format

A **message codec** gives the fields on the wire a meaning in a Lean type: how a value is written as
a list of fields, and how one more field is merged into the value read so far. Reading starts from
the default value. The rules are those of proto3:

* a scalar field is written unless it has its default, and the last one read wins;
* a message field that comes twice is merged, the elements of a repeated field are collected, and
  setting one alternative of a `oneof` unsets the others;
* a field with an unknown number **or with a value of another shape than the schema's** is skipped.

A codec carries its laws: reading back what it wrote yields the value (`round_trip`), and fields it
does not own leave the value alone (`merge_unknown`). Codecs are built from single fields
(`MessageCodec.field`) by putting them side by side (`MessageCodec.append`); the only obligation is
that the two sides share no field number. So a schema is one expression, its round trip is a field
of it, and adding a field to the schema adds one line.
-/

namespace Wire

/-- A fold that acts through an embedding of the accumulator. -/
theorem foldlM_through {α β δ : Type} (φ : α → β) (m : α → δ → Option α) {g : β → δ → Option β}
    {fs : List δ} (h : ∀ f ∈ fs, ∀ x, g (φ x) f = (m x f).map φ) (x : α) :
    fs.foldlM g (φ x) = (fs.foldlM m x).map φ := by
  induction fs generalizing x with
  | nil => rfl
  | cons f fs ih =>
    rw [List.foldlM_cons, List.foldlM_cons, h f List.mem_cons_self]
    cases m x f with
    | none => rfl
    | some x' => exact ih (fun f' hf' ↦ h f' (List.mem_cons_of_mem _ hf')) x'

/-- How the values of one field are read and written. -/
structure ValueCodec (α : Type) where
  default : α
  encode : α → List Value
  /-- One more value of the field; `none` when it is malformed. -/
  merge : α → Value → Option α
  round_trip : ∀ a, (encode a).foldlM merge default = some a

/-- How a message is read and written. -/
structure MessageCodec (α : Type) where
  default : α
  /-- The field numbers of the schema. -/
  numbers : List ℕ
  encode : α → List Field
  /-- One more field; `none` when its value is malformed. -/
  merge : α → Field → Option α
  zero_not_mem : 0 ∉ numbers
  number_mem : ∀ a, ∀ f ∈ encode a, f.1 ∈ numbers
  merge_unknown : ∀ a f, f.1 ∉ numbers → merge a f = some a
  round_trip : ∀ a, (encode a).foldlM merge default = some a

namespace MessageCodec

variable {α β : Type}

/-- `SerializeAsString`. -/
def serialize (c : MessageCodec α) (a : α) : List UInt8 := Wire.encode (c.encode a)

/-- `MergeFrom` a serialised message. -/
def mergeFrom (c : MessageCodec α) (a : α) (bs : List UInt8) : Option α :=
  (Wire.parse bs).bind fun fs ↦ fs.foldlM c.merge a

/-- `ParseFromArray`. -/
def parse (c : MessageCodec α) (bs : List UInt8) : Option α := c.mergeFrom c.default bs

theorem parse_serialize_fields (c : MessageCodec α) (a : α) :
    Wire.parse (c.serialize a) = some (c.encode a) := by
  refine parse_encode fun f hf h0 ↦ c.zero_not_mem ?_
  rw [← h0]
  exact c.number_mem a f hf

/-- **Reading back what was written.** -/
theorem parse_serialize (c : MessageCodec α) (a : α) : c.parse (c.serialize a) = some a := by
  rw [parse, mergeFrom, parse_serialize_fields, Option.bind_some, c.round_trip]

/-! ### Combining codecs -/

/-- A message of one field. -/
def field (n : ℕ) (c : ValueCodec α) (hn : n ≠ 0 := by decide) : MessageCodec α where
  default := c.default
  numbers := [n]
  encode a := (c.encode a).map fun v ↦ (n, v)
  merge a f := if f.1 = n then c.merge a f.2 else some a
  zero_not_mem := by simpa using hn.symm
  number_mem a f hf := by
    obtain ⟨v, -, rfl⟩ := List.mem_map.1 hf
    exact List.mem_singleton_self n
  merge_unknown a f hf := if_neg fun h ↦ hf (List.mem_singleton.2 h)
  round_trip a := by
    rw [List.foldlM_map]
    simpa using c.round_trip a

/-- The fields of two messages side by side. -/
def append (c : MessageCodec α) (d : MessageCodec β)
    (h : ∀ n ∈ c.numbers, n ∉ d.numbers := by decide) : MessageCodec (α × β) where
  default := (c.default, d.default)
  numbers := c.numbers ++ d.numbers
  encode a := c.encode a.1 ++ d.encode a.2
  merge a f :=
    if f.1 ∈ c.numbers then (c.merge a.1 f).map fun x ↦ (x, a.2)
    else (d.merge a.2 f).map fun y ↦ (a.1, y)
  zero_not_mem := by simpa using ⟨c.zero_not_mem, d.zero_not_mem⟩
  number_mem a f hf := by
    rcases List.mem_append.1 hf with hf | hf
    · exact List.mem_append_left _ (c.number_mem a.1 f hf)
    · exact List.mem_append_right _ (d.number_mem a.2 f hf)
  merge_unknown a f hf := by
    obtain ⟨hc, hd⟩ := not_or.1 (List.mem_append.not.1 hf)
    rw [if_neg hc, d.merge_unknown _ _ hd]
    rfl
  round_trip a := by
    -- the fields of each side are merged by that side alone
    rw [List.foldlM_append, foldlM_through (fun x ↦ (x, d.default)) c.merge, c.round_trip]
    · show List.foldlM _ (a.1, d.default) _ = _
      rw [foldlM_through (fun y ↦ (a.1, y)) d.merge, d.round_trip]
      · rfl
      · intro f hf y
        have hnot : f.1 ∉ c.numbers := fun hc ↦ h _ hc (d.number_mem a.2 f hf)
        rw [if_neg hnot]
    · intro f hf x
      rw [if_pos (c.number_mem a.1 f hf)]

/-- The same fields for an equivalent type: a schema is first a product, then a record. -/
def map (e : α ≃ β) (c : MessageCodec α) : MessageCodec β where
  default := e c.default
  numbers := c.numbers
  encode b := c.encode (e.symm b)
  merge b f := (c.merge (e.symm b) f).map e
  zero_not_mem := c.zero_not_mem
  number_mem b f hf := c.number_mem _ f hf
  merge_unknown b f hf := by
    rw [c.merge_unknown _ _ hf, Option.map_some, e.apply_symm_apply]
  round_trip b := by
    rw [foldlM_through e c.merge, c.round_trip, Option.map_some, e.apply_symm_apply]
    intro f _ x
    rw [e.symm_apply_apply]

/-- The alternatives of a `oneof`: at most one of two optional messages is there, and a field that
sets one unsets the other. -/
def oneof (c : MessageCodec (Option α)) (d : MessageCodec (Option β)) (hc : c.default = none)
    (hd : d.default = none) (h : ∀ n ∈ c.numbers, n ∉ d.numbers := by decide) :
    MessageCodec (Option (α ⊕ β)) where
  default := none
  numbers := c.numbers ++ d.numbers
  encode
    | none => []
    | some (.inl a) => c.encode (some a)
    | some (.inr b) => d.encode (some b)
  merge x f :=
    if f.1 ∈ c.numbers then (c.merge (x.bind Sum.getLeft?) f).map fun
      | some a => some (.inl a)
      | none => x.filter Sum.isRight
    else (d.merge (x.bind Sum.getRight?) f).map fun
      | some b => some (.inr b)
      | none => x.filter Sum.isLeft
  zero_not_mem := by simpa using ⟨c.zero_not_mem, d.zero_not_mem⟩
  number_mem x f hf := by
    match x with
    | none => cases hf
    | some (.inl a) => exact List.mem_append_left _ (c.number_mem _ f hf)
    | some (.inr b) => exact List.mem_append_right _ (d.number_mem _ f hf)
  merge_unknown x f hf := by
    obtain ⟨hnc, hnd⟩ := not_or.1 (List.mem_append.not.1 hf)
    rw [if_neg hnc, d.merge_unknown _ _ hnd]
    rcases x with _ | _ | _ <;> rfl
  round_trip x := by
    match x with
    | none => rfl
    | some (.inl a) =>
      have hstart : (none : Option (α ⊕ β)) = c.default.map .inl := by rw [hc]; rfl
      rw [hstart, foldlM_through (Option.map Sum.inl) c.merge, c.round_trip]
      · rfl
      · intro f hf x
        rw [if_pos (c.number_mem _ f hf)]
        rcases x with _ | a
        · exact Option.map_congr fun r _ ↦ by cases r <;> rfl
        · exact Option.map_congr fun r _ ↦ by cases r <;> rfl
    | some (.inr b) =>
      have hstart : (none : Option (α ⊕ β)) = d.default.map .inr := by rw [hd]; rfl
      rw [hstart, foldlM_through (Option.map Sum.inr) d.merge, d.round_trip]
      · rfl
      · intro f hf x
        have hnot : f.1 ∉ c.numbers := fun hmem ↦ h _ hmem (d.number_mem _ f hf)
        rw [if_neg hnot]
        rcases x with _ | b
        · exact Option.map_congr fun r _ ↦ by cases r <;> rfl
        · exact Option.map_congr fun r _ ↦ by cases r <;> rfl

end MessageCodec

/-! ### The values of a field -/

namespace ValueCodec

variable {α : Type}

/-- A scalar on a varint: written unless it has its default, and the last one wins. -/
def scalar [DecidableEq α] (default : α) (toWire : α → ℕ) (ofWire : ℕ → α)
    (h : ∀ a, ofWire (toWire a) = a) : ValueCodec α where
  default := default
  encode a := if a = default then [] else [.varint (toWire a)]
  merge a
    | .varint n => some (ofWire n)
    | _ => some a
  round_trip a := by
    split
    · next ha => rw [ha]; rfl
    · exact congrArg some (h a)

def uint64 : ValueCodec UInt64 :=
  scalar 0 UInt64.toNat UInt64.ofNat fun a ↦ by simp

def int64 : ValueCodec Int64 :=
  scalar 0 (fun a ↦ a.toUInt64.toNat) (fun n ↦ (UInt64.ofNat n).toInt64) fun a ↦ by simp

/-- A negative `int32` is sign-extended to 64 bits. -/
def int32 : ValueCodec Int32 :=
  scalar 0 (fun a ↦ a.toInt64.toUInt64.toNat) (fun n ↦ (UInt64.ofNat n).toInt64.toInt32)
    fun a ↦ by simp

def bool : ValueCodec Bool :=
  scalar false Bool.toNat (fun n ↦ UInt64.ofNat n != 0) fun a ↦ by cases a <;> rfl

/-- A `double`, as its bit pattern. -/
def double : ValueCodec UInt64 where
  default := 0
  encode a := if a = 0 then [] else [.i64 a]
  merge a
    | .i64 n => some n
    | _ => some a
  round_trip a := by
    split
    · next ha => rw [ha]; rfl
    · rfl

/-- The bytes of a string. -/
def utf8 (s : String) : List UInt8 := s.toUTF8.data.toList

/-- A string must be UTF-8. -/
def ofUtf8 (bs : List UInt8) : Option String := String.fromUTF8? ⟨bs.toArray⟩

theorem ofUtf8_utf8 (s : String) : ofUtf8 (utf8 s) = some s := by
  show String.fromUTF8? ⟨s.toUTF8.data.toList.toArray⟩ = some s
  rw [Array.toArray_toList]
  show (if h : s.toUTF8.IsValidUTF8 then some (String.fromUTF8 s.toUTF8 h) else none) = some s
  have hs : s.toUTF8.IsValidUTF8 := s.isValidUTF8
  rw [dif_pos hs]
  rfl

/-- The byte of a digit. -/
theorem toUInt8_of_isDigit {c : Char} (hc : c.isDigit = true) :
    '0'.toUInt8 ≤ c.toUInt8 ∧ c.toUInt8 ≤ '9'.toUInt8 := by
  obtain ⟨hlow, hhigh⟩ := Char.isDigit_iff_toNat.1 hc
  have hbyte : c.toUInt8.toNat = c.toNat :=
    Nat.mod_eq_of_lt (Nat.lt_of_le_of_lt hhigh (by decide))
  exact ⟨UInt8.le_iff_toNat_le.2 (hbyte ▸ hlow), UInt8.le_iff_toNat_le.2 (hbyte ▸ hhigh)⟩

def string : ValueCodec String where
  default := ""
  encode s := if s = "" then [] else [.len (utf8 s)]
  merge s
    | .len bs => ofUtf8 bs
    | _ => some s
  round_trip s := by
    split
    · next hs => rw [hs]; rfl
    · show (ofUtf8 (utf8 s)).bind _ = _
      rw [ofUtf8_utf8]
      rfl

/-- A string with presence. -/
def optionalString : ValueCodec (Option String) where
  default := none
  encode
    | none => []
    | some s => [.len (utf8 s)]
  merge s
    | .len bs => (ofUtf8 bs).map some
    | _ => some s
  round_trip s := by
    match s with
    | none => rfl
    | some s =>
      show ((ofUtf8 (utf8 s)).map some).bind _ = _
      rw [ofUtf8_utf8]
      rfl

def repeatedString : ValueCodec (List String) where
  default := []
  encode l := l.map fun s ↦ .len (utf8 s)
  merge l
    | .len bs => (ofUtf8 bs).map fun s ↦ l ++ [s]
    | _ => some l
  round_trip l := by
    suffices h : ∀ l₀ : List String, (l.map fun s ↦ Value.len (utf8 s)).foldlM _ l₀ =
        some (l₀ ++ l) from h []
    induction l with
    | nil => exact fun l₀ ↦ congrArg some (List.append_nil l₀).symm
    | cons s l ih =>
      intro l₀
      show ((ofUtf8 (utf8 s)).map fun s ↦ l₀ ++ [s]).bind _ = _
      rw [ofUtf8_utf8]
      show List.foldlM _ (l₀ ++ [s]) _ = _
      rw [ih, List.append_assoc]
      rfl

theorem mergeFrom_serialize (c : MessageCodec α) (a : α) :
    c.mergeFrom c.default (c.serialize a) = some a := c.parse_serialize a

/-- A message that is always there. -/
def message (c : MessageCodec α) : ValueCodec α where
  default := c.default
  encode a := [.len (c.serialize a)]
  merge a
    | .len bs => c.mergeFrom a bs
    | _ => some a
  round_trip a := by
    show (c.mergeFrom c.default (c.serialize a)).bind _ = _
    rw [mergeFrom_serialize]
    rfl

/-- A message with presence. -/
def optionalMessage (c : MessageCodec α) : ValueCodec (Option α) where
  default := none
  encode
    | none => []
    | some a => [.len (c.serialize a)]
  merge a
    | .len bs => (c.mergeFrom (a.getD c.default) bs).map some
    | _ => some a
  round_trip a := by
    match a with
    | none => rfl
    | some a =>
      show ((c.mergeFrom c.default (c.serialize a)).map some).bind _ = _
      rw [mergeFrom_serialize]
      rfl

def repeatedMessage (c : MessageCodec α) : ValueCodec (List α) where
  default := []
  encode l := l.map fun a ↦ .len (c.serialize a)
  merge l
    | .len bs => (c.parse bs).map fun a ↦ l ++ [a]
    | _ => some l
  round_trip l := by
    suffices h : ∀ l₀ : List α, (l.map fun a ↦ Value.len (c.serialize a)).foldlM _ l₀ =
        some (l₀ ++ l) from h []
    induction l with
    | nil => exact fun l₀ ↦ congrArg some (List.append_nil l₀).symm
    | cons a l ih =>
      intro l₀
      show ((c.parse (c.serialize a)).map fun a ↦ l₀ ++ [a]).bind _ = _
      rw [c.parse_serialize]
      show List.foldlM _ (l₀ ++ [a]) _ = _
      rw [ih, List.append_assoc]
      rfl

/-- The values of an equivalent type. -/
def map {β : Type} (e : α ≃ β) (c : ValueCodec α) : ValueCodec β where
  default := e c.default
  encode b := c.encode (e.symm b)
  merge b v := (c.merge (e.symm b) v).map e
  round_trip b := by
    rw [foldlM_through e c.merge, c.round_trip, Option.map_some, e.apply_symm_apply]
    intro v _ x
    rw [e.symm_apply_apply]

end ValueCodec

end Wire
