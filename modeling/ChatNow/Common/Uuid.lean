import Mathlib.Data.List.Basic

/-!
# Generated ids

`uuid` of `common/utils/utils.hpp`: six random bytes and a counter of 16 bits, in hexadecimal digits
with a dash behind the second and the sixth byte. The ids of users are made so, and the ids of
groups up to a prefix. What the readers of ids rest on is their alphabet (`mem_uuid`): none of the
characters that separate the parts of a key or of a conversation id can occur.
-/

namespace ChatNow

/-- A number in `width` hexadecimal digits, as `setw`, `setfill('0')` and `hex` print it. -/
def hexText : ℕ → ℕ → List Char
  | 0, _ => []
  | width + 1, n => hexText width (n / 16) ++ [Nat.digitChar (n % 16)]

/-- `uuid`, with the bytes that were drawn and the counter. -/
def utils.uuid (bytes : Fin 6 → UInt8) (idx : UInt16) : String :=
  let byte (i : Fin 6) := hexText 2 (bytes i).toNat
  String.ofList (byte 0 ++ byte 1 ++ '-' :: (byte 2 ++ byte 3 ++ byte 4 ++ byte 5) ++
    '-' :: hexText 4 idx.toNat)

/-- The text has the format of `uuid`. -/
def IsUuid (id : String) : Prop := ∃ bytes idx, id = utils.uuid bytes idx

/-- The characters of an id. -/
def uuidAlphabet : List Char := "0123456789abcdef-".toList

theorem mem_hexText {c : Char} {width n : ℕ} (h : c ∈ hexText width n) : c ∈ uuidAlphabet := by
  induction width generalizing n with
  | zero => exact absurd h List.not_mem_nil
  | succ width ih =>
    rw [hexText, List.mem_append, List.mem_singleton] at h
    rcases h with h | rfl
    · exact ih h
    · have hdigits : ∀ d < 16, Nat.digitChar d ∈ uuidAlphabet := by decide
      exact hdigits _ (Nat.mod_lt n (by decide))

theorem mem_uuid {c : Char} {id : String} (hid : IsUuid id) (h : c ∈ id.toList) :
    c ∈ uuidAlphabet := by
  obtain ⟨bytes, idx, rfl⟩ := hid
  have hdash : '-' ∈ uuidAlphabet := by decide
  rw [utils.uuid, String.toList_ofList] at h
  simp only [List.mem_append, List.mem_cons] at h
  obtain ((h | h) | (rfl | (((h | h) | h) | h))) | (rfl | h) := h
  · exact mem_hexText h
  · exact mem_hexText h
  · exact hdash
  · exact mem_hexText h
  · exact mem_hexText h
  · exact mem_hexText h
  · exact mem_hexText h
  · exact hdash
  · exact mem_hexText h

/-- A character outside the alphabet is in no id. -/
theorem notMem_uuid {c : Char} {id : String} (hid : IsUuid id) (hc : c ∉ uuidAlphabet) :
    c ∉ id.toList := fun h ↦ hc (mem_uuid hid h)

end ChatNow
