import ChatNow.Lib.Base64
import ChatNow.Lib.MachineInt
import ChatNow.Push.OutboxReaper

/-!
# Payloads in base64

What is to be sent again is kept in Redis as base64, by two small functions of
`push/source/push_server.h` around the block functions of OpenSSL: `_utils_base64_encode` and
`_utils_base64_decode`. Each allocates a buffer whose size it has computed in an `int`, lets the
library write into it, and cuts off the rest. The library decodes whole blocks, so the decoder has
to find out how many bytes there were, which it does by counting padding characters.

The block functions are parameters, and `BlockFunctions` is what is known of them.
-/

namespace ChatNow

open MachineInt

/-- What OpenSSL says of its block functions: `EVP_EncodeBlock` writes the padded encoding, and
`EVP_DecodeBlock`, on a text of whole blocks, three bytes for each. -/
structure BlockFunctions (EVP_EncodeBlock : List UInt8 → String) (libs : OutboxLibs) : Prop where
  encode : ∀ x, EVP_EncodeBlock x = String.ofList (Base64.encode x)
  decode : ∀ s out, Base64.decodeBlock s.toList = some out → libs.EVP_DecodeBlock s = some out

/-- `_utils_base64_encode`; `none` when the buffer is too small. The zero that is written behind the
text stands where the string has its own. -/
def utils_base64_encode (EVP_EncodeBlock : List UInt8 → String) (x : List UInt8) : Option String :=
  let cap := wrap 32 ((x.length + 2) / 3 * 4 : ℕ)
  let out := EVP_EncodeBlock (x.take (wrap 32 x.length).toNat)
  if out.length ≤ cap then some out else none

/-- `_utils_base64_decode` with its buffer; `none` when that is too small. -/
def utils_base64_decode_into (libs : OutboxLibs) (s : String) : Option (List UInt8) :=
  if s = "" then some []
  else
    let cap := (wrap 32 s.length).tdiv 4 * 3 + 1
    match libs.EVP_DecodeBlock s with
    | none => some []
    | some out => if out.length ≤ cap then some (utils_base64_decode libs s) else none

variable {EVP_EncodeBlock : List UInt8 → String} {libs : OutboxLibs} {x : List UInt8}

theorem length_encoded (x : List UInt8) :
    (String.ofList (Base64.encode x)).length = (x.length + 2) / 3 * 4 := by
  rw [String.length_ofList, Base64.length_encode]

theorem encoded_ne_empty (hx : x ≠ []) : String.ofList (Base64.encode x) ≠ "" := by
  intro heq
  have hpos : 0 < x.length := List.length_pos_iff.2 hx
  have hzero := congrArg String.length heq
  rw [length_encoded, String.length_empty] at hzero
  omega

theorem decodeBlock_eq (h : BlockFunctions EVP_EncodeBlock libs) :
    libs.EVP_DecodeBlock (String.ofList (Base64.encode x)) =
      some (x ++ List.replicate (Base64.pads x.length) 0) :=
  h.decode _ _ (by rw [String.toList_ofList, Base64.decodeBlock_encode])

theorem encode_eq (h : BlockFunctions EVP_EncodeBlock libs) (hx : x.length < 2 ^ 30) :
    utils_base64_encode EVP_EncodeBlock x = some (String.ofList (Base64.encode x)) := by
  have hlen : wrap 32 x.length = x.length :=
    wrap_of_fits (by decide) ⟨by omega, by norm_num; omega⟩
  have hcap : wrap 32 ((x.length + 2) / 3 * 4 : ℕ) = ((x.length + 2) / 3 * 4 : ℕ) :=
    wrap_of_fits (by decide) ⟨by omega, by norm_num; omega⟩
  rw [utils_base64_encode, hlen, hcap, Int.toNat_natCast, List.take_length, h.encode]
  exact if_pos (by rw [length_encoded])

/-- Cutting off as many bytes as there are padding characters leaves what was written. -/
theorem decode_eq (h : BlockFunctions EVP_EncodeBlock libs) (hx : x ≠ []) :
    utils_base64_decode libs (String.ofList (Base64.encode x)) = x := by
  have hpos : 0 < x.length := List.length_pos_iff.2 hx
  have hlen : (x ++ List.replicate (Base64.pads x.length) (0 : UInt8)).length =
      x.length + Base64.pads x.length := by
    rw [List.length_append, List.length_replicate]
  rw [utils_base64_decode, if_neg (encoded_ne_empty hx), decodeBlock_eq h]
  simp only [String.toList_ofList, Base64.count_encode, hlen, Nat.add_sub_cancel, List.take_left]
  exact if_pos (by omega)

/-- **The round trip**: what has been encoded is decoded to the same bytes, and neither buffer is
too small. -/
theorem base64_round_trip (h : BlockFunctions EVP_EncodeBlock libs) (hx : x.length < 2 ^ 30) :
    (utils_base64_encode EVP_EncodeBlock x).bind (utils_base64_decode_into libs) = some x := by
  rw [encode_eq h hx, Option.bind_some, utils_base64_decode_into]
  by_cases hnil : x = []
  · rw [hnil]
    rfl
  · have hwrap : wrap 32 (String.ofList (Base64.encode x)).length =
        ((x.length + 2) / 3 * 4 : ℕ) := by
      rw [length_encoded]
      exact wrap_of_fits (by decide) ⟨by omega, by norm_num; omega⟩
    have hroom : ((x ++ List.replicate (Base64.pads x.length) (0 : UInt8)).length : ℤ) ≤
        (((x.length + 2) / 3 * 4 : ℕ) : ℤ).tdiv 4 * 3 + 1 := by
      rw [List.length_append, List.length_replicate, Base64.pads,
        Int.tdiv_eq_ediv_of_nonneg (Int.natCast_nonneg _)]
      omega
    rw [if_neg (encoded_ne_empty hnil), decodeBlock_eq h, hwrap]
    simp only [if_pos hroom, decode_eq h hnil]

/-- The functions of the library, on texts without blanks. -/
def evpLibs : OutboxLibs where
  picojson_parse _ := none
  EVP_DecodeBlock s := Base64.decodeBlock s.toList

theorem base64_round_trip_zeros :
    (utils_base64_encode (fun x ↦ String.ofList (Base64.encode x)) [104, 105, 0, 0]).bind
      (utils_base64_decode_into evpLibs) = some [104, 105, 0, 0] :=
  base64_round_trip ⟨fun _ ↦ rfl, fun _ _ h ↦ h⟩ (by decide)

end ChatNow
