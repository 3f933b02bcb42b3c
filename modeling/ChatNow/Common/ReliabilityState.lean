import Mathlib.Data.List.TakeWhile
import Mathlib.Data.Nat.Bitwise

/-!
# Idempotency states and their text form

`common/utils/reliability_state.hpp`: the value a SendMessage request leaves in Redis under its
idempotency key is a text, `pending`, `accepted:<id>` or `persisted:<id>`, written by
`serialize_idempotency_state` in two services and read back by `parse_idempotency_state` in one.

The parser is the only place where a value written by the protocol could be misread, and a misread
value is deleted by the reader as `Corrupt`. So the fact the send protocol rests on is the round
trip: a state with a non-zero 64-bit id parses back to itself (`parse_serialize_pending`,
`parse_serialize_accepted`, `parse_serialize_persisted`), and in particular is never `Corrupt`.

What every other text is read as is told by `Denotes`. The parser cuts a text and converts it, and
both may throw: `parse_idempotency_state_or_throw` is the parser with what it throws, and nothing
escapes it.
-/

namespace ChatNow

/-- `IdempotencyStatus`. -/
inductive IdempotencyStatus
  | Empty
  | Pending
  | Accepted
  | Persisted
  | Corrupt
  deriving DecidableEq

/-- `IdempotencyState`; `message_id` is an `unsigned long long`. -/
structure IdempotencyState where
  status : IdempotencyStatus := .Empty
  message_id : ℕ := 0
  deriving DecidableEq

/-- `std::stoull` on a non-empty string of decimal digits: the value, or an exception past 64
bits. -/
def stoull (raw : List Char) : Option ℕ :=
  let id := Nat.ofDigitChars 10 raw 0
  if id < 2 ^ 64 then some id else none

/-- `std::stoull` on any text: blanks, a sign, and as many digits as there are. -/
def stoull_text (text : String) : Option ℕ :=
  let number (cs : List Char) : Option ℕ :=
    let digits := cs.takeWhile Char.isDigit
    if digits = [] then none else stoull digits
  match text.toList.dropWhile fun c ↦ c = ' ' ∨ '\t' ≤ c ∧ c ≤ '\r' with
  | '-' :: cs => (number cs).map fun n ↦ (2 ^ 64 - n) % 2 ^ 64
  | '+' :: cs => number cs
  | cs => number cs

/-- `std::stoull` reads a number back from its text. -/
theorem stoull_text_toString {n : ℕ} (h : n < 2 ^ 64) : stoull_text (toString n) = some n := by
  have hdigits : ∀ c ∈ Nat.toDigits 10 n, c.isDigit = true := fun c hc ↦
    Nat.isDigit_of_mem_toDigits (by decide) (by decide) hc
  have hvalue : Nat.ofDigitChars 10 (Nat.toDigits 10 n) 0 = n := Nat.ofDigitChars_ten_toDigits
  have hlist : (toString n).toList = Nat.toDigits 10 n := by simp
  rw [stoull_text, hlist]
  cases hd : Nat.toDigits 10 n with
  | nil => exact absurd hd Nat.toDigits_ne_nil
  | cons c cs =>
    rw [hd] at hdigits hvalue
    have hc := hdigits c List.mem_cons_self
    have hblank : ¬(c = ' ' ∨ '\t' ≤ c ∧ c ≤ '\r') := by
      rintro (rfl | ⟨-, hle⟩)
      · exact absurd hc (by decide)
      · obtain ⟨hlo, -⟩ := Char.isDigit_iff_toNat.1 hc
        have hle' : c.toNat ≤ '\r'.toNat := hle
        exact absurd (hlo.trans hle') (by decide)
    have htake : (c :: cs).takeWhile Char.isDigit = c :: cs :=
      List.takeWhile_eq_self_iff.2 hdigits
    rw [List.dropWhile_cons_of_neg (by simpa using hblank)]
    have hnumber : (if (c :: cs).takeWhile Char.isDigit = [] then none
        else stoull ((c :: cs).takeWhile Char.isDigit)) = some n := by
      rw [htake, if_neg (List.cons_ne_nil c cs), stoull, hvalue, if_pos h]
    split
    · next heq =>
      obtain ⟨rfl, -⟩ := List.cons.inj heq
      exact absurd hc (by decide)
    · next heq =>
      obtain ⟨rfl, -⟩ := List.cons.inj heq
      exact absurd hc (by decide)
    · exact hnumber

/-- The local `parse_with_prefix` of `parse_idempotency_state`: `Empty` when the prefix does not
match. -/
def parse_with_prefix (value : String) (pre : String) (status : IdempotencyStatus) :
    IdempotencyState :=
  if pre.toList.isPrefixOf value.toList then
    let raw_id := value.toList.drop pre.toList.length
    if raw_id.isEmpty || !raw_id.all Char.isDigit then ⟨.Corrupt, 0⟩
    else
      match stoull raw_id with
      | some id => if id = 0 then ⟨.Corrupt, 0⟩ else ⟨status, id⟩
      | none => ⟨.Corrupt, 0⟩
  else ⟨.Empty, 0⟩

/-- `parse_idempotency_state`. -/
def parse_idempotency_state (value : String) : IdempotencyState :=
  if value = "" then ⟨.Empty, 0⟩
  else if value = "pending" then ⟨.Pending, 0⟩
  else
    let accepted := parse_with_prefix value "accepted:" .Accepted
    if accepted.status ≠ .Empty then accepted
    else
      let persisted := parse_with_prefix value "persisted:" .Persisted
      if persisted.status ≠ .Empty then persisted
      else ⟨.Corrupt, 0⟩

/-- `serialize_idempotency_state`. -/
def serialize_idempotency_state (state : IdempotencyState) : String :=
  match state.status with
  | .Pending => "pending"
  | .Accepted => "accepted:" ++ toString state.message_id
  | .Persisted => "persisted:" ++ toString state.message_id
  | .Empty => ""
  | .Corrupt => ""

/-- `idempotency_key_for`. -/
def idempotency_key_for (uid client_msg_id : String) : String :=
  "im:msg:idem:" ++ uid ++ ":" ++ client_msg_id

/-! ### The round trip -/

/-- A prefix followed by the decimal text of a non-zero 64-bit number parses to that number. -/
theorem parse_with_prefix_append (pre : String) (status : IdempotencyStatus) {id : ℕ}
    (h0 : 0 < id) (h64 : id < 2 ^ 64) :
    parse_with_prefix (pre ++ toString id) pre status = ⟨status, id⟩ := by
  have hdigits : (Nat.toDigits 10 id).all Char.isDigit = true := by
    rw [List.all_eq_true]
    intro c hc
    exact Nat.isDigit_of_mem_toDigits (by decide) (by decide) hc
  have hne : (Nat.toDigits 10 id).isEmpty = false := by
    simp [Nat.toDigits_ne_nil]
  have hraw : (pre ++ toString id).toList.drop pre.toList.length = Nat.toDigits 10 id := by
    simp
  have hpre : pre.toList.isPrefixOf (pre ++ toString id).toList = true := by simp
  rw [ parse_with_prefix, if_pos hpre, hraw]
  simp only [hne, hdigits, stoull, Nat.ofDigitChars_ten_toDigits, if_pos h64]
  rw [if_neg (by simp), if_neg (by omega)]

@[simp] theorem parse_serialize_pending (id : ℕ) :
    parse_idempotency_state (serialize_idempotency_state ⟨.Pending, id⟩) = ⟨.Pending, 0⟩ := by
  simp [serialize_idempotency_state, parse_idempotency_state]

theorem ne_of_take_ne {s t : String} (n : ℕ) (h : s.toList.take n ≠ t.toList.take n) : s ≠ t := by
  rintro rfl
  exact h rfl

theorem parse_serialize_accepted {id : ℕ} (h0 : 0 < id) (h64 : id < 2 ^ 64) :
    parse_idempotency_state (serialize_idempotency_state ⟨.Accepted, id⟩) = ⟨.Accepted, id⟩ := by
  have hempty : "accepted:" ++ toString id ≠ "" := ne_of_take_ne 1 (by simp)
  have hpending : "accepted:" ++ toString id ≠ "pending" := ne_of_take_ne 1 (by simp)
  simp only [serialize_idempotency_state, parse_idempotency_state, if_neg hempty, if_neg hpending,
    parse_with_prefix_append _ _ h0 h64]
  rfl

theorem parse_serialize_persisted {id : ℕ} (h0 : 0 < id) (h64 : id < 2 ^ 64) :
    parse_idempotency_state (serialize_idempotency_state ⟨.Persisted, id⟩) = ⟨.Persisted, id⟩ := by
  have hempty : "persisted:" ++ toString id ≠ "" := ne_of_take_ne 1 (by simp)
  have hpending : "persisted:" ++ toString id ≠ "pending" := ne_of_take_ne 3 (by simp)
  have hacc :
      parse_with_prefix ("persisted:" ++ toString id) "accepted:" .Accepted = ⟨.Empty, 0⟩ := by
    simp [ parse_with_prefix, List.isPrefixOf]
  simp only [serialize_idempotency_state, parse_idempotency_state, if_neg hempty, if_neg hpending,
    hacc, parse_with_prefix_append _ _ h0 h64]
  rfl

/-! ### What is thrown -/

/-- `std::string::substr` to the end, which throws when it begins past the end. -/
def substr (s : List Char) (pos : ℕ) : Option (List Char) :=
  if pos ≤ s.length then some (s.drop pos) else none

/-- `parse_with_prefix` with what it throws; its `catch` is around the conversion only. -/
def parse_with_prefix_or_throw (value : String) (pre : String) (status : IdempotencyStatus) :
    Option IdempotencyState :=
  if pre.toList.isPrefixOf value.toList then
    (substr value.toList pre.toList.length).map fun raw_id ↦
      if raw_id.isEmpty || !raw_id.all Char.isDigit then ⟨.Corrupt, 0⟩
      else
        match stoull raw_id with
        | some id => if id = 0 then ⟨.Corrupt, 0⟩ else ⟨status, id⟩
        | none => ⟨.Corrupt, 0⟩
  else some ⟨.Empty, 0⟩

/-- `parse_idempotency_state` with what it throws. -/
def parse_idempotency_state_or_throw (value : String) : Option IdempotencyState :=
  if value = "" then some ⟨.Empty, 0⟩
  else if value = "pending" then some ⟨.Pending, 0⟩
  else
    (parse_with_prefix_or_throw value "accepted:" .Accepted).bind fun accepted ↦
      if accepted.status ≠ .Empty then some accepted
      else
        (parse_with_prefix_or_throw value "persisted:" .Persisted).map fun persisted ↦
          if persisted.status ≠ .Empty then persisted else ⟨.Corrupt, 0⟩

/-- Nothing escapes: the text is cut behind a prefix that it has. -/
theorem parse_with_prefix_or_throw_eq (value pre : String) (status : IdempotencyStatus) :
    parse_with_prefix_or_throw value pre status = some ( parse_with_prefix value pre status) := by
  rw [parse_with_prefix_or_throw, parse_with_prefix]
  split
  · next hpre =>
    have hlen : pre.toList.length ≤ value.toList.length :=
      (List.isPrefixOf_iff_prefix.1 hpre).length_le
    rw [substr, if_pos hlen]
    rfl
  · rfl

theorem parse_idempotency_state_or_throw_eq (value : String) :
    parse_idempotency_state_or_throw value = some (parse_idempotency_state value) := by
  rw [parse_idempotency_state_or_throw, parse_idempotency_state, parse_with_prefix_or_throw_eq,
    parse_with_prefix_or_throw_eq, Option.bind_some, Option.map_some]
  simp only [apply_ite some]

/-! ### What is read -/

/-- The text is the prefix and the digits of a non-zero 64-bit number. -/
structure IsPrefixed (value pre : String) (id : ℕ) : Prop where
  digits : ∃ ds : List Char, value.toList = pre.toList ++ ds ∧ ds ≠ [] ∧
    (∀ c ∈ ds, c.isDigit = true) ∧ Nat.ofDigitChars 10 ds 0 = id
  pos : 1 ≤ id
  lt : id < 2 ^ 64

/-- What a text stands for. -/
inductive Denotes (value : String) : IdempotencyState → Prop
  | empty (h : value = "") : Denotes value ⟨.Empty, 0⟩
  | pending (h : value = "pending") : Denotes value ⟨.Pending, 0⟩
  | accepted {id : ℕ} (h : IsPrefixed value "accepted:" id) : Denotes value ⟨.Accepted, id⟩
  | persisted {id : ℕ} (h : IsPrefixed value "persisted:" id) : Denotes value ⟨.Persisted, id⟩
  | corrupt (hempty : value ≠ "") (hpending : value ≠ "pending")
      (haccepted : ∀ id, ¬IsPrefixed value "accepted:" id)
      (hpersisted : ∀ id, ¬IsPrefixed value "persisted:" id) : Denotes value ⟨.Corrupt, 0⟩

namespace IsPrefixed

variable {value pre : String} {status : IdempotencyStatus} {id : ℕ}

theorem isPrefixOf (h : IsPrefixed value pre id) : pre.toList.isPrefixOf value.toList = true := by
  obtain ⟨ds, hvalue, -⟩ := h.digits
  exact List.isPrefixOf_iff_prefix.2 ⟨ds, hvalue.symm⟩

theorem parse_with_prefix_eq (h : IsPrefixed value pre id) :
    parse_with_prefix value pre status = ⟨status, id⟩ := by
  obtain ⟨ds, hvalue, hne, hdigits, hid⟩ := h.digits
  have hraw : value.toList.drop pre.toList.length = ds := by rw [hvalue, List.drop_left]
  have hall : ds.all Char.isDigit = true := List.all_eq_true.2 hdigits
  have hempty : ds.isEmpty = false := List.isEmpty_eq_false_iff.2 hne
  have hpos : id ≠ 0 := Nat.one_le_iff_ne_zero.1 h.pos
  rw [ parse_with_prefix, if_pos h.isPrefixOf, hraw]
  simp only [hempty, hall, stoull, hid, if_pos h.lt, if_neg hpos]
  rfl

/-- A text with the prefix that does not go on so is refused. -/
theorem corrupt_of_not (hpre : pre.toList.isPrefixOf value.toList = true)
    (h : ∀ id, ¬IsPrefixed value pre id) :
    parse_with_prefix value pre status = ⟨.Corrupt, 0⟩ := by
  obtain ⟨ds, hvalue⟩ := List.isPrefixOf_iff_prefix.1 hpre
  have hraw : value.toList.drop pre.toList.length = ds := by rw [← hvalue, List.drop_left]
  rw [ parse_with_prefix, if_pos hpre, hraw]
  dsimp only
  split
  · rfl
  · next hraw_id =>
    rw [Bool.or_eq_true, not_or, List.isEmpty_iff, Bool.not_eq_true', Bool.not_eq_false] at hraw_id
    obtain ⟨hne, hall⟩ := hraw_id
    simp only [stoull]
    split
    · next id heq =>
      split at heq
      · next hlt =>
        obtain rfl := Option.some.inj heq
        by_cases h0 : Nat.ofDigitChars 10 ds 0 = 0
        · exact if_pos h0
        · exact absurd ⟨⟨ds, hvalue.symm, hne, List.all_eq_true.1 hall, rfl⟩,
            Nat.one_le_iff_ne_zero.2 h0, hlt⟩ (h _)
      · cases heq
    · rfl

end IsPrefixed

theorem parse_with_prefix_of_not {value pre : String} {status : IdempotencyStatus}
    (h : pre.toList.isPrefixOf value.toList = false) :
    parse_with_prefix value pre status = ⟨.Empty, 0⟩ := by
  rw [ parse_with_prefix, if_neg (Bool.not_eq_true _ ▸ h)]

/-- No text has both prefixes. -/
theorem not_accepted_of_persisted {value : String}
    (h : "persisted:".toList.isPrefixOf value.toList = true) :
    "accepted:".toList.isPrefixOf value.toList = false := by
  obtain ⟨ds, hvalue⟩ := List.isPrefixOf_iff_prefix.1 h
  rw [← hvalue]
  rfl

/-- The parser, once the two texts without an id are out of the way. -/
theorem parse_idempotency_state_of_ne {value : String} (hempty : value ≠ "")
    (hpending : value ≠ "pending") : Denotes value (parse_idempotency_state value) := by
  rw [parse_idempotency_state, if_neg hempty, if_neg hpending]
  dsimp only
  cases ha : "accepted:".toList.isPrefixOf value.toList with
  | true =>
    by_cases hid : ∃ id, IsPrefixed value "accepted:" id
    · obtain ⟨id, h⟩ := hid
      rw [h.parse_with_prefix_eq]
      exact .accepted h
    · rw [not_exists] at hid
      rw [IsPrefixed.corrupt_of_not ha hid]
      refine .corrupt hempty hpending hid fun id h ↦ ?_
      exact Bool.false_ne_true ((not_accepted_of_persisted h.isPrefixOf).symm.trans ha)
  | false =>
    have hna (id : ℕ) (h : IsPrefixed value "accepted:" id) : False :=
      Bool.false_ne_true (ha.symm.trans h.isPrefixOf)
    rw [parse_with_prefix_of_not ha]
    cases hp : "persisted:".toList.isPrefixOf value.toList with
    | true =>
      by_cases hid : ∃ id, IsPrefixed value "persisted:" id
      · obtain ⟨id, h⟩ := hid
        rw [h.parse_with_prefix_eq]
        exact .persisted h
      · rw [not_exists] at hid
        rw [IsPrefixed.corrupt_of_not hp hid]
        exact .corrupt hempty hpending hna hid
    | false =>
      rw [parse_with_prefix_of_not hp]
      exact .corrupt hempty hpending hna fun id h ↦
        Bool.false_ne_true (hp.symm.trans h.isPrefixOf)

theorem IsPrefixed.value_ne {value pre other : String} {id : ℕ} (h : IsPrefixed value pre id)
    (hother : pre.toList.isPrefixOf other.toList = false) : value ≠ other := by
  rintro rfl
  exact Bool.false_ne_true (hother.symm.trans h.isPrefixOf)

/-- **The parser classifies every text** as what it stands for. -/
theorem parse_idempotency_state_iff {value : String} {state : IdempotencyState} :
    parse_idempotency_state value = state ↔ Denotes value state := by
  constructor
  · rintro rfl
    by_cases hempty : value = ""
    · rw [hempty]
      exact .empty rfl
    · by_cases hpending : value = "pending"
      · rw [hpending]
        exact .pending rfl
      · exact parse_idempotency_state_of_ne hempty hpending
  · intro h
    induction h with
    | empty h =>
      rw [h]
      rfl
    | pending h =>
      rw [h]
      rfl
    | accepted h =>
      rw [parse_idempotency_state, if_neg (h.value_ne rfl), if_neg (h.value_ne rfl),
        h.parse_with_prefix_eq]
      rfl
    | persisted h =>
      rw [parse_idempotency_state, if_neg (h.value_ne rfl), if_neg (h.value_ne rfl),
        parse_with_prefix_of_not (not_accepted_of_persisted h.isPrefixOf), h.parse_with_prefix_eq]
      rfl
    | corrupt hempty hpending haccepted hpersisted =>
      have h := parse_idempotency_state_of_ne hempty hpending
      generalize parse_idempotency_state value = state at h ⊢
      cases h with
      | empty h => exact absurd h hempty
      | pending h => exact absurd h hpending
      | accepted h => exact absurd h (haccepted _)
      | persisted h => exact absurd h (hpersisted _)
      | corrupt => rfl

/-- **The codec of the states**: what is written is read back, every text is read as what it stands
for and as nothing else, and no exception leaves the parser. -/
theorem idempotency_state_codec :
    (∀ state, state = ⟨.Pending, 0⟩ ∨ (state.status = .Accepted ∨ state.status = .Persisted) ∧
        1 ≤ state.message_id ∧ state.message_id < 2 ^ 64 →
      parse_idempotency_state (serialize_idempotency_state state) = state) ∧
    (∀ value state, parse_idempotency_state value = state ↔ Denotes value state) ∧
    ∀ value, parse_idempotency_state_or_throw value = some (parse_idempotency_state value) := by
  refine ⟨?_, fun _ _ ↦ parse_idempotency_state_iff, parse_idempotency_state_or_throw_eq⟩
  rintro ⟨status, id⟩ (h | ⟨rfl | rfl, h0, h64⟩)
  · rw [h]
    exact parse_serialize_pending 0
  · exact parse_serialize_accepted h0 h64
  · exact parse_serialize_persisted h0 h64

end ChatNow
