import ChatNow.Conversation.Tables
import ChatNow.Lib.Codec
import ChatNow.Lib.MySql

/-!
# The statement that advances a cursor

`_atomic_advance_seq` of `common/dao/mysql_conversation_member.hpp` does not go through ODB: it puts
the text of an `UPDATE` together, with the ids between quotes. `_escape_id` puts a backslash before
quotes and backslashes.

## Main results

* `literal_escape_id`: between quotes, an escaped id is a literal whose value is the id.
* `advance_names_its_member`: what the `UPDATE` names.
* `reaches_iff_key`: it reaches the row of the key that the operations of the conversation service
  advance.
-/

namespace ChatNow

open MySql
open Wire.ValueCodec (utf8)

/-- `_escape_id`. -/
def escape_id : Bytes → Bytes
  | [] => []
  | c :: s => (if c = quote ∨ c = backslash then [backslash, c] else [c]) ++ escape_id s

/-- The columns that are advanced. -/
inductive SeqColumn
  | last_read_seq
  | last_ack_seq
  deriving DecidableEq

/-- The name of the column. -/
def SeqColumn.name : SeqColumn → Bytes
  | last_read_seq => utf8 "last_read_seq"
  | last_ack_seq => utf8 "last_ack_seq"

/-- A number, as a stream prints it. -/
def decimal (n : ℕ) : Bytes := (Nat.toDigits 10 n).map Char.toUInt8

/-- The statement of `_atomic_advance_seq`. -/
def atomic_advance_seq (column : SeqColumn) (ssid uid : Bytes) (new_seq : UInt64) : Bytes :=
  utf8 "UPDATE conversation_member SET " ++ column.name ++
    utf8 " = GREATEST(" ++ column.name ++ utf8 ", " ++ decimal new_seq.toNat ++ utf8 ")" ++
    utf8 " WHERE conversation_id = '" ++ escape_id ssid ++ utf8 "'" ++
    utf8 "   AND user_id = '" ++ escape_id uid ++ utf8 "'"

/-! ### What a statement names -/

/-- An `UPDATE` of one column to the greatest of some values. -/
structure GreatestUpdate where
  table : Bytes
  column : Bytes
  values : List Bytes
  /-- The columns and values that the rows must agree with. -/
  conditions : List (Bytes × Bytes)
  deriving DecidableEq

/-- The conditions behind `WHERE`. -/
def read_conditions : List Token → Option (List (Bytes × Bytes))
  | [.word k, .punct e, .literal v] => if e = '='.toUInt8 then some [(k, v)] else none
  | .word k :: .punct e :: .literal v :: .word a :: ts =>
    if e = '='.toUInt8 ∧ a = utf8 "AND" then (read_conditions ts).map ((k, v) :: ·) else none
  | _ => none

/-- The values of `GREATEST`, up to the closing parenthesis. -/
def read_values : List Token → Option (List Bytes × List Token)
  | .word v :: .punct e :: ts =>
    if e = ')'.toUInt8 then some ([v], ts)
    else if e = ','.toUInt8 then (read_values ts).map fun (vs, ts) ↦ (v :: vs, ts)
    else none
  | _ => none

/-- What a statement updates, and where. -/
def read_update : List Token → Option GreatestUpdate
  | .word update :: .word table :: .word set :: .word column :: .punct e :: .word greatest ::
      .punct p :: ts =>
    if update = utf8 "UPDATE" ∧ set = utf8 "SET" ∧ e = '='.toUInt8 ∧ greatest = utf8 "GREATEST" ∧
        p = '('.toUInt8 then
      match read_values ts with
      | some (values, .word w :: ts) =>
        if w = utf8 "WHERE" then
          (read_conditions ts).map fun conditions ↦ { table, column, values, conditions }
        else none
      | _ => none
    else none
  | _ => none

/-- The update reaches a row, given by its columns. -/
def GreatestUpdate.Reaches (u : GreatestUpdate) (row : Bytes → Bytes) : Prop :=
  ∀ c ∈ u.conditions, row c.1 = c.2

/-! ### Literals -/

section Literal

variable {cs : Charset} {s t : Bytes}

/-- What stands at the beginning of an escaped text and is neither quote nor backslash stands at the
beginning of the text. -/
theorem exists_of_plain {n : ℕ}
    (h : ∀ c ∈ (escape_id s ++ quote :: t).take n, c ≠ quote ∧ c ≠ backslash) :
    ∃ w s', s = w ++ s' ∧ w.length = n ∧ escape_id s = w ++ escape_id s' := by
  induction n generalizing s with
  | zero => exact ⟨[], s, rfl, rfl, rfl⟩
  | succ n ih =>
    cases s with
    | nil => exact absurd rfl (h quote List.mem_cons_self).1
    | cons c s =>
      by_cases hc : c = quote ∨ c = backslash
      · rw [escape_id, if_pos hc] at h
        exact absurd rfl (h backslash List.mem_cons_self).2
      · rw [escape_id, if_neg hc] at h ⊢
        obtain ⟨w, s', rfl, rfl, hw⟩ := ih fun d hd ↦ h d (List.mem_cons_of_mem c hd)
        exact ⟨c :: w, s', rfl, rfl, by rw [hw]; rfl⟩

/-- **An escaped text is a literal for the text**: the scanner is at the beginning of an escaped
rest after every character. -/
theorem literal_escape_id (ht : t.head? ≠ some quote) :
    literal cs quote (escape_id s ++ quote :: t) = some (s, t) := by
  induction hn : s.length using Nat.strong_induction_on generalizing s with
  | _ n ih =>
    subst hn
    cases s with
    | nil => exact literal_close ht
    | cons c s =>
      have hrec : literal cs quote (escape_id s ++ quote :: t) = some (s, t) :=
        ih s.length (Nat.lt_succ_self _) rfl
      by_cases hc : c = quote ∨ c = backslash
      · have hunescape : unescape c = [c] := by
          rcases hc with rfl | rfl <;> decide
        rw [escape_id, if_pos hc]
        show literal cs quote (backslash :: c :: (escape_id s ++ quote :: t)) = _
        rw [literal_escape, hrec, Option.map_some, hunescape]
        rfl
      · rcases Nat.eq_zero_or_pos (cs.ismbchar (escape_id (c :: s) ++ quote :: t)) with hmb | hmb
        · rw [escape_id, if_neg hc, List.append_assoc, List.singleton_append] at hmb ⊢
          rw [literal_cons hmb (mt .inr hc) (mt .inl hc), hrec]
          rfl
        · -- the character is a part of the text, as it has no quote and no backslash
          obtain ⟨w, s', hs, hlen, hw⟩ :=
            exists_of_plain (cs.plain (escape_id (c :: s) ++ quote :: t))
          have hne : w ≠ [] := List.ne_nil_of_length_pos (hlen ▸ hmb)
          have hshort : s'.length < (c :: s).length := by
            have hpos := List.length_pos_of_ne_nil hne
            rw [hs, List.length_append]
            omega
          rw [hw, List.append_assoc] at hlen ⊢
          rw [literal_mbchar hne hlen.symm, ih s'.length hshort rfl, Option.map_some, hs]

end Literal

/-! ### The statement -/

section Statement

variable {cs : Charset} {column : SeqColumn} {ssid uid s : Bytes} {new_seq : UInt64}

/-- A word and the blank behind it. -/
theorem lex_word_blank {w : Bytes} (hne : w ≠ []) (hw : ∀ c ∈ w, isWord c = true) :
    lex cs (w ++ 0x20 :: s) = (lex cs s).map (.word w :: ·) := by
  rw [lex_word hne hw rfl, lex_space rfl rfl]

/-- The columns are words. -/
theorem SeqColumn.isWord_of_mem {c : UInt8} (hc : c ∈ column.name) : isWord c = true := by
  have hall : column.name.all isWord = true := by cases column <;> decide
  exact List.all_eq_true.1 hall c hc

theorem SeqColumn.name_ne_nil : column.name ≠ [] := by cases column <;> decide

theorem decimal_ne_nil (n : ℕ) : decimal n ≠ [] := by
  rw [decimal, Ne, List.map_eq_nil_iff]
  exact Nat.toDigits_ne_nil

theorem isWord_of_mem_decimal {n : ℕ} {c : UInt8} (hc : c ∈ decimal n) : isWord c = true := by
  obtain ⟨d, hd, rfl⟩ := List.mem_map.1 hc
  have hdigit : d.isDigit = true := Nat.isDigit_of_mem_toDigits (by decide) (by decide) hd
  obtain ⟨hzero, hnine⟩ := Wire.ValueCodec.toUInt8_of_isDigit hdigit
  simp [isWord, hzero, hnine]

/-- The text, word by word. -/
theorem atomic_advance_seq_eq : atomic_advance_seq column ssid uid new_seq =
    utf8 "UPDATE" ++ 0x20 :: (utf8 "conversation_member" ++ 0x20 :: (utf8 "SET" ++ 0x20 ::
      (column.name ++ 0x20 :: '='.toUInt8 :: 0x20 :: (utf8 "GREATEST" ++ '('.toUInt8 ::
        (column.name ++ ','.toUInt8 :: 0x20 :: (decimal new_seq.toNat ++ ')'.toUInt8 :: 0x20 ::
          (utf8 "WHERE" ++ 0x20 :: (utf8 "conversation_id" ++ 0x20 :: '='.toUInt8 :: 0x20 ::
            quote :: (escape_id ssid ++ quote :: 0x20 :: 0x20 :: 0x20 :: (utf8 "AND" ++ 0x20 ::
              (utf8 "user_id" ++ 0x20 :: '='.toUInt8 :: 0x20 :: quote ::
                (escape_id uid ++ [quote])))))))))))) := by
  have h₁ : utf8 "UPDATE conversation_member SET " =
    utf8 "UPDATE" ++ 0x20 :: (utf8 "conversation_member" ++ 0x20 :: (utf8 "SET" ++ [0x20])) := by
    decide
  have h₂ : utf8 " = GREATEST(" =
    0x20 :: '='.toUInt8 :: 0x20 :: (utf8 "GREATEST" ++ ['('.toUInt8]) := by decide
  have h₃ : utf8 ", " = [','.toUInt8, 0x20] := by decide
  have h₄ : utf8 ")" = [')'.toUInt8] := by decide
  have h₅ : utf8 " WHERE conversation_id = '" = 0x20 :: (utf8 "WHERE" ++ 0x20 ::
    (utf8 "conversation_id" ++ [0x20, '='.toUInt8, 0x20, quote])) := by decide
  have h₆ : utf8 "'" = [quote] := by decide
  have h₇ : utf8 "   AND user_id = '" = 0x20 :: 0x20 :: 0x20 :: (utf8 "AND" ++ 0x20 ::
    (utf8 "user_id" ++ [0x20, '='.toUInt8, 0x20, quote])) := by decide
  rw [atomic_advance_seq, h₁, h₂, h₃, h₄, h₅, h₆, h₇]
  simp only [List.append_assoc, List.cons_append, List.nil_append]

/-- **The tokens of the statement.** -/
theorem lex_atomic_advance_seq : lex cs (atomic_advance_seq column ssid uid new_seq) =
    some [.word (utf8 "UPDATE"), .word (utf8 "conversation_member"), .word (utf8 "SET"),
      .word column.name, .punct '='.toUInt8, .word (utf8 "GREATEST"), .punct '('.toUInt8,
      .word column.name, .punct ','.toUInt8, .word (decimal new_seq.toNat), .punct ')'.toUInt8,
      .word (utf8 "WHERE"), .word (utf8 "conversation_id"), .punct '='.toUInt8, .literal ssid,
      .word (utf8 "AND"), .word (utf8 "user_id"), .punct '='.toUInt8, .literal uid] := by
  have hword {w : Bytes} (hw : w.all isWord = true) : ∀ c ∈ w, isWord c = true :=
    List.all_eq_true.1 hw
  have hstop {c : UInt8} {t : Bytes} (hc : isWord c = false) :
      (c :: t).head?.all (!isWord ·) = true := by
    rw [List.head?_cons, Option.all_some, hc]
    rfl
  have hblank {t : Bytes} : lex cs (0x20 :: t) = lex cs t := lex_space rfl rfl
  have hequals {t : Bytes} : lex cs ('='.toUInt8 :: t) = (lex cs t).map (.punct '='.toUInt8 :: ·) :=
    lex_punct (by decide)
  have hconversation {t : Bytes} :
      literal cs quote (escape_id ssid ++ quote :: 0x20 :: t) = some (ssid, 0x20 :: t) :=
    literal_escape_id fun h ↦ absurd (Option.some.inj h) (by decide)
  have huser : literal cs quote (escape_id uid ++ [quote]) = some (uid, []) :=
    literal_escape_id (t := []) (Option.some_ne_none quote).symm
  rw [atomic_advance_seq_eq,
    lex_word_blank (by decide) (hword (by decide)), lex_word_blank (by decide) (hword (by decide)),
    lex_word_blank (by decide) (hword (by decide)),
    lex_word_blank SeqColumn.name_ne_nil fun _ ↦ SeqColumn.isWord_of_mem, hequals, hblank,
    lex_word (by decide) (hword (by decide)) (hstop (by decide)), lex_punct (by decide),
    lex_word SeqColumn.name_ne_nil (fun _ ↦ SeqColumn.isWord_of_mem) (hstop (by decide)),
    lex_punct (by decide), hblank,
    lex_word (decimal_ne_nil _) (fun _ ↦ isWord_of_mem_decimal) (hstop (by decide)),
    lex_punct (by decide), hblank, lex_word_blank (by decide) (hword (by decide)),
    lex_word_blank (by decide) (hword (by decide)), hequals, hblank,
    lex_literal hconversation, hblank, hblank, hblank,
    lex_word_blank (by decide) (hword (by decide)), lex_word_blank (by decide) (hword (by decide)),
    hequals, hblank, lex_literal huser, lex_nil]
  rfl

/-- What the statement of a cursor is. -/
def advanceUpdate (column : SeqColumn) (ssid uid : Bytes) (new_seq : UInt64) : GreatestUpdate where
  table := utf8 "conversation_member"
  column := column.name
  values := [column.name, decimal new_seq.toNat]
  conditions := [(utf8 "conversation_id", ssid), (utf8 "user_id", uid)]

theorem read_atomic_advance_seq :
    (lex cs (atomic_advance_seq column ssid uid new_seq)).bind read_update =
      some (advanceUpdate column ssid uid new_seq) := by
  rw [lex_atomic_advance_seq]
  rfl

theorem reaches_advanceUpdate {row : Bytes → Bytes} :
    (advanceUpdate column ssid uid new_seq).Reaches row ↔
      row (utf8 "conversation_id") = ssid ∧ row (utf8 "user_id") = uid := by
  rw [GreatestUpdate.Reaches, advanceUpdate, List.forall_mem_cons, List.forall_mem_singleton]

/-- The ids in a row. -/
def ConversationMember.ids (m : ConversationMember) (column : Bytes) : Bytes :=
  if column = utf8 "conversation_id" then utf8 m.conversation_id
  else if column = utf8 "user_id" then utf8 m.user_id
  else []

theorem utf8_injective {s t : String} (h : utf8 s = utf8 t) : s = t := by
  have heq : some s = some t := by
    rw [← Wire.ValueCodec.ofUtf8_utf8 s, h, Wire.ValueCodec.ofUtf8_utf8]
  exact Option.some.inj heq

/-- The row that is reached is the one that is found by its key. -/
theorem reaches_iff_key {cid uid : String} {m : ConversationMember} :
    (advanceUpdate column (utf8 cid) (utf8 uid) new_seq).Reaches m.ids ↔ m.key = (cid, uid) := by
  have hcid : m.ids (utf8 "conversation_id") = utf8 m.conversation_id := if_pos rfl
  have huid : m.ids (utf8 "user_id") = utf8 m.user_id :=
    (if_neg (by decide)).trans (if_pos rfl)
  rw [reaches_advanceUpdate, hcid, huid, ConversationMember.key, Prod.mk.injEq]
  exact and_congr ⟨utf8_injective, congrArg utf8⟩ ⟨utf8_injective, congrArg utf8⟩

end Statement

/-- **Ids cannot leave their literals.** In every character set in which the quote and the backslash
only stand for themselves: the scanner reads an escaped text between quotes up to the closing quote,
and its value is the text. So for every column, every number and every pair of ids, the statement is
an `UPDATE` of that column in the rows with these ids. -/
theorem advance_names_its_member (cs : Charset) :
    (∀ s t : Bytes, t.head? ≠ some quote →
      literal cs quote (escape_id s ++ quote :: t) = some (s, t)) ∧
    ∀ (column : SeqColumn) (ssid uid : Bytes) (new_seq : UInt64),
      (lex cs (atomic_advance_seq column ssid uid new_seq)).bind read_update =
        some (advanceUpdate column ssid uid new_seq) ∧
      ∀ row, (advanceUpdate column ssid uid new_seq).Reaches row ↔
        row (utf8 "conversation_id") = ssid ∧ row (utf8 "user_id") = uid :=
  ⟨fun _ _ ht ↦ literal_escape_id ht,
    fun _ _ _ _ ↦ ⟨read_atomic_advance_seq, fun _ ↦ reaches_advanceUpdate⟩⟩

/-- An id that would close its literal, and one that ends with a backslash. -/
theorem advance_names_its_member_hostile :
    literal utf8mb4 quote (escape_id (utf8 "\\' OR ''='") ++ [quote]) =
        some (utf8 "\\' OR ''='", []) ∧
      (lex utf8mb4 (atomic_advance_seq .last_ack_seq (utf8 "g_1\\") (utf8 "\\' OR ''='") 7)).bind
          read_update =
        some { table := utf8 "conversation_member", column := utf8 "last_ack_seq",
               values := [utf8 "last_ack_seq", utf8 "7"],
               conditions := [(utf8 "conversation_id", utf8 "g_1\\"),
                 (utf8 "user_id", utf8 "\\' OR ''='")] } := by
  obtain ⟨hliteral, hstatement⟩ := advance_names_its_member utf8mb4
  refine ⟨hliteral _ [] (Option.some_ne_none quote).symm, (hstatement _ _ _ 7).1.trans ?_⟩
  decide

end ChatNow
