import Mathlib.Data.List.Forall2
import Mathlib.Data.Nat.Bitwise

/-!
# JSON texts of bytes

The grammar of RFC 8259 as a reader of bytes. Within a string every byte from `0x20` on stands for
itself, except the quote and the backslash; an escape stands for the UTF-8 bytes of its character.

A reader takes the beginning of a text and gives back what stands behind it. `Encodes` says of a
text that a reader takes exactly this and finds a certain value, whatever stands behind it. It goes
from strings to members, from members to objects and from a value to a whole text
(`encodes_string`, `encodes_member`, `encodes_object`, `parse_of_encodes`).
-/

namespace JsonText

abbrev Bytes := List UInt8

def quote : UInt8 := '"'.toUInt8

def backslash : UInt8 := '\\'.toUInt8

inductive Value
  | string (s : Bytes)
  /-- A number, by its text. -/
  | number (text : Bytes)
  | bool (b : Bool)
  | null
  | array (elements : List Value)
  | object (members : List (Bytes × Value))

/-! ### Strings -/

def hexValue (c : UInt8) : Option ℕ :=
  if '0'.toUInt8 ≤ c ∧ c ≤ '9'.toUInt8 then some (c.toNat - '0'.toNat)
  else if 'A'.toUInt8 ≤ c ∧ c ≤ 'F'.toUInt8 then some (c.toNat - 'A'.toNat + 10)
  else if 'a'.toUInt8 ≤ c ∧ c ≤ 'f'.toUInt8 then some (c.toNat - 'a'.toNat + 10)
  else none

/-- Four hexadecimal digits. -/
def quad : Bytes → Option (ℕ × Bytes)
  | a :: b :: c :: d :: s => do
    let a ← hexValue a
    let b ← hexValue b
    let c ← hexValue c
    let d ← hexValue d
    return (((a * 16 + b) * 16 + c) * 16 + d, s)
  | _ => none

/-- The second half of a surrogate pair. -/
def secondHalf : Bytes → Option (ℕ × Bytes)
  | c :: d :: s =>
    if c = backslash ∧ d = 'u'.toUInt8 then
      (quad s).filter fun (low, _) ↦ 0xdc00 ≤ low && low ≤ 0xdfff
    else none
  | _ => none

/-- The character of an escape with four digits, or with twice as many. A half of a pair that
stands alone is no character. -/
def codePoint (s : Bytes) : Option (Char × Bytes) :=
  (quad s).bind fun (n, s) ↦
    if 0xd800 ≤ n ∧ n ≤ 0xdbff then
      (secondHalf s).map fun (low, s) ↦
        (.ofNat (0x10000 + (n - 0xd800) * 0x400 + (low - 0xdc00)), s)
    else if 0xdc00 ≤ n ∧ n ≤ 0xdfff then none
    else some (.ofNat n, s)

/-- An escape, behind its backslash. -/
def escape : Bytes → Option (Bytes × Bytes)
  | [] => none
  | c :: s =>
    if c = quote ∨ c = backslash ∨ c = '/'.toUInt8 then some ([c], s)
    else if c = 'b'.toUInt8 then some ([0x08], s)
    else if c = 'f'.toUInt8 then some ([0x0c], s)
    else if c = 'n'.toUInt8 then some ([0x0a], s)
    else if c = 'r'.toUInt8 then some ([0x0d], s)
    else if c = 't'.toUInt8 then some ([0x09], s)
    else if c = 'u'.toUInt8 then (codePoint s).map fun (c, s) ↦ (String.utf8EncodeChar c, s)
    else none

theorem quad_length {s r : Bytes} {n : ℕ} (h : quad s = some (n, r)) : r.length ≤ s.length := by
  unfold quad at h
  split at h
  · simp only [Option.bind_eq_bind, Option.bind_eq_some_iff] at h
    obtain ⟨a, -, b, -, c, -, d, -, heq⟩ := h
    obtain ⟨-, rfl⟩ := Prod.mk.inj (Option.some.inj heq)
    simp only [List.length_cons]
    omega
  · cases h

theorem secondHalf_length {s r : Bytes} {n : ℕ} (h : secondHalf s = some (n, r)) :
    r.length ≤ s.length := by
  unfold secondHalf at h
  split at h
  · split at h
    · have hlen := quad_length (Option.filter_eq_some_iff.1 h).1
      simp only [List.length_cons]
      omega
    · cases h
  · cases h

theorem codePoint_length {s r : Bytes} {c : Char} (h : codePoint s = some (c, r)) :
    r.length ≤ s.length := by
  obtain ⟨⟨n, t⟩, hquad, h⟩ := Option.bind_eq_some_iff.1 h
  have hlen := quad_length hquad
  dsimp only at h
  split at h
  · obtain ⟨⟨low, r'⟩, hlow, heq⟩ := Option.map_eq_some_iff.1 h
    obtain ⟨-, rfl⟩ := Prod.mk.inj heq
    exact Nat.le_trans (secondHalf_length hlow) hlen
  · split at h
    · cases h
    · obtain ⟨-, rfl⟩ := Prod.mk.inj (Option.some.inj h)
      exact hlen

theorem escape_length {s v r : Bytes} (h : escape s = some (v, r)) : r.length ≤ s.length := by
  cases s with
  | nil => cases h
  | cons c s =>
    have hsimple {w : Bytes} (h : some (w, s) = some (v, r)) : r.length ≤ (c :: s).length := by
      obtain ⟨-, rfl⟩ := Prod.mk.inj (Option.some.inj h)
      exact Nat.le_succ _
    rw [escape] at h
    split at h
    · exact hsimple h
    split at h
    · exact hsimple h
    split at h
    · exact hsimple h
    split at h
    · exact hsimple h
    split at h
    · exact hsimple h
    split at h
    · exact hsimple h
    split at h
    · obtain ⟨⟨d, r'⟩, hcode, heq⟩ := Option.map_eq_some_iff.1 h
      obtain ⟨-, rfl⟩ := Prod.mk.inj heq
      exact Nat.le_succ_of_le (codePoint_length hcode)
    · cases h

/-- A string, behind its opening quote. -/
def string : Bytes → Option (Bytes × Bytes)
  | [] => none
  | c :: s =>
    if c = quote then some ([], s)
    else if c = backslash then
      match _h : escape s with
      | none => none
      | some (e, s) => (string s).map fun (v, r) ↦ (e ++ v, r)
    else if c < 0x20 then none
    else (string s).map fun (v, r) ↦ (c :: v, r)
termination_by s => s.length
decreasing_by
  · have := escape_length _h
    simp only [List.length_cons]
    omega
  · simp

/-- The byte stands for itself in a string. -/
def Plain (c : UInt8) : Prop := c ≠ quote ∧ c ≠ backslash ∧ 0x20 ≤ c

instance (c : UInt8) : Decidable (Plain c) := inferInstanceAs (Decidable (_ ∧ _))

section String

variable {c : UInt8} {s t v r : Bytes}

/-- One byte or one escape of a string. -/
theorem string_round : string (c :: s) =
    if c = quote then some ([], s)
    else if c = backslash then
      (escape s).bind fun (e, s) ↦ (string s).map fun (v, r) ↦ (e ++ v, r)
    else if c < 0x20 then none
    else (string s).map fun (v, r) ↦ (c :: v, r) := by
  rw [string]
  congr 2
  cases escape s with
  | none => rfl
  | some es => rfl

theorem string_quote : string (quote :: s) = some ([], s) := by
  rw [string_round, if_pos rfl]

theorem string_escape {e : Bytes} (h : escape s = some (e, t)) :
    string (backslash :: s) = (string t).map fun (v, r) ↦ (e ++ v, r) := by
  rw [string_round, if_neg (by decide), if_pos rfl, h, Option.bind_some]

theorem string_cons (hc : Plain c) :
    string (c :: s) = (string s).map fun (v, r) ↦ (c :: v, r) := by
  rw [string_round, if_neg hc.1, if_neg hc.2.1, if_neg (UInt8.not_lt.2 hc.2.2)]

end String

/-! ### Numbers -/

def isDigit (c : UInt8) : Bool := '0'.toUInt8 ≤ c && c ≤ '9'.toUInt8

/-- A byte that a number may have. -/
def numberByte (c : UInt8) : Bool :=
  isDigit c || c = '-'.toUInt8 || c = '+'.toUInt8 || c = '.'.toUInt8 || c = 'e'.toUInt8 ||
    c = 'E'.toUInt8

/-- An exponent, or nothing. -/
def isExponent : Bytes → Bool
  | [] => true
  | c :: s =>
    let digits := if s.head? = some '-'.toUInt8 ∨ s.head? = some '+'.toUInt8 then s.tail else s
    (c = 'e'.toUInt8 || c = 'E'.toUInt8) && digits ≠ [] && digits.all isDigit

/-- What may stand behind the whole part of a number. -/
def isFraction : Bytes → Bool
  | [] => true
  | c :: s =>
    if c = '.'.toUInt8 then s.takeWhile isDigit ≠ [] && isExponent (s.dropWhile isDigit)
    else isExponent (c :: s)

/-- A number: its whole part has no zeros before other digits. -/
def isNumber (s : Bytes) : Bool :=
  let s := if s.head? = some '-'.toUInt8 then s.tail else s
  let whole := s.takeWhile isDigit
  whole ≠ [] && (whole.head? ≠ some '0'.toUInt8 || whole.length = 1) &&
    isFraction (s.dropWhile isDigit)

/-! ### Values -/

def isSpace (c : UInt8) : Bool := c = 0x20 || c = 0x09 || c = 0x0a || c = 0x0d

/-- The text without the white space at its beginning. -/
def skipSpace (s : Bytes) : Bytes := s.dropWhile isSpace

/-- The text behind a structural character. -/
def expect (c : UInt8) (s : Bytes) : Option Bytes :=
  match skipSpace s with
  | [] => none
  | d :: s => if d = c then some s else none

/-- The text behind a word. -/
def word (w s : Bytes) : Option Bytes := if w.isPrefixOf s then some (s.drop w.length) else none

/-- Elements with commas between them, up to a closing bracket. Their number is bounded. -/
def items {α : Type} (elem : Bytes → Option (α × Bytes)) (closing : UInt8) :
    ℕ → Bytes → Option (List α × Bytes)
  | 0, _ => none
  | n + 1, s => (elem s).bind fun (a, s) ↦
    match expect ','.toUInt8 s with
    | some s => (items elem closing n s).map fun (as, s) ↦ (a :: as, s)
    | none => (expect closing s).map fun s ↦ ([a], s)

section Nested

variable (value : Bytes → Option (Value × Bytes))

/-- A name, a colon and a value. -/
def member (s : Bytes) : Option ((Bytes × Value) × Bytes) :=
  (expect quote s).bind fun s ↦ (string s).bind fun (k, s) ↦ (expect ':'.toUInt8 s).bind fun s ↦
    (value s).map fun (v, s) ↦ ((k, v), s)

/-- An array, behind its bracket. -/
def array (s : Bytes) : Option (Value × Bytes) :=
  match expect ']'.toUInt8 s with
  | some s => some (.array [], s)
  | none => (items value ']'.toUInt8 (s.length + 1) s).map fun (vs, s) ↦ (.array vs, s)

/-- An object, behind its brace. -/
def object (s : Bytes) : Option (Value × Bytes) :=
  match expect '\x7d'.toUInt8 s with
  | some s => some (.object [], s)
  | none => (items (member value) '\x7d'.toUInt8 (s.length + 1) s).map fun (ms, s) ↦
    (.object ms, s)

end Nested

/-- A value of so many levels. -/
def value : ℕ → Bytes → Option (Value × Bytes)
  | 0, _ => none
  | depth + 1, s =>
    match skipSpace s with
    | [] => none
    | c :: s =>
      if c = quote then (string s).map fun (v, s) ↦ (.string v, s)
      else if c = '\x7b'.toUInt8 then object (value depth) s
      else if c = '['.toUInt8 then array (value depth) s
      else if c = 't'.toUInt8 then
        (word ['r'.toUInt8, 'u'.toUInt8, 'e'.toUInt8] s).map fun s ↦ (.bool true, s)
      else if c = 'f'.toUInt8 then
        (word ['a'.toUInt8, 'l'.toUInt8, 's'.toUInt8, 'e'.toUInt8] s).map fun s ↦ (.bool false, s)
      else if c = 'n'.toUInt8 then
        (word ['u'.toUInt8, 'l'.toUInt8, 'l'.toUInt8] s).map fun s ↦ (.null, s)
      else if isNumber ((c :: s).takeWhile numberByte) then
        some (.number ((c :: s).takeWhile numberByte), (c :: s).dropWhile numberByte)
      else none

/-- The value of a whole text. -/
def parse (text : Bytes) : Option Value :=
  (value (text.length + 1) text).bind fun (v, s) ↦ if skipSpace s = [] then some v else none

/-! ### Texts that are read -/

/-- The reader takes the text and finds the value, whatever stands behind the text. -/
def Encodes {α : Type} (reader : Bytes → Option (α × Bytes)) (w : Bytes) (a : α) : Prop :=
  ∀ s, reader (w ++ s) = some (a, s)

/-- A text between quotes. -/
def quoted (w : Bytes) : Bytes := quote :: (w ++ [quote])

/-- A member, by the texts of its name and its value. -/
def memberText (k w : Bytes) : Bytes := quoted k ++ ':'.toUInt8 :: w

/-- Texts with commas between them. -/
def joined : List Bytes → Bytes
  | [] => []
  | [w] => w
  | w :: ws => w ++ ','.toUInt8 :: joined ws

/-- An object, by the texts of its members. -/
def objectText (ws : List Bytes) : Bytes := '\x7b'.toUInt8 :: (joined ws ++ ['\x7d'.toUInt8])

section Encodes

variable {α : Type} {elem : Bytes → Option (α × Bytes)} {closing : UInt8} {depth n : ℕ}
  {w k v : Bytes}

/-- The text stands for the bytes, between quotes. -/
def Stands (w v : Bytes) : Prop := Encodes string (w ++ [quote]) v

/-- A text of plain bytes stands for itself. -/
theorem stands_plain (hw : ∀ c ∈ w, Plain c) : Stands w w := by
  intro s
  induction w with
  | nil => exact string_quote
  | cons c w ih =>
    obtain ⟨hc, hw⟩ := List.forall_mem_cons.1 hw
    show string (c :: (w ++ [quote] ++ s)) = _
    rw [string_cons hc, ih hw]
    rfl

theorem encodes_string (h : Stands w v) : Encodes (value (depth + 1)) (quoted w) (.string v) := by
  intro s
  have hquote (t : Bytes) : value (depth + 1) (quote :: t) =
      (string t).map fun (v, s) ↦ (.string v, s) := rfl
  rw [quoted, List.cons_append, hquote, h s]
  rfl

theorem encodes_member {val : Bytes → Option (Value × Bytes)} {x : Value} {t : Bytes}
    (hk : Stands k v) (hx : Encodes val t x) : Encodes (member val) (memberText k t) (v, x) := by
  intro s
  have hquote (t : Bytes) : expect quote (quote :: t) = some t := rfl
  have hcolon (t : Bytes) : expect ':'.toUInt8 (':'.toUInt8 :: t) = some t := rfl
  rw [memberText, quoted, List.append_assoc, List.cons_append, member, hquote, Option.bind_some,
    hk, Option.bind_some]
  dsimp only
  rw [List.cons_append, hcolon, Option.bind_some, hx s]
  rfl

theorem expect_cons {c d : UInt8} {s : Bytes} (hc : isSpace c = false) :
    expect d (c :: s) = if c = d then some s else none := by
  have hskip : skipSpace (c :: s) = c :: s :=
    List.dropWhile_cons_of_neg (Bool.eq_false_iff.1 hc)
  rw [expect, hskip]

/-- **Elements with commas between them**, up to the closing bracket. -/
theorem items_joined (hspace : isSpace closing = false) (hcomma : closing ≠ ','.toUInt8)
    {ws : List Bytes} {as : List α} (h : List.Forall₂ (Encodes elem) ws as) (hne : ws ≠ [])
    (hn : ws.length ≤ n) (s : Bytes) :
    items elem closing n (joined ws ++ closing :: s) = some (as, s) := by
  induction h generalizing n with
  | nil => exact absurd rfl hne
  | @cons w a ws as hw hws ih =>
    obtain ⟨n, rfl⟩ := Nat.exists_eq_succ_of_ne_zero (Nat.ne_zero_of_lt hn)
    cases hws with
    | nil =>
      have hlast : elem (joined [w] ++ closing :: s) = some (a, closing :: s) := hw _
      rw [items, hlast, Option.bind_some]
      dsimp only
      rw [expect_cons hspace, if_neg hcomma]
      dsimp only
      rw [expect_cons hspace, if_pos rfl]
      rfl
    | @cons w' a' ws as hw' hws =>
      have hfirst : elem (joined (w :: w' :: ws) ++ closing :: s) =
          some (a, ','.toUInt8 :: (joined (w' :: ws) ++ closing :: s)) := by
        rw [joined, List.append_assoc]
        · exact hw _
        · exact List.cons_ne_nil _ _
      have hrest := ih (List.cons_ne_nil _ _) (Nat.le_of_succ_le_succ hn)
      rw [items, hfirst, Option.bind_some]
      dsimp only
      rw [expect_cons (by decide), if_pos rfl]
      dsimp only
      rw [hrest]
      rfl

theorem length_le_joined (ws : List Bytes) : ws.length ≤ (joined ws).length + 1 := by
  induction ws with
  | nil => exact Nat.zero_le _
  | cons w ws ih =>
    cases ws with
    | nil => exact Nat.le_add_left _ _
    | cons w' ws =>
      rw [joined]
      · simp only [List.length_append, List.length_cons] at ih ⊢
        omega
      · exact List.cons_ne_nil _ _

/-- An object, by its members. -/
theorem encodes_object {ws : List Bytes} {ms : List (Bytes × Value)}
    (h : List.Forall₂ (Encodes (member (value depth))) ws ms)
    (hquote : ∀ w ∈ ws, w.head? = some quote) :
    Encodes (value (depth + 1)) (objectText ws) (.object ms) := by
  intro s
  have hbrace (t : Bytes) :
      value (depth + 1) ('\x7b'.toUInt8 :: t) = object (value depth) t := rfl
  rw [objectText, List.cons_append, hbrace, List.append_assoc, object]
  cases ws with
  | nil =>
    obtain rfl : ms = [] := by cases h; rfl
    rfl
  | cons w ws =>
    obtain ⟨t, ht⟩ : ∃ t, joined (w :: ws) = quote :: t := by
      obtain ⟨u, rfl⟩ : ∃ u, w = quote :: u := by
        have hw := hquote w List.mem_cons_self
        cases w with
        | nil => cases hw
        | cons c u => exact ⟨u, by rw [Option.some.inj hw]⟩
      cases ws with
      | nil => exact ⟨u, rfl⟩
      | cons w' ws => exact ⟨u ++ ','.toUInt8 :: joined (w' :: ws), rfl⟩
    have hopen : expect '\x7d'.toUInt8 (joined (w :: ws) ++ (['\x7d'.toUInt8] ++ s)) = none := by
      rw [ht, List.cons_append, expect_cons (by decide), if_neg (by decide)]
    have hlen := length_le_joined (w :: ws)
    rw [hopen]
    dsimp only
    rw [List.singleton_append, items_joined (by decide) (by decide) h (List.cons_ne_nil _ _)]
    · rfl
    · simp only [List.length_append, List.length_cons] at hlen ⊢
      omega

/-- A text that is read as a value of fewer levels than it is long. -/
theorem parse_of_encodes {x : Value} (h : Encodes (value depth) w x)
    (hdepth : depth = w.length + 1) : parse w = some x := by
  have hread := h []
  rw [List.append_nil, hdepth] at hread
  rw [parse, hread]
  rfl

end Encodes

/-! ### Texts of one line -/

/-- The text has no control character in it. -/
def NoControl (w : Bytes) : Prop := ∀ c ∈ w, 0x20 ≤ c

section NoControl

variable {w k : Bytes} {ws : List Bytes}

theorem noControl_append {w' : Bytes} : NoControl (w ++ w') ↔ NoControl w ∧ NoControl w' :=
  List.forall_mem_append

theorem noControl_cons {c : UInt8} : NoControl (c :: w) ↔ 0x20 ≤ c ∧ NoControl w :=
  List.forall_mem_cons

theorem noControl_plain (hw : ∀ c ∈ w, Plain c) : NoControl w := fun c hc ↦ (hw c hc).2.2

theorem NoControl.quoted (hw : NoControl w) : NoControl (quoted w) :=
  noControl_cons.2 ⟨by decide, noControl_append.2 ⟨hw, List.forall_mem_singleton.2 (by decide)⟩⟩

theorem NoControl.memberText (hk : NoControl k) (hw : NoControl w) : NoControl (memberText k w) :=
  noControl_append.2 ⟨hk.quoted, noControl_cons.2 ⟨by decide, hw⟩⟩

theorem noControl_joined (hws : ∀ w ∈ ws, NoControl w) : NoControl (joined ws) := by
  induction ws with
  | nil => exact List.forall_mem_nil _
  | cons w ws ih =>
    obtain ⟨hw, hws⟩ := List.forall_mem_cons.1 hws
    cases ws with
    | nil => exact hw
    | cons w' ws => exact noControl_append.2 ⟨hw, noControl_cons.2 ⟨by decide, ih hws⟩⟩

theorem noControl_objectText (hws : ∀ w ∈ ws, NoControl w) : NoControl (objectText ws) :=
  noControl_cons.2 ⟨by decide,
    noControl_append.2 ⟨noControl_joined hws, List.forall_mem_singleton.2 (by decide)⟩⟩

end NoControl

end JsonText
