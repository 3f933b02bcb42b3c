import Mathlib

/-!
# The lexical structure of MySQL statements

A statement is a text of bytes. Words, literals and other characters are told apart as MySQL does it
in its default mode: within a literal a backslash escapes the byte behind it, two quotes stand for
one, and a quote that no other one follows closes the literal.

The scanner passes over multi-byte characters as a whole, as the character set delimits them, so a
byte of such a character is neither a quote nor a backslash to it. A `Charset` is one in which this
makes no difference, as these two bytes only stand for themselves.
-/

namespace MySql

/-- The bytes that a statement or a value consists of. -/
abbrev Bytes := List UInt8

def quote : UInt8 := '\''.toUInt8

def backslash : UInt8 := '\\'.toUInt8

/-- A character set in which the quote and the backslash only stand for themselves. -/
structure Charset where
  /-- `my_ismbchar`: the length of the multi-byte character at the beginning of the text, and 0 if
  there is none. -/
  ismbchar : Bytes → ℕ
  plain : ∀ t : Bytes, ∀ c ∈ t.take (ismbchar t), c ≠ quote ∧ c ≠ backslash

/-! ### utf8mb4 -/

/-- How many bytes a character has that begins with this one, if it has more than one. -/
def utf8Lead (c : UInt8) : ℕ :=
  if 0xc2 ≤ c ∧ c ≤ 0xdf then 2
  else if 0xe0 ≤ c ∧ c ≤ 0xef then 3
  else if 0xf0 ≤ c ∧ c ≤ 0xf4 then 4
  else 0

/-- The second byte is none of a character that has a shorter form, or none at all. -/
def utf8Second (c d : UInt8) : Bool :=
  if c = 0xe0 then 0xa0 ≤ d
  else if c = 0xf0 then 0x90 ≤ d
  else if c = 0xf4 then d ≤ 0x8f
  else true

def utf8Mbchar : Bytes → ℕ
  | [] => 0
  | c :: s =>
    let tail := s.take (utf8Lead c - 1)
    if tail.length = utf8Lead c - 1 ∧ tail.all (fun d ↦ 0x80 ≤ d && d ≤ 0xbf) ∧
      s.head?.all (utf8Second c) then utf8Lead c else 0

/-- The bytes of a multi-byte character are not those of ASCII characters. -/
theorem le_of_mem_utf8Mbchar {t : Bytes} {c : UInt8} (h : c ∈ t.take (utf8Mbchar t)) :
    0x80 ≤ c := by
  cases t with
  | nil => cases h
  | cons d s =>
    rw [utf8Mbchar] at h
    split at h
    · next hchar =>
      by_cases hlead : utf8Lead d = 0
      · rw [hlead] at h
        cases h
      obtain ⟨n, hn⟩ := Nat.exists_eq_succ_of_ne_zero hlead
      rw [hn, List.take_succ_cons] at h
      rcases List.mem_cons.1 h with rfl | hmem
      · by_contra hlow
        have hless {k : UInt8} (hk : 0x80 ≤ k) : ¬k ≤ c := fun hle ↦ hlow (UInt8.le_trans hk hle)
        refine hlead ?_
        rw [utf8Lead, if_neg fun h ↦ hless (by decide) h.1, if_neg fun h ↦ hless (by decide) h.1,
          if_neg fun h ↦ hless (by decide) h.1]
      · have hall := List.all_eq_true.1 hchar.2.1 c (by rw [hn]; exact hmem)
        exact of_decide_eq_true (Bool.and_eq_true_iff.1 hall).1
    · cases h

/-- The character set of the connections. -/
def utf8mb4 : Charset where
  ismbchar := utf8Mbchar
  plain t c h := by
    have hle := le_of_mem_utf8Mbchar h
    constructor
    · rintro rfl
      revert hle
      decide
    · rintro rfl
      revert hle
      decide

/-! ### Literals -/

/-- What a backslash and a byte stand for. The escapes of the wildcards keep the backslash. -/
def unescape (c : UInt8) : Bytes :=
  if c = '0'.toUInt8 then [0]
  else if c = 'b'.toUInt8 then [0x08]
  else if c = 't'.toUInt8 then [0x09]
  else if c = 'n'.toUInt8 then [0x0a]
  else if c = 'r'.toUInt8 then [0x0d]
  else if c = 'Z'.toUInt8 then [0x1a]
  else if c = '%'.toUInt8 ∨ c = '_'.toUInt8 then [backslash, c]
  else [c]

/-- `get_text`: the value of a literal in quotes `q`, behind the opening one, and the text behind
the closing one. -/
def literal (cs : Charset) (q : UInt8) : Bytes → Option (Bytes × Bytes)
  | [] => none
  | c :: s =>
    if 0 < cs.ismbchar (c :: s) then
      (literal cs q (s.drop (cs.ismbchar (c :: s) - 1))).map fun (v, r) ↦
        ((c :: s).take (cs.ismbchar (c :: s)) ++ v, r)
    else if c = backslash then
      match s with
      | [] => none
      | e :: s => (literal cs q s).map fun (v, r) ↦ (unescape e ++ v, r)
    else if c = q then
      match s with
      | [] => some ([], [])
      | d :: s => if d = q then (literal cs q s).map fun (v, r) ↦ (q :: v, r) else some ([], d :: s)
    else (literal cs q s).map fun (v, r) ↦ (c :: v, r)
termination_by s => s.length

section Literal

variable {cs : Charset} {q c : UInt8} {s v r : Bytes}

theorem literal_nil : literal cs q [] = none := by rw [literal]

/-- One round of `get_text`. -/
theorem literal_round : literal cs q (c :: s) =
    if 0 < cs.ismbchar (c :: s) then
      (literal cs q (s.drop (cs.ismbchar (c :: s) - 1))).map fun (v, r) ↦
        ((c :: s).take (cs.ismbchar (c :: s)) ++ v, r)
    else if c = backslash then
      match s with
      | [] => none
      | e :: s => (literal cs q s).map fun (v, r) ↦ (unescape e ++ v, r)
    else if c = q then
      match s with
      | [] => some ([], [])
      | d :: s => if d = q then (literal cs q s).map fun (v, r) ↦ (q :: v, r) else some ([], d :: s)
    else (literal cs q s).map fun (v, r) ↦ (c :: v, r) := by
  rw [literal.eq_def]
  rfl

theorem ismbchar_special (hc : c = quote ∨ c = backslash) : cs.ismbchar (c :: s) = 0 := by
  by_contra hpos
  have hmem : c ∈ (c :: s).take (cs.ismbchar (c :: s)) := by
    obtain ⟨n, hn⟩ := Nat.exists_eq_succ_of_ne_zero hpos
    rw [hn]
    exact List.mem_cons_self
  obtain ⟨hquote, hslash⟩ := cs.plain (c :: s) c hmem
  exact hc.elim hquote hslash

/-- An escaped byte. -/
theorem literal_escape (e : UInt8) :
    literal cs q (backslash :: e :: s) =
      (literal cs q s).map fun (v, r) ↦ (unescape e ++ v, r) := by
  rw [literal_round, ismbchar_special (.inr rfl), if_neg (Nat.lt_irrefl 0), if_pos rfl]

/-- A quote that no other one follows. -/
theorem literal_close (hs : s.head? ≠ some quote) :
    literal cs quote (quote :: s) = some ([], s) := by
  rw [literal_round, ismbchar_special (.inl rfl), if_neg (Nat.lt_irrefl 0), if_neg (by decide),
    if_pos rfl]
  cases s with
  | nil => rfl
  | cons d s => exact if_neg fun hd ↦ hs (congrArg some hd)

/-- A byte that stands for itself. -/
theorem literal_cons (hmb : cs.ismbchar (c :: s) = 0) (hslash : c ≠ backslash) (hq : c ≠ q) :
    literal cs q (c :: s) = (literal cs q s).map fun (v, r) ↦ (c :: v, r) := by
  rw [literal_round, hmb, if_neg (Nat.lt_irrefl 0), if_neg hslash, if_neg hq]

/-- A multi-byte character. -/
theorem literal_mbchar {w : Bytes} (hw : w ≠ []) (hmb : cs.ismbchar (w ++ s) = w.length) :
    literal cs q (w ++ s) = (literal cs q s).map fun (v, r) ↦ (w ++ v, r) := by
  obtain ⟨c, w, rfl⟩ := List.exists_cons_of_ne_nil hw
  rw [List.cons_append] at hmb ⊢
  have hdrop : (w ++ s).drop ((c :: w).length - 1) = s := List.drop_left
  have htake : (c :: (w ++ s)).take (c :: w).length = c :: w := by
    rw [← List.cons_append, List.take_left]
  rw [literal_round, hmb, if_pos (List.length_pos_of_ne_nil hw), hdrop, htake]

/-- What stands behind a literal is not longer than the text. -/
theorem literal_length (h : literal cs q s = some (v, r)) : r.length ≤ s.length := by
  induction hn : s.length using Nat.strong_induction_on generalizing s v r with
  | _ n ih =>
    subst hn
    have hrec {t : Bytes} {f : Bytes → Bytes} (ht : t.length < s.length)
        (h : (literal cs q t).map (fun (v, r) ↦ (f v, r)) = some (v, r)) :
        r.length ≤ s.length := by
      obtain ⟨⟨v', r'⟩, hread, heq⟩ := Option.map_eq_some_iff.1 h
      obtain ⟨-, rfl⟩ := Prod.mk.inj heq
      exact Nat.le_trans (ih _ ht hread rfl) (Nat.le_of_lt ht)
    cases s with
    | nil =>
      rw [literal_nil] at h
      cases h
    | cons c s =>
      rw [literal_round] at h
      split at h
      · exact hrec (by simp only [List.length_drop, List.length_cons]; omega) h
      split at h
      · cases s with
        | nil => cases h
        | cons e s => exact hrec (by simp only [List.length_cons]; omega) h
      split at h
      · cases s with
        | nil =>
          obtain ⟨-, rfl⟩ := Prod.mk.inj (Option.some.inj h)
          exact Nat.zero_le _
        | cons d s =>
          dsimp only at h
          split at h
          · exact hrec (by simp only [List.length_cons]; omega) h
          · obtain ⟨-, rfl⟩ := Prod.mk.inj (Option.some.inj h)
            exact Nat.le_succ _
      · exact hrec (by simp) h

end Literal

/-! ### Tokens -/

inductive Token
  /-- A name, a keyword or a number. -/
  | word (w : Bytes)
  /-- A literal in quotes, by its value. -/
  | literal (v : Bytes)
  | punct (c : UInt8)
  deriving DecidableEq

def isSpace (c : UInt8) : Bool := c = 0x20 || 0x09 ≤ c && c ≤ 0x0d

/-- A byte of a name, a keyword or a number. -/
def isWord (c : UInt8) : Bool :=
  '0'.toUInt8 ≤ c && c ≤ '9'.toUInt8 || 'A'.toUInt8 ≤ c && c ≤ 'Z'.toUInt8 ||
    'a'.toUInt8 ≤ c && c ≤ 'z'.toUInt8 || c = '_'.toUInt8 || c = '$'.toUInt8 || 0x80 ≤ c

/-- A comment to the end of the line begins here. Two dashes need a blank or a control character
behind them, or the end of the text. -/
def isLineComment (c : UInt8) (s : Bytes) : Bool :=
  c = '#'.toUInt8 ||
    c = '-'.toUInt8 && s.head? = some '-'.toUInt8 && s.tail.head?.all fun e ↦ e ≤ 0x20 || e = 0x7f

/-- A comment in slashes and stars begins here. One with an exclamation mark is executed, so it is
none. -/
def isBlockComment (c : UInt8) (s : Bytes) : Bool :=
  c = '/'.toUInt8 && s.head? = some '*'.toUInt8 && s.tail.head? ≠ some '!'.toUInt8

/-- The text behind the end of a comment in slashes and stars. -/
def blockEnd : Bytes → Option Bytes
  | [] => none
  | c :: s => if c = '*'.toUInt8 ∧ s.head? = some '/'.toUInt8 then some s.tail else blockEnd s

theorem blockEnd_length {s r : Bytes} (h : blockEnd s = some r) : r.length ≤ s.length := by
  induction s with
  | nil => cases h
  | cons c s ih =>
    rw [blockEnd] at h
    split at h
    · obtain rfl := Option.some.inj h
      rw [List.length_tail, List.length_cons]
      omega
    · exact Nat.le_succ_of_le (ih h)

/-- The tokens of a statement. There are none if a literal or a comment does not end, or if names in
backticks occur, which are not read. -/
def lex (cs : Charset) : Bytes → Option (List Token)
  | [] => some []
  | c :: s =>
    if isWord c then (lex cs (s.dropWhile isWord)).map (.word (c :: s.takeWhile isWord) :: ·)
    else if isSpace c then lex cs s
    else if c = quote ∨ c = '"'.toUInt8 then
      match _h : literal cs c s with
      | none => none
      | some (v, r) => (lex cs r).map (.literal v :: ·)
    else if isLineComment c s then lex cs (s.dropWhile (· ≠ 0x0a))
    else if isBlockComment c s then
      match _h : blockEnd s.tail with
      | none => none
      | some r => lex cs r
    else if c = 0x60 then none
    else (lex cs s).map (.punct c :: ·)
termination_by s => s.length
decreasing_by
  · have := (List.dropWhile_sublist isWord (l := s)).length_le
    simp only [List.length_cons]
    omega
  · simp
  · have := literal_length _h
    simp only [List.length_cons]
    omega
  · have := (List.dropWhile_sublist (· ≠ 0x0a) (l := s)).length_le
    simp only [List.length_cons]
    omega
  · have := blockEnd_length _h
    rw [List.length_tail] at this
    simp only [List.length_cons]
    omega
  · simp

/-- A byte that is a token by itself, whatever stands behind it. -/
def isPunct (c : UInt8) : Bool :=
  !isWord c && !isSpace c &&
    c ∉ [quote, '"'.toUInt8, '#'.toUInt8, '-'.toUInt8, '/'.toUInt8, 0x60]

section Lex

variable {cs : Charset} {c : UInt8} {s : Bytes}

theorem lex_nil : lex cs [] = some [] := by rw [lex]

/-- One token. -/
theorem lex_cons : lex cs (c :: s) =
    if isWord c then (lex cs (s.dropWhile isWord)).map (.word (c :: s.takeWhile isWord) :: ·)
    else if isSpace c then lex cs s
    else if c = quote ∨ c = '"'.toUInt8 then
      (literal cs c s).bind fun (v, r) ↦ (lex cs r).map (.literal v :: ·)
    else if isLineComment c s then lex cs (s.dropWhile (· ≠ 0x0a))
    else if isBlockComment c s then (blockEnd s.tail).bind (lex cs)
    else if c = 0x60 then none
    else (lex cs s).map (.punct c :: ·) := by
  rw [lex]
  congr 3
  · cases literal cs c s with
    | none => rfl
    | some vr => rfl
  congr 2
  cases blockEnd s.tail with
  | none => rfl
  | some r => rfl

theorem lex_space (hc : isSpace c = true) (hword : isWord c = false) :
    lex cs (c :: s) = lex cs s := by
  rw [lex_cons, if_neg (Bool.eq_false_iff.1 hword), if_pos hc]

/-- A word, up to a byte that does not continue it. -/
theorem lex_word {w : Bytes} (hne : w ≠ []) (hw : ∀ c ∈ w, isWord c = true)
    (hs : s.head?.all (!isWord ·) = true) :
    lex cs (w ++ s) = (lex cs s).map (.word w :: ·) := by
  obtain ⟨c, w, rfl⟩ := List.exists_cons_of_ne_nil hne
  obtain ⟨hc, hw⟩ := List.forall_mem_cons.1 hw
  have hstop : s.takeWhile isWord = [] ∧ s.dropWhile isWord = s := by
    cases s with
    | nil => exact ⟨rfl, rfl⟩
    | cons d s =>
      have hd : ¬isWord d = true := by simpa using hs
      exact ⟨List.takeWhile_cons_of_neg hd, List.dropWhile_cons_of_neg hd⟩
  rw [List.cons_append, lex_cons, if_pos hc, List.takeWhile_append_of_pos hw,
    List.dropWhile_append_of_pos hw, hstop.1, hstop.2, List.append_nil]

theorem lex_punct (hc : isPunct c = true) : lex cs (c :: s) = (lex cs s).map (.punct c :: ·) := by
  simp only [isPunct, Bool.and_eq_true, Bool.not_eq_true', List.mem_cons, List.not_mem_nil,
    or_false, not_or, decide_eq_true_eq] at hc
  obtain ⟨⟨hword, hspace⟩, hquote, hdouble, hhash, hdash, hslash, htick⟩ := hc
  have hline : isLineComment c s = false := by simp [isLineComment, hhash, hdash]
  have hblock : isBlockComment c s = false := by simp [isBlockComment, hslash]
  rw [lex_cons, if_neg (Bool.eq_false_iff.1 hword), if_neg (Bool.eq_false_iff.1 hspace),
    if_neg (not_or.2 ⟨hquote, hdouble⟩), if_neg (Bool.eq_false_iff.1 hline),
    if_neg (Bool.eq_false_iff.1 hblock), if_neg htick]

theorem lex_literal {v r : Bytes} (h : literal cs quote s = some (v, r)) :
    lex cs (quote :: s) = (lex cs r).map (.literal v :: ·) := by
  rw [lex_cons, if_neg (by decide), if_neg (by decide), if_pos (.inl rfl), h, Option.bind_some]

end Lex

end MySql
