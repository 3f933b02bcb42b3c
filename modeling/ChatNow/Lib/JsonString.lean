import Mathlib.Data.List.Basic
import Mathlib.Data.Nat.Bitwise

/-!
# String literals of JSON

`_parse_string` of picojson: a literal is read behind its opening quote, up to the next quote that
is not escaped. What is read is never longer than the literal, and it is the literal itself where
no character has a meaning of its own (`Plain`).

A text may be put between quotes as it is, without escapes. `parse_string_quoted` says what comes of
it: the text is read back, or something shorter, or its last character is a backslash that takes the
closing quote away.
-/

namespace JsonString

/-! ### The reader -/

/-- The value of a hexadecimal digit. -/
def hex_digit (c : Char) : Option ℕ :=
  if '0' ≤ c ∧ c ≤ '9' then some (c.toNat - '0'.toNat)
  else if 'A' ≤ c ∧ c ≤ 'F' then some (c.toNat - 'A'.toNat + 10)
  else if 'a' ≤ c ∧ c ≤ 'f' then some (c.toNat - 'a'.toNat + 10)
  else none

/-- The loop of `_parse_quadhex`. -/
def parse_hex : ℕ → ℕ → List Char → Option (ℕ × List Char)
  | 0, uni_ch, s => some (uni_ch, s)
  | _ + 1, _, [] => none
  | n + 1, uni_ch, c :: s => (hex_digit c).bind fun hex ↦ parse_hex n (uni_ch * 16 + hex) s

/-- `_parse_quadhex`. -/
def parse_quadhex (s : List Char) : Option (ℕ × List Char) := parse_hex 4 0 s

/-- The second half of a surrogate pair. -/
def parse_second (uni_ch : ℕ) : List Char → Option (Char × List Char)
  | '\\' :: 'u' :: s => (parse_quadhex s).bind fun (second, s) ↦
    if 0xdc00 ≤ second ∧ second ≤ 0xdfff then
      some (.ofNat (((uni_ch - 0xd800) <<< 10 ||| (second - 0xdc00) &&& 0x3ff) + 0x10000), s)
    else none
  | _ => none

/-- `_parse_codepoint`. -/
def parse_codepoint (s : List Char) : Option (Char × List Char) :=
  (parse_quadhex s).bind fun (uni_ch, s) ↦
    if 0xd800 ≤ uni_ch ∧ uni_ch ≤ 0xdfff then
      if 0xdc00 ≤ uni_ch then none else parse_second uni_ch s
    else some (.ofNat uni_ch, s)

/-- The `switch` of `_parse_string`, behind a backslash. -/
def parse_escape : List Char → Option (Char × List Char)
  | '"' :: s => some ('"', s)
  | '\\' :: s => some ('\\', s)
  | '/' :: s => some ('/', s)
  | 'b' :: s => some ('\x08', s)
  | 'f' :: s => some ('\x0c', s)
  | 'n' :: s => some ('\n', s)
  | 'r' :: s => some ('\r', s)
  | 't' :: s => some ('\t', s)
  | 'u' :: s => parse_codepoint s
  | _ => none

theorem parse_hex_takes {n uni_ch m : ℕ} {s rest : List Char}
    (h : parse_hex n uni_ch s = some (m, rest)) :
    ∃ taken, s = taken ++ rest ∧ taken.length = n ∧ '"' ∉ taken := by
  induction n generalizing uni_ch s with
  | zero =>
    obtain ⟨-, rfl⟩ := Prod.mk.inj (Option.some.inj h)
    exact ⟨[], rfl, rfl, List.not_mem_nil⟩
  | succ n ih =>
    cases s with
    | nil => cases h
    | cons c s =>
      obtain ⟨hex, hhex, hrest⟩ := Option.bind_eq_some_iff.1 h
      obtain ⟨taken, rfl, hlen, hquote⟩ := ih hrest
      have hc : c ≠ '"' := by
        rintro rfl
        cases hhex
      refine ⟨c :: taken, rfl, by rw [List.length_cons, hlen], ?_⟩
      rw [List.mem_cons, not_or]
      exact ⟨hc.symm, hquote⟩

theorem parse_second_takes {uni_ch : ℕ} {c : Char} {s rest : List Char}
    (h : parse_second uni_ch s = some (c, rest)) : ∃ taken, s = taken ++ rest ∧ '"' ∉ taken := by
  unfold parse_second at h
  split at h
  · obtain ⟨⟨second, s'⟩, hhex, hrest⟩ := Option.bind_eq_some_iff.1 h
    obtain ⟨taken, rfl, -, hquote⟩ := parse_hex_takes hhex
    dsimp only at hrest
    split at hrest
    · obtain ⟨-, rfl⟩ := Prod.mk.inj (Option.some.inj hrest)
      refine ⟨'\\' :: 'u' :: taken, rfl, ?_⟩
      simpa using hquote
    · cases hrest
  · cases h

theorem parse_codepoint_takes {c : Char} {s rest : List Char}
    (h : parse_codepoint s = some (c, rest)) : ∃ taken, s = taken ++ rest ∧ '"' ∉ taken := by
  obtain ⟨⟨uni_ch, s'⟩, hhex, hrest⟩ := Option.bind_eq_some_iff.1 h
  obtain ⟨taken, rfl, -, hquote⟩ := parse_hex_takes hhex
  dsimp only at hrest
  split at hrest
  · split at hrest
    · cases hrest
    · obtain ⟨more, rfl, hmore⟩ := parse_second_takes hrest
      refine ⟨taken ++ more, (List.append_assoc _ _ _).symm, ?_⟩
      rw [List.mem_append, not_or]
      exact ⟨hquote, hmore⟩
  · obtain ⟨-, rfl⟩ := Prod.mk.inj (Option.some.inj hrest)
    exact ⟨taken, rfl, hquote⟩

/-- An escape takes a quote only as its first character. -/
theorem parse_escape_takes {c : Char} {s rest : List Char} (h : parse_escape s = some (c, rest)) :
    ∃ e taken, s = e :: (taken ++ rest) ∧ '"' ∉ taken := by
  unfold parse_escape at h
  split at h
  case h_9 s =>
    obtain ⟨taken, rfl, hquote⟩ := parse_codepoint_takes h
    exact ⟨'u', taken, rfl, hquote⟩
  case h_10 => cases h
  all_goals
    obtain ⟨-, rfl⟩ := Prod.mk.inj (Option.some.inj h)
    exact ⟨_, [], rfl, List.not_mem_nil⟩

/-- `_parse_string`, behind the opening quote. -/
def parse_string : List Char → Option (List Char × List Char)
  | [] => none
  | '"' :: s => some ([], s)
  | '\\' :: s =>
    match _h : parse_escape s with
    | none => none
    | some (c, rest) => (parse_string rest).map fun (v, r) ↦ (c :: v, r)
  | c :: s => if c < ' ' then none else (parse_string s).map fun (v, r) ↦ (c :: v, r)
termination_by s => s.length
decreasing_by
  · obtain ⟨e, taken, rfl, -⟩ := parse_escape_takes _h
    simp only [List.length_cons, List.length_append]
    omega
  · simp

/-- The character stands for itself in a literal. -/
def Plain (c : Char) : Prop := c ≠ '"' ∧ c ≠ '\\' ∧ ¬ c < ' '

instance (c : Char) : Decidable (Plain c) := inferInstanceAs (Decidable (_ ∧ _))

section Steps

variable {c : Char} {s : List Char}

theorem parse_string_nil : parse_string [] = none := by rw [parse_string]

/-- One character or one escape of a literal. -/
theorem parse_string_round : parse_string (c :: s) =
    if c = '"' then some ([], s)
    else if c = '\\' then (parse_escape s).bind fun (c, rest) ↦
      (parse_string rest).map fun (v, r) ↦ (c :: v, r)
    else if c < ' ' then none
    else (parse_string s).map fun (v, r) ↦ (c :: v, r) := by
  by_cases hquote : c = '"'
  · subst hquote
    rw [parse_string, if_pos rfl]
  by_cases hslash : c = '\\'
  · subst hslash
    rw [parse_string, if_neg hquote, if_pos rfl]
    cases parse_escape s with
    | none => rfl
    | some er => rfl
  · rw [parse_string, if_neg hquote, if_neg hslash]
    · exact hquote
    · exact hslash

theorem parse_string_quote : parse_string ('"' :: s) = some ([], s) := by
  rw [parse_string_round, if_pos rfl]

theorem parse_string_escape : parse_string ('\\' :: s) = (parse_escape s).bind fun (c, rest) ↦
    (parse_string rest).map fun (v, r) ↦ (c :: v, r) := by
  rw [parse_string_round, if_neg (by decide), if_pos rfl]

theorem parse_string_cons (hquote : c ≠ '"') (hslash : c ≠ '\\') :
    parse_string (c :: s) =
      if c < ' ' then none else (parse_string s).map fun (v, r) ↦ (c :: v, r) := by
  rw [parse_string_round, if_neg hquote, if_neg hslash]

theorem parse_string_plain_cons (hc : Plain c) :
    parse_string (c :: s) = (parse_string s).map fun (v, r) ↦ (c :: v, r) := by
  rw [parse_string_cons hc.1 hc.2.1, if_neg hc.2.2]

end Steps

/-! ### Texts between quotes -/

variable {s t u v r : List Char}

/-- What is read is not longer than the literal. -/
theorem parse_string_length (h : parse_string s = some (v, r)) :
    v.length + r.length + 1 ≤ s.length := by
  induction hn : s.length using Nat.strong_induction_on generalizing s v r with
  | _ n ih =>
    subst hn
    cases s with
    | nil =>
      rw [parse_string_nil] at h
      cases h
    | cons c s =>
      by_cases hquote : c = '"'
      · subst hquote
        rw [parse_string_quote] at h
        obtain ⟨rfl, rfl⟩ := Prod.mk.inj (Option.some.inj h)
        simp
      · by_cases hslash : c = '\\'
        · subst hslash
          rw [parse_string_escape] at h
          obtain ⟨⟨c, rest⟩, hescape, hrest⟩ := Option.bind_eq_some_iff.1 h
          obtain ⟨⟨v', r'⟩, hread, heq⟩ := Option.map_eq_some_iff.1 hrest
          obtain ⟨rfl, rfl⟩ := Prod.mk.inj heq
          obtain ⟨e, taken, rfl, -⟩ := parse_escape_takes hescape
          have hlen : ('\\' :: e :: (taken ++ rest)).length = taken.length + rest.length + 2 := by
            simp only [List.length_cons, List.length_append]
          have hshort := ih _ (by omega) hread rfl
          rw [List.length_cons]
          omega
        · rw [parse_string_cons hquote hslash] at h
          split at h
          · cases h
          · obtain ⟨⟨v', r'⟩, hread, heq⟩ := Option.map_eq_some_iff.1 h
            obtain ⟨rfl, rfl⟩ := Prod.mk.inj heq
            have hshort := ih _ (by simp) hread rfl
            rw [List.length_cons, List.length_cons]
            omega

/-- A text of plain characters is read back. -/
theorem parse_string_plain (hu : ∀ c ∈ u, Plain c) :
    parse_string (u ++ '"' :: t) = some (u, t) := by
  induction u with
  | nil => exact parse_string_quote
  | cons c u ih =>
    rw [List.cons_append, parse_string_plain_cons (hu c List.mem_cons_self),
      ih fun d hd ↦ hu d (List.mem_cons_of_mem c hd)]
    rfl

theorem parse_string_char {c : Char} (hc : Plain c) :
    parse_string (c :: '"' :: t) = some ([c], t) :=
  parse_string_plain (u := [c]) fun _ hd ↦ List.mem_singleton.1 hd ▸ hc

/-- What becomes of a text between quotes. -/
inductive Quoted (u t v r : List Char) : Prop
  /-- It is read back. -/
  | same (hplain : ∀ c ∈ u, Plain c) (hv : v = u) (hr : r = t)
  /-- Something shorter is read. -/
  | shorter (h : v.length < u.length)
  /-- A backslash takes the closing quote away, and the literal goes on behind it. -/
  | beyond (w v' : List Char) (hlast : u.getLast? = some '\\') (hv : v = w ++ '"' :: v')
      (ht : parse_string t = some (v', r))

theorem Quoted.cons {c : Char} (h : Quoted u t v r) (hc : Plain c) :
    Quoted (c :: u) t (c :: v) r := by
  cases h with
  | same hplain hv hr =>
    refine .same (fun d hd ↦ ?_) (by rw [hv]) hr
    rcases List.mem_cons.1 hd with rfl | hd
    · exact hc
    · exact hplain d hd
  | shorter h => exact .shorter (by simpa using h)
  | beyond w v' hlast hv ht =>
    refine .beyond (c :: w) v' ?_ (by rw [hv]; rfl) ht
    rw [List.getLast?_cons, hlast]
    rfl

/-- An escape makes the text longer than what is read. -/
theorem Quoted.escape {c : Char} {pre : List Char} (hpre : 1 < pre.length) (h : Quoted u t v r) :
    Quoted (pre ++ u) t (c :: v) r := by
  cases h with
  | same hplain hv hr =>
    refine .shorter ?_
    rw [hv, List.length_append, List.length_cons]
    omega
  | shorter h =>
    refine .shorter ?_
    rw [List.length_append, List.length_cons]
    omega
  | beyond w v' hlast hv ht =>
    refine .beyond (c :: w) v' ?_ (by rw [hv]; rfl) ht
    rw [List.getLast?_append, hlast]
    rfl

/-- A text before a quote is taken up to a point within it, if no quote is taken. -/
theorem takes_within {taken rest : List Char} (hquote : '"' ∉ taken)
    (h : u ++ '"' :: t = taken ++ rest) : ∃ u', u = taken ++ u' ∧ rest = u' ++ '"' :: t := by
  rcases List.append_eq_append_iff.1 h with ⟨mid, rfl, hmid⟩ | ⟨mid, rfl, hmid⟩
  · cases mid with
    | nil => exact ⟨[], by simp, hmid.symm⟩
    | cons c mid =>
      obtain ⟨rfl, -⟩ := List.cons.inj hmid
      exact absurd (List.mem_append_right _ List.mem_cons_self) hquote
  · exact ⟨mid, rfl, hmid⟩

/-- **A text that is put between quotes as it is.** -/
theorem parse_string_quoted (h : parse_string (u ++ '"' :: t) = some (v, r)) : Quoted u t v r := by
  induction hn : u.length using Nat.strong_induction_on generalizing u v r with
  | _ n ih =>
    subst hn
    cases u with
    | nil =>
      rw [List.nil_append, parse_string_quote] at h
      obtain ⟨rfl, rfl⟩ := Prod.mk.inj (Option.some.inj h)
      exact .same (fun c hc ↦ absurd hc List.not_mem_nil) rfl rfl
    | cons c u =>
      rw [List.cons_append] at h
      by_cases hquote : c = '"'
      · subst hquote
        rw [parse_string_quote] at h
        obtain ⟨rfl, -⟩ := Prod.mk.inj (Option.some.inj h)
        exact .shorter (by simp)
      · by_cases hslash : c = '\\'
        · subst hslash
          rw [parse_string_escape] at h
          obtain ⟨⟨c, rest⟩, hescape, hrest⟩ := Option.bind_eq_some_iff.1 h
          obtain ⟨⟨v', r'⟩, hread, heq⟩ := Option.map_eq_some_iff.1 hrest
          obtain ⟨rfl, rfl⟩ := Prod.mk.inj heq
          cases u with
          | nil =>
            -- The quote behind the text is the escaped character.
            obtain ⟨rfl, rfl⟩ := Prod.mk.inj (Option.some.inj hescape)
            exact .beyond [] v' rfl rfl hread
          | cons e u =>
            obtain ⟨e', taken, htaken, hnot⟩ := parse_escape_takes hescape
            obtain ⟨rfl, htail⟩ := List.cons.inj htaken
            obtain ⟨u', rfl, rfl⟩ := takes_within hnot htail
            have hrec := ih u'.length (by simp; omega) hread rfl
            have hlong : 1 < ('\\' :: e :: taken).length := by simp
            exact hrec.escape hlong
        · rw [parse_string_cons hquote hslash] at h
          split at h
          · cases h
          · next hspace =>
            obtain ⟨⟨v', r'⟩, hread, heq⟩ := Option.map_eq_some_iff.1 h
            obtain ⟨rfl, rfl⟩ := Prod.mk.inj heq
            exact (ih u.length (by simp) hread rfl).cons ⟨hquote, hslash, hspace⟩

/-- **Only plain texts are read back**, if no literal behind the closing quote ends with a
backslash. -/
theorem plain_of_read_back
    (ht : ∀ v' r', parse_string t = some (v', r') → v'.getLast? ≠ some '\\')
    (h : parse_string (u ++ '"' :: t) = some (u, r)) : (∀ c ∈ u, Plain c) ∧ r = t := by
  cases parse_string_quoted h with
  | same hplain _ hr => exact ⟨hplain, hr⟩
  | shorter h => exact absurd h (lt_irrefl _)
  | beyond w v' hlast hv hread =>
    rw [hv, List.getLast?_append, List.getLast?_cons] at hlast
    cases hv' : v'.getLast? with
    | none =>
      rw [hv', Option.getD_none, Option.some_or] at hlast
      exact absurd hlast (by decide)
    | some c =>
      rw [hv', Option.getD_some, Option.some_or] at hlast
      exact absurd (hv'.trans hlast) (ht v' r hread)

end JsonString
