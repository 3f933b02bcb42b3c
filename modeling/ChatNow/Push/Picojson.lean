import ChatNow.Lib.JsonString
import ChatNow.Push.OutboxReaper

/-!
# picojson

`picojson::parse` of `third/include/picojson/picojson.h`, as far as the value is looked at: numbers,
booleans and null are `JsonValue.other`. It reads a value at the beginning of the text and does not
look at what stands behind it. Of two fields with one name the later one takes the place of the
other.

Arrays and objects are loops over what reads their elements, with the length of the rest as fuel,
and nesting has a depth. Neither runs out (`parse_loop_fuel`, `parse_value_eq`).
-/

namespace ChatNow

namespace picojson

open JsonString

/-! ### The input -/

/-- `input::skip_ws`. -/
def skip_ws (s : List Char) : List Char :=
  s.dropWhile fun c ↦ c = ' ' ∨ c = '\t' ∨ c = '\n' ∨ c = '\r'

/-- `input::expect`; what has been read is given back when it fails. -/
def expect (c : Char) (s : List Char) : Option (List Char) :=
  match skip_ws s with
  | [] => none
  | d :: s => if d = c then some s else none

/-- `input::match`. -/
def match_text (pattern s : List Char) : Option (List Char) :=
  if pattern.isPrefixOf s then some (s.drop pattern.length) else none

/-! ### Numbers -/

/-- A character that `_parse_number` takes. -/
def number_char (c : Char) : Bool :=
  c.isDigit || c = '+' || c = '-' || c = 'e' || c = 'E' || c = '.'

/-- The text without a sign. -/
def drop_sign : List Char → List Char
  | '+' :: s => s
  | '-' :: s => s
  | s => s

/-- The text is an exponent, or empty. -/
def is_exponent : List Char → Bool
  | [] => true
  | c :: s => (c = 'e' || c = 'E') && drop_sign s ≠ [] && (drop_sign s).all Char.isDigit

/-- `strtod` takes the whole text. -/
def strtod_all (s : List Char) : Bool :=
  let whole := (drop_sign s).takeWhile Char.isDigit
  match (drop_sign s).dropWhile Char.isDigit with
  | '.' :: s =>
    (whole ≠ [] || s.takeWhile Char.isDigit ≠ []) && is_exponent (s.dropWhile Char.isDigit)
  | s => whole ≠ [] && is_exponent s

/-! ### Values -/

/-- The loops of `_parse_array` and `_parse_object`: one element at least, commas, and a bracket
that closes. -/
def parse_loop {α : Type} (elem : List Char → Option (α × List Char)) (closing : Char) :
    ℕ → List Char → Option (List α × List Char)
  | 0, _ => none
  | n + 1, s => (elem s).bind fun (a, s) ↦
    match expect ',' s with
    | some s => (parse_loop elem closing n s).map fun (as, s) ↦ (a :: as, s)
    | none => (expect closing s).map fun s ↦ ([a], s)

section Nested

variable (value : List Char → Option (JsonValue × List Char))

/-- A field of an object: the name, a colon and the value. -/
def parse_member (s : List Char) : Option ((String × JsonValue) × List Char) :=
  (expect '"' s).bind fun s ↦ (parse_string s).bind fun (key, s) ↦ (expect ':' s).bind fun s ↦
    (value s).map fun (v, s) ↦ ((String.ofList key, v), s)

/-- `_parse_array`, behind its bracket. -/
def parse_array (s : List Char) : Option (JsonValue × List Char) :=
  match expect ']' s with
  | some s => some (.array [], s)
  | none => (parse_loop value ']' s.length s).map fun (vs, s) ↦ (.array vs, s)

/-- `_parse_object`, behind its brace. The last fields come first, so that they are found. -/
def parse_object (s : List Char) : Option (JsonValue × List Char) :=
  match expect '\x7d' s with
  | some s => some (.object [], s)
  | none => (parse_loop (parse_member value) '\x7d' s.length s).map fun (ms, s) ↦
    (.object ms.reverse, s)

end Nested

/-- `_parse`, for values of so many levels. -/
def parse_value : ℕ → List Char → Option (JsonValue × List Char)
  | 0, _ => none
  | depth + 1, s =>
    match skip_ws s with
    | [] => none
    | c :: s =>
      if c = 'n' then (match_text "ull".toList s).map fun s ↦ (.other, s)
      else if c = 'f' then (match_text "alse".toList s).map fun s ↦ (.other, s)
      else if c = 't' then (match_text "rue".toList s).map fun s ↦ (.other, s)
      else if c = '"' then (parse_string s).map fun (v, s) ↦ (.string (String.ofList v), s)
      else if c = '[' then parse_array (parse_value depth) s
      else if c = '\x7b' then parse_object (parse_value depth) s
      else if c.isDigit || c = '-' then
        if strtod_all ((c :: s).takeWhile number_char) then
          some (.other, (c :: s).dropWhile number_char)
        else none
      else none

/-- `picojson::parse`; nothing stands for an error. -/
def parse (text : String) : Option JsonValue :=
  (parse_value (text.toList.length + 1) text.toList).map (·.1)

/-! ### What a value takes -/

/-- The least length of an element of an array, as far as it is looked at. -/
def elem_width : JsonValue → ℕ
  | .string s => s.toList.length + 2
  | .array _ | .object _ | .other => 1

/-- The least length of a value. An element stands before a comma or the closing bracket. -/
def width : JsonValue → ℕ
  | .string s => s.toList.length + 2
  | .array vs => 1 + (vs.map fun v ↦ elem_width v + 1).sum
  | .object _ | .other => 1

/-- The least length of a field. -/
def member_width (m : String × JsonValue) : ℕ := m.1.toList.length + 3 + width m.2

theorem elem_width_le (v : JsonValue) : elem_width v ≤ width v := by
  cases v with
  | string s => exact le_rfl
  | array vs => exact Nat.le_add_right 1 _
  | object fields => exact le_rfl
  | other => exact le_rfl

theorem expect_length {c : Char} {s r : List Char} (h : expect c s = some r) :
    r.length + 1 ≤ s.length := by
  have hskip : (skip_ws s).length ≤ s.length := (List.dropWhile_sublist _).length_le
  unfold expect at h
  split at h
  · cases h
  · next d t heq =>
    split at h
    · obtain rfl := Option.some.inj h
      rw [heq, List.length_cons] at hskip
      exact hskip
    · cases h

theorem match_text_length {pattern s r : List Char} (h : match_text pattern s = some r) :
    r.length ≤ s.length := by
  unfold match_text at h
  split at h
  · obtain rfl := Option.some.inj h
    rw [List.length_drop]
    exact Nat.sub_le _ _
  · cases h

theorem number_char_of_start {c : Char} (h : (c.isDigit || decide (c = '-')) = true) :
    number_char c = true := by
  rw [number_char]
  rcases Bool.or_eq_true_iff.1 h with hdigit | hminus
  · rw [hdigit]
    rfl
  · rw [of_decide_eq_true hminus]
    rfl

theorem elem_width_pos (v : JsonValue) : 0 < elem_width v := by
  cases v with
  | string s => exact Nat.succ_pos _
  | array vs => exact Nat.one_pos
  | object fields => exact Nat.one_pos
  | other => exact Nat.one_pos

section Widths

variable {α : Type} {value value' : List Char → Option (JsonValue × List Char)} {s r : List Char}
  {elem elem' : List Char → Option (α × List Char)} {closing : Char} {n : ℕ}

/-- What reads an element takes its width. -/
def Takes (cost : α → ℕ) (elem : List Char → Option (α × List Char)) : Prop :=
  ∀ s a r, elem s = some (a, r) → cost a + r.length ≤ s.length

theorem Takes.mono {cost cost' : α → ℕ} (h : Takes cost elem) (hle : ∀ a, cost' a ≤ cost a) :
    Takes cost' elem := fun s a r ha ↦ (Nat.add_le_add_right (hle a) _).trans (h s a r ha)

/-- The elements of a loop stand before a comma or the closing bracket. -/
theorem parse_loop_width {cost : α → ℕ} (helem : Takes cost elem) {as : List α}
    (h : parse_loop elem closing n s = some (as, r)) :
    as ≠ [] ∧ (as.map fun a ↦ cost a + 1).sum + r.length ≤ s.length := by
  induction n generalizing s as with
  | zero => cases h
  | succ n ih =>
    obtain ⟨⟨a, s₁⟩, ha, hrest⟩ := Option.bind_eq_some_iff.1 h
    have hwidth := helem _ _ _ ha
    dsimp only at hrest
    split at hrest
    · next s₂ hcomma =>
      obtain ⟨⟨as', r'⟩, has, heq⟩ := Option.map_eq_some_iff.1 hrest
      obtain ⟨rfl, rfl⟩ := Prod.mk.inj heq
      have hlen := expect_length hcomma
      have has' : (as'.map fun a ↦ cost a + 1).sum + r'.length ≤ s₂.length := (ih has).2
      refine ⟨List.cons_ne_nil _ _, ?_⟩
      rw [List.map_cons, List.sum_cons]
      dsimp only
      omega
    · obtain ⟨r', hclose, heq⟩ := Option.map_eq_some_iff.1 hrest
      obtain ⟨rfl, rfl⟩ := Prod.mk.inj heq
      have hlen := expect_length hclose
      refine ⟨List.cons_ne_nil _ _, ?_⟩
      rw [List.map_singleton, List.sum_singleton]
      omega

theorem takes_parse_member (hvalue : Takes width value) :
    Takes member_width (parse_member value) := by
  intro s m r h
  obtain ⟨s₁, hquote, h⟩ := Option.bind_eq_some_iff.1 h
  obtain ⟨⟨key, s₂⟩, hkey, h⟩ := Option.bind_eq_some_iff.1 h
  obtain ⟨s₃, hcolon, h⟩ := Option.bind_eq_some_iff.1 h
  obtain ⟨⟨v, r'⟩, hv, heq⟩ := Option.map_eq_some_iff.1 h
  obtain ⟨rfl, rfl⟩ := Prod.mk.inj heq
  have h₁ := expect_length hquote
  have h₂ := parse_string_length hkey
  have h₃ := expect_length hcolon
  have h₄ := hvalue _ _ _ hv
  rw [member_width, String.toList_ofList]
  dsimp only
  omega

/-- Every reader of values takes their widths. -/
theorem takes_parse_value (depth : ℕ) : Takes width (parse_value depth) := by
  induction depth with
  | zero => exact fun s v r h ↦ absurd h (by simp [parse_value])
  | succ depth ih =>
    intro s v r h
    have hskip : (skip_ws s).length ≤ s.length := (List.dropWhile_sublist _).length_le
    rw [parse_value] at h
    split at h
    · cases h
    · next c t heq =>
      rw [heq, List.length_cons] at hskip
      have hword : ∀ {pattern : List Char},
          (match_text pattern t).map (fun s ↦ (JsonValue.other, s)) = some (v, r) →
            width v + r.length ≤ s.length := by
        intro pattern hmatch
        obtain ⟨r', htext, heq⟩ := Option.map_eq_some_iff.1 hmatch
        obtain ⟨rfl, rfl⟩ := Prod.mk.inj heq
        have hlen := match_text_length htext
        rw [width]
        omega
      split at h
      · exact hword h
      split at h
      · exact hword h
      split at h
      · exact hword h
      split at h
      · obtain ⟨⟨text, r'⟩, hread, heq⟩ := Option.map_eq_some_iff.1 h
        obtain ⟨rfl, rfl⟩ := Prod.mk.inj heq
        have hlen := parse_string_length hread
        rw [width, String.toList_ofList]
        omega
      split at h
      · unfold parse_array at h
        split at h
        · next r' hclose =>
          obtain ⟨rfl, rfl⟩ := Prod.mk.inj (Option.some.inj h)
          have hlen := expect_length hclose
          rw [width, List.map_nil, List.sum_nil]
          omega
        · obtain ⟨⟨vs, r'⟩, hvs, heq⟩ := Option.map_eq_some_iff.1 h
          obtain ⟨rfl, rfl⟩ := Prod.mk.inj heq
          have hlen := (parse_loop_width (ih.mono elem_width_le) hvs).2
          rw [width]
          omega
      split at h
      · unfold parse_object at h
        split at h
        · next r' hclose =>
          obtain ⟨rfl, rfl⟩ := Prod.mk.inj (Option.some.inj h)
          have hlen := expect_length hclose
          rw [width]
          omega
        · obtain ⟨⟨ms, r'⟩, hms, heq⟩ := Option.map_eq_some_iff.1 h
          obtain ⟨rfl, rfl⟩ := Prod.mk.inj heq
          have hlen := (parse_loop_width (takes_parse_member ih) hms).2
          rw [width]
          omega
      split at h
      · next hnumber =>
        split at h
        · obtain ⟨rfl, rfl⟩ := Prod.mk.inj (Option.some.inj h)
          have hlen : ((c :: t).dropWhile number_char).length ≤ t.length := by
            rw [List.dropWhile_cons_of_pos (number_char_of_start hnumber)]
            exact (List.dropWhile_sublist _).length_le
          rw [width]
          omega
        · cases h
      · cases h

/-! ### Fuel -/

/-- Loops over readers that agree on what can be reached. -/
theorem parse_loop_congr {cost : α → ℕ} (helem : Takes cost elem)
    (h : ∀ t : List Char, t.length ≤ s.length → elem t = elem' t) :
    parse_loop elem closing n s = parse_loop elem' closing n s := by
  induction n generalizing s with
  | zero => rfl
  | succ n ih =>
    rw [parse_loop, parse_loop, ← h s le_rfl]
    refine Option.bind_congr fun ⟨a, s₁⟩ ha ↦ ?_
    dsimp only
    split
    · next s₂ hcomma =>
      have hlen := expect_length hcomma
      have hwidth := helem _ _ _ ha
      rw [ih fun t ht ↦ h t (by omega)]
    · rfl

/-- The length of the text is fuel enough for a loop. -/
theorem parse_loop_fuel {cost : α → ℕ} (helem : Takes cost elem) (hpos : ∀ a, 0 < cost a) {m : ℕ}
    (hn : s.length ≤ n) (hm : s.length ≤ m) :
    parse_loop elem closing n s = parse_loop elem closing m s := by
  have hempty (m : ℕ) : parse_loop elem closing m [] = none := by
    cases m with
    | zero => rfl
    | succ m =>
      rw [parse_loop, Option.bind_eq_none_iff]
      rintro ⟨a, r⟩ ha
      have hwidth := helem _ _ _ ha
      have ha := hpos a
      rw [List.length_nil] at hwidth
      omega
  induction n generalizing m s with
  | zero =>
    obtain rfl := List.eq_nil_of_length_eq_zero (Nat.le_zero.1 hn)
    rw [hempty, hempty]
  | succ n ih =>
    cases m with
    | zero =>
      obtain rfl := List.eq_nil_of_length_eq_zero (Nat.le_zero.1 hm)
      rw [hempty, hempty]
    | succ m =>
      rw [parse_loop, parse_loop]
      refine Option.bind_congr fun ⟨a, s₁⟩ ha ↦ ?_
      dsimp only
      split
      · next s₂ hcomma =>
        have hlen := expect_length hcomma
        have hwidth := helem _ _ _ ha
        have ha := hpos a
        rw [ih (m := m) (by omega) (by omega)]
      · rfl

theorem parse_member_congr
    (h : ∀ t : List Char, t.length ≤ s.length → value t = value' t) :
    parse_member value s = parse_member value' s := by
  refine Option.bind_congr fun s₁ hquote ↦ Option.bind_congr fun ⟨key, s₂⟩ hkey ↦
    Option.bind_congr fun s₃ hcolon ↦ ?_
  have h₁ := expect_length hquote
  have h₂ := parse_string_length hkey
  have h₃ := expect_length hcolon
  rw [h s₃ (by omega)]

/-- **The depth does not run out**: that many levels there cannot be. -/
theorem parse_value_eq {depth depth' : ℕ} (h : s.length < depth) (h' : s.length < depth') :
    parse_value depth s = parse_value depth' s := by
  induction depth generalizing depth' s with
  | zero => cases h
  | succ depth ih =>
    cases depth' with
    | zero => cases h'
    | succ depth' =>
      have hskip : (skip_ws s).length ≤ s.length := (List.dropWhile_sublist _).length_le
      rw [parse_value, parse_value]
      split
      · rfl
      · next c t heq =>
        rw [heq, List.length_cons] at hskip
        have hvalue (u : List Char) (hu : u.length ≤ t.length) :
            parse_value depth u = parse_value depth' u := ih (by omega) (by omega)
        have harray : parse_array (parse_value depth) t = parse_array (parse_value depth') t := by
          rw [parse_array, parse_array,
            parse_loop_congr ((takes_parse_value depth).mono elem_width_le) hvalue]
        have hobject :
            parse_object (parse_value depth) t = parse_object (parse_value depth') t := by
          have hmember (u : List Char) (hu : u.length ≤ t.length) :
              parse_member (parse_value depth) u = parse_member (parse_value depth') u :=
            parse_member_congr fun w hw ↦ hvalue w (hw.trans hu)
          rw [parse_object, parse_object,
            parse_loop_congr (takes_parse_member (takes_parse_value depth)) hmember]
        rw [harray, hobject]

end Widths

end picojson

end ChatNow
