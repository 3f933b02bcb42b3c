import ChatNow.Common.Uuid
import ChatNow.Lib.Codec
import ChatNow.Lib.JsonText

/-!
# Log lines

`build_log_line` of `common/infra/log_json.hpp` puts one line of JSON together from the time, the
level, the name of the service, the context of the call, the message and a list of fields. All but
the time goes through `escape_json_into`, as it may come from outside.

## Main results

* `stands_escape_json`: an escaped text stands for the text it was.
* `log_line_exact`: a line has no control character in it, and its value is what was logged.
-/

namespace ChatNow

open JsonText
open Wire.ValueCodec (utf8)

/-- What `escape_json_into` appends for a byte. -/
def escape_json_byte (c : UInt8) : Bytes :=
  if c = '"'.toUInt8 then utf8 "\\\""
  else if c = '\\'.toUInt8 then utf8 "\\\\"
  else if c = 0x08 then utf8 "\\b"
  else if c = 0x0c then utf8 "\\f"
  else if c = 0x0a then utf8 "\\n"
  else if c = 0x0d then utf8 "\\r"
  else if c = 0x09 then utf8 "\\t"
  else if c < 0x20 then utf8 "\\u" ++ (hexText 4 c.toNat).map Char.toUInt8
  else [c]

/-- `escape_json`. -/
def escape_json (s : Bytes) : Bytes := s.flatMap escape_json_byte

/-- The UTC time of a line, as `gmtime` and the milliseconds give it. -/
structure UtcTime where
  year : ℤ
  mon : ℤ
  mday : ℤ
  hour : ℤ
  min : ℤ
  sec : ℤ
  ms : ℤ

/-- A number with leading zeros, as `%0*d` prints it: a sign is a part of the width. -/
def padded (width : ℕ) (n : ℤ) : List Char :=
  let sign := if n < 0 then ['-'] else []
  let digits := Nat.toDigits 10 n.natAbs
  sign ++ List.replicate (width - sign.length - digits.length) '0' ++ digits

/-- `iso8601_utc_now_ms`; the buffer takes 31 characters. -/
def iso8601_utc_now_ms (t : UtcTime) : Bytes :=
  ((padded 4 t.year ++ '-' :: padded 2 t.mon ++ '-' :: padded 2 t.mday ++ 'T' :: padded 2 t.hour ++
    ':' :: padded 2 t.min ++ ':' :: padded 2 t.sec ++ '.' :: padded 3 t.ms ++ ['Z']).take 31).map
      Char.toUInt8

/-- `LogFields`, the context of a call. -/
structure LogFields where
  trace_id : Bytes := []
  user_id : Bytes := []
  device_id : Bytes := []

/-- The loop of `build_log_line` over the fields; there is a comma before all but the first. -/
def append_fields : Bool → List (Bytes × Bytes) → Bytes
  | _, [] => []
  | first, kv :: fields =>
    (if first then [] else utf8 ",") ++ utf8 "\"" ++ escape_json kv.1 ++ utf8 "\":\"" ++
      escape_json kv.2 ++ utf8 "\"" ++ append_fields false fields

/-- `build_log_line`, with the text of the time, the name of the service and the context of the
call. -/
def build_log_line (ts service_name : Bytes) (ctx : LogFields) (level msg : Bytes)
    (fields : List (Bytes × Bytes)) : Bytes :=
  utf8 "\x7b\"ts\":\"" ++ ts ++ utf8 "\",\"level\":\"" ++ escape_json level ++
    utf8 "\",\"service\":\"" ++ escape_json service_name ++
    utf8 "\",\"trace_id\":\"" ++ escape_json ctx.trace_id ++
    utf8 "\",\"user_id\":\"" ++ escape_json ctx.user_id ++
    utf8 "\",\"device_id\":\"" ++ escape_json ctx.device_id ++
    utf8 "\",\"msg\":\"" ++ escape_json msg ++
    utf8 "\",\"fields\":\x7b" ++ append_fields true fields ++ utf8 "\x7d\x7d"

/-- What a line says. -/
def logged (ts service_name : Bytes) (ctx : LogFields) (level msg : Bytes)
    (fields : List (Bytes × Bytes)) : Value :=
  .object [(utf8 "ts", .string ts), (utf8 "level", .string level),
    (utf8 "service", .string service_name), (utf8 "trace_id", .string ctx.trace_id),
    (utf8 "user_id", .string ctx.user_id), (utf8 "device_id", .string ctx.device_id),
    (utf8 "msg", .string msg),
    (utf8 "fields", .object (fields.map fun kv ↦ (kv.1, .string kv.2)))]

/-! ### Escaped texts -/

/-- The four digits of a control character. -/
theorem quad_hexText {n : ℕ} (hn : n < 0x20) (s : Bytes) :
    quad ((hexText 4 n).map Char.toUInt8 ++ s) = some (n, s) := by
  have htext : ∀ n < 0x20, hexText 4 n = ['0', '0', (n / 16).digitChar, (n % 16).digitChar] := by
    decide
  have hvalue : ∀ d < 16, hexValue d.digitChar.toUInt8 = some d := by decide
  have hzero : hexValue '0'.toUInt8 = some 0 := by decide
  have hsum : ((0 * 16 + 0) * 16 + n / 16) * 16 + n % 16 = n := by omega
  rw [htext n hn]
  show (quad ('0'.toUInt8 :: '0'.toUInt8 :: _ :: _ :: s)) = _
  rw [quad, hzero, hvalue _ (by omega), hvalue _ (Nat.mod_lt n (by decide))]
  exact congrArg (fun m ↦ some (m, s)) hsum

theorem escape_hexText {n : ℕ} (hn : n < 0x20) (s : Bytes) :
    escape ('u'.toUInt8 :: ((hexText 4 n).map Char.toUInt8 ++ s)) = some ([n.toUInt8], s) := by
  have hchar : ∀ n < 0x20, String.utf8EncodeChar (.ofNat n) = [n.toUInt8] := by decide
  have hcode : codePoint ((hexText 4 n).map Char.toUInt8 ++ s) = some (.ofNat n, s) := by
    rw [codePoint, quad_hexText hn, Option.bind_some]
    dsimp only
    rw [if_neg (by omega), if_neg (by omega)]
  show (codePoint ((hexText 4 n).map Char.toUInt8 ++ s)).map _ = _
  rw [hcode, ← hchar n hn]
  rfl

/-- How a byte is written. -/
theorem escape_json_byte_cases (c : UInt8) :
    (Plain c ∧ escape_json_byte c = [c]) ∨
      ∃ w, escape_json_byte c = backslash :: w ∧ (∀ s, escape (w ++ s) = some ([c], s)) ∧
        ∀ b ∈ w, 0x20 ≤ b := by
  have htwo {d : UInt8} (e : UInt8) (hd : c = d) (hbyte : escape_json_byte d = [backslash, e])
      (hescape : ∀ s, escape (e :: s) = some ([d], s)) (hle : 0x20 ≤ e) :
      ∃ w, escape_json_byte c = backslash :: w ∧ (∀ s, escape (w ++ s) = some ([c], s)) ∧
        ∀ b ∈ w, 0x20 ≤ b := by
    subst hd
    exact ⟨[e], hbyte, hescape, fun b hb ↦ List.mem_singleton.1 hb ▸ hle⟩
  by_cases hquote : c = '"'.toUInt8
  · exact .inr (htwo '"'.toUInt8 hquote (by decide) (fun _ ↦ rfl) (by decide))
  by_cases hslash : c = '\\'.toUInt8
  · exact .inr (htwo '\\'.toUInt8 hslash (by decide) (fun _ ↦ rfl) (by decide))
  by_cases hb : c = 0x08
  · exact .inr (htwo 'b'.toUInt8 hb (by decide) (fun _ ↦ rfl) (by decide))
  by_cases hf : c = 0x0c
  · exact .inr (htwo 'f'.toUInt8 hf (by decide) (fun _ ↦ rfl) (by decide))
  by_cases hn : c = 0x0a
  · exact .inr (htwo 'n'.toUInt8 hn (by decide) (fun _ ↦ rfl) (by decide))
  by_cases hr : c = 0x0d
  · exact .inr (htwo 'r'.toUInt8 hr (by decide) (fun _ ↦ rfl) (by decide))
  by_cases ht : c = 0x09
  · exact .inr (htwo 't'.toUInt8 ht (by decide) (fun _ ↦ rfl) (by decide))
  rw [escape_json_byte, if_neg hquote, if_neg hslash, if_neg hb, if_neg hf, if_neg hn, if_neg hr,
    if_neg ht]
  by_cases hlow : c < 0x20
  · have hnat : c.toNat < 0x20 := UInt8.lt_iff_toNat_lt.1 hlow
    have hdigits : ∀ n < 0x20,
        ('u'.toUInt8 :: (hexText 4 n).map Char.toUInt8).all (fun b ↦ 0x20 ≤ b) = true := by decide
    rw [if_pos hlow]
    refine .inr ⟨'u'.toUInt8 :: (hexText 4 c.toNat).map Char.toUInt8, rfl, fun s ↦ ?_,
      fun b hb ↦ of_decide_eq_true (List.all_eq_true.1 (hdigits _ hnat) b hb)⟩
    rw [List.cons_append, escape_hexText hnat]
    exact congrArg (fun d ↦ some ([d], s)) UInt8.ofNat_toNat
  · rw [if_neg hlow]
    exact .inl ⟨⟨hquote, hslash, UInt8.not_lt.1 hlow⟩, rfl⟩

/-- **What is written for a byte is read as the byte.** -/
theorem string_escape_json_byte (c : UInt8) (t : Bytes) :
    string (escape_json_byte c ++ t) = (string t).map fun (v, r) ↦ (c :: v, r) := by
  rcases escape_json_byte_cases c with ⟨hc, heq⟩ | ⟨w, heq, hescape, -⟩
  · rw [heq]
    exact string_cons hc
  · rw [heq]
    exact string_escape (hescape t)

theorem le_of_mem_escape_json_byte {b c : UInt8} (h : b ∈ escape_json_byte c) : 0x20 ≤ b := by
  rcases escape_json_byte_cases c with ⟨hc, heq⟩ | ⟨w, heq, -, hw⟩
  · obtain rfl := List.mem_singleton.1 (heq ▸ h)
    exact hc.2.2
  · rcases List.mem_cons.1 (heq ▸ h) with rfl | hmem
    · decide
    · exact hw b hmem

/-- **An escaped text stands for the text it was.** -/
theorem stands_escape_json (s : Bytes) : Stands (escape_json s) s := by
  intro t
  induction s with
  | nil => exact string_quote
  | cons c s ih =>
    have hcons : escape_json (c :: s) ++ [quote] ++ t =
        escape_json_byte c ++ (escape_json s ++ [quote] ++ t) := by
      simp only [escape_json, List.flatMap_cons, List.append_assoc]
    rw [hcons, string_escape_json_byte, ih]
    rfl

/-! ### The line -/

/-- The text of a field. -/
def fieldText (kv : Bytes × Bytes) : Bytes :=
  memberText (escape_json kv.1) (quoted (escape_json kv.2))

theorem append_fields_cons (first : Bool) (kv : Bytes × Bytes) (fields : List (Bytes × Bytes)) :
    append_fields first (kv :: fields) =
      (if first then [] else [','.toUInt8]) ++ fieldText kv ++ append_fields false fields := by
  have hcomma : utf8 "," = [','.toUInt8] := by decide
  have hquote : utf8 "\"" = [quote] := by decide
  have hcolon : utf8 "\":\"" = [quote, ':'.toUInt8, quote] := by decide
  rw [append_fields, hcomma, hquote, hcolon]
  simp only [fieldText, memberText, quoted, List.append_assoc, List.cons_append, List.nil_append]

theorem append_fields_next (kv : Bytes × Bytes) (fields : List (Bytes × Bytes)) :
    fieldText kv ++ append_fields false fields = JsonText.joined ((kv :: fields).map fieldText) := by
  induction fields generalizing kv with
  | nil => exact List.append_nil _
  | cons kv' fields ih =>
    rw [append_fields_cons, List.append_assoc, ih kv']
    rfl

/-- The loop puts commas between the fields. -/
theorem append_fields_eq (fields : List (Bytes × Bytes)) :
    append_fields true fields = JsonText.joined (fields.map fieldText) := by
  cases fields with
  | nil => rfl
  | cons kv fields => rw [append_fields_cons, if_pos rfl, List.nil_append, append_fields_next]

variable {ts service_name level msg : Bytes} {ctx : LogFields} {fields : List (Bytes × Bytes)}

/-- The line, member by member. -/
theorem build_log_line_eq : build_log_line ts service_name ctx level msg fields =
    objectText [memberText (utf8 "ts") (quoted ts),
      memberText (utf8 "level") (quoted (escape_json level)),
      memberText (utf8 "service") (quoted (escape_json service_name)),
      memberText (utf8 "trace_id") (quoted (escape_json ctx.trace_id)),
      memberText (utf8 "user_id") (quoted (escape_json ctx.user_id)),
      memberText (utf8 "device_id") (quoted (escape_json ctx.device_id)),
      memberText (utf8 "msg") (quoted (escape_json msg)),
      memberText (utf8 "fields") (objectText (fields.map fieldText))] := by
  have hts : utf8 "\x7b\"ts\":\"" =
    '\x7b'.toUInt8 :: quote :: (utf8 "ts" ++ [quote, ':'.toUInt8, quote]) := by decide
  have hlevel : utf8 "\",\"level\":\"" =
    quote :: ','.toUInt8 :: quote :: (utf8 "level" ++ [quote, ':'.toUInt8, quote]) := by decide
  have hservice : utf8 "\",\"service\":\"" =
    quote :: ','.toUInt8 :: quote :: (utf8 "service" ++ [quote, ':'.toUInt8, quote]) := by decide
  have htrace_id : utf8 "\",\"trace_id\":\"" =
    quote :: ','.toUInt8 :: quote :: (utf8 "trace_id" ++ [quote, ':'.toUInt8, quote]) := by decide
  have huser_id : utf8 "\",\"user_id\":\"" =
    quote :: ','.toUInt8 :: quote :: (utf8 "user_id" ++ [quote, ':'.toUInt8, quote]) := by decide
  have hdevice_id : utf8 "\",\"device_id\":\"" =
    quote :: ','.toUInt8 :: quote :: (utf8 "device_id" ++ [quote, ':'.toUInt8, quote]) := by decide
  have hmsg : utf8 "\",\"msg\":\"" =
    quote :: ','.toUInt8 :: quote :: (utf8 "msg" ++ [quote, ':'.toUInt8, quote]) := by decide
  have hfields : utf8 "\",\"fields\":\x7b" =
    quote :: ','.toUInt8 :: quote :: (utf8 "fields" ++ [quote, ':'.toUInt8, '\x7b'.toUInt8]) := by
    decide
  have hend : utf8 "\x7d\x7d" = ['\x7d'.toUInt8, '\x7d'.toUInt8] := by decide
  rw [build_log_line, append_fields_eq, hts, hlevel, hservice, htrace_id, huser_id, hdevice_id,
    hmsg, hfields, hend]
  simp only [objectText, JsonText.joined, memberText, quoted, List.append_assoc, List.cons_append,
    List.nil_append]

/-! ### The exact line -/

theorem noControl_escape_json (s : Bytes) : NoControl (escape_json s) := fun _ hb ↦ by
  obtain ⟨c, -, hc⟩ := List.mem_flatMap.1 hb
  exact le_of_mem_escape_json_byte hc

/-- A member with an escaped text, as it is read. -/
theorem encodes_escaped {k v : Bytes} (hk : Stands k v) (s : Bytes) (depth : ℕ) :
    Encodes (member (value (depth + 1))) (memberText k (quoted (escape_json s))) (v, .string s) :=
  encodes_member hk (encodes_string (stands_escape_json s))

theorem encodes_fields (fields : List (Bytes × Bytes)) (depth : ℕ) :
    Encodes (value (depth + 2)) (objectText (fields.map fieldText))
      (.object (fields.map fun kv ↦ (kv.1, .string kv.2))) := by
  refine encodes_object ?_ fun w hw ↦ ?_
  · rw [List.forall₂_map_left_iff, List.forall₂_map_right_iff, List.forall₂_same]
    exact fun kv _ ↦ encodes_escaped (stands_escape_json kv.1) kv.2 depth
  · obtain ⟨kv, -, rfl⟩ := List.mem_map.1 hw
    rfl

theorem noControl_fields (fields : List (Bytes × Bytes)) :
    NoControl (objectText (fields.map fieldText)) := by
  refine noControl_objectText fun w hw ↦ ?_
  obtain ⟨kv, -, rfl⟩ := List.mem_map.1 hw
  exact (noControl_escape_json kv.1).memberText (noControl_escape_json kv.2).quoted

/-- The names of the members are plain. -/
theorem plain_of_all {k : Bytes} (hk : k.all (fun c ↦ Plain c) = true) : ∀ c ∈ k, Plain c :=
  fun c hc ↦ of_decide_eq_true (List.all_eq_true.1 hk c hc)

theorem encodes_build_log_line (hts : ∀ c ∈ ts, Plain c) (depth : ℕ) :
    Encodes (value (depth + 3)) (build_log_line ts service_name ctx level msg fields)
      (logged ts service_name ctx level msg fields) := by
  have hname {k : Bytes} (hk : k.all (fun c ↦ Plain c) = true) : Stands k k :=
    stands_plain (plain_of_all hk)
  rw [build_log_line_eq, logged]
  refine encodes_object ?_ fun w hw ↦ ?_
  · refine .cons (encodes_member (hname (by decide)) (encodes_string (stands_plain hts))) ?_
    refine .cons (encodes_escaped (hname (by decide)) level _) ?_
    refine .cons (encodes_escaped (hname (by decide)) service_name _) ?_
    refine .cons (encodes_escaped (hname (by decide)) ctx.trace_id _) ?_
    refine .cons (encodes_escaped (hname (by decide)) ctx.user_id _) ?_
    refine .cons (encodes_escaped (hname (by decide)) ctx.device_id _) ?_
    refine .cons (encodes_escaped (hname (by decide)) msg _) ?_
    exact .cons (encodes_member (hname (by decide)) (encodes_fields fields depth)) .nil
  · simp only [List.mem_cons, List.not_mem_nil, or_false] at hw
    rcases hw with rfl | rfl | rfl | rfl | rfl | rfl | rfl | rfl <;> rfl

theorem noControl_build_log_line (hts : ∀ c ∈ ts, Plain c) :
    NoControl (build_log_line ts service_name ctx level msg fields) := by
  have hname {k : Bytes} (hk : k.all (fun c ↦ Plain c) = true) : NoControl k :=
    noControl_plain (plain_of_all hk)
  have hescaped (s : Bytes) : NoControl (quoted (escape_json s)) := (noControl_escape_json s).quoted
  rw [build_log_line_eq]
  refine noControl_objectText fun w hw ↦ ?_
  simp only [List.mem_cons, List.not_mem_nil, or_false] at hw
  rcases hw with rfl | rfl | rfl | rfl | rfl | rfl | rfl | rfl
  · exact (hname (by decide)).memberText (noControl_plain hts).quoted
  · exact (hname (by decide)).memberText (hescaped level)
  · exact (hname (by decide)).memberText (hescaped service_name)
  · exact (hname (by decide)).memberText (hescaped ctx.trace_id)
  · exact (hname (by decide)).memberText (hescaped ctx.user_id)
  · exact (hname (by decide)).memberText (hescaped ctx.device_id)
  · exact (hname (by decide)).memberText (hescaped msg)
  · exact (hname (by decide)).memberText (noControl_fields fields)

/-- A number has digits in it, and perhaps a sign. -/
theorem of_mem_padded {width : ℕ} {n : ℤ} {c : Char} (hc : c ∈ padded width n) :
    c.isDigit = true ∨ c = '-' := by
  rcases List.mem_append.1 hc with hc | hc
  · rcases List.mem_append.1 hc with hc | hc
    · split at hc
      · exact .inr (List.mem_singleton.1 hc)
      · cases hc
    · rw [List.eq_of_mem_replicate hc]
      exact .inl (by decide)
  · exact .inl (Nat.isDigit_of_mem_toDigits (by decide) (by decide) hc)

theorem plain_padded {width : ℕ} {n : ℤ} {c : Char} (hc : c ∈ padded width n) :
    Plain c.toUInt8 := by
  rcases of_mem_padded hc with hdigit | rfl
  · obtain ⟨hlow, hhigh⟩ := Wire.ValueCodec.toUInt8_of_isDigit hdigit
    have hbetween : ∀ b : UInt8, '0'.toUInt8 ≤ b → b ≤ '9'.toUInt8 → Plain b := by
      intro b hb hb'
      refine ⟨?_, ?_, UInt8.le_trans (by decide) hb⟩
      · rintro rfl
        exact absurd hb (by decide)
      · rintro rfl
        exact absurd hb' (by decide)
    exact hbetween _ hlow hhigh
  · decide

/-- The time is a plain text, also when it is cut off. -/
theorem plain_iso8601_utc_now_ms (t : UtcTime) : ∀ c ∈ iso8601_utc_now_ms t, Plain c := by
  intro b hb
  obtain ⟨c, hc, rfl⟩ := List.mem_map.1 hb
  have hmem := List.mem_of_mem_take hc
  have hpart {sep : Char} (hsep : Plain sep.toUInt8) {width : ℕ} {n : ℤ}
      (hc : c ∈ sep :: padded width n) : Plain c.toUInt8 := by
    rcases List.mem_cons.1 hc with rfl | hc
    · exact hsep
    · exact plain_padded hc
  simp only [List.mem_append] at hmem
  rcases hmem with ((((((hyear | hmon) | hmday) | hhour) | hmin) | hsec) | hms) | hzone
  · exact plain_padded hyear
  · exact hpart (by decide) hmon
  · exact hpart (by decide) hmday
  · exact hpart (by decide) hhour
  · exact hpart (by decide) hmin
  · exact hpart (by decide) hsec
  · exact hpart (by decide) hms
  · rw [List.mem_singleton.1 hzone]
    decide

/-- **A line says exactly what was logged**, in one line. -/
theorem log_line_exact (ts service_name : Bytes) (ctx : LogFields) (level msg : Bytes)
    (fields : List (Bytes × Bytes)) (hts : ∀ c ∈ ts, Plain c) :
    (∀ c ∈ build_log_line ts service_name ctx level msg fields, 0x20 ≤ c) ∧
      parse (build_log_line ts service_name ctx level msg fields) =
        some (logged ts service_name ctx level msg fields) := by
  have hread (depth : ℕ) : Encodes (value (depth + 3))
      (build_log_line ts service_name ctx level msg fields)
      (logged ts service_name ctx level msg fields) := encodes_build_log_line hts depth
  obtain ⟨d, hd⟩ : ∃ d, (build_log_line ts service_name ctx level msg fields).length = d + 2 := by
    rw [build_log_line_eq, objectText, List.length_cons, List.length_append]
    exact ⟨_, rfl⟩
  exact ⟨noControl_build_log_line hts, parse_of_encodes (hread d) (congrArg (· + 1) hd.symm)⟩

/-- A message and a field that would end the line and begin another. -/
theorem log_line_exact_forged :
    let ts := iso8601_utc_now_ms ⟨2026, 5, 14, 10, 23, 45, 123⟩
    let ctx : LogFields := ⟨utf8 "t1", utf8 "bob\\", []⟩
    let msg := utf8 "\"\x7d\n\x7b\"msg\":\""
    let fields := [(utf8 "k\":\"", utf8 "\x7d\r\\"), (utf8 "k\":\"", utf8 "\u0001")]
    (∀ c ∈ build_log_line ts (utf8 "gateway") ctx (utf8 "info") msg fields, 0x20 ≤ c) ∧
      parse (build_log_line ts (utf8 "gateway") ctx (utf8 "info") msg fields) =
        some (logged ts (utf8 "gateway") ctx (utf8 "info") msg fields) :=
  log_line_exact _ _ _ _ _ _ (plain_iso8601_utc_now_ms _)

end ChatNow
