import Mathlib.Data.Nat.Bitwise
import Mathlib.Tactic.Set

/-!
# Cache versions

`common/utils/cache_version.hpp`: the rules that decide whether something read from a versioned
cache may be used. A version is a `uint64_t` that Redis keeps as decimal text; the greatest value of
the type stands for a version that could not be read and passes none of the comparisons.

Redis counts in signed 64-bit numbers, so every version it can hold is read back as it is
(`parse_cache_version_toString`), and a comparison of versions is a comparison of texts.

The loop is written here on numbers without a bound. The guard of each round is what makes it the
loop on 64-bit words (`parse_cache_version_u64_toNat`): the product and the sum behind it cannot
wrap around (`RoundExact`).
-/

namespace ChatNow

/-- `kUnknownCacheVersion`, `std::numeric_limits<uint64_t>::max()`. -/
def kUnknownCacheVersion : ℕ := 2 ^ 64 - 1

/-- One round of the loop of `parse_cache_version`. -/
def parse_cache_digit (parsed : ℕ) (ch : Char) : Option ℕ :=
  if ch.toNat < '0'.toNat ∨ '9'.toNat < ch.toNat then none
  else
    let digit := ch.toNat - '0'.toNat
    if (kUnknownCacheVersion - digit) / 10 < parsed then none
    else some (parsed * 10 + digit)

/-- `parse_cache_version`. -/
def parse_cache_version (raw : String) : Option ℕ :=
  if raw = "" then none
  else (raw.toList.foldlM parse_cache_digit 0).bind fun parsed ↦
    if parsed = kUnknownCacheVersion then none else some parsed

/-- `cache_version_is_known`. -/
def cache_version_is_known (version : ℕ) : Bool := version ≠ kUnknownCacheVersion

/-- `cache_version_accepts_warm`. -/
def cache_version_accepts_warm (observed_version current_version : ℕ) : Bool :=
  if !cache_version_is_known observed_version || !cache_version_is_known current_version then false
  else observed_version = current_version

/-- `cache_snapshot_is_stable`. -/
def cache_snapshot_is_stable (before_version after_version : ℕ) : Bool :=
  cache_version_accepts_warm before_version after_version

/-- `cache_l1_version_matches`. -/
def cache_l1_version_matches (cached_version current_version : ℕ) : Bool :=
  cache_version_accepts_warm cached_version current_version

/-- `cache_sentinel_confirms_empty`. -/
def cache_sentinel_confirms_empty (stable_snapshot_empty sentinel_exists : Bool) : Bool :=
  stable_snapshot_empty && sentinel_exists

theorem eq_of_accepts_warm {v w : ℕ} (h : cache_version_accepts_warm v w = true) : v = w := by
  simp only [cache_version_accepts_warm] at h
  split at h
  · cases h
  · exact of_decide_eq_true h

theorem known_of_accepts_warm {v w : ℕ} (h : cache_version_accepts_warm v w = true) :
    cache_version_is_known v = true := by
  simp only [cache_version_accepts_warm] at h
  split at h
  · cases h
  · next hknown =>
    cases hv : cache_version_is_known v with
    | true => rfl
    | false =>
      rw [hv] at hknown
      exact absurd rfl hknown

/-! ### The round trip -/

/-- The loop reads a text of digits whose value fits the type. -/
theorem foldlM_parse_cache_digit {l : List Char} {parsed : ℕ} (hl : ∀ c ∈ l, c.isDigit = true)
    (hle : Nat.ofDigitChars 10 l parsed ≤ kUnknownCacheVersion) :
    l.foldlM parse_cache_digit parsed = some (Nat.ofDigitChars 10 l parsed) := by
  induction l generalizing parsed with
  | nil => simp
  | cons c l ih =>
    obtain ⟨hlo, hhi⟩ := Char.isDigit_iff_toNat.1 (hl c (by simp))
    rw [Nat.ofDigitChars_cons] at hle ⊢
    set digit := c.toNat - '0'.toNat with hdigit
    -- what is read so far is at most what the whole text stands for
    have hpart : 10 * parsed + digit ≤ kUnknownCacheVersion := by
      refine le_trans ?_ hle
      rw [Nat.ofDigitChars_eq_ofDigitChars_zero]
      have hpos : 0 < 10 ^ l.length := Nat.pow_pos (by decide)
      exact (Nat.le_mul_of_pos_left _ hpos).trans (Nat.le_add_right _ _)
    have hstep : parse_cache_digit parsed c = some (10 * parsed + digit) := by
      rw [parse_cache_digit, if_neg (by omega), if_neg (by omega)]
      simp only [Option.some.injEq]
      omega
    rw [List.foldlM_cons, hstep]
    exact ih (fun c' hc' ↦ hl c' (List.mem_cons_of_mem _ hc')) hle

/-- A version that Redis can hold is read back as it is. -/
theorem parse_cache_version_toString {v : ℕ} (hv : v < kUnknownCacheVersion) :
    parse_cache_version (toString v) = some v := by
  have hdigits : ∀ c ∈ Nat.toDigits 10 v, c.isDigit = true := fun c hc ↦
    Nat.isDigit_of_mem_toDigits (by decide) (by decide) hc
  have hvalue : Nat.ofDigitChars 10 (Nat.toDigits 10 v) 0 = v := Nat.ofDigitChars_ten_toDigits
  have hloop := foldlM_parse_cache_digit hdigits (hvalue.trans_le hv.le)
  rw [hvalue] at hloop
  simp only [parse_cache_version, Nat.toString_eq_repr, Nat.repr_ne_empty, if_false,
    Nat.toList_repr, hloop, Option.bind_some, if_neg hv.ne]

theorem toString_inj {v w : ℕ} : toString v = toString w ↔ v = w := by
  constructor
  · intro h
    have hdigits : Nat.toDigits 10 v = Nat.toDigits 10 w := by
      simpa using congrArg String.toList h
    rw [← Nat.ofDigitChars_ten_toDigits (n := v), hdigits, Nat.ofDigitChars_ten_toDigits]
  · rintro rfl
    rfl

/-! ### In 64-bit words -/

/-- One round, in the machine's own arithmetic. -/
def parse_cache_digit_u64 (parsed : UInt64) (ch : Char) : Option UInt64 :=
  if ch.toNat < '0'.toNat ∨ '9'.toNat < ch.toNat then none
  else
    let digit := UInt64.ofNat (ch.toNat - '0'.toNat)
    if (UInt64.ofNat kUnknownCacheVersion - digit) / 10 < parsed then none
    else some (parsed * 10 + digit)

/-- `parse_cache_version`, in the machine's own arithmetic. -/
def parse_cache_version_u64 (raw : String) : Option UInt64 :=
  if raw = "" then none
  else (raw.toList.foldlM parse_cache_digit_u64 0).bind fun parsed ↦
    if parsed = UInt64.ofNat kUnknownCacheVersion then none else some parsed

/-- The guard of a round keeps its sum within the type, and lets every sum pass that is. -/
theorem guard_iff {parsed digit : ℕ} (hdigit : digit ≤ 9) :
    ¬(kUnknownCacheVersion - digit) / 10 < parsed ↔
      parsed * 10 + digit ≤ kUnknownCacheVersion := by
  have h : kUnknownCacheVersion = 18446744073709551615 := rfl
  omega

theorem parse_cache_digit_eq_some {parsed n : ℕ} {ch : Char} :
    parse_cache_digit parsed ch = some n ↔
      ch.isDigit = true ∧ n = 10 * parsed + (ch.toNat - '0'.toNat) ∧ n ≤ kUnknownCacheVersion := by
  rw [Char.isDigit_iff_toNat, parse_cache_digit]
  by_cases hch : ch.toNat < '0'.toNat ∨ '9'.toNat < ch.toNat
  · rw [if_pos hch]
    constructor
    · rintro ⟨⟩
    · rintro ⟨⟨h0, h9⟩, -⟩
      omega
  · have hguard : ¬(kUnknownCacheVersion - (ch.toNat - '0'.toNat)) / 10 < parsed ↔
        parsed * 10 + (ch.toNat - '0'.toNat) ≤ kUnknownCacheVersion := guard_iff (by
      show ch.toNat - 48 ≤ 9
      have : ¬(ch.toNat < 48 ∨ 57 < ch.toNat) := hch
      omega)
    rw [if_neg hch]
    dsimp only
    rw [← ite_not, ite_cond_congr (propext hguard)]
    split
    · simp only [Option.some.injEq]
      omega
    · simp only [reduceCtorEq, false_iff]
      omega

/-- The operations of a round give the numbers that they give without a bound: the difference
always, the product and the sum when the guard has let them pass. -/
structure RoundExact (parsed digit : UInt64) : Prop where
  difference :
    (UInt64.ofNat kUnknownCacheVersion - digit).toNat = kUnknownCacheVersion - digit.toNat
  product : ¬(UInt64.ofNat kUnknownCacheVersion - digit) / 10 < parsed →
    (parsed * 10).toNat = parsed.toNat * 10
  sum : ¬(UInt64.ofNat kUnknownCacheVersion - digit) / 10 < parsed →
    (parsed * 10 + digit).toNat = parsed.toNat * 10 + digit.toNat

theorem roundExact (parsed : UInt64) {digit : UInt64} (hdigit : digit.toNat ≤ 9) :
    RoundExact parsed digit := by
  have hmax : (UInt64.ofNat kUnknownCacheVersion).toNat = kUnknownCacheVersion := rfl
  have hdifference :
      (UInt64.ofNat kUnknownCacheVersion - digit).toNat = kUnknownCacheVersion - digit.toNat := by
    rw [UInt64.toNat_sub_of_le _ _ (UInt64.le_iff_toNat_le.2 (hdigit.trans (by decide))), hmax]
  have hle (h : ¬(UInt64.ofNat kUnknownCacheVersion - digit) / 10 < parsed) :
      parsed.toNat * 10 + digit.toNat ≤ 2 ^ 64 - 1 := by
    rw [UInt64.lt_iff_toNat_lt, UInt64.toNat_div, hdifference] at h
    exact (guard_iff hdigit).1 h
  have hproduct (h : ¬(UInt64.ofNat kUnknownCacheVersion - digit) / 10 < parsed) :
      (parsed * 10).toNat = parsed.toNat * 10 := by
    have := hle h
    rw [UInt64.toNat_mul]
    exact Nat.mod_eq_of_lt (show parsed.toNat * 10 < 2 ^ 64 by omega)
  refine ⟨hdifference, hproduct, fun h ↦ ?_⟩
  have := hle h
  rw [UInt64.toNat_add, hproduct h]
  exact Nat.mod_eq_of_lt (by omega)

/-- The machine's round is the round on numbers. -/
theorem parse_cache_digit_u64_toNat (parsed : UInt64) (ch : Char) :
    (parse_cache_digit_u64 parsed ch).map UInt64.toNat = parse_cache_digit parsed.toNat ch := by
  rw [parse_cache_digit_u64, parse_cache_digit]
  split
  · rfl
  · next hch =>
    have hdigit : ch.toNat - '0'.toNat ≤ 9 := by
      show ch.toNat - 48 ≤ 9
      have : ¬(ch.toNat < 48 ∨ 57 < ch.toNat) := hch
      omega
    have hword : (UInt64.ofNat (ch.toNat - '0'.toNat)).toNat = ch.toNat - '0'.toNat :=
      UInt64.toNat_ofNat'.trans (Nat.mod_eq_of_lt (by omega))
    have hexact := roundExact parsed (hword.trans_le hdigit)
    have hguard :
        (UInt64.ofNat kUnknownCacheVersion - .ofNat (ch.toNat - '0'.toNat)) / 10 < parsed ↔
          (kUnknownCacheVersion - (ch.toNat - '0'.toNat)) / 10 < parsed.toNat := by
      rw [UInt64.lt_iff_toNat_lt, UInt64.toNat_div, hexact.difference, hword]
      rfl
    by_cases h : (kUnknownCacheVersion - (ch.toNat - '0'.toNat)) / 10 < parsed.toNat
    · rw [if_pos h, if_pos (hguard.2 h)]
      rfl
    · have hsum := hexact.sum (mt hguard.1 h)
      rw [hword] at hsum
      rw [if_neg h, if_neg (mt hguard.1 h), Option.map_some, hsum]

theorem foldlM_parse_cache_digit_u64 (l : List Char) (parsed : UInt64) :
    (l.foldlM parse_cache_digit_u64 parsed).map UInt64.toNat =
      l.foldlM parse_cache_digit parsed.toNat := by
  induction l generalizing parsed with
  | nil => rfl
  | cons c l ih =>
    rw [List.foldlM_cons, List.foldlM_cons, ← parse_cache_digit_u64_toNat]
    cases parse_cache_digit_u64 parsed c with
    | none => rfl
    | some next => exact ih next

theorem parse_cache_version_u64_toNat (raw : String) :
    (parse_cache_version_u64 raw).map UInt64.toNat = parse_cache_version raw := by
  rw [parse_cache_version_u64, parse_cache_version]
  split
  · rfl
  · have hloop := foldlM_parse_cache_digit_u64 raw.toList 0
    rw [UInt64.toNat_zero] at hloop
    rw [← hloop]
    cases raw.toList.foldlM parse_cache_digit_u64 0 with
    | none => rfl
    | some parsed =>
      have hlast : parsed = UInt64.ofNat kUnknownCacheVersion ↔
          parsed.toNat = kUnknownCacheVersion := UInt64.toNat_inj.symm
      by_cases h : parsed.toNat = kUnknownCacheVersion
      · simp only [Option.bind_some, Option.map_some, if_pos h, if_pos (hlast.2 h)]
        rfl
      · simp only [Option.bind_some, Option.map_some, if_neg h, if_neg (mt hlast.1 h)]

/-! ### What is read -/

/-- What the loop has read: digits, with a value that fits the type. -/
theorem foldlM_parse_cache_digit_eq_some {l : List Char} {parsed n : ℕ}
    (hparsed : parsed ≤ kUnknownCacheVersion) :
    l.foldlM parse_cache_digit parsed = some n ↔
      (∀ c ∈ l, c.isDigit = true) ∧ Nat.ofDigitChars 10 l parsed = n ∧
        n ≤ kUnknownCacheVersion := by
  constructor
  · intro h
    induction l generalizing parsed with
    | nil =>
      obtain rfl := Option.some.inj h
      exact ⟨nofun, rfl, hparsed⟩
    | cons c l ih =>
      rw [List.foldlM_cons] at h
      obtain ⟨next, hstep, hloop⟩ := Option.bind_eq_some_iff.1 h
      obtain ⟨hc, rfl, hle⟩ := parse_cache_digit_eq_some.1 hstep
      obtain ⟨hl, hvalue, hn⟩ := ih hle hloop
      exact ⟨List.forall_mem_cons.2 ⟨hc, hl⟩, Nat.ofDigitChars_cons.trans hvalue, hn⟩
  · rintro ⟨hl, rfl, hn⟩
    exact foldlM_parse_cache_digit hl hn

/-- **Parsing a version**, by a loop that never wraps around: what is read is exactly the value of a
text of digits that is less than the greatest number of the type, so every known version is read
back from its text. -/
theorem parse_cache_version_exact :
    (∀ raw, (parse_cache_version_u64 raw).map UInt64.toNat = parse_cache_version raw) ∧
    (∀ parsed digit : UInt64, digit ≤ 9 → RoundExact parsed digit) ∧
    (∀ raw v, parse_cache_version raw = some v ↔
      raw ≠ "" ∧ (∀ c ∈ raw.toList, c.isDigit = true) ∧ Nat.ofDigitChars 10 raw.toList 0 = v ∧
        v < 2 ^ 64 - 1) ∧
    ∀ v < 2 ^ 64, cache_version_is_known v = true → parse_cache_version (toString v) = some v := by
  refine ⟨parse_cache_version_u64_toNat, fun parsed digit h ↦ roundExact parsed h, fun raw v ↦ ?_,
    fun v hv hknown ↦ parse_cache_version_toString ?_⟩
  · rw [parse_cache_version]
    by_cases hraw : raw = ""
    · rw [if_pos hraw]
      exact iff_of_false nofun fun h ↦ h.1 hraw
    · rw [if_neg hraw, Option.bind_eq_some_iff]
      constructor
      · rintro ⟨parsed, hloop, hlast⟩
        obtain ⟨hl, hvalue, hle⟩ := (foldlM_parse_cache_digit_eq_some (Nat.zero_le _)).1 hloop
        split at hlast
        · cases hlast
        · next hne =>
          obtain rfl := Option.some.inj hlast
          exact ⟨hraw, hl, hvalue, lt_of_le_of_ne hle hne⟩
      · rintro ⟨-, hl, hvalue, hlt⟩
        refine ⟨v, (foldlM_parse_cache_digit_eq_some (Nat.zero_le _)).2 ⟨hl, hvalue, hlt.le⟩, ?_⟩
        exact if_neg hlt.ne
  · have hne : v ≠ kUnknownCacheVersion := of_decide_eq_true hknown
    have h : kUnknownCacheVersion = 2 ^ 64 - 1 := rfl
    omega

end ChatNow
