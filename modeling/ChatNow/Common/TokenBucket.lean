import ChatNow.Common.RateLimiter

/-!
# The reference token bucket

`compute_token_bucket` of `common/utils/reliability_state.hpp` does in C++ what the script of
`RateLimiter` does in Lua: a refill, and a token. The script computes with doubles, which are exact
for the milliseconds of a clock; the reference counts its tokens in `int`, and takes a timestamp
that is not positive for a bucket that does not exist.

So the two part where the refilled tokens do not fit into an `int`, before they are cut to the
capacity, and for the timestamps that a clock before 1970 leaves (`agrees_iff`). A sum of two `int`
that does not fit is undefined in C++; here it wraps around.
-/

namespace ChatNow.RateLimiter

/-! ### `compute_token_bucket` -/

structure TokenBucketDecision where
  allowed : Bool := false
  tokens : ℤ := 0
  reset_at_ms : ℤ := 0
  deriving DecidableEq

/-- The largest `int`. -/
def intMax : ℤ := 2147483647

/-- A number as an `int`. -/
def toInt (x : ℤ) : ℤ := x.bmod 4294967296

def compute_token_bucket (current_tokens last_refill_ms now_ms window_sec capacity : ℤ) :
    TokenBucketDecision :=
  if capacity ≤ 0 ∨ window_sec ≤ 0 then ⟨true, capacity, now_ms⟩
  else
    let (current_tokens, last_refill_ms) :=
      if last_refill_ms ≤ 0 ∨ now_ms < last_refill_ms then (capacity, now_ms)
      else (current_tokens, last_refill_ms)
    let interval_ms := window_sec * 1000 / capacity
    let interval_ms := if interval_ms ≤ 0 then 1 else interval_ms
    let elapsed_ms := now_ms - last_refill_ms
    let refill := toInt (elapsed_ms / interval_ms)
    let (current_tokens, last_refill_ms) :=
      if refill > 0 then
        (min capacity (toInt (current_tokens + refill)), last_refill_ms + refill * interval_ms)
      else (current_tokens, last_refill_ms)
    if current_tokens ≤ 0 then ⟨false, 0, last_refill_ms⟩
    else ⟨true, current_tokens - 1, last_refill_ms⟩

/-- The decision of the reference and what the script returns and leaves under the key. -/
def Agrees (key_full : String) (d : TokenBucketDecision) (x : ℤ × Expiring String Bucket) : Prop :=
  d.allowed = (x.1 == 1) ∧ (x.2 key_full).map (·.1) = some ⟨d.tokens, d.reset_at_ms⟩

instance (key_full : String) (d : TokenBucketDecision) (x : ℤ × Expiring String Bucket) :
    Decidable (Agrees key_full d x) :=
  inferInstanceAs (Decidable (_ ∧ _))

/-- Where the reference does what the script does: for a clock that has been set back; for a
timestamp after 1970, where the refilled tokens fit into an `int`; and for one before, where the
bucket is full anyway and no part of an interval has passed. -/
def Coincides (capacity window_sec now_ms : ℤ) (b : Bucket) : Prop :=
  now_ms < b.ts ∨
    (0 < b.ts ∧ b.tokens + (now_ms - b.ts) / intervalMs capacity window_sec ≤ intMax) ∨
    (b.ts ≤ 0 ∧ capacity ≤ b.tokens + (now_ms - b.ts) / intervalMs capacity window_sec ∧
      intervalMs capacity window_sec ∣ now_ms - b.ts)

/-! ### Numbers -/

section Int

variable {x : ℤ}

theorem toInt_of_le (h₀ : 0 ≤ x) (h : x ≤ intMax) : toInt x = x := by
  rw [intMax] at h
  exact Int.bmod_eq_of_le (by omega) (by omega)

theorem toInt_le (x : ℤ) : toInt x ≤ intMax := by
  have := Int.bmod_lt (x := x) (m := 4294967296) (by decide)
  rw [toInt, intMax]
  omega

/-- The sum of two `int` that does not fit is negative. -/
theorem toInt_neg (h : intMax < x) (h' : x ≤ 2 * intMax) : toInt x < 0 := by
  rw [intMax] at h h'
  have hsub : toInt x = x - 4294967296 := by
    rw [toInt, ← Int.sub_bmod_right]
    exact Int.bmod_eq_of_le (by omega) (by omega)
  omega

end Int

/-! ### The two side by side -/

/-- The decision of the script on a refilled bucket. -/
def decided (b : Bucket) : TokenBucketDecision :=
  if b.tokens ≤ 0 then ⟨false, b.tokens, b.ts⟩ else ⟨true, b.tokens - 1, b.ts⟩

section Bucket

variable {key_full : String} {capacity window_sec now_ms clock e : ℤ} {b : Bucket}
  {db : Expiring String Bucket} {d : TokenBucketDecision}

theorem interval_eq (x : ℤ) : (if x ≤ 0 then 1 else x) = max 1 x := by
  split <;> omega

/-- **The script** on a bucket that it finds. -/
theorem agrees_script (hcap : 0 < capacity) (hwin : 0 < window_sec)
    (hget : db.get clock key_full = some b) :
    Agrees key_full d (kRateLimitScript clock key_full capacity window_sec now_ms db) ↔
      d = decided (refilled capacity (intervalMs capacity window_sec) now_ms (some b)) := by
  have hpos : ¬(capacity ≤ 0 ∨ windowMs window_sec ≤ 0) := by
    rw [windowMs]
    omega
  obtain ⟨allowed, tokens, reset_at_ms⟩ := d
  rw [kRateLimitScript]
  dsimp only
  rw [if_neg hpos, hget, decided]
  generalize refilled capacity (intervalMs capacity window_sec) now_ms (some b) = B
  obtain ⟨current, ts⟩ := B
  dsimp only
  split
  · simp only [Agrees, Expiring.setEx_self, Option.map_some, Option.some.injEq,
      TokenBucketDecision.mk.injEq, Bucket.mk.injEq]
    exact and_congr Iff.rfl (and_congr eq_comm eq_comm)
  · simp only [Agrees, Expiring.setEx_self, Option.map_some, Option.some.injEq,
      TokenBucketDecision.mk.injEq, Bucket.mk.injEq]
    exact and_congr Iff.rfl (and_congr eq_comm eq_comm)

/-- A bucket that does not exist for the reference, or that is older than the clock. -/
theorem compute_of_reset (hcap : 0 < capacity) (hwin : 0 < window_sec)
    (hreset : b.ts ≤ 0 ∨ now_ms < b.ts) :
    compute_token_bucket b.tokens b.ts now_ms window_sec capacity =
      ⟨true, capacity - 1, now_ms⟩ := by
  rw [compute_token_bucket, if_neg (by omega), if_pos hreset]
  simp [toInt, not_le.2 hcap]

/-- A bucket that is refilled. -/
theorem compute_of_refill (hcap : 0 < capacity) (hwin : 0 < window_sec) (hts : 0 < b.ts)
    (hnow : b.ts ≤ now_ms) :
    compute_token_bucket b.tokens b.ts now_ms window_sec capacity =
      let i := intervalMs capacity window_sec
      let refill := toInt ((now_ms - b.ts) / i)
      let b' : Bucket := if refill > 0 then
        ⟨min capacity (toInt (b.tokens + refill)), b.ts + refill * i⟩ else b
      if b'.tokens ≤ 0 then ⟨false, 0, b'.ts⟩ else ⟨true, b'.tokens - 1, b'.ts⟩ := by
  have hwindow : window_sec * 1000 = windowMs window_sec := rfl
  rw [compute_token_bucket, if_neg (by omega), if_neg (by omega)]
  dsimp only
  rw [interval_eq, hwindow, ← intervalMs]
  split <;> rfl

/-- The bucket that the script has stored. -/
structure Stored (capacity window_sec : ℤ) (b : Bucket) : Prop where
  capacity_pos : 0 < capacity
  window_pos : 0 < window_sec
  tokens_nonneg : 0 ≤ b.tokens
  tokens_le : b.tokens ≤ capacity

/-- The reference refills as the script does if the tokens fit. -/
theorem compute_of_fits (h : Stored capacity window_sec b) (hts : 0 < b.ts) (hnow : b.ts ≤ now_ms)
    (hfits : b.tokens + (now_ms - b.ts) / intervalMs capacity window_sec ≤ intMax) :
    compute_token_bucket b.tokens b.ts now_ms window_sec capacity =
      decided ⟨min capacity (b.tokens + (now_ms - b.ts) / intervalMs capacity window_sec),
        b.ts + (now_ms - b.ts) / intervalMs capacity window_sec *
          intervalMs capacity window_sec⟩ := by
  obtain ⟨hcap, hwin, h₀, hle⟩ := h
  rw [compute_of_refill hcap hwin hts hnow]
  have hr : 0 ≤ (now_ms - b.ts) / intervalMs capacity window_sec :=
    Int.ediv_nonneg (by omega) intervalMs_pos.le
  dsimp only
  generalize (now_ms - b.ts) / intervalMs capacity window_sec = r at hr hfits ⊢
  rw [toInt_of_le hr (by omega), toInt_of_le (by omega) hfits]
  rcases hr.lt_or_eq with hpos | rfl
  · rw [if_pos hpos, decided]
    dsimp only
    split
    · next hempty =>
      have hzero : min capacity (b.tokens + r) = 0 := by omega
      rw [hzero]
    · rfl
  · rw [if_neg (lt_irrefl 0), add_zero, min_eq_right hle, zero_mul, add_zero, decided]
    split
    · next hempty =>
      have hzero : b.tokens = 0 := by omega
      rw [hzero]
    · rfl

/-- The reference does something else if they do not. -/
theorem compute_ne_of_overflow (h : Stored capacity window_sec b) (hmax : capacity ≤ intMax)
    (hts : 0 < b.ts) (hnow : b.ts ≤ now_ms)
    (hover : intMax < b.tokens + (now_ms - b.ts) / intervalMs capacity window_sec) :
    compute_token_bucket b.tokens b.ts now_ms window_sec capacity ≠
      decided ⟨min capacity (b.tokens + (now_ms - b.ts) / intervalMs capacity window_sec),
        b.ts + (now_ms - b.ts) / intervalMs capacity window_sec *
          intervalMs capacity window_sec⟩ := by
  obtain ⟨hcap, hwin, h₀, hle⟩ := h
  have hi : 0 < intervalMs capacity window_sec := intervalMs_pos
  rw [compute_of_refill hcap hwin hts hnow]
  dsimp only
  generalize (now_ms - b.ts) / intervalMs capacity window_sec = r at hover ⊢
  have hfull : min capacity (b.tokens + r) = capacity := by omega
  rw [hfull, decided, if_neg (not_le.2 hcap)]
  rcases le_or_gt r intMax with hr | hr
  · -- the sum wraps around
    have hneg := toInt_neg hover (by omega)
    rw [toInt_of_le (by omega) hr, if_pos (show r > 0 by omega), if_pos (by dsimp only; omega)]
    intro heq
    cases congrArg TokenBucketDecision.allowed heq
  · -- the refill is cut to an `int`
    have hlt : toInt r < r := (toInt_le r).trans_lt hr
    intro heq
    have hreset := congrArg TokenBucketDecision.reset_at_ms heq
    have hmul : toInt r * intervalMs capacity window_sec < r * intervalMs capacity window_sec :=
      Int.mul_lt_mul_of_pos_right hlt hi
    have hpos : 0 < r * intervalMs capacity window_sec := by
      rw [intMax] at hr
      exact Int.mul_pos (by omega) hi
    dsimp only at hreset
    split at hreset
    · split at hreset
      · dsimp only at hreset
        omega
      · dsimp only at hreset
        omega
    · split at hreset
      · dsimp only at hreset
        omega
      · dsimp only at hreset
        omega

/-- **Where the two coincide**, for a bucket that the script has stored. -/
theorem compute_eq_iff (h : Stored capacity window_sec b) (hmax : capacity ≤ intMax) :
    compute_token_bucket b.tokens b.ts now_ms window_sec capacity =
        decided (refilled capacity (intervalMs capacity window_sec) now_ms (some b)) ↔
      Coincides capacity window_sec now_ms b := by
  obtain ⟨hcap, hwin, h₀, hle⟩ := h
  have hi : 0 < intervalMs capacity window_sec := intervalMs_pos
  rcases lt_or_ge now_ms b.ts with hback | hnow
  · -- the clock has been set back
    rw [compute_of_reset hcap hwin (.inr hback), refilled, if_pos hback, decided,
      if_neg (not_le.2 hcap)]
    exact iff_of_true rfl (.inl hback)
  rw [refilled_eq hle hnow hi]
  have hr : 0 ≤ (now_ms - b.ts) / intervalMs capacity window_sec :=
    Int.ediv_nonneg (by omega) hi.le
  rcases lt_or_ge 0 b.ts with hts | hts
  · have hiff : Coincides capacity window_sec now_ms b ↔
        b.tokens + (now_ms - b.ts) / intervalMs capacity window_sec ≤ intMax := by
      rw [Coincides, or_iff_right (not_lt.2 hnow), and_iff_right hts,
        or_iff_left fun h ↦ absurd h.1 (not_le.2 hts)]
    rw [hiff]
    rcases le_or_gt (b.tokens + (now_ms - b.ts) / intervalMs capacity window_sec) intMax with
      hfits | hover
    · exact iff_of_true (compute_of_fits ⟨hcap, hwin, h₀, hle⟩ hts hnow hfits) hfits
    · exact iff_of_false (compute_ne_of_overflow ⟨hcap, hwin, h₀, hle⟩ hmax hts hnow hover)
        (not_le.2 hover)
  · have hiff : Coincides capacity window_sec now_ms b ↔
        capacity ≤ b.tokens + (now_ms - b.ts) / intervalMs capacity window_sec ∧
          (now_ms - b.ts) / intervalMs capacity window_sec * intervalMs capacity window_sec =
            now_ms - b.ts := by
      rw [Coincides, or_iff_right (not_lt.2 hnow), or_iff_right fun h ↦ absurd h.1 (not_lt.2 hts),
        and_iff_right hts, and_congr_right_iff]
      exact fun _ ↦ ⟨Int.ediv_mul_cancel, fun heq ↦ ⟨_, (mul_comm _ _).trans heq |>.symm⟩⟩
    rw [hiff, compute_of_reset hcap hwin (.inl hts), decided]
    generalize (now_ms - b.ts) / intervalMs capacity window_sec = r
    dsimp only
    split
    · next hempty =>
      refine iff_of_false (fun heq ↦ ?_) (by omega)
      cases congrArg TokenBucketDecision.allowed heq
    · rw [TokenBucketDecision.mk.injEq]
      constructor
      · rintro ⟨-, htok, hreset⟩
        omega
      · rintro ⟨htok, hreset⟩
        exact ⟨rfl, by omega, by omega⟩

end Bucket

/-! ### What the script can have written -/

section Reach

variable {key_full : String} {capacity window_sec now_ms clock e : ℤ} {b : Bucket}
  {db : Expiring String Bucket} {s s' : LimiterState}

/-- A refill keeps the tokens within the capacity. -/
theorem Stored.refilled {old : Option Bucket} (hcap : 0 < capacity) (hwin : 0 < window_sec)
    (h : ∀ b, old = some b → Stored capacity window_sec b) :
    Stored capacity window_sec
      (refilled capacity (intervalMs capacity window_sec) now_ms old) := by
  cases old with
  | none => exact ⟨hcap, hwin, hcap.le, le_rfl⟩
  | some b =>
    obtain ⟨-, -, h₀, hle⟩ := h b rfl
    rcases lt_or_ge now_ms b.ts with hback | hnow
    · rw [RateLimiter.refilled, if_pos hback]
      exact ⟨hcap, hwin, hcap.le, le_rfl⟩
    · have hr : 0 ≤ (now_ms - b.ts) / intervalMs capacity window_sec :=
        Int.ediv_nonneg (by omega) intervalMs_pos.le
      rw [refilled_eq hle hnow intervalMs_pos]
      exact ⟨hcap, hwin, le_min hcap.le (by omega), min_le_left _ _⟩

/-- The script keeps a bucket in order. -/
theorem Stored.script (h : ∀ b e, db key_full = some (b, e) → Stored capacity window_sec b)
    (hb : (kRateLimitScript clock key_full capacity window_sec now_ms db).2 key_full =
      some (b, e)) : Stored capacity window_sec b := by
  rw [kRateLimitScript] at hb
  dsimp only at hb
  split at hb
  · exact h b e hb
  · next hpos =>
    have hwindow : windowMs window_sec = window_sec * 1000 := rfl
    have hfound : ∀ b, db.get clock key_full = some b → Stored capacity window_sec b := by
      intro b hget
      obtain ⟨e, hdb, -⟩ := (Expiring.get_eq_some db).1 hget
      exact h b e hdb
    have hnew : Stored capacity window_sec (RateLimiter.refilled capacity
        (intervalMs capacity window_sec) now_ms (db.get clock key_full)) :=
      Stored.refilled (by omega) (by omega) hfound
    split at hb
    · obtain ⟨rfl, -⟩ := Prod.mk.inj (Option.some.inj ((Expiring.setEx_self ..).symm.trans hb))
      exact hnew
    · obtain ⟨rfl, -⟩ := Prod.mk.inj (Option.some.inj ((Expiring.setEx_self ..).symm.trans hb))
      obtain ⟨hcap, hwin, -, hle⟩ := hnew
      refine ⟨hcap, hwin, ?_, ?_⟩
      · dsimp only
        omega
      · dsimp only
        omega

/-- **What the script can have written**: a capacity and a window that are positive, and tokens
within the capacity. -/
theorem stored_of_reach
    (hs : (limiter key_full capacity window_sec).Reach (fun _ _ ↦ True) .init s) :
    ∀ b e, s.db key_full = some (b, e) → Stored capacity window_sec b := by
  refine Labelled.invariant
    (I := fun s ↦ ∀ b e, s.db key_full = some (b, e) → Stored capacity window_sec b) hs
    (fun b e hb ↦ by cases hb) fun {s i s'} h _ hs ↦ ?_
  cases i with
  | elapse ms =>
    obtain rfl := Option.some.inj hs
    exact h
  | call now_ms =>
    obtain rfl := Option.some.inj hs
    exact fun b e hb ↦ Stored.script h hb

end Reach

/-- **Where the reference agrees with the script**, on a bucket that the script has written and that
has not expired. -/
theorem agrees_iff {key_full : String} {capacity window_sec clock e : ℤ} {b : Bucket}
    {s : LimiterState} (hs : (limiter key_full capacity window_sec).Reach (fun _ _ ↦ True) .init s)
    (hmax : capacity ≤ intMax) (hdb : s.db key_full = some (b, e)) (hlive : clock < e)
    (now_ms : ℤ) :
    Agrees key_full (compute_token_bucket b.tokens b.ts now_ms window_sec capacity)
        (kRateLimitScript clock key_full capacity window_sec now_ms s.db) ↔
      Coincides capacity window_sec now_ms b := by
  have h := stored_of_reach hs b e hdb
  rw [agrees_script h.capacity_pos h.window_pos (Expiring.get_of_lt hdb hlive)]
  exact compute_eq_iff h hmax

/-- Ten tokens in a minute, after one call. -/
theorem agrees_iff_ten : ∃ s,
    (limiter "im:rl:user:u" 10 60).Reach (fun _ _ ↦ True) .init s ∧
      Agrees "im:rl:user:u" (compute_token_bucket 9 1000 61000 60 10)
        (kRateLimitScript 60 "im:rl:user:u" 10 60 61000 s.db) := by
  obtain ⟨s, hs, hdb⟩ := Labelled.exists_of_run (limiter "im:rl:user:u" 10 60) (fun _ _ ↦ True)
    .init [.call 1000] (fun s ↦ s.db "im:rl:user:u" = some (⟨9, 1000⟩, 120000)) (by decide +kernel)
  exact ⟨s, hs, (agrees_iff hs (by decide) hdb (by decide) 61000).2
    (.inr (.inl ⟨by decide, by decide⟩))⟩

/-- A capacity as large as an `int` can be: two milliseconds after the first call the refilled
tokens do not fit, and the reference denies what the script allows. -/
theorem agrees_not_max : ∃ s,
    (limiter "im:rl:user:u" 2147483647 1).Reach (fun _ _ ↦ True) .init s ∧
      s.db "im:rl:user:u" = some (⟨2147483646, 1000⟩, 2000) ∧
      ¬Agrees "im:rl:user:u" (compute_token_bucket 2147483646 1000 1002 1 2147483647)
        (kRateLimitScript 2 "im:rl:user:u" 2147483647 1 1002 s.db) :=
  Labelled.exists_of_run (limiter "im:rl:user:u" 2147483647 1) (fun _ _ ↦ True) .init
    [.call 1000] _ (by decide +kernel)

end ChatNow.RateLimiter
