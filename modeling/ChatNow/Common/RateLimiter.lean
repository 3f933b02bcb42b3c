import ChatNow.Lib.Expiring
import ChatNow.Lib.Labelled

/-!
# The token bucket in Redis

`RateLimiter` of `common/dao/data_redis.hpp`. The script runs in Redis as one step, but the time it
computes with is an argument: `system_clock` of the instance that calls. Several instances share a
key, so two calls in a row may bring any two times. The time to live of the key is on the clock of
Redis.

* `kRateLimitScript`, `allow`: the script, and the call of it while Redis answers.
* `limiter`: the calls on one key, each with the time its instance reads, and the passing of time in
  Redis. Nothing relates the two.
* `Forward`: a call reads a time no earlier than the stored one; and after the key has expired, one
  at least a window later.
* `allowed_le`: under it the calls let through are at most the capacity, one more, and one for every
  interval between the earliest and the latest time read.

A time below the stored one is taken for a clock that has been set back, and the bucket is filled
whole. So two instances whose clocks differ by one interval fill it for each other at every call
(`allowed_not_le`); `consume_` of `LocalRateLimiter` adds nothing for a time that goes back.
-/

namespace ChatNow.RateLimiter

/-! ### The script -/

/-- The hash under a key. Both fields are written by one `HSET`. -/
structure Bucket where
  tokens : ℤ
  ts : ℤ
  deriving DecidableEq

/-- `window_ms`. -/
def windowMs (window_sec : ℤ) : ℤ := window_sec * 1000

/-- `interval_ms`: the time in which one token is added. -/
def intervalMs (capacity window_sec : ℤ) : ℤ := max 1 (windowMs window_sec / capacity)

/-- The tokens and the timestamp after the refill. -/
def refilled (capacity interval_ms now_ms : ℤ) : Option Bucket → Bucket
  | none => ⟨capacity, now_ms⟩
  | some b =>
    if now_ms < b.ts then
      ⟨capacity, now_ms⟩
    else
      let refill := (now_ms - b.ts) / interval_ms
      if refill > 0 then
        ⟨min capacity (b.tokens + refill), b.ts + refill * interval_ms⟩
      else
        b

/-- The script at a moment of Redis: what it returns, and the keys after it. -/
def kRateLimitScript (clock : ℤ) (key : String) (capacity window_sec now_ms : ℤ)
    (db : Expiring String Bucket) : ℤ × Expiring String Bucket :=
  let window_ms := windowMs window_sec
  if capacity ≤ 0 ∨ window_ms ≤ 0 then
    (1, db)
  else
    let b := refilled capacity (intervalMs capacity window_sec) now_ms (db.get clock key)
    if b.tokens ≤ 0 then
      (0, db.setEx clock key b (window_ms * 2))
    else
      (1, db.setEx clock key { b with tokens := b.tokens - 1 } (window_ms * 2))

/-- `allow`, while Redis answers. -/
def allow (clock : ℤ) (key_full : String) (max_count window_sec now_ms : ℤ)
    (db : Expiring String Bucket) : Bool × Expiring String Bucket :=
  let (cur, db') := kRateLimitScript clock key_full max_count window_sec now_ms db
  (cur == 1, db')

/-! ### Calls on one key -/

/-- A call that has been made. -/
structure Call where
  now_ms : ℤ
  allowed : Bool
  deriving DecidableEq

structure LimiterState where
  /-- The clock of Redis. -/
  clock : ℤ
  db : Expiring String Bucket
  /-- Every call of the run so far, the last one first. -/
  calls : List Call

def LimiterState.init : LimiterState := ⟨0, .empty, []⟩

inductive LimiterStep
  /-- Time passes in Redis. -/
  | elapse (ms : ℕ)
  /-- An instance calls, and its clock reads `now_ms`. -/
  | call (now_ms : ℤ)

/-- The calls of all instances on the key `key_full`. -/
def limiter (key_full : String) (max_count window_sec : ℤ) : Labelled LimiterState LimiterStep where
  step
    | .elapse ms, s => some { s with clock := s.clock + ms }
    | .call now_ms, s =>
      let (ok, db') := allow s.clock key_full max_count window_sec now_ms s.db
      some { s with db := db', calls := ⟨now_ms, ok⟩ :: s.calls }

/-- The number of calls let through. -/
def allowedCalls (calls : List Call) : ℕ := calls.countP (·.allowed)

/-- The latest time a call has read. -/
def maxNow (calls : List Call) : ℤ := (calls.map (·.now_ms)).max?.getD 0

/-- The earliest time a call has read. -/
def minNow (calls : List Call) : ℤ := (calls.map (·.now_ms)).min?.getD 0

/-- What a call assumes about the time it reads: it is not before the one stored, and if the key has
expired it is at least a window after it. -/
def Forward (key_full : String) (window_sec : ℤ) : LimiterStep → LimiterState → Prop
  | .elapse _, _ => True
  | .call now_ms, s =>
    match s.db key_full with
    | none => True
    | some (b, e) => if s.clock < e then b.ts ≤ now_ms else b.ts + windowMs window_sec ≤ now_ms

instance (key_full : String) (window_sec : ℤ) :
    ∀ i s, Decidable (Forward key_full window_sec i s)
  | .elapse _, _ => .isTrue trivial
  | .call now_ms, s =>
    match h : s.db key_full with
    | none => .isTrue (by rw [Forward, h]; trivial)
    | some (b, e) =>
      decidable_of_iff
        (if s.clock < e then b.ts ≤ now_ms else b.ts + windowMs window_sec ≤ now_ms)
        (by rw [Forward, h])

theorem le_maxNow {calls : List Call} {c : Call} (hc : c ∈ calls) : c.now_ms ≤ maxNow calls := by
  have hmem : c.now_ms ∈ calls.map (·.now_ms) := List.mem_map_of_mem hc
  cases h : (calls.map (·.now_ms)).max? with
  | none =>
    rw [List.max?_eq_none_iff] at h
    rw [h] at hmem
    cases hmem
  | some m =>
    rw [maxNow, h]
    exact (List.max?_eq_some_iff.1 h).2 _ hmem

theorem minNow_le {calls : List Call} {c : Call} (hc : c ∈ calls) : minNow calls ≤ c.now_ms := by
  have hmem : c.now_ms ∈ calls.map (·.now_ms) := List.mem_map_of_mem hc
  cases h : (calls.map (·.now_ms)).min? with
  | none =>
    rw [List.min?_eq_none_iff] at h
    rw [h] at hmem
    cases hmem
  | some m =>
    rw [minNow, h]
    exact (List.min?_eq_some_iff.1 h).2 _ hmem

/-! ### What a bucket has been paid for -/

/-- A bucket after `n` calls have been let through, with the times read so far: every token that has
been given out or is still there, beyond the first `capacity`, has taken an interval since the
earliest of the times. -/
structure Paid (capacity interval_ms : ℤ) (times : List ℤ) (n : ℕ) (b : Bucket) : Prop where
  tokens_nonneg : 0 ≤ b.tokens
  ts_le : ∀ {hi}, (∀ t ∈ times, t ≤ hi) → b.ts ≤ hi
  paid : ∀ {lo}, (∀ t ∈ times, lo ≤ t) →
    interval_ms * (n + b.tokens - capacity) ≤ b.ts - lo

section Bucket

variable {capacity interval_ms now_ms : ℤ} {times : List ℤ} {n : ℕ} {b : Bucket}

/-- The refill as one formula, for a clock that does not go back. -/
theorem refilled_eq {i t : ℤ} (hcap : b.tokens ≤ capacity) (hts : b.ts ≤ t) (hi : 0 < i) :
    refilled capacity i t (some b) =
      ⟨min capacity (b.tokens + (t - b.ts) / i), b.ts + (t - b.ts) / i * i⟩ := by
  rw [RateLimiter.refilled, if_neg (not_lt.2 hts)]
  dsimp only
  split
  · rfl
  · next hr =>
    have hnonneg : 0 ≤ (t - b.ts) / i := Int.ediv_nonneg (by omega) hi.le
    have hzero : (t - b.ts) / i = 0 := by omega
    rw [hzero, add_zero, zero_mul, add_zero, min_eq_right hcap]

/-- The first bucket of a key. -/
theorem Paid.first (hcap : 0 < capacity) :
    Paid capacity interval_ms [now_ms] 0 ⟨capacity, now_ms⟩ where
  tokens_nonneg := hcap.le
  ts_le h := h _ List.mem_cons_self
  paid h := by
    have hlo := h _ List.mem_cons_self
    simpa using hlo

/-- A new bucket a window after the last one: the window pays for all of its tokens. -/
theorem Paid.renewed (h : Paid capacity interval_ms times n b) (hcap : 0 < capacity)
    (hI : 0 < interval_ms) (hts : b.ts + capacity * interval_ms ≤ now_ms) :
    Paid capacity interval_ms (now_ms :: times) n ⟨capacity, now_ms⟩ where
  tokens_nonneg := hcap.le
  ts_le h := h _ List.mem_cons_self
  paid {lo} hlo := by
    have hpaid := h.paid fun t ht ↦ hlo t (List.mem_cons_of_mem _ ht)
    have htok : 0 ≤ interval_ms * b.tokens := Int.mul_nonneg hI.le h.tokens_nonneg
    show interval_ms * (n + capacity - capacity) ≤ now_ms - lo
    linarith only [hpaid, htok, hts]

/-- A refill pays for the tokens it adds. -/
theorem Paid.refilled (h : Paid capacity interval_ms times n b) (hcap : 0 < capacity)
    (hI : 0 < interval_ms) (hts : b.ts ≤ now_ms) :
    Paid capacity interval_ms (now_ms :: times) n
      (refilled capacity interval_ms now_ms (some b)) := by
  have hpaid : ∀ {lo}, (∀ t ∈ now_ms :: times, lo ≤ t) →
      interval_ms * (n + b.tokens - capacity) ≤ b.ts - lo := by
    intro lo hlo
    exact h.paid fun t ht ↦ hlo t (List.mem_cons_of_mem _ ht)
  rw [RateLimiter.refilled, if_neg (not_lt.2 hts)]
  dsimp only
  split
  · next hr =>
    have hmul : (now_ms - b.ts) / interval_ms * interval_ms ≤ now_ms - b.ts :=
      Int.ediv_mul_le _ hI.ne'
    refine ⟨?_, ?_, ?_⟩
    · have := h.tokens_nonneg
      exact le_min hcap.le (by omega)
    · intro hi hhi
      have hnow := hhi _ List.mem_cons_self
      show b.ts + (now_ms - b.ts) / interval_ms * interval_ms ≤ hi
      linarith only [hmul, hnow]
    · intro lo hlo
      have hmin : min capacity (b.tokens + (now_ms - b.ts) / interval_ms) ≤
          b.tokens + (now_ms - b.ts) / interval_ms := min_le_right _ _
      have hold := hpaid hlo
      have hle := Int.mul_le_mul_of_nonneg_left hmin hI.le
      show interval_ms * (n + min capacity (b.tokens + (now_ms - b.ts) / interval_ms) - capacity) ≤
        b.ts + (now_ms - b.ts) / interval_ms * interval_ms - lo
      linarith only [hold, hle]
  · exact ⟨h.tokens_nonneg, fun hhi ↦ h.ts_le fun t ht ↦ hhi t (List.mem_cons_of_mem _ ht), hpaid⟩

/-- A call that is let through turns a token that is there into one that has been given out. -/
theorem Paid.take (h : Paid capacity interval_ms times n b) (hpos : 0 < b.tokens) :
    Paid capacity interval_ms times (n + 1) { b with tokens := b.tokens - 1 } where
  tokens_nonneg := by
    show 0 ≤ b.tokens - 1
    omega
  ts_le := h.ts_le
  paid hlo := by
    have hpaid := h.paid hlo
    show interval_ms * ((n + 1 : ℕ) + (b.tokens - 1) - capacity) ≤ b.ts - _
    rw [Nat.cast_add, Nat.cast_one]
    linarith only [hpaid]

/-- What has been given out is bounded by the time there was. -/
theorem Paid.le (h : Paid capacity interval_ms times n b) (hI : 0 < interval_ms) {lo hi : ℤ}
    (hlo : ∀ t ∈ times, lo ≤ t) (hhi : ∀ t ∈ times, t ≤ hi) :
    n ≤ capacity + (hi - lo) / interval_ms := by
  have hpaid := h.paid hlo
  have hts := h.ts_le hhi
  have htok : 0 ≤ interval_ms * b.tokens := Int.mul_nonneg hI.le h.tokens_nonneg
  have hdiv : n - capacity ≤ (hi - lo) / interval_ms := by
    rw [Int.le_ediv_iff_mul_le hI]
    linarith only [hpaid, hts, htok]
  omega

end Bucket

/-! ### Along a run -/

section Run

variable {key_full : String} {capacity window_sec : ℤ} {s s' : LimiterState}

theorem intervalMs_pos : 0 < intervalMs capacity window_sec := by
  have : 1 ≤ intervalMs capacity window_sec := le_max_left _ _
  omega

/-- A window that the capacity divides is `capacity` intervals long. -/
theorem capacity_mul_intervalMs (hcap : 0 < capacity) (hwin : 0 < window_sec)
    (hdvd : capacity ∣ windowMs window_sec) :
    capacity * intervalMs capacity window_sec = windowMs window_sec := by
  have hpos : 0 < windowMs window_sec := by
    rw [windowMs]
    omega
  have hquot : 1 ≤ windowMs window_sec / capacity := Int.ediv_pos_of_pos_of_dvd hpos hcap.le hdvd
  rw [intervalMs, max_eq_right hquot]
  exact Int.mul_ediv_cancel' hdvd

/-- The bucket of the key, live or expired, has been paid for by the calls so far. -/
def Settled (key_full : String) (capacity window_sec : ℤ) (s : LimiterState) : Prop :=
  match s.db key_full with
  | none => s.calls = []
  | some (b, _) =>
    Paid capacity (intervalMs capacity window_sec) (s.calls.map (·.now_ms)) (allowedCalls s.calls) b

/-- The refill at the head of a call leaves a bucket that has been paid for. -/
theorem Settled.refilled {now_ms : ℤ} (h : Settled key_full capacity window_sec s)
    (hcap : 0 < capacity) (hwin : 0 < window_sec) (hdvd : capacity ∣ windowMs window_sec)
    (hfwd : Forward key_full window_sec (.call now_ms) s) :
    Paid capacity (intervalMs capacity window_sec) (now_ms :: s.calls.map (·.now_ms))
      (allowedCalls s.calls)
      (refilled capacity (intervalMs capacity window_sec) now_ms (s.db.get s.clock key_full)) := by
  rw [Settled] at h
  rw [Forward] at hfwd
  cases hdb : s.db key_full with
  | none =>
    rw [hdb] at h
    have hget : s.db.get s.clock key_full = none := by
      rw [Expiring.get, hdb]
      rfl
    rw [hget, show s.calls = [] from h]
    exact .first hcap
  | some v =>
    obtain ⟨b, e⟩ := v
    rw [hdb] at h hfwd
    dsimp only at h hfwd
    split at hfwd
    · next hlt =>
      rw [Expiring.get_of_lt hdb hlt]
      exact h.refilled hcap intervalMs_pos hfwd
    · next hge =>
      have hget : s.db.get s.clock key_full = none := by
        rw [Expiring.get, hdb, Option.filter_some, if_neg (by simpa using hge)]
        rfl
      rw [hget]
      refine h.renewed hcap intervalMs_pos ?_
      rw [capacity_mul_intervalMs hcap hwin hdvd]
      exact hfwd

/-- What the script leaves under the key, and how it answers. -/
theorem kRateLimitScript_spec {clock now_ms : ℤ} {db : Expiring String Bucket} {times : List ℤ}
    {n : ℕ} (hcap : 0 < capacity) (hwin : 0 < window_sec)
    (h : Paid capacity (intervalMs capacity window_sec) times n
      (refilled capacity (intervalMs capacity window_sec) now_ms (db.get clock key_full))) :
    ∃ b e, (allow clock key_full capacity window_sec now_ms db).2 key_full = some (b, e) ∧
      Paid capacity (intervalMs capacity window_sec) times
        (n + if (allow clock key_full capacity window_sec now_ms db).1 then 1 else 0) b := by
  have hpos : ¬(capacity ≤ 0 ∨ windowMs window_sec ≤ 0) := by
    rw [windowMs]
    omega
  rw [allow, kRateLimitScript]
  dsimp only
  rw [if_neg hpos]
  split
  · exact ⟨_, _, Expiring.setEx_self .., h⟩
  · next htok => exact ⟨_, _, Expiring.setEx_self .., h.take (by omega)⟩

theorem Settled.step {i : LimiterStep} (h : Settled key_full capacity window_sec s)
    (hcap : 0 < capacity) (hwin : 0 < window_sec) (hdvd : capacity ∣ windowMs window_sec)
    (hfwd : Forward key_full window_sec i s)
    (hs : (limiter key_full capacity window_sec).step i s = some s') :
    Settled key_full capacity window_sec s' := by
  cases i with
  | elapse ms =>
    obtain rfl := Option.some.inj hs
    exact h
  | call now_ms =>
    obtain ⟨b, e, hb, hpaid⟩ :=
      kRateLimitScript_spec hcap hwin (h.refilled hcap hwin hdvd hfwd)
    dsimp only [limiter] at hs
    generalize allow s.clock key_full capacity window_sec now_ms s.db = r at hb hpaid hs
    obtain rfl := Option.some.inj hs
    rw [Settled]
    dsimp only
    rw [hb]
    simpa only [List.map_cons, allowedCalls, List.countP_cons] using hpaid

/-- **The rate holds while the clocks that call go forward**, whatever instances they are on. -/
theorem allowed_le (hcap : 0 < capacity) (hwin : 0 < window_sec)
    (hdvd : capacity ∣ windowMs window_sec)
    (hr : (limiter key_full capacity window_sec).Reach (Forward key_full window_sec) .init s) :
    (allowedCalls s.calls : ℤ) ≤ capacity + 1 +
      (maxNow s.calls - minNow s.calls) / intervalMs capacity window_sec := by
  have hset : Settled key_full capacity window_sec s :=
    Labelled.invariant hr rfl fun h hG hs ↦ h.step hcap hwin hdvd hG hs
  rw [Settled] at hset
  split at hset
  · rw [hset]
    show (0 : ℤ) ≤ capacity + 1 + (0 - 0) / intervalMs capacity window_sec
    rw [sub_zero, Int.zero_ediv]
    omega
  · have hlo : ∀ t ∈ s.calls.map (·.now_ms), minNow s.calls ≤ t :=
      List.forall_mem_map.2 fun c hc ↦ minNow_le hc
    have hhi : ∀ t ∈ s.calls.map (·.now_ms), t ≤ maxNow s.calls :=
      List.forall_mem_map.2 fun c hc ↦ le_maxNow hc
    have hle := hset.le intervalMs_pos hlo hhi
    omega

end Run

/-- Two instances on one key, with clocks a second apart, and a third call of the first. -/
theorem allowed_le_two_clocks :
    ∃ s, (limiter "im:rl:user:u" 1 1).Reach (Forward "im:rl:user:u" 1) .init s ∧
      s.calls = [⟨2500, true⟩, ⟨1500, false⟩, ⟨1000, true⟩] ∧
      (allowedCalls s.calls : ℤ) ≤ 1 + 1 + (maxNow s.calls - minNow s.calls) / intervalMs 1 1 := by
  obtain ⟨s, hr, hs⟩ := Labelled.exists_of_run (limiter "im:rl:user:u" 1 1)
    (Forward "im:rl:user:u" 1) .init
    [.call 1000, .elapse 500, .call 1500, .elapse 1000, .call 2500]
    (fun s ↦ s.calls = [⟨2500, true⟩, ⟨1500, false⟩, ⟨1000, true⟩]) (by decide +kernel)
  exact ⟨s, hr, hs, allowed_le (by decide) (by decide) (by decide) hr⟩

/-- Two instances whose clocks are a second apart fill the bucket for each other: five calls in a
row are let through where the rate is one in a second. -/
theorem allowed_not_le :
    ∃ s, (limiter "im:rl:user:u" 1 1).Reach (fun _ _ ↦ True) .init s ∧
      s.calls.map (·.now_ms) = [2000, 1000, 2000, 1000, 2000] ∧
      ¬(allowedCalls s.calls : ℤ) ≤ 1 + 1 + (maxNow s.calls - minNow s.calls) / intervalMs 1 1 :=
  Labelled.exists_of_run (limiter "im:rl:user:u" 1 1) (fun _ _ ↦ True) .init
    [.call 2000, .call 1000, .call 2000, .call 1000, .call 2000] _ (by decide +kernel)

end ChatNow.RateLimiter
