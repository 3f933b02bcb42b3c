import ChatNow.Common.LocalRateLimiter
import ChatNow.Lib.Labelled
import Mathlib.Algebra.Order.Field.Basic
import Mathlib.Tactic.Linarith
import Mathlib.Tactic.Positivity
import Mathlib.Tactic.Ring

/-!
# The quota of the local rate limiter

`LocalRateLimiter` measures the time that a bucket has been refilled for from the last call of its
key. A call that has read the clock before that one adds nothing, but it is written down as the
last: the next call refills the time between the two again.

* `quota_of_reach`: the calls of a key come in the order of their clocks, and what has been allowed
  and the tokens left are at most the capacity and what has been refilled since.
* `not_quota_of_swap`: two calls that swap places take one token too many.
-/

namespace ChatNow.LocalRateLimiter

/-! ### Calls, one after the other -/

/-- A limiter, and the calls so far with what they returned. -/
structure Watched where
  limiter : Limiter := {}
  log : List (Call × Bool) := []

section Quota

variable (hash : String → ℕ)

/-- A call. -/
def call : Labelled Watched Call where
  step c w :=
    let (ok, s) := w.limiter.allow c.now_ms c.window_sec hash c.key c.capacity
    some ⟨s, (c, ok) :: w.log⟩

/-- How often a key has been allowed. -/
def Watched.allowed (w : Watched) (key : String) : ℕ := w.log.countP fun x ↦ x.1.key = key ∧ x.2

variable (key : String)

/-- The call does not reclaim the bucket of the key. -/
def Retained (s : Limiter) (c : Call) : Prop :=
  (s.bucket hash key).isSome →
    ((s.swept c.now_ms c.window_sec hash c.key).bucket hash key).isSome ∧
      ((s.allow c.now_ms c.window_sec hash c.key c.capacity).2.bucket hash key).isSome

/-- The last call of the key, if it has a bucket, was not after this one. -/
def InOrder (s : Limiter) (c : Call) : Prop :=
  ∀ b ∈ s.bucket hash key, b.refill_ms ≤ c.now_ms

instance (s : Limiter) (c : Call) : Decidable (InOrder hash key s c) :=
  inferInstanceAs (Decidable (∀ b ∈ s.bucket hash key, b.refill_ms ≤ c.now_ms))

variable (capacity window_sec t₀ t₁ : ℤ)

/-- The calls of the key have its capacity and window and a clock from `t₀` to `t₁`, and no call
reclaims its bucket. -/
def Fixed (c : Call) (w : Watched) : Prop :=
  Retained hash key w.limiter c ∧
    (c.key = key → c.capacity = capacity ∧ c.window_sec = window_sec ∧
      t₀ ≤ c.now_ms ∧ c.now_ms ≤ t₁)

/-- The same, and the calls of the key come in the order of their clocks. -/
def FixedInOrder (c : Call) (w : Watched) : Prop :=
  Fixed hash key capacity window_sec t₀ t₁ c w ∧ (c.key = key → InOrder hash key w.limiter c)

instance (s : Limiter) (c : Call) : Decidable (Retained hash key s c) :=
  inferInstanceAs (Decidable (_ → _ ∧ _))

instance (c : Call) (w : Watched) : Decidable (Fixed hash key capacity window_sec t₀ t₁ c w) :=
  inferInstanceAs (Decidable (_ ∧ (_ → _ ∧ _ ∧ _ ∧ _)))

instance (c : Call) (w : Watched) :
    Decidable (FixedInOrder hash key capacity window_sec t₀ t₁ c w) :=
  inferInstanceAs (Decidable (_ ∧ (_ → _)))

/-- What is refilled in a time. -/
def refillOf (ms : ℤ) : ℚ := ms * capacity / (window_sec * 1000)

/-! ### The calls of a key, in order -/

/-- What has been allowed, and what is left. -/
structure Spent (n : ℕ) (b : Bucket) : Prop where
  tokens_nonneg : 0 ≤ b.tokens
  since : t₀ ≤ b.refill_ms
  till : b.refill_ms ≤ t₁
  spent : n + b.tokens ≤ capacity + refillOf capacity window_sec (b.refill_ms - t₀)

/-- The invariant: a key without a bucket has not been allowed. -/
def SpentAt (w : Watched) : Prop :=
  match w.limiter.bucket hash key with
  | none => w.allowed key = 0
  | some b => Spent capacity window_sec t₀ t₁ (w.allowed key) b

end Quota

section Quota

variable {hash : String → ℕ} {key : String} {capacity window_sec t₀ t₁ now_ms : ℤ}
  {w w' : Watched} {c : Call} {b : Bucket} {n : ℕ}

theorem refillOf_add (x y : ℤ) :
    refillOf capacity window_sec (x + y) =
      refillOf capacity window_sec x + refillOf capacity window_sec y := by
  rw [refillOf, refillOf, refillOf, Int.cast_add, add_mul, add_div]

theorem refillOf_mono (hcap : 0 < capacity) (hwin : 0 < window_sec) {x y : ℤ} (h : x ≤ y) :
    refillOf capacity window_sec x ≤ refillOf capacity window_sec y := by
  have hc : (0 : ℚ) < capacity := Int.cast_pos.2 hcap
  have hw : (0 : ℚ) < window_sec := Int.cast_pos.2 hwin
  have hxy : (x : ℚ) ≤ y := Int.cast_le.2 h
  rw [refillOf, refillOf]
  gcongr

/-- A bucket is refilled for the time since its last call. -/
theorem consume_of_le (h : b.refill_ms ≤ now_ms) :
    consume_ b capacity window_sec now_ms =
      let tokens := min (capacity : ℚ)
        (b.tokens + refillOf capacity window_sec (now_ms - b.refill_ms))
      if tokens < 1 then (false, ⟨tokens, now_ms, now_ms⟩)
      else (true, ⟨tokens - 1, now_ms, now_ms⟩) := by
  have helapsed : (if now_ms > b.refill_ms then now_ms - b.refill_ms else 0) =
      now_ms - b.refill_ms := by
    split <;> omega
  rw [consume_, helapsed, refillOf]

/-- **A token** is taken from a bucket that is there. -/
theorem Spent.consume_ (hcap : 0 < capacity) (hwin : 0 < window_sec)
    (h : Spent capacity window_sec t₀ t₁ n b) (hle : b.refill_ms ≤ now_ms) (hnow : now_ms ≤ t₁) :
    Spent capacity window_sec t₀ t₁ (n + (consume_ b capacity window_sec now_ms).1.toNat)
      (consume_ b capacity window_sec now_ms).2 := by
  obtain ⟨htokens, hsince, -, hspent⟩ := h
  have hc : (0 : ℚ) < capacity := Int.cast_pos.2 hcap
  have hrefill : 0 ≤ refillOf capacity window_sec (now_ms - b.refill_ms) := by
    have hmono := refillOf_mono hcap hwin (sub_nonneg.2 hle)
    rwa [refillOf, Int.cast_zero, zero_mul, zero_div] at hmono
  have hsum : refillOf capacity window_sec (now_ms - t₀) =
      refillOf capacity window_sec (b.refill_ms - t₀) +
        refillOf capacity window_sec (now_ms - b.refill_ms) := by
    rw [← refillOf_add]
    congr 1
    ring
  have hmin := min_le_right (capacity : ℚ)
    (b.tokens + refillOf capacity window_sec (now_ms - b.refill_ms))
  have hnonneg := le_min hc.le (add_nonneg htokens hrefill)
  rw [consume_of_le hle]
  dsimp only
  generalize min (capacity : ℚ)
    (b.tokens + refillOf capacity window_sec (now_ms - b.refill_ms)) = tokens at hmin hnonneg ⊢
  split
  · refine ⟨hnonneg, hsince.trans hle, hnow, ?_⟩
    show ((n + 0 : ℕ) : ℚ) + tokens ≤ capacity + refillOf capacity window_sec (now_ms - t₀)
    push_cast
    linarith
  · next hone =>
    refine ⟨sub_nonneg.2 (not_lt.1 hone), hsince.trans hle, hnow, ?_⟩
    show ((n + 1 : ℕ) : ℚ) + (tokens - 1) ≤
      capacity + refillOf capacity window_sec (now_ms - t₀)
    push_cast
    linarith

/-- The bucket of a new key. -/
theorem spent_first (hcap : 0 < capacity) (hwin : 0 < window_sec) (h₀ : t₀ ≤ now_ms)
    (h₁ : now_ms ≤ t₁) : Spent capacity window_sec t₀ t₁ 1 (first capacity now_ms) := by
  have hone : (1 : ℚ) ≤ capacity := by exact_mod_cast hcap
  have hrefill : 0 ≤ refillOf capacity window_sec (now_ms - t₀) := by
    have hmono := refillOf_mono hcap hwin (sub_nonneg.2 h₀)
    rwa [refillOf, Int.cast_zero, zero_mul, zero_div] at hmono
  refine ⟨sub_nonneg.2 hone, h₀, h₁, ?_⟩
  show ((1 : ℕ) : ℚ) + ((capacity : ℚ) - 1) ≤
    capacity + refillOf capacity window_sec (now_ms - t₀)
  push_cast
  linarith

/-! ### Runs -/

theorem allowed_cons (x : Call × Bool) (s s' : Limiter) (log : List (Call × Bool)) :
    Watched.allowed ⟨s', x :: log⟩ key =
      Watched.allowed ⟨s, log⟩ key + if x.1.key = key ∧ x.2 then 1 else 0 := by
  rw [Watched.allowed, List.countP_cons, Watched.allowed]
  congr 1
  simp only [decide_eq_true_eq]

/-- The bucket of a key that has none yet, after a call of the key. -/
theorem bucket_allow_absent {s : Limiter} (hcap : 0 < capacity) (hwin : 0 < window_sec)
    (hb : s.bucket hash key = none) :
    (s.allow now_ms window_sec hash key capacity).2.bucket hash key =
      if (s.allow now_ms window_sec hash key capacity).1 then some (first capacity now_ms)
      else none := by
  have habsent : (s.swept now_ms window_sec hash key).bucket hash key = none :=
    (swept_swept s).none hb
  obtain ⟨s₁, -, -, -, hmade⟩ := allow_absent hcap hwin habsent
  exact hmade.bucket

/-- The bucket of a key that has one, after a call of the key. -/
theorem bucket_allow_found {s : Limiter} (hcap : 0 < capacity) (hwin : 0 < window_sec)
    (hb : (s.swept now_ms window_sec hash key).bucket hash key = some b) :
    (s.allow now_ms window_sec hash key capacity).2.bucket hash key =
      some (consume_ b capacity window_sec now_ms).2 := by
  rw [allow_found hcap hwin hb, bucket_assign, if_pos rfl, hb]
  rfl

/-- **A call of the key** that comes in order keeps the account. -/
theorem SpentAt.step_self (hcap : 0 < capacity) (hwin : 0 < window_sec) {s : Limiter}
    {log : List (Call × Bool)} (h : SpentAt hash key capacity window_sec t₀ t₁ ⟨s, log⟩)
    (hretained : (s.bucket hash key).isSome →
      ((s.swept now_ms window_sec hash key).bucket hash key).isSome)
    (horder : ∀ b ∈ s.bucket hash key, b.refill_ms ≤ now_ms) (h₀ : t₀ ≤ now_ms)
    (h₁ : now_ms ≤ t₁) (hkey : c.key = key) :
    SpentAt hash key capacity window_sec t₀ t₁
      ⟨(s.allow now_ms window_sec hash key capacity).2,
        (c, (s.allow now_ms window_sec hash key capacity).1) :: log⟩ := by
  rw [SpentAt] at h ⊢
  dsimp only at h ⊢
  rw [allowed_cons _ s]
  cases hb : s.bucket hash key with
  | none =>
    rw [hb] at h
    rw [bucket_allow_absent hcap hwin hb]
    dsimp only at h
    rw [h]
    cases (s.allow now_ms window_sec hash key capacity).1 with
    | false => simp
    | true =>
      simpa [hkey] using spent_first hcap hwin h₀ h₁
  | some b =>
    rw [hb] at h hretained horder
    obtain ⟨b', hb'⟩ := Option.isSome_iff_exists.1 (hretained rfl)
    have hsame : b' = b := by
      rcases swept_swept s key with heq | ⟨hgone, -⟩
      · rw [hb', hb] at heq
        exact Option.some.inj heq
      · rw [hb'] at hgone
        cases hgone
    subst hsame
    rw [bucket_allow_found hcap hwin hb', allow_found hcap hwin hb']
    have hspent := Spent.consume_ hcap hwin h (horder b' rfl) h₁
    cases hok : (consume_ b' capacity window_sec now_ms).1 with
    | false => simpa [hok] using hspent
    | true => simpa [hok, hkey] using hspent

/-- **A call of another key** leaves the account alone. -/
theorem SpentAt.step_other {s : Limiter} {log : List (Call × Bool)}
    (h : SpentAt hash key capacity window_sec t₀ t₁ ⟨s, log⟩) (hne : c.key ≠ key)
    (hretained : Retained hash key s c) :
    SpentAt hash key capacity window_sec t₀ t₁
      ⟨(s.allow c.now_ms c.window_sec hash c.key c.capacity).2,
        (c, (s.allow c.now_ms c.window_sec hash c.key c.capacity).1) :: log⟩ := by
  have hsame : (s.allow c.now_ms c.window_sec hash c.key c.capacity).2.bucket hash key =
      s.bucket hash key := by
    rcases allow_others s hne.symm with heq | ⟨hgone, b, hb, -⟩
    · exact heq
    · have hkept := (hretained (by rw [hb]; rfl)).2
      rw [hgone] at hkept
      cases hkept
  rw [SpentAt] at h ⊢
  dsimp only at h ⊢
  rw [allowed_cons _ s, hsame, if_neg fun hc ↦ hne hc.1, add_zero]
  exact h

/-- A call in order keeps the account. -/
theorem SpentAt.step (hcap : 0 < capacity) (hwin : 0 < window_sec)
    (h : SpentAt hash key capacity window_sec t₀ t₁ w)
    (hG : FixedInOrder hash key capacity window_sec t₀ t₁ c w)
    (hstep : (call hash).step c w = some w') : SpentAt hash key capacity window_sec t₀ t₁ w' := by
  obtain ⟨⟨hretained, hfixed⟩, horder⟩ := hG
  have hw' := (Option.some.inj hstep).symm
  subst hw'
  by_cases hkey : c.key = key
  · obtain ⟨hc, hw, h₀, h₁⟩ := hfixed hkey
    have horder' := horder hkey
    subst hkey hc hw
    exact SpentAt.step_self hcap hwin h (fun hb ↦ (hretained hb).1) horder' h₀ h₁ rfl
  · exact SpentAt.step_other h hkey hretained

/-- **The quota of a key** whose calls come in the order of their clocks. -/
theorem quota_of_reach (hcap : 0 < capacity) (hwin : 0 < window_sec) (ht : t₀ ≤ t₁)
    (hr : (call hash).Reach (FixedInOrder hash key capacity window_sec t₀ t₁) {} w) :
    (w.allowed key : ℚ) ≤ capacity + (t₁ - t₀) * capacity / (window_sec * 1000) := by
  have hinv := Labelled.invariant (I := SpentAt hash key capacity window_sec t₀ t₁) hr rfl
    fun h hG hstep ↦ h.step hcap hwin hG hstep
  have hrefill : refillOf capacity window_sec (t₁ - t₀) =
      (t₁ - t₀) * capacity / (window_sec * 1000) := by
    rw [refillOf, Int.cast_sub]
  rw [← hrefill]
  have hc : (0 : ℚ) < capacity := Int.cast_pos.2 hcap
  rw [SpentAt] at hinv
  split at hinv
  · have hmono := refillOf_mono hcap hwin (sub_nonneg.2 ht)
    rw [hinv, Nat.cast_zero]
    rw [refillOf, Int.cast_zero, zero_mul, zero_div] at hmono
    exact add_nonneg hc.le hmono
  · obtain ⟨htokens, -, htill, hspent⟩ := hinv
    have hmono := refillOf_mono hcap hwin (sub_le_sub_right htill t₀)
    linarith

/-- Two calls, a window apart. -/
theorem quota_of_reach_two :
    ∃ w, (call fun _ ↦ 0).Reach (FixedInOrder (fun _ ↦ 0) "k" 1 1 0 1000) {} w ∧
      w.allowed "k" = 2 ∧
      (w.allowed "k" : ℚ) ≤ (1 : ℤ) + ((1000 : ℤ) - (0 : ℤ)) * (1 : ℤ) / ((1 : ℤ) * 1000) := by
  obtain ⟨w, hr, hn⟩ := Labelled.exists_of_run (call fun _ ↦ 0)
    (FixedInOrder (fun _ ↦ 0) "k" 1 1 0 1000) {} [⟨"k", 1, 1, 0⟩, ⟨"k", 1, 1, 1000⟩]
    (fun w ↦ w.allowed "k" = 2) (by decide +kernel)
  exact ⟨w, hr, hn, quota_of_reach (by decide) (by decide) (by decide) hr⟩

/-- **A call that has read the clock before the last one** makes the next refill the same time
again. -/
theorem not_quota_of_swap :
    ¬∀ w, (call fun _ ↦ 0).Reach (Fixed (fun _ ↦ 0) "k" 1 1 0 1000) {} w →
      (w.allowed "k" : ℚ) ≤ (1 : ℤ) + ((1000 : ℤ) - (0 : ℤ)) * (1 : ℤ) / ((1 : ℤ) * 1000) := by
  intro h
  obtain ⟨w, hr, hn⟩ := Labelled.exists_of_run (call fun _ ↦ 0)
    (Fixed (fun _ ↦ 0) "k" 1 1 0 1000) {}
    [⟨"k", 1, 1, 0⟩, ⟨"k", 1, 1, 1000⟩, ⟨"k", 1, 1, 0⟩, ⟨"k", 1, 1, 1000⟩]
    (fun w ↦ w.allowed "k" = 3) (by decide +kernel)
  have hle := h w hr
  rw [hn] at hle
  norm_num at hle

end Quota

end ChatNow.LocalRateLimiter
