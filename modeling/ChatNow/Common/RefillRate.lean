import ChatNow.Common.RateLimiter
import Mathlib.Tactic.Ring

/-!
# The rate of the token bucket in Redis

How many tokens `kRateLimitScript` of `common/dao/data_redis.hpp` adds in a window, for calls on one
key by one clock that does not go back. The bucket holds at a moment what a call would find then
(`found`), so that the tokens that are added from one moment to another are those that it has more,
and those that were taken.

A token is added at every `interval_ms`, which is the window divided by the capacity and rounded
down, or a millisecond if that is more. So `interval_ms * capacity` is the window if the capacity
divides it, less than the window if it does not, and more if there are fewer milliseconds than
tokens. In the second case one token too many comes in a window; in the third the bucket is not full
after one (`refillRate_iff`).
-/

namespace ChatNow.RateLimiter

/-! ### Calls by one clock -/

section Calls

variable (key_full : String) (max_count window_sec : ℤ)

/-- The calls at these moments, with their answers. -/
def serve : Expiring String Bucket → List ℤ → List Bool × Expiring String Bucket
  | db, [] => ([], db)
  | db, t :: ts =>
    let (ok, db) := allow t key_full max_count window_sec t db
    let (oks, db) := serve db ts
    (ok :: oks, db)

/-- What a call at a moment finds, before it takes a token. -/
def found (db : Expiring String Bucket) (t : ℤ) : Bucket :=
  refilled max_count (intervalMs max_count window_sec) t (db.get t key_full)

/-- The rate that `max_count` and `window_sec` stand for. -/
structure RefillRate : Prop where
  /-- From one moment to another, not more than a window later, at most `max_count` tokens are
  added: those that the bucket has more, and those that have been taken. -/
  added : ∀ (before span : List ℤ) (a b : ℤ), (before ++ span).Pairwise (· ≤ ·) →
    (∀ t ∈ before, t ≤ a) → (∀ t ∈ span, a ≤ t ∧ t ≤ b) → a ≤ b → b ≤ a + windowMs window_sec →
    let db := (serve key_full max_count window_sec .empty before).2
    let x := serve key_full max_count window_sec db span
    (found key_full max_count window_sec x.2 b).tokens -
      (found key_full max_count window_sec db a).tokens + x.1.count true ≤ max_count
  /-- In a span of a window at most `2 * max_count` calls are let through. -/
  allowed : ∀ (before span : List ℤ) (a b : ℤ), (before ++ span).Pairwise (· ≤ ·) →
    (∀ t ∈ before, t ≤ a) → (∀ t ∈ span, a ≤ t ∧ t ≤ b) → a ≤ b → b ≤ a + windowMs window_sec →
    let db := (serve key_full max_count window_sec .empty before).2
    ((serve key_full max_count window_sec db span).1.count true : ℤ) ≤ 2 * max_count
  /-- A bucket that has been emptied and left alone for a window lets `max_count` calls through. -/
  full : ∀ (before calls : List ℤ) (last : ℤ), (before ++ last :: calls).Pairwise (· ≤ ·) →
    let db := (serve key_full max_count window_sec .empty (before ++ [last])).2
    (db.get last key_full).map (·.tokens) = some 0 →
    (∀ t ∈ calls, last + windowMs window_sec ≤ t) → (calls.length : ℤ) = max_count →
    ∀ ok ∈ (serve key_full max_count window_sec db calls).1, ok = true

end Calls

/-! ### What a call finds -/

/-- What is stored under the key after calls up to a moment. -/
def Kept (key_full : String) (max_count window_sec now : ℤ) (db : Expiring String Bucket) : Prop :=
  ∀ b e, db key_full = some (b, e) → 0 ≤ b.tokens ∧ b.tokens ≤ max_count ∧ b.ts ≤ now ∧
    b.ts + windowMs window_sec * 2 ≤ e

section Found

variable {key_full : String} {max_count window_sec now a t : ℤ} {db : Expiring String Bucket}
  {b : Bucket} {e : ℤ}

/-- A key is found as it is, or the bucket is new. -/
theorem found_cases (h : Kept key_full max_count window_sec now db) (ht : now ≤ t) :
    (∃ b e, db key_full = some (b, e) ∧ t < e ∧ found key_full max_count window_sec db t =
      ⟨min max_count (b.tokens + (t - b.ts) / intervalMs max_count window_sec),
        b.ts + (t - b.ts) / intervalMs max_count window_sec * intervalMs max_count window_sec⟩) ∨
    (∀ b e, db key_full = some (b, e) → e ≤ t) ∧
      found key_full max_count window_sec db t = ⟨max_count, t⟩ := by
  cases hdb : db key_full with
  | none =>
    refine .inr ⟨fun _ _ heq ↦ (by cases heq), ?_⟩
    rw [found, Expiring.get, hdb]
    rfl
  | some v =>
    obtain ⟨b, e⟩ := v
    obtain ⟨-, hcap, hts, -⟩ := h b e hdb
    rcases lt_or_ge t e with hlt | hge
    · refine .inl ⟨b, e, rfl, hlt, ?_⟩
      rw [found, Expiring.get_of_lt hdb hlt]
      exact refilled_eq hcap (hts.trans ht) intervalMs_pos
    · refine .inr ⟨fun b' e' heq ↦ ?_, ?_⟩
      · obtain ⟨rfl, rfl⟩ := Prod.mk.inj (Option.some.inj heq)
        exact hge
      · rw [found, Expiring.get, hdb, Option.filter_some, if_neg (by simpa using hge)]
        rfl

/-- What is found is a bucket whose next token is still to come. -/
theorem found_spec (h : Kept key_full max_count window_sec now db) (hcap : 0 < max_count)
    (ht : now ≤ t) :
    let B := found key_full max_count window_sec db t
    0 ≤ B.tokens ∧ B.tokens ≤ max_count ∧ B.ts ≤ t ∧
      t < B.ts + intervalMs max_count window_sec := by
  intro B
  have hi : 0 < intervalMs max_count window_sec := intervalMs_pos
  rcases found_cases h ht with ⟨b, e, hdb, -, heq⟩ | ⟨-, heq⟩
  · obtain ⟨htok, -, hts, -⟩ := h b e hdb
    have hq : 0 ≤ (t - b.ts) / intervalMs max_count window_sec :=
      Int.ediv_nonneg (by omega) hi.le
    have hle := Int.ediv_mul_le (t - b.ts) hi.ne'
    have hlt := Int.lt_ediv_add_one_mul_self (t - b.ts) hi
    rw [add_one_mul] at hlt
    simp only [B, heq]
    refine ⟨le_min hcap.le (by omega), min_le_left _ _, by omega, by omega⟩
  · simp only [B, heq]
    exact ⟨hcap.le, le_rfl, le_rfl, by omega⟩

/-- Time only adds tokens. -/
theorem found_tokens_mono (h : Kept key_full max_count window_sec now db) (hcap : 0 < max_count)
    (ha : now ≤ a) (hat : a ≤ t) :
    (found key_full max_count window_sec db a).tokens ≤
      (found key_full max_count window_sec db t).tokens := by
  have hle := (found_spec h hcap ha).2.1
  rcases found_cases h (ha.trans hat) with ⟨b, e, hdb, hlt, heq⟩ | ⟨-, heq⟩
  · rcases found_cases h ha with ⟨b', e', hdb', -, heq'⟩ | ⟨hgone, -⟩
    · obtain ⟨rfl, rfl⟩ := Prod.mk.inj (Option.some.inj (hdb.symm.trans hdb'))
      have hdiv : (a - b.ts) / intervalMs max_count window_sec ≤
          (t - b.ts) / intervalMs max_count window_sec :=
        Int.ediv_le_ediv intervalMs_pos (by omega)
      rw [heq, heq']
      exact min_le_min_left _ (by omega)
    · exact absurd (hgone b e hdb) (by omega)
  · rw [heq]
    exact hle

/-- **The tokens that time adds** have taken an interval each, if the bucket is full by the time its
key expires. -/
theorem found_paid (h : Kept key_full max_count window_sec now db) (hcap : 0 < max_count)
    (hfull : intervalMs max_count window_sec * max_count ≤ windowMs window_sec) (ha : now ≤ a)
    (hat : a ≤ t) :
    intervalMs max_count window_sec * ((found key_full max_count window_sec db t).tokens -
      (found key_full max_count window_sec db a).tokens) ≤
      (found key_full max_count window_sec db t).ts -
        (found key_full max_count window_sec db a).ts := by
  have hi : 0 < intervalMs max_count window_sec := intervalMs_pos
  rcases found_cases h (ha.trans hat) with ⟨b, e, hdb, hlt, heq⟩ | ⟨hgone, heq⟩
  · -- the same bucket at both moments
    rcases found_cases h ha with ⟨b', e', hdb', -, heq'⟩ | ⟨hgone, -⟩
    · obtain ⟨rfl, rfl⟩ := Prod.mk.inj (Option.some.inj (hdb.symm.trans hdb'))
      have hdiv : (a - b.ts) / intervalMs max_count window_sec ≤
          (t - b.ts) / intervalMs max_count window_sec := Int.ediv_le_ediv hi (by omega)
      rw [heq, heq']
      dsimp only
      generalize (a - b.ts) / intervalMs max_count window_sec = r at hdiv ⊢
      generalize (t - b.ts) / intervalMs max_count window_sec = r' at hdiv ⊢
      have hmore : min max_count (b.tokens + r') - min max_count (b.tokens + r) ≤ r' - r := by
        omega
      have hmul := Int.mul_le_mul_of_nonneg_left hmore hi.le
      linarith only [hmul]
    · exact absurd (hgone b e hdb) (by omega)
  · rcases found_cases h ha with ⟨b, e, hdb, hlt, heq'⟩ | ⟨-, heq'⟩
    · -- the key has expired in between
      obtain ⟨htok, -, hts, he⟩ := h b e hdb
      have hge := hgone b e hdb
      have hr : 0 ≤ (a - b.ts) / intervalMs max_count window_sec :=
        Int.ediv_nonneg (by omega) hi.le
      have hmul : (a - b.ts) / intervalMs max_count window_sec *
          intervalMs max_count window_sec ≤ a - b.ts := Int.ediv_mul_le _ hi.ne'
      rw [heq, heq']
      dsimp only
      generalize (a - b.ts) / intervalMs max_count window_sec = r at hr hmul ⊢
      rcases le_total max_count (b.tokens + r) with hle | hle
      · rw [min_eq_left hle, sub_self, mul_zero]
        omega
      · rw [min_eq_right hle]
        have hpaid : 0 ≤ intervalMs max_count window_sec * b.tokens := Int.mul_nonneg hi.le htok
        have hwindow : 0 ≤ intervalMs max_count window_sec * max_count :=
          Int.mul_nonneg hi.le hcap.le
        linarith only [hpaid, hwindow, hfull, hge, he]
    · rw [heq, heq']
      dsimp only
      rw [sub_self, mul_zero]
      omega

variable (key_full db t) in
/-- **A call** takes a token of what it finds, if there is one. -/
theorem allow_spec (hcap : 0 < max_count) (hwin : 0 < window_sec) :
    let B := found key_full max_count window_sec db t
    let x := allow t key_full max_count window_sec t db
    x.1 = decide (0 < B.tokens) ∧
      x.2 key_full = some (⟨B.tokens - (if 0 < B.tokens then 1 else 0), B.ts⟩,
        t + windowMs window_sec * 2) := by
  have hpos : ¬(max_count ≤ 0 ∨ windowMs window_sec ≤ 0) := by
    rw [windowMs]
    omega
  intro B x
  have hx : x = allow t key_full max_count window_sec t db := rfl
  rw [allow, kRateLimitScript] at hx
  dsimp only at hx
  rw [if_neg hpos, show refilled _ _ t (db.get t key_full) = B from rfl] at hx
  rcases le_or_gt B.tokens 0 with hno | hyes
  · rw [if_pos hno] at hx
    rw [hx, decide_eq_false (not_lt.2 hno), if_neg (not_lt.2 hno), sub_zero]
    exact ⟨rfl, Expiring.setEx_self ..⟩
  · rw [if_neg (not_le.2 hyes)] at hx
    rw [hx, decide_eq_true hyes, if_pos hyes]
    exact ⟨rfl, Expiring.setEx_self ..⟩

/-- What a call leaves, and what is found there at the same moment. -/
theorem kept_allow (h : Kept key_full max_count window_sec now db) (hcap : 0 < max_count)
    (hwin : 0 < window_sec) (ht : now ≤ t) :
    let B := found key_full max_count window_sec db t
    let db' := (allow t key_full max_count window_sec t db).2
    Kept key_full max_count window_sec t db' ∧
      found key_full max_count window_sec db' t =
        ⟨B.tokens - (if 0 < B.tokens then 1 else 0), B.ts⟩ := by
  intro B db'
  obtain ⟨h₀, hle, hts, hlt⟩ : 0 ≤ B.tokens ∧ B.tokens ≤ max_count ∧ B.ts ≤ t ∧
    t < B.ts + intervalMs max_count window_sec := found_spec h hcap ht
  have hstored : db' key_full = some (⟨B.tokens - (if 0 < B.tokens then 1 else 0), B.ts⟩,
      t + windowMs window_sec * 2) := (allow_spec _ _ _ hcap hwin).2
  have hW : 0 < windowMs window_sec := by
    rw [windowMs]
    omega
  have hkept : Kept key_full max_count window_sec t db' := by
    intro b e hb
    obtain ⟨rfl, rfl⟩ := Prod.mk.inj (Option.some.inj (hstored.symm.trans hb))
    dsimp only
    refine ⟨?_, ?_, hts, by omega⟩
    · split <;> omega
    · split <;> omega
  refine ⟨hkept, ?_⟩
  rw [found, Expiring.get_of_lt hstored (by omega)]
  obtain ⟨-, hcap', -, -⟩ := hkept _ _ hstored
  have hzero : (t - B.ts) / intervalMs max_count window_sec = 0 :=
    Int.ediv_eq_zero_of_lt (by omega) (by omega)
  rw [refilled_eq hcap' hts intervalMs_pos]
  dsimp only at hcap' ⊢
  rw [hzero, add_zero, zero_mul, add_zero, min_eq_right hcap']

end Found

/-! ### Calls in a row -/

section Serve

variable {key_full : String} {max_count window_sec now a b t : ℤ} {db : Expiring String Bucket}
  {before span ts : List ℤ}

theorem serve_cons (t : ℤ) (ts : List ℤ) :
    serve key_full max_count window_sec db (t :: ts) =
      ((allow t key_full max_count window_sec t db).1 :: (serve key_full max_count window_sec
        (allow t key_full max_count window_sec t db).2 ts).1, (serve key_full max_count window_sec
        (allow t key_full max_count window_sec t db).2 ts).2) :=
  rfl

theorem serve_length (ts : List ℤ) :
    (serve key_full max_count window_sec db ts).1.length = ts.length := by
  induction ts generalizing db with
  | nil => rfl
  | cons t ts ih => exact congrArg (· + 1) ih

theorem serve_append (ts ts' : List ℤ) :
    serve key_full max_count window_sec db (ts ++ ts') =
      ((serve key_full max_count window_sec db ts).1 ++
        (serve key_full max_count window_sec (serve key_full max_count window_sec db ts).2 ts').1,
        (serve key_full max_count window_sec
          (serve key_full max_count window_sec db ts).2 ts').2) := by
  induction ts generalizing db with
  | nil => rfl
  | cons t ts ih =>
    simp only [List.cons_append, serve_cons, ih]

theorem kept_empty : Kept key_full max_count window_sec now .empty := fun _ _ h ↦ by cases h

theorem Kept.later (h : Kept key_full max_count window_sec now db) (ht : now ≤ t) :
    Kept key_full max_count window_sec t db := fun b e hb ↦ by
  obtain ⟨h₀, hcap, hts, he⟩ := h b e hb
  exact ⟨h₀, hcap, hts.trans ht, he⟩

/-- Calls up to a moment leave what calls leave. -/
theorem kept_serve (h : Kept key_full max_count window_sec now db) (hcap : 0 < max_count)
    (hwin : 0 < window_sec) (hsorted : ts.Pairwise (· ≤ ·)) (hnow : ∀ t ∈ ts, now ≤ t)
    (hb : ∀ t ∈ ts, t ≤ b) (hle : now ≤ b) :
    Kept key_full max_count window_sec b (serve key_full max_count window_sec db ts).2 := by
  induction ts generalizing now db with
  | nil => exact h.later hle
  | cons t ts ih =>
    obtain ⟨hfirst, hsorted⟩ := List.pairwise_cons.1 hsorted
    exact ih (kept_allow h hcap hwin (hnow t List.mem_cons_self)).1 hsorted hfirst
      (fun t' ht' ↦ hb t' (List.mem_cons_of_mem _ ht')) (hb t List.mem_cons_self)

/-- **The tokens of a span** have taken an interval each. -/
theorem serve_paid (h : Kept key_full max_count window_sec now db) (hcap : 0 < max_count)
    (hwin : 0 < window_sec)
    (hfull : intervalMs max_count window_sec * max_count ≤ windowMs window_sec) (ha : now ≤ a)
    (hab : a ≤ b) (hsorted : span.Pairwise (· ≤ ·)) (hspan : ∀ t ∈ span, a ≤ t ∧ t ≤ b) :
    let x := serve key_full max_count window_sec db span
    intervalMs max_count window_sec * ((found key_full max_count window_sec x.2 b).tokens +
      x.1.count true - (found key_full max_count window_sec db a).tokens) ≤
      (found key_full max_count window_sec x.2 b).ts -
        (found key_full max_count window_sec db a).ts := by
  induction span generalizing now a db with
  | nil =>
    have hpaid := found_paid h hcap hfull ha hab
    show intervalMs max_count window_sec * (_ + ((0 : ℕ) : ℤ) - _) ≤ _
    rwa [Nat.cast_zero, add_zero]
  | cons t span ih =>
    obtain ⟨hfirst, hsorted⟩ := List.pairwise_cons.1 hsorted
    obtain ⟨hat, htb⟩ := hspan t List.mem_cons_self
    have hpaid := found_paid h hcap hfull ha hat
    obtain ⟨hkept, hfound⟩ := kept_allow h hcap hwin (ha.trans hat)
    have hok := (allow_spec key_full t db hcap hwin).1
    have hrest := ih hkept le_rfl htb hsorted fun t' ht' ↦
      ⟨hfirst t' ht', (hspan t' (List.mem_cons_of_mem _ ht')).2⟩
    rw [hfound] at hrest
    rw [serve_cons, hok]
    dsimp only at hrest ⊢
    rw [List.count_cons]
    generalize found key_full max_count window_sec db t = B at hpaid hrest ⊢
    generalize found key_full max_count window_sec db a = A at hpaid ⊢
    generalize serve key_full max_count window_sec
      (allow t key_full max_count window_sec t db).2 span = x at hrest ⊢
    rcases le_or_gt B.tokens 0 with hno | hyes
    · rw [if_neg (not_lt.2 hno)] at hrest
      rw [decide_eq_false (not_lt.2 hno), if_neg (by decide), add_zero]
      linarith only [hpaid, hrest]
    · rw [if_pos hyes] at hrest
      rw [decide_eq_true hyes, if_pos (by decide), Nat.cast_add, Nat.cast_one]
      linarith only [hpaid, hrest]

/-- **Calls in a row** are all let through if there are tokens for them. -/
theorem serve_all (h : Kept key_full max_count window_sec now db) (hcap : 0 < max_count)
    (hwin : 0 < window_sec) (ha : now ≤ a) (hsorted : ts.Pairwise (· ≤ ·)) (hts : ∀ t ∈ ts, a ≤ t)
    (htok : ts.length ≤ (found key_full max_count window_sec db a).tokens) :
    ∀ ok ∈ (serve key_full max_count window_sec db ts).1, ok = true := by
  induction ts generalizing now a db with
  | nil => exact fun _ hok ↦ absurd hok List.not_mem_nil
  | cons t ts ih =>
    obtain ⟨hfirst, hsorted⟩ := List.pairwise_cons.1 hsorted
    have hat := hts t List.mem_cons_self
    have hmore := found_tokens_mono h hcap ha hat
    rw [List.length_cons, Nat.cast_add, Nat.cast_one] at htok
    have hpos : 0 < (found key_full max_count window_sec db t).tokens := by omega
    obtain ⟨hkept, hfound⟩ := kept_allow h hcap hwin (ha.trans hat)
    have hok := (allow_spec key_full t db hcap hwin).1
    rw [if_pos hpos] at hfound
    rw [serve_cons, hok]
    intro ok hmem
    rcases List.mem_cons.1 hmem with rfl | hmem
    · exact decide_eq_true hpos
    · refine ih hkept le_rfl hsorted hfirst ?_ ok hmem
      rw [hfound]
      dsimp only
      omega

variable (key_full) in
/-- What calls up to a moment leave under a new key. -/
theorem kept_of_calls (hcap : 0 < max_count) (hwin : 0 < window_sec)
    (hsorted : before.Pairwise (· ≤ ·)) (hb : ∀ t ∈ before, t ≤ b) :
    Kept key_full max_count window_sec b
      (serve key_full max_count window_sec .empty before).2 := by
  cases before with
  | nil => exact kept_empty
  | cons t ts =>
    have hfirst : ∀ t' ∈ t :: ts, t ≤ t' :=
      List.forall_mem_cons.2 ⟨le_rfl, (List.pairwise_cons.1 hsorted).1⟩
    have hempty : Kept key_full max_count window_sec t .empty := kept_empty
    exact kept_serve hempty hcap hwin hsorted hfirst hb (hb t List.mem_cons_self)

/-- A bucket is emptied by as many calls at one moment as it has tokens. -/
theorem stored_replicate (h : Kept key_full max_count window_sec now db) (hcap : 0 < max_count)
    (hwin : 0 < window_sec) (ht : now ≤ t) (n : ℕ)
    (hn : n + 1 ≤ (found key_full max_count window_sec db t).tokens) :
    (serve key_full max_count window_sec db (List.replicate (n + 1) t)).2 key_full =
      some (⟨(found key_full max_count window_sec db t).tokens - (n + 1),
        (found key_full max_count window_sec db t).ts⟩, t + windowMs window_sec * 2) := by
  induction n generalizing now db with
  | zero =>
    have hstored := (allow_spec key_full t db hcap hwin).2
    rw [if_pos (by omega)] at hstored
    rw [Nat.cast_zero, zero_add]
    exact hstored
  | succ n ih =>
    obtain ⟨hkept, hfound⟩ := kept_allow h hcap hwin ht
    rw [if_pos (by omega)] at hfound
    have hrest := ih hkept le_rfl (by
      rw [hfound]
      dsimp only
      omega)
    rw [hfound] at hrest
    rw [List.replicate_succ, serve_cons]
    dsimp only at hrest ⊢
    rw [hrest, Nat.cast_add, Nat.cast_one, sub_sub, add_comm (1 : ℤ)]

/-- What is found of a bucket that was stored at a moment. -/
theorem found_of_stored {B : Bucket} {e : ℤ} (hdb : db key_full = some (B, e)) (hlt : t < e)
    (hcap : B.tokens ≤ max_count) (hts : B.ts ≤ t) :
    found key_full max_count window_sec db t =
      ⟨min max_count (B.tokens + (t - B.ts) / intervalMs max_count window_sec),
        B.ts + (t - B.ts) / intervalMs max_count window_sec * intervalMs max_count window_sec⟩ := by
  rw [found, Expiring.get_of_lt hdb hlt]
  exact refilled_eq hcap hts intervalMs_pos

end Serve

/-! ### The rate -/

section Rate

variable {key_full : String} {max_count window_sec : ℤ}

/-- **A capacity that divides the window** is the rate. -/
theorem refillRate_of_dvd (hcap : 0 < max_count) (hwin : 0 < window_sec)
    (hdvd : max_count ∣ windowMs window_sec) : RefillRate key_full max_count window_sec := by
  have hfull := capacity_mul_intervalMs hcap hwin hdvd
  rw [mul_comm] at hfull
  have hi : 0 < intervalMs max_count window_sec := intervalMs_pos
  have hadded : ∀ (before span : List ℤ) (a b : ℤ), (before ++ span).Pairwise (· ≤ ·) →
      (∀ t ∈ before, t ≤ a) → (∀ t ∈ span, a ≤ t ∧ t ≤ b) → a ≤ b →
      b ≤ a + windowMs window_sec →
      let db := (serve key_full max_count window_sec .empty before).2
      let x := serve key_full max_count window_sec db span
      (found key_full max_count window_sec x.2 b).tokens -
        (found key_full max_count window_sec db a).tokens + x.1.count true ≤ max_count ∧
      0 ≤ (found key_full max_count window_sec x.2 b).tokens ∧
      (found key_full max_count window_sec db a).tokens ≤ max_count := by
    intro before span a b hsorted hbefore hspan hab hb db x
    obtain ⟨hsorted, hsorted', -⟩ := List.pairwise_append.1 hsorted
    have hkept : Kept key_full max_count window_sec a db :=
      kept_of_calls _ hcap hwin hsorted hbefore
    have hkept' : Kept key_full max_count window_sec b x.2 :=
      kept_serve hkept hcap hwin hsorted' (fun t ht ↦ (hspan t ht).1) (fun t ht ↦ (hspan t ht).2)
        hab
    have hpaid := serve_paid hkept hcap hwin hfull.le le_rfl hab hsorted' hspan
    obtain ⟨-, hle, -, hts⟩ := found_spec hkept hcap le_rfl
    obtain ⟨hpos, -, hts', -⟩ := found_spec hkept' hcap le_rfl
    refine ⟨?_, hpos, hle⟩
    have hlt : intervalMs max_count window_sec * ((found key_full max_count window_sec x.2 b).tokens +
        x.1.count true - (found key_full max_count window_sec db a).tokens) <
        intervalMs max_count window_sec * (max_count + 1) := by
      refine hpaid.trans_lt ?_
      rw [mul_add, hfull]
      linarith only [hts, hts', hb]
    have := lt_of_mul_lt_mul_left hlt hi.le
    omega
  refine ⟨fun before span a b hsorted hbefore hspan hab hb ↦ ?_,
    fun before span a b hsorted hbefore hspan hab hb ↦ ?_, ?_⟩
  · exact (hadded before span a b hsorted hbefore hspan hab hb).1
  · obtain ⟨hle, hpos, hcap'⟩ := hadded before span a b hsorted hbefore hspan hab hb
    dsimp only
    linarith only [hle, hpos, hcap']
  · intro before calls last hsorted db _ hcalls hlen
    have hparts := List.pairwise_append.1 hsorted
    have hlast : Kept key_full max_count window_sec last db := by
      refine kept_of_calls _ hcap hwin (List.pairwise_append.2
        ⟨hparts.1, List.pairwise_singleton _ _, fun x hx y hy ↦ hparts.2.2 x hx y ?_⟩) fun x hx ↦ ?_
      · rw [List.mem_singleton.1 hy]
        exact List.mem_cons_self
      · rcases List.mem_append.1 hx with hx | hx
        · exact hparts.2.2 x hx last List.mem_cons_self
        · rw [List.mem_singleton.1 hx]
    have hW : 0 ≤ windowMs window_sec := by
      rw [windowMs]
      omega
    refine serve_all hlast hcap hwin (a := last + windowMs window_sec) (by omega)
      (List.pairwise_cons.1 hparts.2.1).2 hcalls ?_ 
    rcases found_cases hlast (t := last + windowMs window_sec) (by omega) with
      ⟨b, e, hdb, -, heq⟩ | ⟨-, heq⟩
    · obtain ⟨-, -, hts, -⟩ := hlast b e hdb
      obtain ⟨htok, -⟩ := hlast b e hdb
      rw [heq, hlen]
      refine le_min le_rfl ?_
      have hq : max_count ≤ (last + windowMs window_sec - b.ts) /
          intervalMs max_count window_sec := by
        rw [Int.le_ediv_iff_mul_le hi, mul_comm, hfull]
        omega
      omega
    · rw [heq, hlen]

/-- The calls of a new key that empty its bucket at once. -/
theorem stored_first (key_full : String) (n : ℕ) (hcap : 0 < (n + 1 : ℤ)) (hwin : 0 < window_sec)
    (t : ℤ) :
    (serve key_full (n + 1) window_sec .empty (List.replicate (n + 1) t)).2 key_full =
      some (⟨0, t⟩, t + windowMs window_sec * 2) := by
  have hempty : Kept key_full (n + 1) window_sec t .empty := kept_empty
  have hstored := stored_replicate hempty hcap hwin le_rfl n (le_refl (n + 1 : ℤ))
  rw [show found key_full (n + 1) window_sec .empty t = ⟨n + 1, t⟩ from rfl] at hstored
  rwa [sub_self] at hstored

theorem count_true_of_all {oks : List Bool} (h : ∀ ok ∈ oks, ok = true) :
    oks.count true = oks.length :=
  List.count_eq_length.2 fun ok hok ↦ (h ok hok).symm

theorem pairwise_replicate (n : ℕ) (t : ℤ) : (List.replicate n t).Pairwise (· ≤ ·) :=
  List.pairwise_replicate.2 (.inr le_rfl)

/-- **Intervals that do not fill the window** bring one token too many: one at the beginning of a
window and one at its end. -/
theorem not_refillRate_of_lt (hcap : 0 < max_count) (hwin : 0 < window_sec)
    (hlt : max_count * intervalMs max_count window_sec < windowMs window_sec) :
    ¬RefillRate key_full max_count window_sec := by
  intro h
  obtain ⟨n, rfl⟩ : ∃ n : ℕ, max_count = n + 1 := ⟨(max_count - 1).toNat, by omega⟩
  obtain ⟨i, hi⟩ : ∃ i, i = intervalMs (n + 1) window_sec := ⟨_, rfl⟩
  rw [← hi] at hlt
  have hpos : 0 < i := hi ▸ intervalMs_pos
  have hfirst : i ≤ (n + 1) * i := le_mul_of_one_le_left hpos.le (by omega)
  -- the bucket is emptied at zero, when it is new, and again when it is full
  have hstored := stored_first key_full n hcap hwin 0
  have hkept : Kept key_full (n + 1) window_sec 0
      (serve key_full (n + 1) window_sec .empty (List.replicate (n + 1) 0)).2 :=
    kept_of_calls _ hcap hwin (pairwise_replicate _ _) fun t ht ↦
      (List.eq_of_mem_replicate ht).le
  obtain ⟨db, hdb⟩ : ∃ db, db =
    (serve key_full (n + 1) window_sec .empty (List.replicate (n + 1) 0)).2 := ⟨_, rfl⟩
  rw [← hdb] at hstored hkept
  have hempty : (found key_full (n + 1) window_sec db (i - 1)).tokens = 0 := by
    rw [found_of_stored hstored (by omega) hcap.le (show (0 : ℤ) ≤ i - 1 by omega), ← hi]
    show min ((n : ℤ) + 1) (0 + (i - 1 - 0) / i) = 0
    rw [Int.ediv_eq_zero_of_lt (by omega) (by omega)]
    omega
  have hfull : found key_full (n + 1) window_sec db ((n + 1) * i) = ⟨n + 1, (n + 1) * i⟩ := by
    rw [found_of_stored hstored (by omega) hcap.le (show (0 : ℤ) ≤ (n + 1) * i by omega), ← hi]
    dsimp only
    rw [sub_zero, Int.mul_ediv_cancel _ hpos.ne', zero_add, min_self, zero_add]
  have hall := serve_all hkept hcap hwin (show 0 ≤ (n + 1) * i by omega)
    (pairwise_replicate (n + 1) _) (fun t ht ↦ (List.eq_of_mem_replicate ht).ge)
    (by rw [hfull, List.length_replicate, Nat.cast_add, Nat.cast_one])
  have hkept₂ := kept_serve hkept hcap hwin (pairwise_replicate (n + 1) ((n + 1) * i))
    (fun t ht ↦ (show 0 ≤ t by rw [List.eq_of_mem_replicate ht]; omega))
    (fun t ht ↦ (List.eq_of_mem_replicate ht).le) (show 0 ≤ (n + 1) * i by omega)
  have hstored₂ := stored_replicate hkept hcap hwin (show 0 ≤ (n + 1) * i by omega) n
    (by rw [hfull])
  rw [hfull] at hstored₂
  -- and one more token is there an interval later
  obtain ⟨db₂, hdb₂⟩ : ∃ db₂, db₂ = (serve key_full (n + 1) window_sec db
    (List.replicate (n + 1) ((n + 1) * i))).2 := ⟨_, rfl⟩
  rw [← hdb₂] at hstored₂ hkept₂
  have hone : (found key_full (n + 1) window_sec db₂ ((n + 1) * i + i)).tokens = 1 := by
    rw [found_of_stored hstored₂ (by omega) (show (n + 1 : ℤ) - (n + 1) ≤ n + 1 by omega)
      (show (n + 1) * i ≤ (n + 1) * i + i by omega), ← hi]
    dsimp only
    rw [add_sub_cancel_left, Int.ediv_self hpos.ne']
    omega
  have hlast := serve_all hkept₂ hcap hwin (show (n + 1) * i ≤ (n + 1) * i + i by omega)
    (List.pairwise_singleton _ _) (List.forall_mem_singleton.2 le_rfl)
    (by rw [hone, List.length_singleton, Nat.cast_one])
  have hspan : ∀ t ∈ List.replicate (n + 1) ((n + 1) * i) ++ [(n + 1) * i + i],
      (n + 1) * i ≤ t ∧ t ≤ (n + 1) * i + i := by
    intro t ht
    rcases List.mem_append.1 ht with ht | ht
    · rw [List.eq_of_mem_replicate ht]
      omega
    · rw [List.mem_singleton.1 ht]
      omega
  have hsorted : (List.replicate (n + 1) ((n + 1) * i) ++ [(n + 1) * i + i]).Pairwise (· ≤ ·) :=
    List.pairwise_append.2 ⟨pairwise_replicate _ _, List.pairwise_singleton _ _, fun x hx y hy ↦ by
      rw [List.eq_of_mem_replicate hx, List.mem_singleton.1 hy]
      omega⟩
  have hall₂ : ∀ ok ∈ (serve key_full (n + 1) window_sec db
      (List.replicate (n + 1) ((n + 1) * i) ++ [(n + 1) * i + i])).1, ok = true := by
    rw [serve_append, ← hdb₂]
    intro ok hok
    exact (List.mem_append.1 hok).elim (hall ok) (hlast ok)
  have hadded := h.added (List.replicate (n + 1) 0)
    (List.replicate (n + 1) ((n + 1) * i) ++ [(n + 1) * i + i]) (i - 1)
    (i - 1 + windowMs window_sec)
    (List.pairwise_append.2 ⟨pairwise_replicate _ _, hsorted, fun x hx y hy ↦ by
      rw [List.eq_of_mem_replicate hx]
      have := (hspan y hy).1
      omega⟩)
    (fun t ht ↦ by rw [List.eq_of_mem_replicate ht]; omega)
    (fun t ht ↦ by have := hspan t ht; omega) (by omega) le_rfl
  rw [← hdb] at hadded
  dsimp only at hadded
  have hend := (found_spec (kept_serve hkept hcap hwin hsorted
    (fun t ht ↦ (show (0 : ℤ) ≤ t by have := hspan t ht; omega)) (fun t ht ↦ (hspan t ht).2)
    (by omega)) hcap (t := i - 1 + windowMs window_sec) (by omega)).1
  rw [hempty, count_true_of_all hall₂, serve_length, List.length_append, List.length_replicate,
    List.length_singleton] at hadded
  omega

/-- **A capacity beyond the milliseconds of the window** is not reached in one. -/
theorem not_refillRate_of_gt (hwin : 0 < window_sec) (hgt : windowMs window_sec < max_count) :
    ¬RefillRate key_full max_count window_sec := by
  intro h
  have hW : 0 < windowMs window_sec := by
    rw [windowMs]
    omega
  obtain ⟨m, hm⟩ : ∃ m : ℕ, windowMs window_sec = m + 1 :=
    ⟨(windowMs window_sec - 1).toNat, by omega⟩
  obtain ⟨k, rfl⟩ : ∃ k : ℕ, max_count = (m + 1 + k : ℕ) + 1 :=
    ⟨(max_count - m - 2).toNat, by omega⟩
  have hcap : (0 : ℤ) < (m + 1 + k : ℕ) + 1 := by omega
  have hi : intervalMs ((m + 1 + k : ℕ) + 1) window_sec = 1 := by
    rw [intervalMs, Int.ediv_eq_zero_of_lt hW.le hgt]
    rfl
  have hstored := stored_first key_full (m + 1 + k) hcap hwin 0
  have hkept := kept_of_calls key_full hcap hwin
    (pairwise_replicate (m + 1 + k + 1) 0) fun t ht ↦ (List.eq_of_mem_replicate ht).le
  have hall := h.full (List.replicate (m + 1 + k) 0)
    (List.replicate (m + 1 + k + 1) (windowMs window_sec)) 0
  rw [← List.replicate_succ'] at hall
  obtain ⟨db, hdb⟩ : ∃ db, db = (serve key_full ((m + 1 + k : ℕ) + 1) window_sec .empty
    (List.replicate (m + 1 + k + 1) 0)).2 := ⟨_, rfl⟩
  rw [← hdb] at hstored hkept hall
  have hsorted : (List.replicate (m + 1 + k) 0 ++
      0 :: List.replicate (m + 1 + k + 1) (windowMs window_sec)).Pairwise (· ≤ ·) := by
    refine List.pairwise_append.2 ⟨pairwise_replicate _ _, List.pairwise_cons.2
      ⟨fun t ht ↦ ?_, pairwise_replicate _ _⟩, fun x hx y hy ↦ ?_⟩
    · rw [List.eq_of_mem_replicate ht]
      exact hW.le
    · rw [List.eq_of_mem_replicate hx]
      rcases List.mem_cons.1 hy with rfl | hy
      · exact le_rfl
      · rw [List.eq_of_mem_replicate hy]
        exact hW.le
  have hanswers := hall hsorted
    (by rw [Expiring.get_of_lt hstored (by omega)]; rfl)
    (fun t ht ↦ by rw [List.eq_of_mem_replicate ht, zero_add])
    (by rw [List.length_replicate, Nat.cast_add, Nat.cast_one])
  -- a token for every millisecond, and then none
  have hfound : found key_full ((m + 1 + k : ℕ) + 1) window_sec db (windowMs window_sec) =
      ⟨windowMs window_sec, windowMs window_sec⟩ := by
    rw [found_of_stored hstored (by omega) hcap.le hW.le, hi]
    dsimp only
    rw [sub_zero, Int.ediv_one, mul_one, zero_add, min_eq_right hgt.le]
  have hstored₂ := stored_replicate hkept hcap hwin hW.le m (by rw [hfound, hm])
  rw [show m + 1 + k + 1 = (m + 1) + (k + 1) from rfl, ← List.replicate_append_replicate,
    serve_append] at hanswers
  obtain ⟨db₂, hdb₂⟩ : ∃ db₂, db₂ = (serve key_full ((m + 1 + k : ℕ) + 1) window_sec db
    (List.replicate (m + 1) (windowMs window_sec))).2 := ⟨_, rfl⟩
  rw [← hdb₂] at hstored₂ hanswers
  rw [hfound] at hstored₂
  have hnone : ¬0 < (found key_full ((m + 1 + k : ℕ) + 1) window_sec db₂
      (windowMs window_sec)).tokens := by
    rw [found_of_stored (t := windowMs window_sec) hstored₂ (by omega)
      (show windowMs window_sec - (m + 1) ≤ (m + 1 + k : ℕ) + 1 by omega) le_rfl]
    dsimp only
    rw [sub_self, Int.zero_ediv]
    omega
  have hdenied := (allow_spec key_full (windowMs window_sec) db₂ hcap hwin).1
  rw [decide_eq_false hnone] at hdenied
  have hfalse := hanswers false (List.mem_append_right _ (by
    rw [List.replicate_succ, serve_cons, hdenied]
    exact List.mem_cons_self))
  cases hfalse

/-- **When the limiter keeps its rate**: the capacity divides the window. -/
theorem refillRate_iff (hcap : 0 < max_count) (hwin : 0 < window_sec) :
    RefillRate key_full max_count window_sec ↔ max_count ∣ window_sec * 1000 := by
  refine ⟨fun h ↦ ?_, refillRate_of_dvd hcap hwin⟩
  by_contra hdvd
  rcases lt_or_ge (windowMs window_sec) max_count with hgt | hle
  · exact not_refillRate_of_gt hwin hgt h
  · refine not_refillRate_of_lt hcap hwin ?_ h
    have hquot : 1 ≤ windowMs window_sec / max_count := by
      rw [Int.le_ediv_iff_mul_le hcap, one_mul]
      exact hle
    rw [intervalMs, max_eq_right hquot]
    refine lt_of_le_of_ne (Int.mul_ediv_self_le hcap.ne') fun heq ↦ hdvd ⟨_, heq.symm⟩

end Rate

/-- Five tokens in a second: one every 200 milliseconds. -/
theorem refillRate_five : RefillRate "im:rl:user:u" 5 1 :=
  (refillRate_iff (by decide) (by decide)).2 (by decide)

/-- Three tokens in a second come every 333 milliseconds, so that four of them come in the second
after 332. -/
theorem not_refillRate_three : ¬RefillRate "im:rl:user:u" 3 1 :=
  not_refillRate_of_lt (by decide) (by decide) (by decide)

end ChatNow.RateLimiter
