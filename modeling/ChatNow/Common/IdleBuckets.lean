import ChatNow.Common.LocalRateLimiter
import Mathlib.Algebra.BigOperators.Ring.Finset
import Mathlib.Algebra.Order.BigOperators.Group.Finset
import Mathlib.Algebra.Order.Field.Basic
import Mathlib.Tactic.Linarith
import Mathlib.Tactic.Positivity

/-!
# The limiter without its cleanups

Which buckets the local rate limiter removes, and when, depends on the calls of all keys. None of
this shows (`decisions_eq_unreclaimed`): a bucket that is removed has been idle for two windows, so
it would be full again, and the bucket of a new key is what a call leaves of a full one.

The limiter without the cleanups is a table that buckets are put into and not taken out of. With
fewer keys than `kMaxBuckets` neither of the two runs out of room, since the buckets of the limiter
are in the shards of their keys and counted there (`Counted.count_le`).
-/

namespace ChatNow.LocalRateLimiter

/-! ### The two limiters -/

/-- What a limiter returns to calls, one after the other. -/
def Limiter.decisions (hash : String → ℕ) : Limiter → List Call → List Bool
  | _, [] => []
  | s, c :: cs =>
    let (ok, s) := s.allow c.now_ms c.window_sec hash c.key c.capacity
    ok :: s.decisions hash cs

namespace Buckets

variable (t : Buckets)

/-- The bucket of a key. -/
def bucket (key : String) : Option Bucket := (t.find key).map (·.2)

/-- `allow` of a limiter that never removes a bucket. -/
def allow (c : Call) : Bool × Buckets :=
  if c.capacity ≤ 0 ∨ c.window_sec ≤ 0 then (true, t)
  else
    match t.bucket c.key with
    | some b =>
      let (ok, b) := consume_ b c.capacity c.window_sec c.now_ms
      (ok, t.write (c.key, b))
    | none =>
      if t.rows.length < kMaxBuckets then
        (true, (t.insert (c.key, first c.capacity c.now_ms)).getD t)
      else (false, t)

/-- What it returns to calls, one after the other. -/
def decisions : Buckets → List Call → List Bool
  | _, [] => []
  | t, c :: cs =>
    let (ok, t) := allow t c
    ok :: decisions t cs

variable {t} {key key' : String} {b : Bucket}

theorem bucket_write (b : Bucket) :
    bucket (t.write (key, b)) key' =
      if key = key' then (bucket t key').map fun _ ↦ b else bucket t key' := by
  rw [bucket, Table.find_write, bucket]
  cases t.find key' with
  | none => split <;> rfl
  | some r =>
    dsimp only [Option.map_some]
    split <;> rfl

theorem bucket_insert (h : bucket t key = none) (b : Bucket) :
    bucket ((t.insert (key, b)).getD t) key' = if key = key' then some b else bucket t key' := by
  have hfind : t.find (Prod.fst (key, b)) = none := Option.map_eq_none_iff.1 h
  obtain ⟨t', ht'⟩ := Option.isSome_iff_exists.1 (Table.insert_isSome.2 hfind)
  rw [ht', Option.getD_some, bucket, Table.find_insert ht', bucket]
  split <;> rfl

/-- There are no more buckets than keys. -/
theorem length_le {K : Finset String} (h : ∀ r ∈ t.rows, r.1 ∈ K) : t.rows.length ≤ K.card := by
  have hlen : (t.rows.map Prod.fst).toFinset.card = t.rows.length := by
    rw [List.toFinset_card_of_nodup t.unique, List.length_map]
  rw [← hlen]
  refine Finset.card_le_card fun key hkey ↦ ?_
  obtain ⟨r, hr, rfl⟩ := List.mem_map.1 (List.mem_toFinset.1 hkey)
  exact h r hr

theorem bucket_isSome {r : String × Bucket} (h : r ∈ t.rows) : (bucket t r.1).isSome := by
  rw [bucket, t.find_eq_some.2 ⟨h, rfl⟩]
  rfl

end Buckets

/-! ### Buckets that are counted -/

section Counted

variable {hash : String → ℕ} {s : Limiter} {K : Finset String}

/-- **There are no more buckets than keys.** -/
theorem Counted.count_le (h : Counted hash s) (hK : ∀ key, (s.bucket hash key).isSome → key ∈ K) :
    s.bucket_count ≤ K.card := by
  have hshard : ∀ i ∈ Finset.range kShardCount, ((s.shards i).rows.length : ℤ) ≤
      (K.filter fun key ↦ hash key % kShardCount = i).card := by
    intro i _
    refine Int.ofNat_le.2 (Buckets.length_le fun r hr ↦ ?_)
    have hhome := h.home i r hr
    have hsome : (s.bucket hash r.1).isSome := by
      rw [Limiter.bucket, hhome]
      exact Buckets.bucket_isSome hr
    exact Finset.mem_filter.2 ⟨hK r.1 hsome, hhome⟩
  have hfiber := Finset.card_eq_sum_card_fiberwise (s := K) (f := fun key ↦ hash key % kShardCount)
    (t := Finset.range kShardCount)
    fun key _ ↦ Finset.mem_coe.2 (Finset.mem_range.2 (Nat.mod_lt _ kShardCount_pos))
  rw [h.count, hfiber, Nat.cast_sum]
  exact Finset.sum_le_sum hshard

end Counted

/-! ### The two side by side -/

section Numbers

variable {capacity window_sec now_ms later_ms : ℤ} {b : Bucket}

/-- A bucket that has been left by a call. -/
structure Sound (b : Bucket) : Prop where
  tokens_nonneg : 0 ≤ b.tokens
  refill_seen : b.refill_ms = b.seen_ms

theorem idle_iff : idle now_ms window_sec b = true ↔
    b.seen_ms < now_ms ∧ window_sec * 2000 < now_ms - b.seen_ms := by
  rw [idle, decide_eq_true_eq]

theorem idle_mono (h : now_ms ≤ later_ms) (hidle : idle now_ms window_sec b = true) :
    idle later_ms window_sec b = true := by
  rw [idle_iff] at hidle ⊢
  omega

theorem sound_first (hcap : 0 < capacity) : Sound (first capacity now_ms) :=
  ⟨sub_nonneg.2 (by exact_mod_cast hcap), rfl⟩

theorem Sound.consume_ (h : Sound b) (hcap : 0 < capacity) (hwin : 0 < window_sec) :
    Sound (consume_ b capacity window_sec now_ms).2 := by
  have hc : (0 : ℚ) < capacity := Int.cast_pos.2 hcap
  have hw : (0 : ℚ) < window_sec := Int.cast_pos.2 hwin
  have helapsed : 0 ≤ if now_ms > b.refill_ms then now_ms - b.refill_ms else 0 := by
    split <;> omega
  rw [LocalRateLimiter.consume_]
  generalize (if now_ms > b.refill_ms then now_ms - b.refill_ms else 0) = elapsed at helapsed ⊢
  have he : (0 : ℚ) ≤ elapsed := Int.cast_nonneg helapsed
  have htokens := h.tokens_nonneg
  have hnonneg : 0 ≤ min (capacity : ℚ)
      (b.tokens + (elapsed : ℚ) * capacity / (window_sec * 1000)) := by positivity
  split
  · exact ⟨hnonneg, rfl⟩
  · next hone => exact ⟨sub_nonneg.2 (not_lt.1 hone), rfl⟩

/-- **A bucket that has been idle is full again.** -/
theorem consume_of_idle (h : Sound b) (hcap : 0 < capacity) (hwin : 0 < window_sec)
    (hidle : idle now_ms window_sec b = true) :
    consume_ b capacity window_sec now_ms = (true, first capacity now_ms) := by
  have hc : (1 : ℚ) ≤ capacity := by exact_mod_cast hcap
  have hw : (0 : ℚ) < window_sec := Int.cast_pos.2 hwin
  obtain ⟨hseen, hlong⟩ := idle_iff.1 hidle
  have helapsed : window_sec * 1000 ≤ now_ms - b.refill_ms := by
    rw [h.refill_seen]
    omega
  have hle : (window_sec * 1000 : ℚ) ≤ ((now_ms - b.refill_ms : ℤ) : ℚ) := by
    exact_mod_cast helapsed
  have hrefill : (capacity : ℚ) ≤
      ((now_ms - b.refill_ms : ℤ) : ℚ) * capacity / (window_sec * 1000) := by
    rw [le_div_iff₀ (by positivity), mul_comm]
    exact mul_le_mul_of_nonneg_right hle (by linarith)
  have hfull : min (capacity : ℚ)
      (b.tokens + ((now_ms - b.refill_ms : ℤ) : ℚ) * capacity / (window_sec * 1000)) =
      capacity := by
    have htokens := h.tokens_nonneg
    exact min_eq_left (by linarith)
  have hafter : now_ms > b.refill_ms := by
    rw [h.refill_seen]
    exact hseen
  rw [consume_, if_pos hafter, hfull, if_neg (not_lt.2 hc)]
  rfl

end Numbers

/-- A limiter and one that never removes a bucket: a bucket that only the other one has is idle. -/
structure Hides (hash : String → ℕ) (window_sec : ℤ) (K : Finset String) (now_ms : ℤ) (s : Limiter)
    (t : Buckets) : Prop where
  counted : Counted hash s
  keys : ∀ key, (t.bucket key).isSome → key ∈ K
  sound : ∀ key, ∀ b ∈ t.bucket key, Sound b
  bucket : ∀ key, s.bucket hash key = t.bucket key ∨
    s.bucket hash key = none ∧ ∃ b, t.bucket key = some b ∧ idle now_ms window_sec b = true

section Hides

variable {hash : String → ℕ} {window_sec now_ms later_ms : ℤ} {K : Finset String} {s s' : Limiter}
  {t t' : Buckets} {key : String} {b : Bucket} {c : Call}

theorem Hides.later (h : Hides hash window_sec K now_ms s t) (hle : now_ms ≤ later_ms) :
    Hides hash window_sec K later_ms s t where
  counted := h.counted
  keys := h.keys
  sound := h.sound
  bucket key := (h.bucket key).imp_right
    fun ⟨hgone, b, hb, hidle⟩ ↦ ⟨hgone, b, hb, idle_mono hle hidle⟩

theorem Hides.of_swept (h : Hides hash window_sec K now_ms s t)
    (hswept : Swept hash now_ms window_sec s s') (hcounted : Counted hash s') :
    Hides hash window_sec K now_ms s' t where
  counted := hcounted
  keys := h.keys
  sound := h.sound
  bucket key := by
    rcases hswept key with heq | ⟨hgone, b, hb, hidle⟩
    · rw [heq]
      exact h.bucket key
    · rcases h.bucket key with heq' | ⟨hgone', -⟩
      · exact .inr ⟨hgone, b, heq' ▸ hb, hidle⟩
      · rw [hgone'] at hb
        cases hb

/-- The bucket of a key is written by both. -/
theorem Hides.write (h : Hides hash window_sec K now_ms s t) (hcounted : Counted hash s')
    (hb : Sound b) (hkey : key ∈ K)
    (hs : ∀ key', s'.bucket hash key' = if key = key' then some b else s.bucket hash key')
    (ht : ∀ key', t'.bucket key' = if key = key' then some b else t.bucket key') :
    Hides hash window_sec K now_ms s' t' where
  counted := hcounted
  keys key' hsome := by
    rw [ht] at hsome
    split at hsome
    · next heq => exact heq ▸ hkey
    · exact h.keys key' hsome
  sound key' b' hb' := by
    rw [ht] at hb'
    split at hb'
    · obtain rfl := Option.some.inj hb'
      exact hb
    · exact h.sound key' b' hb'
  bucket key' := by
    rw [hs, ht]
    split
    · exact .inl rfl
    · exact h.bucket key'

/-- The limiter has room for another key. -/
theorem Hides.room (h : Hides hash window_sec K now_ms s t) (hK : (K.card : ℤ) < kMaxBuckets) :
    s.bucket_count < kMaxBuckets ∧ (t.rows.length : ℤ) < kMaxBuckets := by
  have hs : s.bucket_count ≤ K.card := h.counted.count_le fun key hsome ↦ by
    rcases h.bucket key with heq | ⟨hgone, -⟩
    · exact h.keys key (heq ▸ hsome)
    · rw [hgone] at hsome
      cases hsome
  have ht : t.rows.length ≤ K.card :=
    Buckets.length_le fun r hr ↦ h.keys r.1 (Buckets.bucket_isSome hr)
  omega

/-- The bucket of a key that has one for both. -/
theorem Hides.allow_found (h : Hides hash window_sec K c.now_ms s t)
    (hcap : 0 < c.capacity) (hwin : 0 < window_sec) (heq : c.window_sec = window_sec)
    (hkey : c.key ∈ K) (hb : (s.swept c.now_ms window_sec hash c.key).bucket hash c.key = some b) :
    (s.allow c.now_ms window_sec hash c.key c.capacity).1 = (t.allow c).1 ∧
      Hides hash window_sec K c.now_ms (s.allow c.now_ms window_sec hash c.key c.capacity).2
        (t.allow c).2 := by
  have hcounted : Counted hash (s.swept c.now_ms window_sec hash c.key) := h.counted.swept
  have hswept := h.of_swept (swept_swept s) hcounted
  have ht : t.bucket c.key = some b := by
    rcases hswept.bucket c.key with hsame | ⟨hgone, -⟩
    · rw [← hsame, hb]
    · rw [hb] at hgone
      cases hgone
  have hsound : Sound (consume_ b c.capacity window_sec c.now_ms).2 :=
    (h.sound c.key b ht).consume_ hcap hwin
  have hon : ¬(c.capacity ≤ 0 ∨ c.window_sec ≤ 0) := by omega
  rw [LocalRateLimiter.allow_found hcap hwin hb, Buckets.allow, if_neg hon, ht, heq]
  refine ⟨rfl, hswept.write (hcounted.assign _ _) hsound hkey (fun key' ↦ ?_) fun key' ↦ ?_⟩
  · rw [bucket_assign]
    split
    · next hsame => rw [← hsame, hb, Option.map_some]
    · rfl
  · rw [Buckets.bucket_write]
    split
    · next hsame => rw [← hsame, ht, Option.map_some]
    · rfl

/-- The bucket of a key that has none, for the limiter. -/
theorem Hides.allow_absent (h : Hides hash window_sec K c.now_ms s t)
    (hK : (K.card : ℤ) < kMaxBuckets)
    (hcap : 0 < c.capacity) (hwin : 0 < window_sec) (heq : c.window_sec = window_sec)
    (hkey : c.key ∈ K) (hb : (s.swept c.now_ms window_sec hash c.key).bucket hash c.key = none) :
    (s.allow c.now_ms window_sec hash c.key c.capacity).1 = (t.allow c).1 ∧
      Hides hash window_sec K c.now_ms (s.allow c.now_ms window_sec hash c.key c.capacity).2
        (t.allow c).2 := by
  have hcounted₀ : Counted hash (s.swept c.now_ms window_sec hash c.key) := h.counted.swept
  have hswept := h.of_swept (swept_swept s) hcounted₀
  obtain ⟨s₁, hsw, hcounted, hroom, hmade⟩ := LocalRateLimiter.allow_absent hcap hwin hb
  have hhides := hswept.of_swept hsw (hcounted h.counted)
  have hok := hmade.room (hroom (hswept.room hK).1)
  have hnone : s₁.bucket hash c.key = none := hsw.none hb
  have hs : ∀ key', (s.allow c.now_ms window_sec hash c.key c.capacity).2.bucket hash key' =
      if c.key = key' then some (first c.capacity c.now_ms) else s₁.bucket hash key' := by
    intro key'
    split
    · next hsame =>
      rw [← hsame, hmade.bucket, hok]
      rfl
    · next hne => exact hmade.others key' (Ne.symm hne)
  have hon : ¬(c.capacity ≤ 0 ∨ c.window_sec ≤ 0) := by omega
  rw [hok, Buckets.allow, if_neg hon, heq]
  rcases hhides.bucket c.key with hsame | ⟨-, b, ht, hidle⟩
  · have ht : t.bucket c.key = none := by rw [← hsame, hnone]
    rw [ht]
    dsimp only
    rw [if_pos (hswept.room hK).2]
    exact ⟨rfl, hhides.write (hmade.counted hhides.counted) (sound_first hcap) hkey hs
      fun key' ↦ Buckets.bucket_insert ht _⟩
  · rw [ht]
    dsimp only
    rw [consume_of_idle (h.sound c.key b ht) hcap hwin hidle]
    refine ⟨rfl, hhides.write (hmade.counted hhides.counted) (sound_first hcap) hkey hs
      fun key' ↦ ?_⟩
    rw [Buckets.bucket_write]
    split
    · next hsame => rw [← hsame, ht, Option.map_some]
    · rfl

/-- **A call** does the same to both. -/
theorem Hides.allow (h : Hides hash window_sec K now_ms s t) (hK : (K.card : ℤ) < kMaxBuckets)
    (hle : now_ms ≤ c.now_ms) (heq : c.window_sec = window_sec) (hkey : c.key ∈ K) :
    (s.allow c.now_ms c.window_sec hash c.key c.capacity).1 = (t.allow c).1 ∧
      Hides hash window_sec K c.now_ms (s.allow c.now_ms c.window_sec hash c.key c.capacity).2
        (t.allow c).2 := by
  have hlater := h.later hle
  by_cases hoff : c.capacity ≤ 0 ∨ c.window_sec ≤ 0
  · rw [Limiter.allow, Buckets.allow, if_pos hoff, if_pos hoff]
    exact ⟨rfl, hlater⟩
  have hcap : 0 < c.capacity := by omega
  have hwin : 0 < window_sec := by omega
  rw [heq]
  cases hb : (s.swept c.now_ms window_sec hash c.key).bucket hash c.key with
  | none => exact hlater.allow_absent hK hcap hwin heq hkey hb
  | some b => exact hlater.allow_found hcap hwin heq hkey hb

theorem Hides.empty (K : Finset String) : Hides hash window_sec K now_ms {} .empty where
  counted := ⟨fun _ _ hr ↦ absurd hr List.not_mem_nil, by decide⟩
  keys _ hsome := by cases hsome
  sound _ _ hb := by cases hb
  bucket _ := .inl rfl

/-- What both return to the calls to come. -/
theorem Hides.decisions {cs : List Call} (h : Hides hash window_sec K now_ms s t)
    (hK : (K.card : ℤ) < kMaxBuckets) (hle : ∀ c ∈ cs, now_ms ≤ c.now_ms)
    (hwin : ∀ c ∈ cs, c.window_sec = window_sec) (hkey : ∀ c ∈ cs, c.key ∈ K)
    (hsorted : cs.Pairwise fun c c' ↦ c.now_ms ≤ c'.now_ms) :
    s.decisions hash cs = t.decisions cs := by
  induction cs generalizing now_ms s t with
  | nil => rfl
  | cons c cs ih =>
    obtain ⟨hok, hnext⟩ := h.allow hK (hle c List.mem_cons_self) (hwin c List.mem_cons_self)
      (hkey c List.mem_cons_self)
    rw [Limiter.decisions, Buckets.decisions]
    dsimp only
    rw [hok, ih hnext (List.pairwise_cons.1 hsorted).1
      (fun c' hc' ↦ hwin c' (List.mem_cons_of_mem c hc'))
      (fun c' hc' ↦ hkey c' (List.mem_cons_of_mem c hc')) (List.pairwise_cons.1 hsorted).2]

/-- **Reclaiming does not show.** Calls with one window and clocks that do not go back, of fewer
keys than `kMaxBuckets`, get from the limiter what they get from one that never removes a bucket. -/
theorem decisions_eq_unreclaimed {calls : List Call} (hwin : ∀ c ∈ calls, c.window_sec = window_sec)
    (hsorted : calls.Pairwise fun c c' ↦ c.now_ms ≤ c'.now_ms)
    (hkeys : ((calls.map Call.key).toFinset.card : ℤ) < kMaxBuckets) :
    Limiter.decisions hash {} calls = Buckets.decisions .empty calls := by
  have hkey : ∀ c ∈ calls, c.key ∈ (calls.map Call.key).toFinset := fun c hc ↦
    List.mem_toFinset.2 (List.mem_map_of_mem hc)
  cases calls with
  | nil => rfl
  | cons c cs =>
    have hle : ∀ c' ∈ c :: cs, c.now_ms ≤ c'.now_ms := by
      intro c' hc'
      rcases List.mem_cons.1 hc' with rfl | hc'
      · exact le_rfl
      · exact (List.pairwise_cons.1 hsorted).1 c' hc'
    exact (Hides.empty _).decisions hkeys hle hwin hkey hsorted

/-! ### A run with a cleanup -/

/-- The limiter after calls. -/
def Limiter.after (hash : String → ℕ) (s : Limiter) (calls : List Call) : Limiter :=
  calls.foldl (fun s c ↦ (s.allow c.now_ms c.window_sec hash c.key c.capacity).2) s

theorem Limiter.after_append (s : Limiter) (calls calls' : List Call) :
    s.after hash (calls ++ calls') = (s.after hash calls).after hash calls' := List.foldl_append

/-- The same call again and again, up to the next cleanup, leaves the other buckets. -/
theorem Limiter.after_replicate {s : Limiter} {c : Call} {key : String} {n : ℕ}
    (hcap : 0 < c.capacity) (hwin : 0 < c.window_sec) (hne : c.key ≠ key)
    (hn : s.operations % 1024 + n < 1024) (hb : (s.bucket hash c.key).isSome = true) :
    (s.after hash (List.replicate n c)).operations = s.operations + n ∧
      (s.after hash (List.replicate n c)).bucket hash key = s.bucket hash key := by
  induction n generalizing s with
  | zero => exact ⟨rfl, rfl⟩
  | succ n ih =>
    obtain ⟨b, hb⟩ := Option.isSome_iff_exists.1 hb
    have hswept : s.swept c.now_ms c.window_sec hash c.key =
        { s with operations := s.operations + 1 } :=
      if_neg (show ¬(s.operations + 1) % 1024 = 0 by omega)
    have hfound : (s.swept c.now_ms c.window_sec hash c.key).bucket hash c.key = some b :=
      hswept ▸ hb
    have hallow := LocalRateLimiter.allow_found hcap hwin hfound
    have hbucket (key' : String) :
        (s.allow c.now_ms c.window_sec hash c.key c.capacity).2.bucket hash key' =
          if c.key = key' then (s.bucket hash key').map fun _ ↦
            (consume_ b c.capacity c.window_sec c.now_ms).2
          else s.bucket hash key' := by
      rw [hallow, hswept]
      exact bucket_assign _ _
    have hops : (s.allow c.now_ms c.window_sec hash c.key c.capacity).2.operations =
        s.operations + 1 := by
      rw [hallow, hswept]
      rfl
    obtain ⟨hcount, hkept⟩ := ih (s := (s.allow c.now_ms c.window_sec hash c.key c.capacity).2)
      (by omega) (by rw [hbucket, if_pos rfl, hb]; rfl)
    refine ⟨?_, ?_⟩
    · show (Limiter.after hash _ (List.replicate n c)).operations = _
      rw [hcount, hops]
      omega
    · show (Limiter.after hash _ (List.replicate n c)).bucket hash key = _
      rw [hkept, hbucket, if_neg hne]

/-- Two keys; one of them is idle when the 1024th call comes. -/
def firstCalls : List Call := [⟨"a", 1, 1, 0⟩, ⟨"b", 1, 1, 4000⟩]

/-- The calls before that one. -/
def idleCalls (n : ℕ) : List Call := firstCalls ++ List.replicate n ⟨"b", 1, 1, 4000⟩

/-- It, and one of the idle key. -/
def lastCalls : List Call := [⟨"b", 1, 1, 5000⟩, ⟨"a", 1, 1, 5000⟩]

/-- The cleanup before the 1024th call removes the bucket of the idle key. -/
theorem removed_before_last {n : ℕ} (hn : n + 3 = 1024) :
    (Limiter.after String.length {} (idleCalls n)).bucket String.length "a" = some (first 1 0) ∧
      ((Limiter.after String.length {} (idleCalls n)).swept 5000 1 String.length "b").bucket
        String.length "a" = none := by
  have hcount : (Limiter.after String.length {} firstCalls).operations = 2 := rfl
  have hidle : (Limiter.after String.length {} firstCalls).bucket String.length "a" =
      some (first 1 0) := rfl
  have hb : ((Limiter.after String.length {} firstCalls).bucket String.length "b").isSome = true :=
    rfl
  obtain ⟨hops, hbucket⟩ := Limiter.after_replicate (n := n) (c := ⟨"b", 1, 1, 4000⟩)
    (by decide) (by decide) (show "b" ≠ "a" by decide) (by omega) hb
  rw [hcount, ← Limiter.after_append, ← idleCalls] at hops
  rw [hidle, ← Limiter.after_append, ← idleCalls] at hbucket
  refine ⟨hbucket, ?_⟩
  generalize Limiter.after String.length {} (idleCalls n) = s at hops hbucket ⊢
  have hswept : s.swept 5000 1 String.length "b" =
      Limiter.cleanup_ { s with operations := s.operations + 1 } 5000 1 1 :=
    if_pos (by omega)
  rw [hswept, bucket_cleanup_, if_pos (by decide)]
  show (s.bucket String.length "a").filter _ = none
  rw [hbucket]
  rfl

/-- The idle key has a bucket again after its last call, and gets what it gets without the
cleanup. -/
theorem decisions_eq_unreclaimed_two :
    ((Limiter.after String.length {} (idleCalls 1021)).swept 5000 1 String.length "b").bucket
        String.length "a" = none ∧
      Limiter.decisions String.length {} (idleCalls 1021 ++ lastCalls) =
        Buckets.decisions .empty (idleCalls 1021 ++ lastCalls) := by
  have hmem {P : Call → Prop} (ha : P ⟨"a", 1, 1, 0⟩) (hb : P ⟨"b", 1, 1, 4000⟩)
      (hb' : P ⟨"b", 1, 1, 5000⟩) (ha' : P ⟨"a", 1, 1, 5000⟩) :
      ∀ c ∈ idleCalls 1021 ++ lastCalls, P c := by
    simp only [idleCalls, firstCalls, lastCalls, List.mem_append, List.mem_cons, List.mem_replicate,
      List.not_mem_nil, or_false]
    rintro c (((rfl | rfl) | ⟨-, rfl⟩) | rfl | rfl) <;> assumption
  have hsorted : (idleCalls 1021 ++ lastCalls).Pairwise fun c c' ↦ c.now_ms ≤ c'.now_ms := by
    simp [-List.reduceReplicate, idleCalls, firstCalls, lastCalls, List.pairwise_append,
      List.pairwise_replicate]
  have hkeys : ((idleCalls 1021 ++ lastCalls).map Call.key).toFinset ⊆ {"a", "b"} := by
    intro key hkey
    obtain ⟨c, hc, rfl⟩ := List.mem_map.1 (List.mem_toFinset.1 hkey)
    exact hmem (P := fun c ↦ c.key ∈ ({"a", "b"} : Finset String)) (by decide) (by decide)
      (by decide) (by decide) c hc
  refine ⟨(removed_before_last rfl).2, decisions_eq_unreclaimed (hmem rfl rfl rfl rfl) hsorted ?_⟩
  have hcard : (((idleCalls 1021 ++ lastCalls).map Call.key).toFinset).card ≤ 2 :=
    Finset.card_le_card hkeys
  rw [kMaxBuckets]
  omega

end Hides

end ChatNow.LocalRateLimiter
