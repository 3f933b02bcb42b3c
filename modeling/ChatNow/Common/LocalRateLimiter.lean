import ChatNow.Lib.Table
import Mathlib.Algebra.BigOperators.Group.Finset.Basic
import Mathlib.Algebra.Order.Field.Rat

/-!
# The local rate limiter

`LocalRateLimiter` of `common/utils/local_rate_limiter.hpp`: token buckets in the memory of a
process, for the time that Redis does not answer. The buckets are in shards, by the hash of their
key. Idle ones are removed at every 1024th call, and when there are too many buckets for another.

* `consume_`, `allow`: the bucket and the limiter. Tokens are exact rationals, and calls are made
  one after the other.
* `allow_found`, `allow_absent`: what a call does, by whether the key has a bucket after the first
  cleanup. What the cleanups do to other buckets is said by `Swept` alone: a bucket stays as it is,
  or it was idle and is gone.
* `Counted`: every bucket is in the shard of its key, and `_bucket_count` counts them.

The counters are natural numbers. Those of the code wrap around at a multiple of 1024 and of 64,
which is all that is read of them.
-/

namespace ChatNow.LocalRateLimiter

/-! ### Buckets -/

structure Bucket where
  tokens : ℚ
  refill_ms : ℤ
  seen_ms : ℤ
  deriving DecidableEq

/-- `consume_`. -/
def consume_ (bucket : Bucket) (capacity window_sec now_ms : ℤ) : Bool × Bucket :=
  let elapsed_ms := if now_ms > bucket.refill_ms then now_ms - bucket.refill_ms else 0
  let refill : ℚ := elapsed_ms * capacity / (window_sec * 1000)
  let tokens := min (capacity : ℚ) (bucket.tokens + refill)
  if tokens < 1 then (false, ⟨tokens, now_ms, now_ms⟩)
  else (true, ⟨tokens - 1, now_ms, now_ms⟩)

/-- The bucket of a new key. -/
def first (capacity now_ms : ℤ) : Bucket := ⟨capacity - 1, now_ms, now_ms⟩

/-! ### The limiter -/

/-- `Shard::buckets`. -/
abbrev Buckets : Type := Table (Prod.fst : String × Bucket → String)

def kShardCount : ℕ := 64

def kMaxBuckets : ℤ := 65536

def kReclaimScan : ℕ := 8

/-- The members of `LocalRateLimiter`. -/
structure Limiter where
  shards : ℕ → Buckets := fun _ ↦ .empty
  bucket_count : ℤ := 0
  operations : ℕ := 0
  reclaim_cursor : ℕ := 0

/-- Whether `cleanup_` removes a bucket. -/
def idle (now_ms window_sec : ℤ) (b : Bucket) : Bool :=
  now_ms > b.seen_ms ∧ now_ms - b.seen_ms > window_sec * 2000

namespace Limiter

variable (s : Limiter) (now_ms window_sec : ℤ)

/-- `reserve_bucket_`. -/
def reserve_bucket_ : Bool × Limiter :=
  if s.bucket_count < kMaxBuckets then (true, { s with bucket_count := s.bucket_count + 1 })
  else (false, s)

/-- `cleanup_`. -/
def cleanup_ (i : ℕ) : Limiter :=
  let kept := (s.shards i).filter fun r ↦ !idle now_ms window_sec r.2
  { s with shards := Function.update s.shards i kept
           bucket_count := s.bucket_count - ((s.shards i).rows.length - kept.rows.length) }

/-- The loop of `reclaim_idle_bounded_`, over the offsets still to come. -/
def reclaim_loop (target start : ℕ) : List ℕ → Limiter → Limiter
  | [], s => s
  | offset :: offsets, s =>
    let index := (start + offset) % kShardCount
    if index = target then reclaim_loop target start offsets s
    else
      let s := s.cleanup_ now_ms window_sec index
      if s.bucket_count < kMaxBuckets then s else reclaim_loop target start offsets s

/-- `reclaim_idle_bounded_`. -/
def reclaim_idle_bounded_ (target : ℕ) : Limiter :=
  reclaim_loop now_ms window_sec target s.reclaim_cursor (List.range kReclaimScan)
    { s with reclaim_cursor := s.reclaim_cursor + kReclaimScan }

/-- `shard.buckets.emplace`. -/
def emplace (i : ℕ) (key : String) (b : Bucket) : Limiter :=
  { s with shards := Function.update s.shards i (((s.shards i).insert (key, b)).getD (s.shards i)) }

/-- A bucket that has been found is written. -/
def assign (i : ℕ) (key : String) (b : Bucket) : Limiter :=
  { s with shards := Function.update s.shards i ((s.shards i).write (key, b)) }

variable (hash : String → ℕ) (key : String) (capacity : ℤ)

/-- The bucket of a key. -/
def bucket : Option Bucket := ((s.shards (hash key % kShardCount)).find key).map (·.2)

/-- The count of a call, and the cleanup that every 1024th begins with. -/
def swept : Limiter :=
  let operation := s.operations + 1
  let s := { s with operations := operation }
  if operation % 1024 = 0 then s.cleanup_ now_ms window_sec (hash key % kShardCount) else s

/-- The call takes a token from a bucket. -/
def consume (b : Bucket) : Bool × Limiter :=
  let (ok, b) := consume_ b capacity window_sec now_ms
  (ok, s.assign (hash key % kShardCount) key b)

/-- A bucket that has been reserved is put in. -/
def create : Bool × Limiter :=
  (true, s.emplace (hash key % kShardCount) key (first capacity now_ms))

/-- `allow`, at a moment. -/
def allow : Bool × Limiter :=
  if capacity ≤ 0 ∨ window_sec ≤ 0 then (true, s)
  else
    let shard := hash key % kShardCount
    let s := s.swept now_ms window_sec hash key
    match s.bucket hash key with
    | some b => s.consume now_ms window_sec hash key capacity b
    | none =>
      match s.reserve_bucket_ with
      | (true, s) => s.create now_ms hash key capacity
      | (false, s) =>
        match (s.cleanup_ now_ms window_sec shard).reserve_bucket_ with
        | (true, s) => s.create now_ms hash key capacity
        | (false, s) =>
          let s := s.reclaim_idle_bounded_ now_ms window_sec shard
          match s.bucket hash key with
          | some b => s.consume now_ms window_sec hash key capacity b
          | none =>
            match s.reserve_bucket_ with
            | (true, s) => s.create now_ms hash key capacity
            | (false, s) => (false, s)

end Limiter

/-- The arguments of `allow`. -/
structure Call where
  key : String
  capacity : ℤ
  window_sec : ℤ
  now_ms : ℤ
  deriving DecidableEq

/-! ### What the cleanups leave -/

/-- Buckets stay as they are, or were idle and are gone. -/
def Swept (hash : String → ℕ) (now_ms window_sec : ℤ) (s s' : Limiter) : Prop :=
  ∀ key, s'.bucket hash key = s.bucket hash key ∨
    s'.bucket hash key = none ∧
      ∃ b, s.bucket hash key = some b ∧ idle now_ms window_sec b = true

/-- Every bucket is in the shard of its key, and all of them are counted. -/
structure Counted (hash : String → ℕ) (s : Limiter) : Prop where
  home : ∀ i, ∀ r ∈ (s.shards i).rows, hash r.1 % kShardCount = i
  count : s.bucket_count = ∑ i ∈ Finset.range kShardCount, ((s.shards i).rows.length : ℤ)

section Cleanup

variable {hash : String → ℕ} {now_ms window_sec : ℤ} {s s' s'' : Limiter} {key key' : String}
  {i : ℕ} {b : Bucket}

theorem kShardCount_pos : 0 < kShardCount := by decide

theorem Swept.refl (s : Limiter) : Swept hash now_ms window_sec s s := fun _ ↦ .inl rfl

theorem Swept.trans (h : Swept hash now_ms window_sec s s')
    (h' : Swept hash now_ms window_sec s' s'') : Swept hash now_ms window_sec s s'' := by
  intro key
  rcases h' key with heq | ⟨hgone, b, hb, hidle⟩
  · rw [heq]
    exact h key
  · rcases h key with heq | ⟨hgone', -⟩
    · exact .inr ⟨hgone, b, heq ▸ hb, hidle⟩
    · rw [hgone'] at hb
      cases hb

/-- A key without a bucket does not get one. -/
theorem Swept.none (h : Swept hash now_ms window_sec s s') (hkey : s.bucket hash key = none) :
    s'.bucket hash key = none := by
  rcases h key with heq | ⟨hgone, -⟩
  · rw [heq, hkey]
  · exact hgone

theorem bucket_cleanup_ (s : Limiter) (now_ms window_sec : ℤ) (i : ℕ) (key : String) :
    (s.cleanup_ now_ms window_sec i).bucket hash key =
      if hash key % kShardCount = i then
        (s.bucket hash key).filter fun b ↦ !idle now_ms window_sec b
      else s.bucket hash key := by
  rw [Limiter.bucket, Limiter.cleanup_]
  dsimp only
  split
  · next hi =>
    rw [← hi, Function.update_self, Table.find_filter, Limiter.bucket]
    cases (s.shards (hash key % kShardCount)).find key with
    | none => rfl
    | some r =>
      rw [Option.map_some, Option.filter_some, Option.filter_some]
      split <;> rfl
  · next hi => rw [Function.update_of_ne hi, Limiter.bucket]

theorem swept_cleanup_ (s : Limiter) (i : ℕ) :
    Swept hash now_ms window_sec s (s.cleanup_ now_ms window_sec i) := by
  intro key
  rw [bucket_cleanup_]
  split
  · cases hb : s.bucket hash key with
    | none => exact .inl rfl
    | some b =>
      rw [Option.filter_some]
      cases hidle : idle now_ms window_sec b with
      | true => exact .inr ⟨rfl, b, rfl, hidle⟩
      | false => exact .inl rfl
  · exact .inl rfl

/-- The number of buckets, when a shard changes. -/
theorem sum_update (shards : ℕ → Buckets) (hi : i < kShardCount) (bs : Buckets) :
    ∑ j ∈ Finset.range kShardCount, ((Function.update shards i bs j).rows.length : ℤ) =
      ∑ j ∈ Finset.range kShardCount, ((shards j).rows.length : ℤ) -
        (shards i).rows.length + bs.rows.length := by
  have hmem : i ∈ Finset.range kShardCount := Finset.mem_range.2 hi
  have hnew := Finset.add_sum_erase (Finset.range kShardCount)
    (fun j ↦ ((Function.update shards i bs j).rows.length : ℤ)) hmem
  have hold := Finset.add_sum_erase (Finset.range kShardCount)
    (fun j ↦ ((shards j).rows.length : ℤ)) hmem
  have hrest : ∑ j ∈ (Finset.range kShardCount).erase i,
      ((Function.update shards i bs j).rows.length : ℤ) =
      ∑ j ∈ (Finset.range kShardCount).erase i, ((shards j).rows.length : ℤ) :=
    Finset.sum_congr rfl fun j hj ↦ by
      rw [Function.update_of_ne (Finset.ne_of_mem_erase hj)]
  rw [Function.update_self] at hnew
  omega

theorem Counted.cleanup_ (h : Counted hash s) (hi : i < kShardCount) :
    Counted hash (s.cleanup_ now_ms window_sec i) where
  home j r hr := by
    rcases eq_or_ne j i with rfl | hne
    · rw [Limiter.cleanup_] at hr
      dsimp only at hr
      rw [Function.update_self] at hr
      exact h.home j r (List.mem_filter.1 hr).1
    · rw [Limiter.cleanup_] at hr
      dsimp only at hr
      rw [Function.update_of_ne hne] at hr
      exact h.home j r hr
  count := by
    rw [Limiter.cleanup_]
    dsimp only
    rw [sum_update _ hi, h.count]
    omega

theorem reserve_bucket_cases (s : Limiter) :
    s.bucket_count < kMaxBuckets ∧
        s.reserve_bucket_ = (true, { s with bucket_count := s.bucket_count + 1 }) ∨
      kMaxBuckets ≤ s.bucket_count ∧ s.reserve_bucket_ = (false, s) := by
  rcases lt_or_ge s.bucket_count kMaxBuckets with hlt | hge
  · exact .inl ⟨hlt, if_pos hlt⟩
  · exact .inr ⟨hge, if_neg (not_lt.2 hge)⟩

/-- **The loop of `reclaim_idle_bounded_`** sweeps. -/
theorem reclaim_loop_spec (target start : ℕ) (offsets : List ℕ) (s : Limiter) :
    let s' := Limiter.reclaim_loop now_ms window_sec target start offsets s
    Swept hash now_ms window_sec s s' ∧ (Counted hash s → Counted hash s') := by
  induction offsets generalizing s with
  | nil => exact ⟨.refl s, id⟩
  | cons offset offsets ih =>
    rw [Limiter.reclaim_loop]
    dsimp only
    split
    · exact ih s
    · have hlt : (start + offset) % kShardCount < kShardCount := Nat.mod_lt _ kShardCount_pos
      split
      · exact ⟨swept_cleanup_ s _, fun h ↦ h.cleanup_ hlt⟩
      · obtain ⟨hswept, hcounted⟩ :=
          ih (s.cleanup_ now_ms window_sec ((start + offset) % kShardCount))
        exact ⟨(swept_cleanup_ s _).trans hswept, fun h ↦ hcounted (h.cleanup_ hlt)⟩

theorem swept_reclaim_idle_bounded_ (s : Limiter) (target : ℕ) :
    Swept hash now_ms window_sec s (s.reclaim_idle_bounded_ now_ms window_sec target) :=
  (reclaim_loop_spec target s.reclaim_cursor (List.range kReclaimScan)
    { s with reclaim_cursor := s.reclaim_cursor + kReclaimScan }).1

theorem Counted.reclaim_idle_bounded_ (h : Counted hash s) (target : ℕ) :
    Counted hash (s.reclaim_idle_bounded_ now_ms window_sec target) :=
  (reclaim_loop_spec target s.reclaim_cursor (List.range kReclaimScan)
    { s with reclaim_cursor := s.reclaim_cursor + kReclaimScan }).2 ⟨h.home, h.count⟩

end Cleanup

/-! ### What a call does -/

section Allow

variable {hash : String → ℕ} {now_ms window_sec capacity : ℤ} {s s' : Limiter}
  {key key' : String} {b : Bucket}

theorem swept_swept (s : Limiter) :
    Swept hash now_ms window_sec s (s.swept now_ms window_sec hash key) := by
  rw [Limiter.swept]
  split
  · exact swept_cleanup_ _ _
  · exact .refl s

theorem Counted.swept (h : Counted hash s) :
    Counted hash (s.swept now_ms window_sec hash key) := by
  have hs : Counted hash { s with operations := s.operations + 1 } := ⟨h.home, h.count⟩
  rw [Limiter.swept]
  split
  · exact hs.cleanup_ (Nat.mod_lt _ kShardCount_pos)
  · exact hs

/-- The bucket of a key, when the shard of another key changes. -/
theorem bucket_update_ne (s : Limiter) {bs : Buckets} {i : ℕ} (hi : hash key' % kShardCount ≠ i) :
    Limiter.bucket { s with shards := Function.update s.shards i bs } hash key' =
      s.bucket hash key' := by
  rw [Limiter.bucket]
  dsimp only
  rw [Function.update_of_ne hi, Limiter.bucket]

theorem bucket_assign (s : Limiter) (b : Bucket) :
    (s.assign (hash key % kShardCount) key b).bucket hash key' =
      if key = key' then (s.bucket hash key').map fun _ ↦ b else s.bucket hash key' := by
  rw [Limiter.assign]
  by_cases hi : hash key' % kShardCount = hash key % kShardCount
  · rw [Limiter.bucket]
    dsimp only
    rw [hi, Function.update_self, Table.find_write, Limiter.bucket, hi]
    cases hfind : (s.shards (hash key % kShardCount)).find key' with
    | none =>
      split <;> rfl
    | some r =>
      rw [Option.map_some]
      dsimp only [Function.comp_apply]
      split <;> rfl
  · have hne : key ≠ key' := by
      rintro rfl
      exact hi rfl
    rw [bucket_update_ne s hi, if_neg hne]

/-- The bucket is put in. -/
theorem insert_of_none (hkey : s.bucket hash key = none) (b : Bucket) :
    ∃ bs, (s.shards (hash key % kShardCount)).insert (key, b) = some bs ∧
      s.emplace (hash key % kShardCount) key b =
        { s with shards := Function.update s.shards (hash key % kShardCount) bs } := by
  have hfind : (s.shards (hash key % kShardCount)).find (Prod.fst (key, b)) = none :=
    Option.map_eq_none_iff.1 hkey
  obtain ⟨bs, hbs⟩ := Option.isSome_iff_exists.1 (Table.insert_isSome.2 hfind)
  refine ⟨bs, hbs, ?_⟩
  rw [Limiter.emplace, hbs]
  rfl

theorem bucket_emplace (hkey : s.bucket hash key = none) (b : Bucket) :
    (s.emplace (hash key % kShardCount) key b).bucket hash key' =
      if key = key' then some b else s.bucket hash key' := by
  obtain ⟨bs, hbs, heq⟩ := insert_of_none hkey b
  rw [heq]
  by_cases hi : hash key' % kShardCount = hash key % kShardCount
  · rw [Limiter.bucket]
    dsimp only
    rw [hi, Function.update_self, Table.find_insert hbs, Limiter.bucket, hi]
    split <;> rfl
  · have hne : key ≠ key' := by
      rintro rfl
      exact hi rfl
    rw [bucket_update_ne s hi, if_neg hne]

theorem Counted.assign (h : Counted hash s) (key : String) (b : Bucket) :
    Counted hash (s.assign (hash key % kShardCount) key b) where
  home j r hr := by
    rcases eq_or_ne j (hash key % kShardCount) with rfl | hne
    · rw [Limiter.assign] at hr
      dsimp only at hr
      rw [Function.update_self] at hr
      obtain ⟨r₀, hr₀, rfl⟩ := List.mem_map.1 hr
      split
      · rfl
      · exact h.home _ r₀ hr₀
    · rw [Limiter.assign] at hr
      dsimp only at hr
      rw [Function.update_of_ne hne] at hr
      exact h.home j r hr
  count := by
    rw [Limiter.assign]
    dsimp only
    rw [sum_update _ (Nat.mod_lt _ kShardCount_pos), h.count, Table.write, List.length_map]
    omega

/-- A bucket that has been reserved is counted. -/
theorem Counted.emplace (h : Counted hash s) (hkey : s.bucket hash key = none) (b : Bucket) :
    Counted hash (Limiter.emplace { s with bucket_count := s.bucket_count + 1 }
      (hash key % kShardCount) key b) := by
  obtain ⟨bs, hbs, heq⟩ := insert_of_none
    (s := { s with bucket_count := s.bucket_count + 1 }) hkey b
  have hrows := (Table.rows_of_insert hbs).2
  rw [heq]
  refine ⟨fun j r hr ↦ ?_, ?_⟩
  · rcases eq_or_ne j (hash key % kShardCount) with rfl | hne
    · dsimp only at hr
      rw [Function.update_self, hrows] at hr
      rcases List.mem_append.1 hr with hr | hr
      · exact h.home _ r hr
      · rw [List.mem_singleton.1 hr]
    · dsimp only at hr
      rw [Function.update_of_ne hne] at hr
      exact h.home j r hr
  · show s.bucket_count + 1 =
      ∑ i ∈ Finset.range kShardCount,
        ((Function.update s.shards (hash key % kShardCount) bs i).rows.length : ℤ)
    have hlen : bs.rows.length = (s.shards (hash key % kShardCount)).rows.length + 1 := by
      rw [hrows, List.length_append, List.length_singleton]
    rw [sum_update _ (Nat.mod_lt _ kShardCount_pos), h.count, hlen]
    omega

/-- **A call of a key with a bucket** takes a token from it. -/
theorem allow_found (hcap : 0 < capacity) (hwin : 0 < window_sec)
    (hb : (s.swept now_ms window_sec hash key).bucket hash key = some b) :
    s.allow now_ms window_sec hash key capacity =
      ((consume_ b capacity window_sec now_ms).1,
        (s.swept now_ms window_sec hash key).assign (hash key % kShardCount) key
          (consume_ b capacity window_sec now_ms).2) := by
  rw [Limiter.allow, if_neg (by omega)]
  dsimp only
  rw [hb]
  rfl

/-- What a call of a key without a bucket comes to: it gets one, or there is no room for it. -/
structure Made (hash : String → ℕ) (now_ms capacity : ℤ) (key : String) (s : Limiter)
    (x : Bool × Limiter) : Prop where
  bucket : x.2.bucket hash key = if x.1 then some (first capacity now_ms) else none
  others : ∀ key', key' ≠ key → x.2.bucket hash key' = s.bucket hash key'
  counted : Counted hash s → Counted hash x.2
  room : s.bucket_count < kMaxBuckets → x.1 = true

theorem made_create (hkey : s.bucket hash key = none) :
    Made hash now_ms capacity key s
      (Limiter.create { s with bucket_count := s.bucket_count + 1 } now_ms hash key capacity) where
  bucket := (bucket_emplace (s := { s with bucket_count := s.bucket_count + 1 }) hkey _).trans
    (if_pos rfl)
  others _ hne := (bucket_emplace (s := { s with bucket_count := s.bucket_count + 1 }) hkey
    _).trans (if_neg hne.symm)
  counted h := h.emplace hkey _
  room _ := rfl

/-- **A call of a key without a bucket.** -/
theorem allow_absent (hcap : 0 < capacity) (hwin : 0 < window_sec)
    (hkey : (s.swept now_ms window_sec hash key).bucket hash key = none) :
    ∃ s₁, Swept hash now_ms window_sec (s.swept now_ms window_sec hash key) s₁ ∧
      (Counted hash s → Counted hash s₁) ∧
      ((s.swept now_ms window_sec hash key).bucket_count < kMaxBuckets →
        s₁.bucket_count < kMaxBuckets) ∧
      Made hash now_ms capacity key s₁ (s.allow now_ms window_sec hash key capacity) := by
  have hshard : hash key % kShardCount < kShardCount := Nat.mod_lt _ kShardCount_pos
  have hallow : ¬(capacity ≤ 0 ∨ window_sec ≤ 0) := by omega
  rw [Limiter.allow, if_neg hallow]
  dsimp only
  rw [hkey]
  have hcounted : Counted hash s → Counted hash (s.swept now_ms window_sec hash key) :=
    fun h ↦ h.swept
  generalize s.swept now_ms window_sec hash key = s₀ at hkey hcounted ⊢
  dsimp only
  rcases reserve_bucket_cases s₀ with ⟨hroom, hres⟩ | ⟨hfull, hres⟩
  · rw [hres]
    exact ⟨s₀, .refl s₀, hcounted, id, made_create hkey⟩
  rw [hres]
  dsimp only
  -- The shard of the key is cleaned up.
  have hswept₁ : Swept hash now_ms window_sec s₀
      (s₀.cleanup_ now_ms window_sec (hash key % kShardCount)) := swept_cleanup_ s₀ _
  have hcounted₁ : Counted hash s → Counted hash
      (s₀.cleanup_ now_ms window_sec (hash key % kShardCount)) :=
    fun h ↦ (hcounted h).cleanup_ hshard
  generalize s₀.cleanup_ now_ms window_sec (hash key % kShardCount) = s₁ at hswept₁ hcounted₁ ⊢
  rcases reserve_bucket_cases s₁ with ⟨hroom, hres⟩ | ⟨hfull₁, hres⟩
  · rw [hres]
    exact ⟨s₁, hswept₁, hcounted₁, fun _ ↦ hroom, made_create (hswept₁.none hkey)⟩
  rw [hres]
  dsimp only
  -- Other shards are cleaned up.
  have hswept₂ := hswept₁.trans
    (swept_reclaim_idle_bounded_ s₁ (hash key % kShardCount))
  have hcounted₂ : Counted hash s → Counted hash
      (s₁.reclaim_idle_bounded_ now_ms window_sec (hash key % kShardCount)) :=
    fun h ↦ (hcounted₁ h).reclaim_idle_bounded_ _
  generalize s₁.reclaim_idle_bounded_ now_ms window_sec (hash key % kShardCount) = s₂
    at hswept₂ hcounted₂ ⊢
  have hkey₂ := hswept₂.none hkey
  rw [hkey₂]
  dsimp only
  refine ⟨s₂, hswept₂, hcounted₂, fun hroom ↦ absurd hroom (not_lt.2 hfull), ?_⟩
  rcases reserve_bucket_cases s₂ with ⟨hroom, hres⟩ | ⟨hfull₂, hres⟩
  · rw [hres]
    exact made_create hkey₂
  · rw [hres]
    exact ⟨hkey₂, fun _ _ ↦ rfl, id, fun hroom ↦ absurd hroom (not_lt.2 hfull₂)⟩

/-- **Another key** keeps its bucket, or loses one that was idle. -/
theorem allow_others (s : Limiter) (hne : key' ≠ key) :
    (s.allow now_ms window_sec hash key capacity).2.bucket hash key' = s.bucket hash key' ∨
      (s.allow now_ms window_sec hash key capacity).2.bucket hash key' = none ∧
        ∃ b, s.bucket hash key' = some b ∧ idle now_ms window_sec b = true := by
  by_cases hoff : capacity ≤ 0 ∨ window_sec ≤ 0
  · rw [Limiter.allow, if_pos hoff]
    exact .inl rfl
  have hcap : 0 < capacity := by omega
  have hwin : 0 < window_sec := by omega
  cases hb : (s.swept now_ms window_sec hash key).bucket hash key with
  | none =>
    obtain ⟨s₁, hswept, -, -, hmade⟩ := allow_absent hcap hwin hb
    rw [hmade.others key' hne]
    exact (swept_swept s).trans hswept key'
  | some b =>
    rw [allow_found hcap hwin hb, bucket_assign, if_neg hne.symm]
    exact swept_swept s key'

end Allow

end ChatNow.LocalRateLimiter
