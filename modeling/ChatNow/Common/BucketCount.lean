import ChatNow.Common.LocalRateLimiter
import ChatNow.Lib.Labelled
import ChatNow.Lib.Tracked
import Mathlib.Algebra.BigOperators.Ring.Finset

/-!
# The bucket counter

`LocalRateLimiter` under calls that overlap, step by step: a mutex is taken or given back, the
buckets of one shard are read or changed under its mutex, or one of the atomic counters is read or
changed. `allow` gives its mutex back in the middle, while `reclaim_idle_bounded_` takes those of
other shards; a weak exchange may fail for no reason, and `emplace` may throw.

`_bucket_count` goes up before a bucket is put in and down after buckets have been erased. So it
counts, beside the buckets, the reservations that calls hold (`Point.reserved`) and the buckets that
they have erased and not subtracted yet (`Point.erased`). What a step does to these is said once
(`Effect`), and from that it follows that the counter is exact in every run (`bucket_count_exact`).
-/

namespace ChatNow.LocalRateLimiter

/-! ### Where a call stands -/

/-- The three attempts of `allow` at a reservation. -/
inductive Attempt | first | second | third
  deriving DecidableEq

/-- What `cleanup_` is called for. -/
inductive Cleaning
  /-- Every 1024th call. -/
  | periodic
  /-- The first attempt has failed. -/
  | refused
  /-- A shard of `reclaim_idle_bounded_`. -/
  | reclaim (start : UInt64) (offset : ℕ)
  deriving DecidableEq

/-- Where a call of `allow` stands. -/
inductive Point
  /-- Before its lock. -/
  | entering
  /-- Before `_operations.fetch_add`. -/
  | counting
  /-- Before the loop of `cleanup_`. -/
  | cleaning (w : Cleaning)
  /-- Before `_bucket_count.fetch_sub` in `cleanup_`. -/
  | subtracting (w : Cleaning) (removed : ℕ)
  /-- Before `find`. -/
  | finding
  /-- Before the load of `reserve_bucket_`. -/
  | loading (n : Attempt)
  /-- Before `compare_exchange_weak`, with the count that is expected. -/
  | exchanging (n : Attempt) (count : UInt64)
  /-- Before `lock.unlock()`. -/
  | unlocking
  /-- Before `_reclaim_cursor.fetch_add`. -/
  | reclaiming
  /-- At the head of the loop of `reclaim_idle_bounded_`. -/
  | scanning (start : UInt64) (offset : ℕ)
  /-- Before the load of `reclaim_idle_bounded_`. -/
  | checking (start : UInt64) (offset : ℕ)
  /-- Before the candidate's mutex is given back. -/
  | releasing (start : UInt64) (offset : ℕ) (room : Bool)
  /-- Before `lock.lock()`. -/
  | relocking
  /-- Before the second `find`. -/
  | finding_again
  /-- Before `emplace`, with a reservation. -/
  | emplacing
  /-- Before `_bucket_count.fetch_sub` in the handler of `emplace`. -/
  | undoing
  /-- Before the mutex is given back at the end; `none` when an exception leaves. -/
  | leaving (r : Option Bool)
  | done (r : Option Bool)
  deriving DecidableEq

/-- The shard that `reclaim_idle_bounded_` looks at. -/
def candidate (start : UInt64) (offset : ℕ) : ℕ := (start + UInt64.ofNat offset).toNat % kShardCount

namespace Cleaning

/-- The shard that is cleaned, for a call with the given shard of its own. -/
def shard (home : ℕ) : Cleaning → ℕ
  | periodic | refused => home
  | reclaim start offset => candidate start offset

/-- Where the call goes on. -/
def next : Cleaning → Point
  | periodic => .finding
  | refused => .loading .second
  | reclaim start offset => .checking start offset

end Cleaning

/-- Where the call goes on when `reserve_bucket_` has failed. -/
def Attempt.refused : Attempt → Point
  | first => .cleaning .refused
  | second => .unlocking
  | third => .leaving (some false)

/-! ### The members -/

/-- The members of `LocalRateLimiter`, and who holds the mutexes of the shards. -/
structure Shared where
  shards : ℕ → Buckets := fun _ ↦ .empty
  holder : ℕ → Option ℕ := fun _ ↦ none
  bucket_count : UInt64 := 0
  operations : UInt64 := 0
  reclaim_cursor : UInt64 := 0

/-- What the environment decides at a step. -/
structure Choice where
  /-- The weak exchange fails all the same. -/
  spurious : Bool := false
  /-- `emplace` throws. -/
  throws : Bool := false

namespace Shared

variable (s : Shared)

/-- The mutex of a shard is taken by call `i`, if it is free. -/
def lock (i k : ℕ) : Option Shared :=
  if s.holder k = none then some { s with holder := Function.update s.holder k (some i) } else none

/-- It is given back. -/
def unlock (k : ℕ) : Shared := { s with holder := Function.update s.holder k none }

/-- The buckets of a shard are changed. -/
def setShard (k : ℕ) (bs : Buckets) : Shared := { s with shards := Function.update s.shards k bs }

/-- There is room for another bucket. -/
def room : Bool := (s.bucket_count.toNat : ℤ) < kMaxBuckets

/-- A bucket is looked for, and a token taken from it. -/
def find (home : ℕ) (c : Call) (missing : Point) : Point × Shared :=
  match (s.shards home).find c.key with
  | some r =>
    let (ok, b) := consume_ r.2 c.capacity c.window_sec c.now_ms
    (.leaving (some ok), s.setShard home ((s.shards home).write (c.key, b)))
  | none => (missing, s)

/-- The next step of call `i`, whose key belongs to shard `home`; `none` when it has to wait, or is
done. -/
def step (home i : ℕ) (c : Call) (ch : Choice) : Point → Option (Point × Shared)
  | .entering =>
    if c.capacity ≤ 0 ∨ c.window_sec ≤ 0 then some (.done (some true), s)
    else (s.lock i home).map (.counting, ·)
  | .counting =>
    let operation := s.operations + 1
    some (if operation % 1024 = 0 then .cleaning .periodic else .finding,
      { s with operations := operation })
  | .cleaning w =>
    let bs := s.shards (w.shard home)
    let kept := bs.filter fun r ↦ !idle c.now_ms c.window_sec r.2
    let removed := bs.rows.length - kept.rows.length
    some (if removed = 0 then w.next else .subtracting w removed, s.setShard (w.shard home) kept)
  | .subtracting w removed =>
    some (w.next, { s with bucket_count := s.bucket_count - UInt64.ofNat removed })
  | .finding => some (s.find home c (.loading .first))
  | .loading n => some (if s.room then .exchanging n s.bucket_count else n.refused, s)
  | .exchanging n count =>
    if s.bucket_count = count ∧ ch.spurious = false then
      some (.emplacing, { s with bucket_count := s.bucket_count + 1 })
    else some (if s.room then .exchanging n s.bucket_count else n.refused, s)
  | .unlocking => some (.reclaiming, s.unlock home)
  | .reclaiming =>
    some (.scanning s.reclaim_cursor 0,
      { s with reclaim_cursor := s.reclaim_cursor + UInt64.ofNat kReclaimScan })
  | .scanning start offset =>
    if offset < kReclaimScan then
      if candidate start offset = home then some (.scanning start (offset + 1), s)
      else (s.lock i (candidate start offset)).map (.cleaning (.reclaim start offset), ·)
    else some (.relocking, s)
  | .checking start offset => some (.releasing start offset s.room, s)
  | .releasing start offset room =>
    some (if room then .relocking else .scanning start (offset + 1),
      s.unlock (candidate start offset))
  | .relocking => (s.lock i home).map (.finding_again, ·)
  | .finding_again => some (s.find home c (.loading .third))
  | .emplacing =>
    if ch.throws then some (.undoing, s)
    else
      let bs := s.shards home
      some (.leaving (some true),
        s.setShard home ((bs.insert (c.key, first c.capacity c.now_ms)).getD bs))
  | .undoing => some (.leaving none, { s with bucket_count := s.bucket_count - 1 })
  | .leaving r => some (.done r, s.unlock home)
  | .done _ => none

end Shared

/-! ### Calls that overlap -/

/-- A call, and where it stands. -/
structure Calling where
  call : Call
  point : Point := .entering
  deriving DecidableEq

/-- The calls that have been made, and the limiter. -/
structure World where
  calls : List Calling := []
  shared : Shared := {}

/-- What happens next. -/
inductive Act
  /-- A call is made. -/
  | call (c : Call)
  /-- The call at a position makes its next step. -/
  | step (i : ℕ) (ch : Choice := {})

/-- The limiter under the calls of any threads. -/
def overlapping (hash : String → ℕ) : Labelled World Act where
  step a w :=
    match a with
    | .call c => some { w with calls := w.calls ++ [{ call := c }] }
    | .step i ch =>
      (w.calls[i]?).bind fun t ↦
        (w.shared.step (hash t.call.key % kShardCount) i t.call ch t.point).map fun x ↦
          ⟨w.calls.set i { t with point := x.1 }, x.2⟩

/-! ### What is counted -/

/-- The reservation of a call, until it is a bucket. -/
def Point.reserved : Point → ℕ
  | emplacing | undoing => 1
  | _ => 0

/-- The buckets that a call has erased, until they are subtracted. -/
def Point.erased : Point → ℕ
  | subtracting _ removed => removed
  | _ => 0

/-- The buckets of all shards. -/
def Shared.buckets (s : Shared) : ℕ := ∑ k ∈ Finset.range kShardCount, (s.shards k).rows.length

/-- The reservations that the calls hold. -/
def World.reserved (w : World) : ℕ := Pool.total (·.point.reserved) w.calls

/-- The buckets that the calls have erased and not subtracted. -/
def World.erased (w : World) : ℕ := Pool.total (·.point.erased) w.calls

/-- What a call adds to the counter beside the buckets. -/
def Point.share (p : Point) : ℕ := p.reserved + p.erased

/-! ### What a step does -/

/-- The shard whose mutex the call holds. -/
def Point.locked (home : ℕ) : Point → Option ℕ
  | entering | reclaiming | scanning _ _ | relocking | done _ => none
  | cleaning w | subtracting w _ => some (w.shard home)
  | checking start offset | releasing start offset _ => some (candidate start offset)
  | counting | finding | loading _ | exchanging _ _ | unlocking | finding_again | emplacing
  | undoing | leaving _ => some home

/-- The call has found no bucket of its key since it has the mutex. -/
def Point.missing : Point → Bool
  | cleaning .refused | subtracting .refused _ | loading _ | exchanging _ _ | emplacing => true
  | _ => false

/-- What is known of a call where it stands. -/
structure Standing (home i : ℕ) (key : String) (p : Point) (s : Shared) : Prop where
  holds : ∀ k, p.locked home = some k → s.holder k = some i
  missing : p.missing = true → (s.shards home).find key = none
  expects : ∀ n count, p = .exchanging n count → (count.toNat : ℤ) < kMaxBuckets

/-- What a step of call `i` does to the limiter. -/
structure Effect (home i : ℕ) (key : String) (p : Point) (s : Shared) (p' : Point) (s' : Shared) :
    Prop where
  balance : s'.bucket_count.toNat + s.buckets + p.share =
    s.bucket_count.toNat + s'.buckets + p'.share
  bound : (s'.bucket_count.toNat : ℤ) ≤ kMaxBuckets
  others : ∀ j k, j ≠ i → s.holder k = some j → s'.holder k = some j
  frame : ∀ k, p.locked home ≠ some k → s'.shards k = s.shards k
  standing : Standing home i key p' s'

section Effects

variable {home i : ℕ} {c : Call} {ch : Choice} {p p' : Point} {s s' : Shared} {bs : Buckets}

/-- The buckets, when a shard changes. -/
theorem buckets_setShard (s : Shared) {k : ℕ} (hk : k < kShardCount) (bs : Buckets) :
    (s.setShard k bs).buckets + (s.shards k).rows.length = s.buckets + bs.rows.length := by
  have hsum := sum_update s.shards hk bs
  rw [← Nat.cast_sum, ← Nat.cast_sum] at hsum
  show (∑ j ∈ Finset.range kShardCount, (Function.update s.shards k bs j).rows.length) + _ =
    (∑ j ∈ Finset.range kShardCount, (s.shards j).rows.length) + _
  omega

/-- Where a call stands that has not found its key missing. -/
theorem Standing.of_not_missing (hholds : ∀ k, p'.locked home = some k → s'.holder k = some i)
    (hm : p'.missing = false) : Standing home i c.key p' s' := by
  refine ⟨hholds, fun htrue ↦ ?_, fun n count hp ↦ ?_⟩
  · rw [hm] at htrue
    cases htrue
  · rw [hp] at hm
    cases hm

/-- A call that goes on under its mutex. -/
theorem Standing.move (h : Standing home i c.key p s) (hlocked : p'.locked home = p.locked home)
    (hm : p'.missing = true → (s.shards home).find c.key = none)
    (hexpects : ∀ n count, p' = .exchanging n count → (count.toNat : ℤ) < kMaxBuckets) :
    Standing home i c.key p' s :=
  ⟨fun k hk ↦ h.holds k (hlocked ▸ hk), hm, hexpects⟩

/-- Only the call moves, and the other counters. -/
theorem Effect.stay (hb : (s.bucket_count.toNat : ℤ) ≤ kMaxBuckets)
    (hs : { s' with operations := s.operations, reclaim_cursor := s.reclaim_cursor } = s)
    (hshare : p'.share = p.share) (hstanding : Standing home i c.key p' s) :
    Effect home i c.key p s p' s' := by
  have hshards : s'.shards = s.shards := by rw [← hs]
  have hholder : s'.holder = s.holder := by rw [← hs]
  have hcount : s'.bucket_count = s.bucket_count := by rw [← hs]
  refine ⟨?_, ?_, fun j k _ hj ↦ ?_, fun k _ ↦ ?_, ⟨fun k hk ↦ ?_, fun hm ↦ ?_,
    hstanding.expects⟩⟩
  · rw [Shared.buckets, Shared.buckets, hshards, hcount, hshare]
  · rwa [hcount]
  · rwa [hholder]
  · rw [hshards]
  · rw [hholder]
    exact hstanding.holds k hk
  · rw [hshards]
    exact hstanding.missing hm

/-- A mutex is taken. -/
theorem Effect.lock {k : ℕ} (hb : (s.bucket_count.toNat : ℤ) ≤ kMaxBuckets)
    (hlock : s.lock i k = some s') (hshare : p'.share = p.share)
    (hlocked : p'.locked home = some k) (hm : p'.missing = false) :
    Effect home i c.key p s p' s' := by
  rw [Shared.lock] at hlock
  split at hlock
  · next hfree =>
    obtain rfl := Option.some.inj hlock
    refine ⟨by rw [hshare]; rfl, hb, fun j k' _ hj ↦ ?_, fun _ _ ↦ rfl,
      .of_not_missing (fun k' hk' ↦ ?_) hm⟩
    · have hne : k' ≠ k := by
        rintro rfl
        rw [hfree] at hj
        cases hj
      exact (Function.update_of_ne hne _ _).trans hj
    · obtain rfl := Option.some.inj (hlocked.symm.trans hk')
      exact Function.update_self ..
  · cases hlock

/-- A mutex is given back. -/
theorem Effect.unlock {k : ℕ} (hb : (s.bucket_count.toNat : ℤ) ≤ kMaxBuckets)
    (h : Standing home i c.key p s) (hk : p.locked home = some k) (hshare : p'.share = p.share)
    (hlocked : p'.locked home = none) (hm : p'.missing = false) :
    Effect home i c.key p s p' (s.unlock k) := by
  refine ⟨by rw [hshare]; rfl, hb, fun j k' hji hj ↦ ?_, fun _ _ ↦ rfl,
    .of_not_missing (fun k' hk' ↦ ?_) hm⟩
  · have hne : k' ≠ k := by
      rintro rfl
      exact hji (Option.some.inj (hj.symm.trans (h.holds k' hk)))
    exact (Function.update_of_ne hne _ _).trans hj
  · rw [hlocked] at hk'
    cases hk'

/-- The buckets of a shard are changed under its mutex. -/
theorem Effect.shard {k : ℕ} (hb : (s.bucket_count.toNat : ℤ) ≤ kMaxBuckets)
    (hhome : k < kShardCount) (hk : p.locked home = some k)
    (hshare : (s.shards k).rows.length + p.share = bs.rows.length + p'.share)
    (hstanding : Standing home i c.key p' (s.setShard k bs)) :
    Effect home i c.key p s p' (s.setShard k bs) := by
  refine ⟨?_, hb, fun _ _ _ hj ↦ hj, fun k' hk' ↦ ?_, hstanding⟩
  · have hbuckets := buckets_setShard s hhome bs
    show s.bucket_count.toNat + _ + _ = _
    omega
  · exact Function.update_of_ne (fun heq ↦ hk' (by rw [heq, hk])) _ _

/-- The counter is changed. -/
theorem Effect.count {n : UInt64} (hn : n.toNat + p.share = s.bucket_count.toNat + p'.share)
    (hb : (n.toNat : ℤ) ≤ kMaxBuckets) (hstanding : Standing home i c.key p' s) :
    Effect home i c.key p s p' { s with bucket_count := n } := by
  refine ⟨?_, hb, fun _ _ _ hj ↦ hj, fun _ _ ↦ rfl,
    ⟨hstanding.holds, hstanding.missing, hstanding.expects⟩⟩
  show n.toNat + s.buckets + p.share = s.bucket_count.toNat + s.buckets + p'.share
  omega

/-! ### The steps -/

theorem toNat_sub_ofNat {a : UInt64} {n : ℕ} (h : n ≤ a.toNat) :
    (a - UInt64.ofNat n).toNat = a.toNat - n := by
  have hn : (UInt64.ofNat n).toNat = n := UInt64.toNat_ofNat_of_lt (h.trans_lt a.toNat_lt)
  rw [UInt64.toNat_sub_of_le _ _ (UInt64.le_iff_toNat_le.2 (hn.symm ▸ h)), hn]

theorem toNat_add_one {a : UInt64} (h : (a.toNat : ℤ) < kMaxBuckets) :
    (a + 1).toNat = a.toNat + 1 := by
  rw [kMaxBuckets] at h
  rw [UInt64.toNat_add]
  exact Nat.mod_eq_of_lt (by show a.toNat + 1 < _; omega)

theorem candidate_lt (start : UInt64) (offset : ℕ) : candidate start offset < kShardCount :=
  Nat.mod_lt _ kShardCount_pos

theorem Cleaning.shard_lt (hhome : home < kShardCount) (w : Cleaning) :
    w.shard home < kShardCount := by
  cases w with
  | periodic => exact hhome
  | refused => exact hhome
  | reclaim start offset => exact candidate_lt start offset

/-- `reserve_bucket_` has seen the count: it tries to exchange it, or has failed. -/
theorem Effect.seen (hb : (s.bucket_count.toNat : ℤ) ≤ kMaxBuckets)
    (h : Standing home i c.key p s) (hlocked : p.locked home = some home)
    (hmissing : p.missing = true) (hshare : p.share = 0) (n : Attempt) :
    Effect home i c.key p s (if s.room then .exchanging n s.bucket_count else n.refused) s := by
  have hfind := h.missing hmissing
  have hholds : ∀ k, some home = some k → s.holder k = some i :=
    fun k hk ↦ h.holds k (hlocked.trans hk)
  split
  · next hroom =>
    refine .stay hb rfl hshare.symm ⟨hholds, fun _ ↦ hfind, fun m count hp ↦ ?_⟩
    obtain ⟨-, rfl⟩ := Point.exchanging.inj hp
    exact of_decide_eq_true hroom
  · cases n with
    | first =>
      exact .stay hb rfl hshare.symm ⟨hholds, fun _ ↦ hfind, fun m count hp ↦ by cases hp⟩
    | second => exact .stay hb rfl hshare.symm (.of_not_missing hholds rfl)
    | third => exact .stay hb rfl hshare.symm (.of_not_missing hholds rfl)

/-- `find`, and the token from the bucket. -/
theorem Effect.find (hb : (s.bucket_count.toNat : ℤ) ≤ kMaxBuckets)
    (h : Standing home i c.key p s) (hhome : home < kShardCount)
    (hlocked : p.locked home = some home) (hshare : p.share = 0) (n : Attempt) :
    Effect home i c.key p s (s.find home c (.loading n)).1 (s.find home c (.loading n)).2 := by
  have hholds : ∀ k, some home = some k → s.holder k = some i :=
    fun k hk ↦ h.holds k (hlocked.trans hk)
  rw [Shared.find]
  cases hfind : (s.shards home).find c.key with
  | none =>
    exact .stay hb rfl hshare.symm ⟨hholds, fun _ ↦ hfind, fun m count hp ↦ by cases hp⟩
  | some r =>
    refine .shard hb hhome hlocked ?_ (.of_not_missing hholds rfl)
    rw [hshare]
    exact congrArg (· + 0) (List.length_map _).symm

theorem Cleaning.share_next (w : Cleaning) : w.next.share = 0 := by
  cases w <;> rfl

/-- The call goes on after `cleanup_`. -/
theorem Standing.next {w : Cleaning} {n : ℕ} (h : Standing home i c.key (.subtracting w n) s) :
    Standing home i c.key w.next s := by
  cases w with
  | periodic => exact .of_not_missing h.holds rfl
  | refused => exact h.move rfl (fun _ ↦ h.missing rfl) fun m count hp ↦ by cases hp
  | reclaim start offset => exact .of_not_missing h.holds rfl

/-- **`cleanup_` erases** what it is about to subtract. -/
theorem Effect.cleaning (hb : (s.bucket_count.toNat : ℤ) ≤ kMaxBuckets)
    (hhome : home < kShardCount) (w : Cleaning) (h : Standing home i c.key (.cleaning w) s)
    (hx : s.step home i c ch (.cleaning w) = some (p', s')) :
    Effect home i c.key (.cleaning w) s p' s' := by
  obtain ⟨rfl, rfl⟩ := Prod.mk.inj (Option.some.inj hx)
  set kept := (s.shards (w.shard home)).filter fun r ↦ !idle c.now_ms c.window_sec r.2 with hkept
  have hle : kept.rows.length ≤ (s.shards (w.shard home)).rows.length :=
    List.length_filter_le _ _
  have hstanding (n : ℕ) :
      Standing home i c.key (.subtracting w n) (s.setShard (w.shard home) kept) := by
    refine ⟨h.holds, fun hm ↦ ?_, fun m count hp ↦ by cases hp⟩
    cases w with
    | periodic => cases hm
    | refused =>
      -- the key has been missing, and nothing is put in
      rw [Shared.setShard, hkept]
      dsimp only [Cleaning.shard]
      rw [Function.update_self, Table.find_filter, h.missing rfl]
      rfl
    | reclaim start offset => cases hm
  split
  · next hzero =>
    refine .shard hb (w.shard_lt hhome) rfl ?_ (hstanding 0).next
    rw [Cleaning.share_next]
    show _ + 0 = _
    omega
  · refine .shard hb (w.shard_lt hhome) rfl ?_ (hstanding _)
    show _ + 0 = kept.rows.length +
      (0 + ((s.shards (w.shard home)).rows.length - kept.rows.length))
    omega

/-- **What a step does**, wherever the call stands. -/
theorem Effect.of_step (hb : (s.bucket_count.toNat : ℤ) ≤ kMaxBuckets) (hhome : home < kShardCount)
    (h : Standing home i c.key p s) (hcount : p.share ≤ s.bucket_count.toNat)
    (hx : s.step home i c ch p = some (p', s')) : Effect home i c.key p s p' s' := by
  cases p with
  | entering =>
    rw [Shared.step] at hx
    split at hx
    · obtain ⟨rfl, rfl⟩ := Prod.mk.inj (Option.some.inj hx)
      exact .stay hb rfl rfl (.of_not_missing h.holds rfl)
    · obtain ⟨s₁, hlock, heq⟩ := Option.map_eq_some_iff.1 hx
      obtain ⟨rfl, rfl⟩ := Prod.mk.inj heq
      exact .lock hb hlock rfl rfl rfl
  | counting =>
    obtain ⟨rfl, rfl⟩ := Prod.mk.inj (Option.some.inj hx)
    split
    · exact .stay hb rfl rfl (.of_not_missing h.holds rfl)
    · exact .stay hb rfl rfl (.of_not_missing h.holds rfl)
  | cleaning w => exact .cleaning hb hhome w h hx
  | subtracting w removed =>
    obtain ⟨rfl, rfl⟩ := Prod.mk.inj (Option.some.inj hx)
    have hle : removed ≤ s.bucket_count.toNat := by
      have hshare : (Point.subtracting w removed).share = 0 + removed := rfl
      omega
    have hsub := toNat_sub_ofNat hle
    refine .count ?_ (by omega) h.next
    rw [hsub, w.share_next]
    show _ + (0 + removed) = _
    omega
  | finding =>
    obtain ⟨rfl, rfl⟩ := Prod.mk.inj (Option.some.inj hx)
    exact .find hb h hhome rfl rfl .first
  | loading n =>
    obtain ⟨rfl, rfl⟩ := Prod.mk.inj (Option.some.inj hx)
    exact .seen hb h rfl rfl rfl n
  | exchanging n count =>
    rw [Shared.step] at hx
    split at hx
    · next hok =>
      obtain ⟨rfl, rfl⟩ := Prod.mk.inj (Option.some.inj hx)
      -- the count is the one that has been compared with the limit
      have hlt : (s.bucket_count.toNat : ℤ) < kMaxBuckets := by
        rw [hok.1]
        exact h.expects n count rfl
      have hadd := toNat_add_one hlt
      refine .count ?_ (by omega) (h.move rfl (fun _ ↦ h.missing rfl) fun _ _ hp ↦ by cases hp)
      rw [hadd]
      rfl
    · obtain ⟨rfl, rfl⟩ := Prod.mk.inj (Option.some.inj hx)
      exact .seen hb h rfl rfl rfl n
  | unlocking =>
    obtain ⟨rfl, rfl⟩ := Prod.mk.inj (Option.some.inj hx)
    exact .unlock hb h rfl rfl rfl rfl
  | reclaiming =>
    obtain ⟨rfl, rfl⟩ := Prod.mk.inj (Option.some.inj hx)
    exact .stay hb rfl rfl (.of_not_missing h.holds rfl)
  | scanning start offset =>
    rw [Shared.step] at hx
    split at hx
    · split at hx
      · obtain ⟨rfl, rfl⟩ := Prod.mk.inj (Option.some.inj hx)
        exact .stay hb rfl rfl (.of_not_missing h.holds rfl)
      · obtain ⟨s₁, hlock, heq⟩ := Option.map_eq_some_iff.1 hx
        obtain ⟨rfl, rfl⟩ := Prod.mk.inj heq
        exact .lock hb hlock rfl rfl rfl
    · obtain ⟨rfl, rfl⟩ := Prod.mk.inj (Option.some.inj hx)
      exact .stay hb rfl rfl (.of_not_missing h.holds rfl)
  | checking start offset =>
    obtain ⟨rfl, rfl⟩ := Prod.mk.inj (Option.some.inj hx)
    exact .stay hb rfl rfl (.of_not_missing h.holds rfl)
  | releasing start offset room =>
    obtain ⟨rfl, rfl⟩ := Prod.mk.inj (Option.some.inj hx)
    cases room with
    | true => exact .unlock hb h rfl rfl rfl rfl
    | false => exact .unlock hb h rfl rfl rfl rfl
  | relocking =>
    obtain ⟨s₁, hlock, heq⟩ := Option.map_eq_some_iff.1 hx
    obtain ⟨rfl, rfl⟩ := Prod.mk.inj heq
    exact .lock hb hlock rfl rfl rfl
  | finding_again =>
    obtain ⟨rfl, rfl⟩ := Prod.mk.inj (Option.some.inj hx)
    exact .find hb h hhome rfl rfl .third
  | emplacing =>
    rw [Shared.step] at hx
    split at hx
    · obtain ⟨rfl, rfl⟩ := Prod.mk.inj (Option.some.inj hx)
      exact .stay hb rfl rfl (.of_not_missing h.holds rfl)
    · obtain ⟨rfl, rfl⟩ := Prod.mk.inj (Option.some.inj hx)
      obtain ⟨bs, hbs⟩ := Option.isSome_iff_exists.1
        (Table.insert_isSome (r := (c.key, first c.capacity c.now_ms)).2 (h.missing rfl))
      refine .shard hb hhome rfl ?_ (.of_not_missing h.holds rfl)
      rw [hbs, Option.getD_some, (Table.rows_of_insert hbs).2, List.length_append]
      rfl
  | undoing =>
    obtain ⟨rfl, rfl⟩ := Prod.mk.inj (Option.some.inj hx)
    have hle : 1 ≤ s.bucket_count.toNat := hcount
    have hsub : (s.bucket_count - 1).toNat = s.bucket_count.toNat - 1 := toNat_sub_ofNat hle
    refine .count ?_ (by omega) (.of_not_missing h.holds rfl)
    rw [hsub]
    show _ + 1 = _ + 0
    omega
  | leaving r =>
    obtain ⟨rfl, rfl⟩ := Prod.mk.inj (Option.some.inj hx)
    exact .unlock hb h rfl rfl rfl rfl
  | done r => cases hx

end Effects

/-! ### Every run -/

/-- The shard of the key of a call. -/
abbrev Calling.home (hash : String → ℕ) (t : Calling) : ℕ := hash t.call.key % kShardCount

/-- The counter is exact, and every call stands where it may. -/
structure Counting (hash : String → ℕ) (w : World) : Prop where
  count : w.shared.bucket_count.toNat = w.shared.buckets + w.reserved + w.erased
  bound : (w.shared.bucket_count.toNat : ℤ) ≤ kMaxBuckets
  standing : ∀ i t, w.calls[i]? = some t →
    Standing (t.home hash) i t.call.key t.point w.shared

section Runs

variable {hash : String → ℕ} {w w' : World} {i j : ℕ} {t u : Calling} {p : Point} {s : Shared}

/-- A call that has found its key missing holds the mutex of its shard. -/
theorem locked_of_missing {home : ℕ} (h : p.missing = true) : p.locked home = some home := by
  unfold Point.missing at h
  split at h
  · rfl
  · rfl
  · rfl
  · rfl
  · rfl
  · cases h

/-- **What another call knows** is not changed. -/
theorem Standing.of_effect {home home' : ℕ} {c c' : Call} {q p' : Point} {s' : Shared}
    (he : Effect home i c.key p s p' s') (hown : Standing home i c.key p s)
    (h : Standing home' j c'.key q s) (hne : j ≠ i) : Standing home' j c'.key q s' := by
  refine ⟨fun k hk ↦ he.others j k hne (h.holds k hk), fun hm ↦ ?_, h.expects⟩
  have hj := h.holds home' (locked_of_missing hm)
  have hframe : p.locked home ≠ some home' := by
    intro hlocked
    exact hne (Option.some.inj (hj.symm.trans (hown.holds home' hlocked)))
  rw [he.frame home' hframe]
  exact h.missing hm

/-- What a call has is no more than what all have. -/
theorem share_le (hi : w.calls[i]? = some t) : t.point.share ≤ w.reserved + w.erased := by
  have hreserved : _ + t.point.reserved = w.reserved + 0 :=
    Pool.total_set (f := (·.point.reserved)) (u := { t with point := .entering }) hi
  have herased : _ + t.point.erased = w.erased + 0 :=
    Pool.total_set (f := (·.point.erased)) (u := { t with point := .entering }) hi
  rw [Point.share]
  omega

theorem Counting.init : Counting hash {} := by
  refine ⟨?_, by decide, fun i t hi ↦ ?_⟩
  · show 0 = (∑ k ∈ Finset.range kShardCount, 0) + 0 + 0
    rw [Finset.sum_const_zero]
    rfl
  · cases hi

/-- A call is made. -/
theorem Counting.call (h : Counting hash w) (c : Call) :
    Counting hash { w with calls := w.calls ++ [{ call := c }] } := by
  refine ⟨?_, h.bound, fun i t hi ↦ ?_⟩
  · have hreserved : Pool.total (·.point.reserved) (w.calls ++ [{ call := c }]) = w.reserved :=
      Pool.total_append rfl
    have herased : Pool.total (·.point.erased) (w.calls ++ [{ call := c }]) = w.erased :=
      Pool.total_append rfl
    rw [World.reserved, World.erased, hreserved, herased]
    exact h.count
  · rcases Pool.getElem?_append_cases hi with ⟨-, rfl⟩ | ⟨-, hi⟩
    · exact .of_not_missing (fun k hk ↦ by cases hk) rfl
    · exact h.standing i t hi

/-- A call makes a step. -/
theorem Counting.step (h : Counting hash w) (hi : w.calls[i]? = some t) {ch : Choice}
    (hx : w.shared.step (t.home hash) i t.call ch t.point = some (p, s)) :
    Counting hash ⟨w.calls.set i { t with point := p }, s⟩ := by
  have hown := h.standing i t hi
  have hle := share_le hi
  have he := Effect.of_step h.bound (Nat.mod_lt _ kShardCount_pos) hown
    (by rw [h.count]; omega) hx
  have hreserved := Pool.total_set (f := (·.point.reserved)) (u := { t with point := p }) hi
  have herased := Pool.total_set (f := (·.point.erased)) (u := { t with point := p }) hi
  refine ⟨?_, he.bound, fun j u hj ↦ ?_⟩
  · have hbalance := he.balance
    have hcount := h.count
    rw [World.reserved, World.erased] at hcount ⊢
    rw [Point.share, Point.share] at hbalance
    dsimp only at hreserved herased ⊢
    omega
  · rcases Pool.getElem?_set_cases hj with ⟨rfl, rfl⟩ | ⟨hne, hj⟩
    · exact he.standing
    · exact .of_effect he hown (h.standing j u hj) hne

theorem counting_of_reach {G : Act → World → Prop} (hr : (overlapping hash).Reach G {} w) :
    Counting hash w := by
  refine Labelled.invariant hr .init fun {w a w'} h _ hx ↦ ?_
  cases a with
  | call c =>
    obtain rfl := Option.some.inj hx
    exact h.call c
  | step i ch =>
    obtain ⟨t, hi, hx⟩ := Option.bind_eq_some_iff.1 hx
    obtain ⟨⟨p, s⟩, hstep, rfl⟩ := Option.map_eq_some_iff.1 hx
    exact h.step hi hstep

end Runs

/-- The counter counts the buckets, the reservations, and the buckets that have been erased and not
subtracted yet; it is within the limit, and nothing that is subtracted is more than it has. -/
structure Exact (w : World) : Prop where
  count : w.shared.bucket_count.toNat = w.shared.buckets + w.reserved + w.erased
  bound : (w.shared.bucket_count.toNat : ℤ) ≤ kMaxBuckets
  subtracting : ∀ t ∈ w.calls, ∀ v removed, t.point = .subtracting v removed →
    removed ≤ w.shared.bucket_count.toNat
  undoing : ∀ t ∈ w.calls, t.point = .undoing → 1 ≤ w.shared.bucket_count.toNat

/-- **The bucket counter is exact** in every state of every run. -/
theorem bucket_count_exact (hash : String → ℕ) (w : World)
    (hr : (overlapping hash).Reach (fun _ _ ↦ True) {} w) : Exact w := by
  have h := counting_of_reach hr
  have hshare : ∀ t ∈ w.calls, t.point.share ≤ w.shared.bucket_count.toNat := by
    intro t ht
    obtain ⟨i, hi⟩ := List.getElem?_of_mem ht
    have hle := share_le hi
    rw [h.count]
    omega
  refine ⟨h.count, h.bound, fun t ht v removed hp ↦ ?_, fun t ht hp ↦ ?_⟩
  · have hle := hshare t ht
    rw [hp] at hle
    exact (Nat.le_add_left _ _).trans hle
  · have hle := hshare t ht
    rw [hp] at hle
    exact hle

/-- One call has put its bucket in, another one has reserved its own. -/
theorem exact_reserved :
    ∃ w, (overlapping String.length).Reach (fun _ _ ↦ True) {} w ∧
      w.shared.buckets = 1 ∧ w.reserved = 1 ∧ Exact w := by
  obtain ⟨w, hw, hbuckets, hreserved⟩ := Labelled.exists_of_run (overlapping String.length)
    (fun _ _ ↦ True) {} ([.call ⟨"a", 5, 1, 0⟩, .call ⟨"bb", 5, 1, 0⟩] ++
      List.replicate 5 (.step 0) ++ List.replicate 5 (.step 1) ++ [.step 0, .step 0])
    (fun w ↦ w.shared.buckets = 1 ∧ w.reserved = 1) (by decide +kernel)
  exact ⟨w, hw, hbuckets, hreserved, bucket_count_exact _ w hw⟩

/-! ### Between erasing and subtracting -/

section Erased

/-- A call of a user whose bucket has one token. -/
def callA (now_ms : ℤ) : Call := ⟨"a", 1, 1, now_ms⟩

/-- The bucket, when the token has been taken at once. -/
def taken : Buckets := ⟨[("a", ⟨0, 0, 0⟩)], by decide⟩

/-- The limiter after some calls. -/
def worn (operations : UInt64) : Shared :=
  { shards := Function.update (fun _ ↦ .empty) 0 taken, bucket_count := 1, operations }

variable {hash : String → ℕ} {calls : List Calling} {s s' : Shared} {c : Call} {ch : Choice}
  {p p' : Point}

/-- The last call makes a step. -/
theorem step_last (hx : s.step (hash c.key % kShardCount) calls.length c ch p = some (p', s')) :
    (overlapping hash).step (.step calls.length ch) ⟨calls ++ [⟨c, p⟩], s⟩ =
      some ⟨calls ++ [⟨c, p'⟩], s'⟩ := by
  simp only [overlapping, List.getElem?_concat_length, Option.bind_some, hx, Option.map_some]
  rw [List.set_append_right _ _ (Nat.le_refl _), Nat.sub_self]
  rfl

/-- Any steps. -/
abbrev anything : Act → World → Prop := fun _ _ ↦ True

theorem reach_call (calls : List Calling) (s : Shared) (c : Call) :
    (overlapping hash).Reach anything ⟨calls, s⟩ ⟨calls ++ [⟨c, .entering⟩], s⟩ :=
  .single ⟨.call c, trivial, rfl⟩

theorem reach_last {w : World} (hr : (overlapping hash).Reach anything w ⟨calls ++ [⟨c, p⟩], s⟩)
    (hx : s.step (hash c.key % kShardCount) calls.length c ch p = some (p', s')) :
    (overlapping hash).Reach anything w ⟨calls ++ [⟨c, p'⟩], s'⟩ :=
  .tail hr ⟨.step calls.length ch, trivial, step_last hx⟩

theorem consume_taken : consume_ ⟨0, 0, 0⟩ 1 1 0 = (false, ⟨0, 0, 0⟩) := by
  decide +kernel

theorem first_taken : first 1 0 = ⟨0, 0, 0⟩ := by
  decide +kernel

/-- The limiter while a call has the mutex. -/
def wornBy (i : ℕ) (operations : UInt64) : Shared :=
  { worn operations with holder := Function.update (fun _ ↦ none) 0 (some i) }

theorem unlock_wornBy (i : ℕ) (n : UInt64) : (wornBy i n).unlock 0 = worn n := by
  rw [Shared.unlock, wornBy, Function.update_idem, Function.update_eq_self]
  rfl

/-- The call finds the bucket, and no token in it. -/
theorem find_wornBy (i : ℕ) (n : UInt64) (missing : Point) :
    (wornBy i n).find 0 (callA 0) missing = (.leaving (some false), wornBy i n) := by
  have hfind : Table.find ((wornBy i n).shards 0) "a" = some ("a", ⟨0, 0, 0⟩) := rfl
  have hwrite : ((wornBy i n).shards 0).write ("a", ⟨0, 0, 0⟩) = taken := rfl
  simp only [Shared.find, callA, hfind, consume_taken, Shared.setShard, hwrite]
  rw [wornBy, worn, Function.update_idem]

/-- Another call in vain. -/
theorem reach_again (calls : List Calling) {n : UInt64} (hn : (n + 1) % 1024 ≠ 0) :
    (overlapping fun _ ↦ 0).Reach anything ⟨calls, worn n⟩
      ⟨calls ++ [⟨callA 0, .done (some false)⟩], worn (n + 1)⟩ := by
  have hcount : (wornBy calls.length n).step 0 calls.length (callA 0) {} .counting =
      some (.finding, wornBy calls.length (n + 1)) := by
    rw [Shared.step]
    exact congrArg (fun q ↦ some (q, wornBy calls.length (n + 1))) (if_neg hn)
  have hfind : (wornBy calls.length (n + 1)).step 0 calls.length (callA 0) {} .finding =
      some (.leaving (some false), wornBy calls.length (n + 1)) :=
    congrArg some (find_wornBy calls.length (n + 1) _)
  have hleave : (wornBy calls.length (n + 1)).step 0 calls.length (callA 0) {}
      (.leaving (some false)) = some (.done (some false), worn (n + 1)) :=
    congrArg (fun s ↦ some (Point.done (some false), s)) (unlock_wornBy calls.length (n + 1))
  have henter : (worn n).step 0 calls.length (callA 0) {} .entering =
      some (.counting, wornBy calls.length n) := rfl
  have hcall : (overlapping fun _ ↦ 0).Reach anything ⟨calls, worn n⟩ _ :=
    reach_call calls (worn n) (callA 0)
  exact reach_last (reach_last (reach_last (reach_last hcall henter) hcount) hfind) hleave

/-- The first call. -/
theorem reach_first :
    (overlapping fun _ ↦ 0).Reach anything {} ⟨[⟨callA 0, .done (some true)⟩], worn 1⟩ := by
  let empty (n count : UInt64) : Shared :=
    { holder := Function.update (fun _ ↦ none) 0 (some 0), bucket_count := count, operations := n }
  have henter : Shared.step {} 0 0 (callA 0) {} .entering = some (.counting, empty 0 0) := rfl
  have hcount : (empty 0 0).step 0 0 (callA 0) {} .counting = some (.finding, empty 1 0) := rfl
  have hfind : (empty 1 0).step 0 0 (callA 0) {} .finding =
      some (.loading .first, empty 1 0) := rfl
  have hload : (empty 1 0).step 0 0 (callA 0) {} (.loading .first) =
      some (.exchanging .first 0, empty 1 0) := by
    have hroom : (empty 1 0).room = true := decide_eq_true (show 0 < kMaxBuckets by decide)
    rw [Shared.step]
    exact congrArg (fun q ↦ some (q, empty 1 0)) (if_pos hroom)
  have hexchange : (empty 1 0).step 0 0 (callA 0) {} (.exchanging .first 0) =
      some (.emplacing, empty 1 1) := rfl
  have hemplace : (empty 1 1).step 0 0 (callA 0) {} .emplacing =
      some (.leaving (some true), wornBy 0 1) := by
    have hinsert : (Table.insert Table.empty ("a", first 1 0)).getD Table.empty = taken := by
      rw [first_taken]
      rfl
    show some (Point.leaving (some true), (empty 1 1).setShard 0
      ((Table.insert Table.empty ("a", first 1 0)).getD Table.empty)) = _
    rw [hinsert]
    rfl
  have hleave : (wornBy 0 1).step 0 0 (callA 0) {} (.leaving (some true)) =
      some (.done (some true), worn 1) :=
    congrArg (fun s ↦ some (Point.done (some true), s)) (unlock_wornBy 0 1)
  have hcall : (overlapping fun _ ↦ 0).Reach anything {} ⟨[] ++ [⟨callA 0, .entering⟩], {}⟩ :=
    reach_call [] {} (callA 0)
  have hreserved := reach_last (reach_last (reach_last (reach_last (reach_last hcall henter) hcount)
    hfind) hload) hexchange
  exact reach_last (reach_last hreserved hemplace) hleave

/-- Calls in vain, before the first cleanup. -/
theorem reach_worn {k : ℕ} (hk : k < 1023) :
    ∃ calls, (overlapping fun _ ↦ 0).Reach anything {} ⟨calls, worn (UInt64.ofNat (k + 1))⟩ := by
  induction k with
  | zero => exact ⟨_, reach_first⟩
  | succ k ih =>
    obtain ⟨calls, hr⟩ := ih (by omega)
    have hnext : UInt64.ofNat (k + 1) + 1 = UInt64.ofNat (k + 1 + 1) :=
      (UInt64.ofNat_add _ 1).symm
    have htoNat : (UInt64.ofNat (k + 1 + 1)).toNat = k + 1 + 1 :=
      UInt64.toNat_ofNat_of_lt (by show k + 1 + 1 < 18446744073709551616; omega)
    have hne : (UInt64.ofNat (k + 1) + 1) % 1024 ≠ 0 := by
      intro heq
      have hmod : (UInt64.ofNat (k + 1) + 1).toNat % 1024 = 0 := congrArg UInt64.toNat heq
      rw [hnext, htoNat] at hmod
      omega
    exact ⟨_, hr.trans (hnext ▸ reach_again calls hne)⟩

/-- **The bucket is erased and still counted**: `_bucket_count` is more than the buckets and the
reservations. -/
theorem counted_more :
    ∃ w, (overlapping fun _ ↦ 0).Reach anything {} w ∧
      w.shared.bucket_count.toNat ≠ w.shared.buckets + w.reserved := by
  obtain ⟨calls, hr⟩ := reach_worn (k := 1022) (by decide)
  have henter : (worn 1023).step 0 calls.length (callA 3000) {} .entering =
      some (.counting, wornBy calls.length 1023) := rfl
  have hcount : (wornBy calls.length 1023).step 0 calls.length (callA 3000) {} .counting =
      some (.cleaning .periodic, wornBy calls.length 1024) := by
    have hround : (1023 + 1 : UInt64) % 1024 = 0 := by decide
    rw [Shared.step]
    exact congrArg (fun q ↦ some (q, wornBy calls.length 1024)) (if_pos hround)
  have hclean : (wornBy calls.length 1024).step 0 calls.length (callA 3000) {}
      (.cleaning .periodic) = some (.subtracting .periodic 1,
        (wornBy calls.length 1024).setShard 0 .empty) := rfl
  have hcall : (overlapping fun _ ↦ 0).Reach anything ⟨calls, worn 1023⟩ _ :=
    reach_call calls (worn 1023) (callA 3000)
  have hreach := reach_last (reach_last (reach_last (hr.trans hcall) henter) hcount) hclean
  refine ⟨_, hreach, fun heq ↦ ?_⟩
  have hexact := (counting_of_reach hreach).count
  have herased := Pool.total_set (f := (·.point.erased)) (u := ⟨callA 3000, .entering⟩)
    (List.getElem?_concat_length (l := calls) (a := ⟨callA 3000, .subtracting .periodic 1⟩))
  rw [heq, World.erased] at hexact
  dsimp only [Point.erased] at herased hexact
  omega

end Erased

end ChatNow.LocalRateLimiter
