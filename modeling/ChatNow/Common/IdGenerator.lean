import ChatNow.Common.Snowflake
import Mathlib.Data.List.Pairwise

/-!
# The id generator

`SnowflakeId::Next` of `common/infra/snowflake.hpp` over a clock that may do anything: every look at
the clock takes the next of a list of readings, between calls and inside the loop of `WaitUntil`
alike. A call for which the list is too short has not returned.

* `Next` moves the pair of the last time and the sequence strictly up in the lexicographic order
  (`next_stamp`), and the layout turns that order into the order of the ids (`compose_lt`);
* the worker id can be read off any id, whatever the clock was (`worker_of_compose`).

The clock is read as a signed 64-bit count of milliseconds (`Reading`), so the one addition that is
made to a reading does not wrap.
-/

namespace ChatNow.SnowflakeId

/-- The arguments of the constructor, which throws for a greater worker id. -/
structure Config where
  worker_id : ℕ
  epoch_ms : ℕ := SnowflakeId.epoch_ms
  wait_on_clock_backwards : Bool := true
  worker_id_le : worker_id ≤ kMaxWorkerId := by decide
  /-- The epoch is a `uint64_t`. -/
  epoch_lt : epoch_ms < 2 ^ 64 := by decide

/-- The members that `Next` changes. -/
structure Gen where
  last_ts : ℕ := 0
  sequence : ℕ := 0
  deriving DecidableEq

/-- `WaitUntil`, with the readings that are left. -/
def WaitUntil (target_ms : ℕ) : List ℕ → Option (ℕ × List ℕ)
  | [] => none
  | now :: readings =>
    if target_ms ≤ now then some (now, readings) else WaitUntil target_ms readings

namespace Config

variable (cfg : Config)

/-- `Compose`, for the epoch and the worker id of the generator. -/
def Compose (ts_ms seq : ℕ) : ℕ :=
  let delta := (ts_ms + 2 ^ 64 - cfg.epoch_ms) % 2 ^ 64
  (delta <<< (kWorkerBits + kSeqBits) % 2 ^ 64) ||| (cfg.worker_id <<< kSeqBits) ||| seq

/-- The first part of `Next`, a clock that has moved backwards: the time to go on with. -/
def settleClock (g : Gen) (now : ℕ) (readings : List ℕ) : Option (Except String (ℕ × List ℕ)) :=
  if now < g.last_ts then
    let diff := g.last_ts - now
    if !cfg.wait_on_clock_backwards || 1000 < diff then
      some (.error "snowflake: clock moved backwards")
    else (WaitUntil g.last_ts readings).map .ok
  else some (.ok (now, readings))

/-- The second part: the sequence, and the time it is of. -/
def advance (g : Gen) (now : ℕ) (readings : List ℕ) : Option (Gen × List ℕ) :=
  if now = g.last_ts then
    let sequence := (g.sequence + 1) &&& kMaxSequence
    if sequence = 0 then
      (WaitUntil ((g.last_ts + 1) % 2 ^ 64) readings).map fun r ↦ (⟨r.1, sequence⟩, r.2)
    else some (⟨now, sequence⟩, readings)
  else some (⟨now, 0⟩, readings)

/-- `Next`: the id or the exception, the generator and the readings after the call. -/
def Next (g : Gen) : List ℕ → Option (Except String ℕ × Gen × List ℕ)
  | [] => none
  | now :: readings =>
    match cfg.settleClock g now readings with
    | none => none
    | some (.error e) => some (.error e, g, readings)
    | some (.ok (now, readings)) =>
      (advance g now readings).map fun r ↦ (.ok (cfg.Compose r.1.last_ts r.1.sequence), r.1, r.2)

/-- The ids of the successful ones among the next `n` calls. -/
def successive : ℕ → Gen → List ℕ → List ℕ
  | 0, _, _ => []
  | n + 1, g, readings =>
    match cfg.Next g readings with
    | none => []
    | some (.error _, g, readings) => successive n g readings
    | some (.ok id, g, readings) => id :: successive n g readings

/-! ### The layout -/

/-- The three fields do not overlap, and what does not fit is cut off from the time. -/
theorem compose_eq (ts : ℕ) {seq : ℕ} (hseq : seq ≤ kMaxSequence) :
    cfg.Compose ts seq =
      (ts + 2 ^ 64 - cfg.epoch_ms) % 2 ^ 42 * 2 ^ 22 + (cfg.worker_id * 2 ^ 12 + seq) := by
  have hw : cfg.worker_id < 2 ^ 10 := Nat.lt_of_le_of_lt cfg.worker_id_le (by decide)
  have hs : seq < 2 ^ 12 := Nat.lt_of_le_of_lt hseq (by decide)
  have hhigh (d : ℕ) : ((d % 2 ^ 64) <<< 22) % 2 ^ 64 = (d % 2 ^ 42) <<< 22 := by
    rw [Nat.shiftLeft_eq, Nat.shiftLeft_eq]
    omega
  have hlow : cfg.worker_id <<< 12 ||| seq = cfg.worker_id * 2 ^ 12 + seq := by
    rw [← Nat.shiftLeft_add_eq_or_of_lt hs, Nat.shiftLeft_eq]
  have hsum : cfg.worker_id * 2 ^ 12 + seq < 2 ^ 22 := by omega
  rw [Compose]
  simp only [kWorkerBits, kSeqBits, Nat.reduceAdd, hhigh]
  rw [Nat.or_assoc, hlow, ← Nat.shiftLeft_add_eq_or_of_lt hsum, Nat.shiftLeft_eq]

/-- The worker id stands in its field, whatever the time. -/
theorem worker_of_compose (ts : ℕ) {seq : ℕ} (hseq : seq ≤ kMaxSequence) :
    cfg.Compose ts seq / 2 ^ 12 % 2 ^ 10 = cfg.worker_id := by
  have hw : cfg.worker_id < 2 ^ 10 := Nat.lt_of_le_of_lt cfg.worker_id_le (by decide)
  have hs : seq < 2 ^ 12 := Nat.lt_of_le_of_lt hseq (by decide)
  rw [cfg.compose_eq ts hseq]
  omega

/-- A reading of the clock: a signed 64-bit count of milliseconds, within the 42 bits after the
epoch that the layout leaves for it. -/
structure Reading (ts : ℕ) : Prop where
  after_epoch : cfg.epoch_ms ≤ ts
  in_range : ts < cfg.epoch_ms + 2 ^ 42
  signed : ts < 2 ^ 63

instance (ts : ℕ) : Decidable (cfg.Reading ts) :=
  decidable_of_iff (cfg.epoch_ms ≤ ts ∧ ts < cfg.epoch_ms + 2 ^ 42 ∧ ts < 2 ^ 63)
    ⟨fun h ↦ ⟨h.1, h.2.1, h.2.2⟩, fun h ↦ ⟨h.after_epoch, h.in_range, h.signed⟩⟩

/-- An id that is laid out as it should be: each value within its field, nothing cut off. -/
def LaidOut (id : ℕ) : Prop :=
  ∃ delta seq, delta < 2 ^ 42 ∧ seq ≤ kMaxSequence ∧ cfg.worker_id ≤ kMaxWorkerId ∧
    id = delta * 2 ^ 22 + cfg.worker_id * 2 ^ 12 + seq

variable {cfg}

theorem Reading.delta_eq {ts : ℕ} (h : cfg.Reading ts) :
    (ts + 2 ^ 64 - cfg.epoch_ms) % 2 ^ 42 = ts - cfg.epoch_ms := by
  have := h.after_epoch
  have := h.in_range
  omega

theorem laidOut_compose {ts seq : ℕ} (h : cfg.Reading ts) (hseq : seq ≤ kMaxSequence) :
    cfg.LaidOut (cfg.Compose ts seq) := by
  refine ⟨ts - cfg.epoch_ms, seq, ?_, hseq, cfg.worker_id_le, ?_⟩
  · have := h.in_range
    have := h.after_epoch
    omega
  · rw [cfg.compose_eq ts hseq, h.delta_eq, Nat.add_assoc]

/-- A laid out id is a 64-bit integer. -/
theorem LaidOut.lt {id : ℕ} (h : cfg.LaidOut id) : id < 2 ^ 64 := by
  obtain ⟨delta, seq, hdelta, hseq, hworker, rfl⟩ := h
  have hw : cfg.worker_id < 2 ^ 10 := Nat.lt_of_le_of_lt hworker (by decide)
  have hs : seq < 2 ^ 12 := Nat.lt_of_le_of_lt hseq (by decide)
  omega

/-- With the default epoch these are the ids that the send pipeline is given. -/
theorem exists_stamp {ts seq : ℕ} (hepoch : cfg.epoch_ms = SnowflakeId.epoch_ms)
    (h : cfg.Reading ts) (hafter : SnowflakeId.epoch_ms < ts) (hseq : seq ≤ kMaxSequence) :
    ∃ t : Stamp, t.id = cfg.Compose ts seq := by
  have hrange : ts < SnowflakeId.epoch_ms + 2 ^ 42 := hepoch ▸ h.in_range
  refine ⟨⟨ts, cfg.worker_id, seq, hafter, hrange, cfg.worker_id_le, hseq⟩, ?_⟩
  rw [Compose, hepoch]
  rfl

/-! ### One call -/

/-- The order in which a generator goes through its states. -/
def Before (g g' : Gen) : Prop :=
  g.last_ts < g'.last_ts ∨ g.last_ts = g'.last_ts ∧ g.sequence < g'.sequence

theorem Before.trans {g₁ g₂ g₃ : Gen} (h₁ : Before g₁ g₂) (h₂ : Before g₂ g₃) : Before g₁ g₃ := by
  simp only [Before] at h₁ h₂ ⊢
  omega

/-- The layout keeps the order. -/
theorem compose_lt {g g' : Gen} (h : Before g g') (hg : cfg.Reading g.last_ts)
    (hg' : cfg.Reading g'.last_ts) (hs : g.sequence ≤ kMaxSequence)
    (hs' : g'.sequence ≤ kMaxSequence) :
    cfg.Compose g.last_ts g.sequence < cfg.Compose g'.last_ts g'.sequence := by
  have hw : cfg.worker_id < 2 ^ 10 := Nat.lt_of_le_of_lt cfg.worker_id_le (by decide)
  have hlt : g.sequence < 2 ^ 12 := Nat.lt_of_le_of_lt hs (by decide)
  have hepoch := hg.after_epoch
  rw [cfg.compose_eq _ hs, cfg.compose_eq _ hs', hg.delta_eq, hg'.delta_eq]
  rcases h with h | ⟨h, hseq⟩
  · omega
  · rw [h]
    omega

theorem waitUntil_eq_some {target now : ℕ} {readings rest : List ℕ}
    (h : WaitUntil target readings = some (now, rest)) :
    target ≤ now ∧ now ∈ readings ∧ rest ⊆ readings := by
  induction readings with
  | nil => cases h
  | cons r readings ih =>
    rw [WaitUntil] at h
    split at h
    · next hle =>
      obtain ⟨rfl, rfl⟩ := Prod.ext_iff.1 (Option.some.inj h)
      exact ⟨hle, List.mem_cons_self, List.subset_cons_self _ _⟩
    · obtain ⟨hle, hmem, hsub⟩ := ih h
      exact ⟨hle, List.mem_cons_of_mem _ hmem, List.subset_cons_of_subset _ hsub⟩

/-- The loop ends at the first reading that has reached the target: at a given one, or before it. -/
theorem waitUntil_reaches {target ts : ℕ} {readings : List ℕ} (hmem : ts ∈ readings)
    (hle : target ≤ ts) :
    ∃ now rest, WaitUntil target readings = some (now, rest) ∧ (now = ts ∨ ts ∈ rest) := by
  induction readings with
  | nil => cases hmem
  | cons r readings ih =>
    rw [WaitUntil]
    split
    · exact ⟨r, readings, rfl, (List.mem_cons.1 hmem).imp Eq.symm id⟩
    · next hlt =>
      rcases List.mem_cons.1 hmem with rfl | hmem
      · exact absurd hle hlt
      · exact ih hmem

/-- The time that a call goes on with is a reading, not before the last one. -/
theorem settleClock_eq_ok {g : Gen} {now now' : ℕ} {readings rest : List ℕ}
    (h : cfg.settleClock g now readings = some (.ok (now', rest))) :
    g.last_ts ≤ now' ∧ now' ∈ now :: readings ∧ rest ⊆ readings := by
  rw [settleClock] at h
  split at h
  · dsimp only at h
    split at h
    · cases Option.some.inj h
    · obtain ⟨r, hr, hok⟩ := Option.map_eq_some_iff.1 h
      obtain rfl := Except.ok.inj hok
      obtain ⟨hle, hmem, hsub⟩ := waitUntil_eq_some hr
      exact ⟨hle, List.mem_cons_of_mem _ hmem, hsub⟩
  · next hge =>
    obtain ⟨rfl, rfl⟩ := Prod.ext_iff.1 (Except.ok.inj (Option.some.inj h))
    exact ⟨Nat.le_of_not_lt hge, List.mem_cons_self, List.Subset.refl _⟩

/-- A sequence that has not wrapped is the next one. -/
theorem sequence_succ {seq : ℕ} (hseq : seq ≤ kMaxSequence)
    (hne : (seq + 1) &&& kMaxSequence ≠ 0) :
    (seq + 1) &&& kMaxSequence = seq + 1 ∧ seq + 1 ≤ kMaxSequence := by
  have hmask : (seq + 1) &&& kMaxSequence = (seq + 1) % 2 ^ 12 :=
    Nat.and_two_pow_sub_one_eq_mod (seq + 1) 12
  have hmax : kMaxSequence = 4095 := rfl
  rw [hmask] at hne ⊢
  rw [hmax] at hseq ⊢
  omega

/-- What the second part does, for a time that is not before the last one. -/
theorem advance_eq_some {g g' : Gen} {now : ℕ} {readings rest : List ℕ}
    (h : advance g now readings = some (g', rest)) (hle : g.last_ts ≤ now)
    (hlast : g.last_ts + 1 < 2 ^ 64) (hseq : g.sequence ≤ kMaxSequence) :
    Before g g' ∧ g'.last_ts ∈ now :: readings ∧ g'.sequence ≤ kMaxSequence ∧ rest ⊆ readings := by
  rw [advance] at h
  split at h
  · next heq =>
    dsimp only at h
    split at h
    · next hzero =>
      -- the sequence has wrapped, and the clock has passed the last millisecond
      obtain ⟨r, hr, hok⟩ := Option.map_eq_some_iff.1 h
      obtain ⟨rfl, rfl⟩ := Prod.ext_iff.1 hok
      obtain ⟨htarget, hmem, hsub⟩ := waitUntil_eq_some hr
      rw [Nat.mod_eq_of_lt hlast] at htarget
      exact ⟨.inl htarget, List.mem_cons_of_mem _ hmem, by simp [hzero], hsub⟩
    · next hne =>
      obtain ⟨rfl, rfl⟩ := Prod.ext_iff.1 (Option.some.inj h)
      obtain ⟨hsucc, hmax⟩ := sequence_succ hseq hne
      refine ⟨.inr ⟨heq.symm, ?_⟩, List.mem_cons_self, ?_, List.Subset.refl _⟩
      · show g.sequence < (g.sequence + 1) &&& kMaxSequence
        rw [hsucc]
        exact Nat.lt_succ_self _
      · show (g.sequence + 1) &&& kMaxSequence ≤ kMaxSequence
        rw [hsucc]
        exact hmax
  · next hne =>
    obtain ⟨rfl, rfl⟩ := Prod.ext_iff.1 (Option.some.inj h)
    exact ⟨.inl (lt_of_le_of_ne hle (Ne.symm hne)), List.mem_cons_self, Nat.zero_le _,
      List.Subset.refl _⟩

/-- How a call can end: it has thrown and changed nothing, or the two parts have been gone
through. -/
theorem next_cases {g g' : Gen} {readings rest : List ℕ} {r : Except String ℕ}
    (h : cfg.Next g readings = some (r, g', rest)) :
    ∃ now later, readings = now :: later ∧
      ((∃ e, r = .error e ∧ g' = g ∧ rest = later) ∨
        ∃ now' later', cfg.settleClock g now later = some (.ok (now', later')) ∧
          advance g now' later' = some (g', rest) ∧
          r = .ok (cfg.Compose g'.last_ts g'.sequence)) := by
  cases readings with
  | nil => cases h
  | cons now later =>
    refine ⟨now, later, rfl, ?_⟩
    simp only [Next] at h
    split at h
    · cases h
    · obtain ⟨rfl, hrest⟩ := Prod.ext_iff.1 (Option.some.inj h)
      obtain ⟨rfl, rfl⟩ := Prod.ext_iff.1 hrest
      exact .inl ⟨_, rfl, rfl, rfl⟩
    · next now' later' hclock =>
      obtain ⟨q, hq, hok⟩ := Option.map_eq_some_iff.1 h
      obtain ⟨rfl, hrest⟩ := Prod.ext_iff.1 hok
      obtain ⟨rfl, rfl⟩ := Prod.ext_iff.1 hrest
      exact .inr ⟨now', later', hclock, hq, rfl⟩

/-- A generator whose members are within their types. -/
structure Sound (g : Gen) : Prop where
  last_ts : g.last_ts < 2 ^ 63
  sequence : g.sequence ≤ kMaxSequence

theorem sound_init : Sound {} := ⟨by decide, by decide⟩

/-- **A successful call** moves its generator up, to a time that it has read, and composes the id of
the new state. -/
theorem next_stamp {g g' : Gen} {readings rest : List ℕ} {id : ℕ}
    (h : cfg.Next g readings = some (.ok id, g', rest)) (hg : Sound g)
    (hr : ∀ ts ∈ readings, cfg.Reading ts) :
    Before g g' ∧ cfg.Reading g'.last_ts ∧ Sound g' ∧
      id = cfg.Compose g'.last_ts g'.sequence ∧ rest ⊆ readings := by
  obtain ⟨now, later, rfl, ⟨e, hthrown, -, -⟩ | ⟨now', later', hclock, hadv, hid⟩⟩ := next_cases h
  · cases hthrown
  · obtain ⟨hle, hmem, hsub⟩ := settleClock_eq_ok hclock
    have hlast : g.last_ts + 1 < 2 ^ 64 := by
      have := hg.last_ts
      omega
    obtain ⟨hbefore, hmem', hseq, hsub'⟩ := advance_eq_some hadv hle hlast hg.sequence
    have hin : g'.last_ts ∈ now :: later := by
      rcases List.mem_cons.1 hmem' with heq | hmem'
      · exact heq ▸ hmem
      · exact List.mem_cons_of_mem _ (hsub hmem')
    have hread := hr _ hin
    exact ⟨hbefore, hread, ⟨hread.signed, hseq⟩, Except.ok.inj hid,
      List.subset_cons_of_subset _ (List.Subset.trans hsub' hsub)⟩

/-- A call that throws has not touched the generator. -/
theorem next_thrown {g g' : Gen} {readings rest : List ℕ} {e : String}
    (h : cfg.Next g readings = some (.error e, g', rest)) : g' = g ∧ rest ⊆ readings := by
  obtain ⟨now, later, rfl, ⟨e, -, hg, rfl⟩ | ⟨now', later', -, -, hid⟩⟩ := next_cases h
  · exact ⟨hg, List.subset_cons_self _ _⟩
  · cases hid

/-- The sequence of a new id fits its field, whatever the clock and the generator were. -/
theorem next_worker {g g' : Gen} {readings rest : List ℕ} {id : ℕ}
    (h : cfg.Next g readings = some (.ok id, g', rest)) : id / 2 ^ 12 % 2 ^ 10 = cfg.worker_id := by
  obtain ⟨now, later, rfl, ⟨e, hthrown, -, -⟩ | ⟨now', later', -, hadv, hid⟩⟩ := next_cases h
  · cases hthrown
  · obtain rfl := Except.ok.inj hid
    refine cfg.worker_of_compose _ ?_
    rw [advance] at hadv
    dsimp only at hadv
    split at hadv
    · split at hadv
      · next hzero =>
        obtain ⟨r, -, hok⟩ := Option.map_eq_some_iff.1 hadv
        obtain ⟨rfl, -⟩ := Prod.ext_iff.1 hok
        exact hzero ▸ Nat.zero_le _
      · obtain ⟨rfl, -⟩ := Prod.ext_iff.1 (Option.some.inj hadv)
        exact Nat.and_le_right
    · obtain ⟨rfl, -⟩ := Prod.ext_iff.1 (Option.some.inj hadv)
      exact Nat.zero_le _

/-- A call ends as soon as the clock has passed the last id's time: nothing else can keep it. -/
theorem next_isSome {g : Gen} {readings : List ℕ} {ts : ℕ} (hg : Sound g) (hmem : ts ∈ readings)
    (hlt : g.last_ts < ts) : (cfg.Next g readings).isSome = true := by
  have hlast : (g.last_ts + 1) % 2 ^ 64 ≤ ts := by
    have := hg.last_ts
    omega
  -- whatever time the second part starts from, it is `ts` or `ts` is still to be read
  have hadvance {now : ℕ} {rest : List ℕ} (h : now = ts ∨ ts ∈ rest) :
      (advance g now rest).isSome = true := by
    rw [advance]
    split
    · next heq =>
      obtain rfl | hrest := h
      · exact absurd heq hlt.ne'
      · dsimp only
        split
        · obtain ⟨now', rest', hwait, -⟩ := waitUntil_reaches hrest hlast
          rw [hwait]
          rfl
        · rfl
    · rfl
  cases readings with
  | nil => cases hmem
  | cons now later =>
    have hhead : now = ts ∨ ts ∈ later := (List.mem_cons.1 hmem).imp Eq.symm id
    have hclock : (∃ e, cfg.settleClock g now later = some (.error e)) ∨ ∃ now' rest,
        cfg.settleClock g now later = some (.ok (now', rest)) ∧ (now' = ts ∨ ts ∈ rest) := by
      rw [settleClock]
      split
      · next hback =>
        dsimp only
        split
        · exact .inl ⟨_, rfl⟩
        · obtain rfl | hlater := hhead
          · exact absurd hback hlt.not_gt
          · obtain ⟨now', rest, hwait, hts⟩ := waitUntil_reaches hlater hlt.le
            exact .inr ⟨now', rest, by rw [hwait]; rfl, hts⟩
      · exact .inr ⟨now, later, rfl, hhead⟩
    obtain ⟨e, he⟩ | ⟨now', rest, hok, hts⟩ := hclock
    · simp [Next, he]
    · simp [Next, hok, hadvance hts]

/-! ### Successive calls -/

/-- Every id of a run is composed of a state that comes after the first one. -/
theorem mem_successive {n : ℕ} {g : Gen} {readings : List ℕ} {id : ℕ} (hg : Sound g)
    (hr : ∀ ts ∈ readings, cfg.Reading ts) (h : id ∈ cfg.successive n g readings) :
    ∃ g', Before g g' ∧ cfg.Reading g'.last_ts ∧ g'.sequence ≤ kMaxSequence ∧
      id = cfg.Compose g'.last_ts g'.sequence := by
  induction n generalizing g readings with
  | zero => cases h
  | succ n ih =>
    rw [successive] at h
    split at h
    · cases h
    · next hnext =>
      obtain ⟨rfl, hsub⟩ := next_thrown hnext
      exact ih hg (fun ts hts ↦ hr ts (hsub hts)) h
    · next id₁ g₁ rest hnext =>
      obtain ⟨hbefore, hread, hsound, rfl, hsub⟩ := next_stamp hnext hg hr
      rcases List.mem_cons.1 h with rfl | h
      · exact ⟨g₁, hbefore, hread, hsound.sequence, rfl⟩
      · obtain ⟨g', hbefore', hg'⟩ := ih hsound (fun ts hts ↦ hr ts (hsub hts)) h
        exact ⟨g', hbefore.trans hbefore', hg'⟩

theorem successive_increasing {n : ℕ} {g : Gen} {readings : List ℕ} (hg : Sound g)
    (hr : ∀ ts ∈ readings, cfg.Reading ts) :
    (cfg.successive n g readings).Pairwise (· < ·) := by
  induction n generalizing g readings with
  | zero => exact .nil
  | succ n ih =>
    rw [successive]
    split
    · exact .nil
    · next hnext =>
      obtain ⟨rfl, hsub⟩ := next_thrown hnext
      exact ih hg fun ts hts ↦ hr ts (hsub hts)
    · next id₁ g₁ rest hnext =>
      obtain ⟨-, hread, hsound, rfl, hsub⟩ := next_stamp hnext hg hr
      have hrest : ∀ ts ∈ rest, cfg.Reading ts := fun ts hts ↦ hr ts (hsub hts)
      refine .cons (fun id hid ↦ ?_) (ih hsound hrest)
      obtain ⟨g', hbefore, hread', hseq', rfl⟩ := mem_successive hsound hrest hid
      exact compose_lt hbefore hread hread' hsound.sequence hseq'

/-- The worker id stands in every id of a run. -/
theorem worker_of_mem {n : ℕ} {g : Gen} {readings : List ℕ} {id : ℕ}
    (h : id ∈ cfg.successive n g readings) : id / 2 ^ 12 % 2 ^ 10 = cfg.worker_id := by
  induction n generalizing g readings with
  | zero => cases h
  | succ n ih =>
    rw [successive] at h
    split at h
    · cases h
    · exact ih h
    · next hnext =>
      rcases List.mem_cons.1 h with rfl | h
      · exact next_worker hnext
      · exact ih h

end Config

/-- **Snowflake ids.** For every generator: along any readings in range the ids of successive calls
go strictly up, each laid out within 64 bits; a call that throws leaves the generator as it was; and
no id is ever one of a generator with another worker id, whatever the two clocks read. -/
theorem snowflake_ids (cfg : Config) :
    (∀ (n : ℕ) (readings : List ℕ), (∀ ts ∈ readings, cfg.Reading ts) →
      (cfg.successive n {} readings).Pairwise (· < ·) ∧
        ∀ id ∈ cfg.successive n {} readings, cfg.LaidOut id ∧ id < 2 ^ 64) ∧
    (∀ (g g' : Gen) (readings rest : List ℕ) (e : String),
      cfg.Next g readings = some (.error e, g', rest) → g' = g) ∧
    ∀ (cfg' : Config), cfg'.worker_id ≠ cfg.worker_id →
      ∀ (n n' : ℕ) (readings readings' : List ℕ), ∀ id ∈ cfg.successive n {} readings,
        id ∉ cfg'.successive n' {} readings' := by
  refine ⟨fun n readings hr ↦ ⟨Config.successive_increasing Config.sound_init hr, fun id hid ↦ ?_⟩,
    fun g g' readings rest e h ↦ (Config.next_thrown h).1,
    fun cfg' hne n n' readings readings' id hid hid' ↦ hne ?_⟩
  · obtain ⟨g', -, hread, hseq, rfl⟩ := Config.mem_successive Config.sound_init hr hid
    have hlaid := Config.laidOut_compose hread hseq
    exact ⟨hlaid, hlaid.lt⟩
  · exact (Config.worker_of_mem hid').symm.trans (Config.worker_of_mem hid)

/-- Between the first two calls the clock has gone back by a millisecond. -/
theorem snowflake_ids_backwards :
    Config.successive { worker_id := 1 } 3 {}
        [1735689600010, 1735689600009, 1735689600010, 1735689600011] =
      [41947136, 41947137, 46141440] ∧
    (Config.successive { worker_id := 1 } 3 {}
        [1735689600010, 1735689600009, 1735689600010, 1735689600011]).Pairwise (· < ·) :=
  ⟨by decide, ((snowflake_ids { worker_id := 1 }).1 3 _ (by decide)).1⟩

end ChatNow.SnowflakeId
