import Mathlib.Data.Nat.Bitwise

/-!
# Snowflake ids

The id layout of `common/infra/snowflake.hpp`: milliseconds since the epoch, ten bits of worker id,
twelve bits of sequence. `uint64_t` values are natural numbers reduced modulo `2 ^ 64`.

The send protocol needs one fact about an id, that it is not zero: zero is what an id field reads
when nobody set it, and the text `accepted:0` is rejected by the idempotency parser. It holds for
every clock reading after the epoch (`Stamp.id_pos`).
-/

namespace ChatNow.SnowflakeId

def kWorkerBits : ℕ := 10
def kSeqBits : ℕ := 12
def kMaxWorkerId : ℕ := 2 ^ kWorkerBits - 1
def kMaxSequence : ℕ := 2 ^ kSeqBits - 1

/-- The default `epoch_ms`, 2025-01-01 UTC. -/
def epoch_ms : ℕ := 1735689600000

/-- `Compose`. -/
def Compose (ts_ms worker seq : ℕ) : ℕ :=
  let delta := (ts_ms + 2 ^ 64 - epoch_ms) % 2 ^ 64
  (delta <<< (kWorkerBits + kSeqBits) % 2 ^ 64) ||| (worker <<< kSeqBits) ||| seq

/-- What a call of `Next` composes its id from: a clock reading after the epoch and within the 42
bits the layout leaves for it, and a worker id and sequence within their fields. -/
structure Stamp where
  ts_ms : ℕ
  worker : ℕ
  seq : ℕ
  after_epoch : epoch_ms < ts_ms
  in_range : ts_ms < epoch_ms + 2 ^ 42
  worker_le : worker ≤ kMaxWorkerId
  seq_le : seq ≤ kMaxSequence

/-- The id composed from a stamp. -/
def Stamp.id (t : Stamp) : ℕ := Compose t.ts_ms t.worker t.seq

/-- The three fields do not overlap: the id is their weighted sum. -/
theorem Stamp.id_eq (t : Stamp) :
    t.id = (t.ts_ms - epoch_ms) * 2 ^ 22 + (t.worker * 2 ^ 12 + t.seq) := by
  have ha := t.after_epoch
  have hr := t.in_range
  have hw : t.worker < 2 ^ 10 := Nat.lt_of_le_of_lt t.worker_le (by decide)
  have hs : t.seq < 2 ^ 12 := Nat.lt_of_le_of_lt t.seq_le (by decide)
  have hdelta : (t.ts_ms + 2 ^ 64 - epoch_ms) % 2 ^ 64 = t.ts_ms - epoch_ms := by
    rw [show t.ts_ms + 2 ^ 64 - epoch_ms = t.ts_ms - epoch_ms + 2 ^ 64 by omega,
      Nat.add_mod_right, Nat.mod_eq_of_lt (by omega)]
  have hhigh : (t.ts_ms - epoch_ms) <<< 22 % 2 ^ 64 = (t.ts_ms - epoch_ms) <<< 22 :=
    Nat.mod_eq_of_lt (by rw [Nat.shiftLeft_eq]; omega)
  have hlow : t.worker <<< 12 ||| t.seq = t.worker * 2 ^ 12 + t.seq := by
    rw [← Nat.shiftLeft_add_eq_or_of_lt hs, Nat.shiftLeft_eq]
  have hsum : t.worker * 2 ^ 12 + t.seq < 2 ^ 22 := by omega
  rw [Stamp.id, Compose]
  simp only [hdelta, kWorkerBits, kSeqBits, Nat.reduceAdd, hhigh]
  rw [Nat.or_assoc, hlow, ← Nat.shiftLeft_add_eq_or_of_lt hsum, Nat.shiftLeft_eq]

theorem Stamp.id_pos (t : Stamp) : 0 < t.id := by
  have := t.after_epoch
  rw [t.id_eq]
  omega

theorem Stamp.id_lt (t : Stamp) : t.id < 2 ^ 64 := by
  have hr := t.in_range
  have hw : t.worker < 2 ^ 10 := Nat.lt_of_le_of_lt t.worker_le (by decide)
  have hs : t.seq < 2 ^ 12 := Nat.lt_of_le_of_lt t.seq_le (by decide)
  rw [t.id_eq]
  omega

end ChatNow.SnowflakeId
