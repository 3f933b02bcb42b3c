import ChatNow.Lib.Labelled
import Mathlib.Algebra.Group.Nat.Defs
import Mathlib.Data.List.Count
import Mathlib.Data.List.TakeWhile

/-!
# The Redis circuit breaker

`RedisCircuitBreaker` of `common/utils/redis_circuit_breaker.hpp`. Its methods take a lock, or
decide on one atomic read; here each of them is one step, with one reading of the steady clock.

The world around a breaker (`World`) is the clock, the permits that have been issued and not settled
yet, and a record of what was settled. A permit remembers how often the breaker had opened when it
was issued, which the code does not: its `generation` is a `uint64_t` and could come round again. It
does not, because a breaker that has opened stays open for a second and the clock is a signed 64-bit
count of nanoseconds (`World.Inv.time`).
-/

namespace ChatNow.RedisCircuitBreaker

inductive State | Closed | Open | HalfOpen
  deriving DecidableEq

inductive Transition | None | Opened | Recovered
  deriving DecidableEq

structure Permit where
  generation : ℕ := 0
  probe : Bool := false
  deriving DecidableEq

def kFailureThreshold : ℕ := 3

def kOpenForMs : ℤ := 1000

/-- The members of `RedisCircuitBreaker`. -/
structure Breaker where
  state : State := .Closed
  generation : ℕ := 0
  consecutive_failures : ℕ := 0
  open_until_ms : ℤ := 0
  deriving DecidableEq

namespace Breaker

variable (now_ms : ℤ) (permit : Permit) (b : Breaker)

/-- `open_locked`. -/
def open_locked : Transition × Breaker :=
  if b.state = .Open then (.None, b)
  else (.Opened, { state := .Open, generation := (b.generation + 1) % 2 ^ 64
                   consecutive_failures := 0, open_until_ms := now_ms + kOpenForMs })

/-- `before_call`; `none` when it throws `RedisCircuitOpen`. -/
def before_call : Option Permit × Breaker :=
  if b.state = .Closed then (some ⟨b.generation, false⟩, b)
  else if b.state = .HalfOpen ∨ now_ms < b.open_until_ms then (none, b)
  else (some ⟨b.generation, true⟩, { b with state := .HalfOpen })

/-- `on_success`. -/
def on_success : Transition × Breaker :=
  if b.state = .Closed ∧ permit.probe = false then
    if permit.generation = b.generation then (.None, { b with consecutive_failures := 0 })
    else (.None, b)
  else if permit.generation ≠ b.generation then (.None, b)
  else if b.state = .HalfOpen ∧ permit.probe = true then
    (.Recovered, { b with consecutive_failures := 0, state := .Closed })
  else (.None, b)

/-- The part of `on_connection_failure` under the lock. -/
def failure_locked : Transition × Breaker :=
  if permit.generation ≠ b.generation then (.None, b)
  else if b.state = .HalfOpen ∧ permit.probe = true then open_locked now_ms b
  else if b.state ≠ .Closed ∨ permit.probe = true then (.None, b)
  else if b.consecutive_failures < kFailureThreshold then (.None, b)
  else open_locked now_ms b

/-- `on_connection_failure`. -/
def on_connection_failure : Transition × Breaker :=
  if permit.generation ≠ b.generation then (.None, b)
  else if b.state = .Closed ∧ permit.probe = false then
    let failures := (b.consecutive_failures + 1) % 2 ^ 32
    let b := { b with consecutive_failures := failures }
    if failures < kFailureThreshold then (.None, b) else failure_locked now_ms permit b
  else failure_locked now_ms permit b

/-- `on_abandoned`. -/
def on_abandoned : Transition × Breaker :=
  if permit.generation ≠ b.generation ∨ permit.probe = false ∨ b.state ≠ .HalfOpen then (.None, b)
  else open_locked now_ms b

end Breaker

/-! ### The world -/

/-- The last millisecond that a signed 64-bit count of nanoseconds holds. -/
def kClockMs : ℤ := 9223372036854

/-- A reading of `std::chrono::steady_clock`, in milliseconds. -/
structure ClockMs where
  ms : ℤ
  lower : -kClockMs ≤ ms := by decide
  upper : ms ≤ kClockMs := by decide

/-- How a permit is settled. -/
inductive Settlement | success | connection_failure | abandoned
  deriving DecidableEq

/-- A permit, with the number of times the breaker had opened when it was issued. -/
structure Issued where
  permit : Permit
  epoch : ℕ
  deriving DecidableEq

/-- What is recorded when a permit is settled. -/
structure Entry where
  settlement : Settlement
  permit : Permit
  /-- The generation of the breaker at that moment. -/
  generation : ℕ
  transition : Transition
  deriving DecidableEq

/-- The permit was of the current generation. -/
def Entry.current (e : Entry) : Bool := e.permit.generation = e.generation

/-- A success of the current generation, or a recovery. -/
def Entry.resets (e : Entry) : Bool :=
  e.settlement = .success && e.current || e.transition = .Recovered

/-- A connection failure of the current generation. -/
def Entry.fails (e : Entry) : Bool := e.settlement = .connection_failure && e.current

/-- The failures of the current generation since the last success of the current generation, the
last recovery or the start; the last entry of the record comes first. -/
def failuresSince (log : List Entry) : ℕ := (log.takeWhile fun e ↦ !e.resets).countP Entry.fails

/-- A breaker and those who call it. -/
structure World where
  breaker : Breaker := {}
  clock : ClockMs
  /-- The permits that are not settled yet. -/
  outstanding : List Issued := []
  /-- How often the breaker has opened. -/
  openings : ℕ := 0
  /-- When it opened last. -/
  opened_at : ℤ := 0
  /-- What was settled, the last one first. -/
  log : List Entry := []

/-- What can happen. -/
inductive Label
  /-- Time goes by. -/
  | tick (t : ClockMs)
  /-- Somebody calls `before_call`. -/
  | before_call
  /-- Somebody settles a permit. -/
  | settle (x : Issued) (how : Settlement)

namespace World

variable (w : World)

/-- The call that settles a permit. -/
def call (permit : Permit) : Settlement → Transition × Breaker
  | .success => w.breaker.on_success permit
  | .connection_failure => w.breaker.on_connection_failure w.clock.ms permit
  | .abandoned => w.breaker.on_abandoned w.clock.ms permit

/-- The world after a permit has been settled. -/
def settle (x : Issued) (how : Settlement) : World where
  breaker := (w.call x.permit how).2
  clock := w.clock
  outstanding := w.outstanding.erase x
  openings := if (w.call x.permit how).1 = .Opened then w.openings + 1 else w.openings
  opened_at := if (w.call x.permit how).1 = .Opened then w.clock.ms else w.opened_at
  log := ⟨how, x.permit, w.breaker.generation, (w.call x.permit how).1⟩ :: w.log

/-- The world after `before_call`: it has a permit more, unless the call has thrown. -/
def issue : World :=
  match w.breaker.before_call w.clock.ms with
  | (some permit, b) =>
    { w with breaker := b, outstanding := w.outstanding ++ [⟨permit, w.openings⟩] }
  | (none, b) => { w with breaker := b }

end World

/-- The breaker with its callers. Only a permit that is outstanding can be settled, and the steady
clock does not go back. -/
def breakerSystem : Labelled World Label where
  step
    | .tick t, w => if w.clock.ms ≤ t.ms then some { w with clock := t } else none
    | .before_call, w => some w.issue
    | .settle x how, w => if x ∈ w.outstanding then some (w.settle x how) else none

/-- A new breaker, at any time. -/
def World.init (t : ClockMs) : World := { clock := t }

/-! ### The record -/

theorem failuresSince_cons (e : Entry) (log : List Entry) :
    failuresSince (e :: log) =
      if e.resets then 0 else failuresSince log + if e.fails then 1 else 0 := by
  rw [failuresSince, List.takeWhile_cons]
  cases e.resets with
  | true => rfl
  | false => exact List.countP_cons

/-! ### What a settlement does -/

namespace World

variable {w : World} {start : ClockMs} {x : Issued} {how : Settlement}

/-- The permit is of the current generation. -/
def Current (w : World) (x : Issued) : Prop := x.epoch = w.openings

instance (w : World) (x : Issued) : Decidable (w.Current x) :=
  inferInstanceAs (Decidable (x.epoch = w.openings))

/-- The probes of the current generation that are not settled. -/
def probes (w : World) : ℕ := w.outstanding.countP fun x ↦ x.permit.probe && w.Current x

/-- What every world keeps that began at `start`. -/
structure Inv (start : ClockMs) (w : World) : Prop where
  generation : w.breaker.generation = w.openings
  /-- The breaker has been open for a second each time that it opened, the present time excepted. -/
  time : w.breaker.state ≠ .Open → 1000 * (w.openings : ℤ) ≤ w.clock.ms - start.ms
  deadline : w.breaker.state = .Open → w.breaker.open_until_ms = w.opened_at + kOpenForMs ∧
    w.opened_at ≤ w.clock.ms ∧ 1000 * (w.openings : ℤ) ≤ w.breaker.open_until_ms - start.ms
  issued : ∀ y ∈ w.outstanding, y.permit.generation = y.epoch ∧ y.epoch ≤ w.openings
  probes : w.probes = if w.breaker.state = .HalfOpen then 1 else 0
  only_probes : w.breaker.state ≠ .Closed → ∀ y ∈ w.outstanding, w.Current y →
    y.permit.probe = true
  failures : w.breaker.state = .Closed →
    w.breaker.consecutive_failures = failuresSince w.log ∧
      w.breaker.consecutive_failures < kFailureThreshold

namespace Inv

theorem init (t : ClockMs) : Inv t (.init t) where
  generation := rfl
  time _ := by simp [World.init]
  deadline := nofun
  issued := nofun
  probes := rfl
  only_probes := nofun
  failures _ := ⟨rfl, Nat.succ_pos _⟩

/-- The generation does not come round. -/
theorem openings_lt (h : w.Inv start) : w.openings + 1 < 2 ^ 64 := by
  have hlo := start.lower
  have hhi := w.clock.upper
  simp only [kClockMs] at hlo hhi
  by_cases hs : w.breaker.state = .Open
  · obtain ⟨hd, hle, ht⟩ := h.deadline hs
    simp only [kOpenForMs] at hd
    omega
  · have ht := h.time hs
    omega

/-- The code compares generations, and so tells the current permits from the others. -/
theorem current_iff (h : w.Inv start) (hx : x ∈ w.outstanding) :
    w.Current x ↔ x.permit.generation = w.breaker.generation := by
  rw [Current, (h.issued x hx).1, h.generation]

/-- A current permit that is not settled belongs to a call in a closed state, or is the probe. -/
theorem current_cases (h : w.Inv start) (hx : x ∈ w.outstanding) (hc : w.Current x) :
    w.breaker.state = .Closed ∧ x.permit.probe = false ∨
      w.breaker.state = .HalfOpen ∧ x.permit.probe = true := by
  have hprobe (hp : x.permit.probe = true) : w.breaker.state = .HalfOpen := by
    by_contra hs
    have hcount := h.probes
    rw [if_neg hs, World.probes, List.countP_eq_zero] at hcount
    exact hcount x hx (by simp [hp, hc])
  cases hp : x.permit.probe with
  | true => exact .inr ⟨hprobe hp, rfl⟩
  | false =>
    refine .inl ⟨?_, rfl⟩
    by_contra hs
    rw [h.only_probes hs x hx hc] at hp
    cases hp

end Inv

/-- The breaker that has just opened. -/
def opened (w : World) : Breaker where
  state := .Open
  generation := w.openings + 1
  consecutive_failures := 0
  open_until_ms := w.clock.ms + kOpenForMs

theorem open_locked_eq (h : w.Inv start) {b : Breaker} (hs : b.state ≠ .Open)
    (hgen : b.generation = w.breaker.generation) :
    Breaker.open_locked w.clock.ms b = (.Opened, w.opened) := by
  rw [Breaker.open_locked, if_neg hs]
  simp only [opened, hgen, h.generation, Nat.mod_eq_of_lt h.openings_lt]

/-- **What a settlement does.** A permit of an older generation does nothing. A current one either
is of a call made in the closed state, or it is the probe. -/
theorem settle_cases (how : Settlement) (h : w.Inv start) (hx : x ∈ w.outstanding) :
    (x.epoch < w.openings ∧ w.call x.permit how = (.None, w.breaker)) ∨
    (w.Current x ∧ w.breaker.state = .Closed ∧ x.permit.probe = false ∧
      (how = .success ∧ w.call x.permit how =
          (.None, { w.breaker with consecutive_failures := 0 }) ∨
        how = .abandoned ∧ w.call x.permit how = (.None, w.breaker) ∨
        how = .connection_failure ∧ (
          w.breaker.consecutive_failures + 1 < kFailureThreshold ∧ w.call x.permit how =
            (.None, { w.breaker with
              consecutive_failures := w.breaker.consecutive_failures + 1 }) ∨
          w.breaker.consecutive_failures + 1 = kFailureThreshold ∧
            w.call x.permit how = (.Opened, w.opened)))) ∨
    (w.Current x ∧ w.breaker.state = .HalfOpen ∧ x.permit.probe = true ∧
      (how = .success ∧ w.call x.permit how =
          (.Recovered, { w.breaker with consecutive_failures := 0, state := .Closed }) ∨
        how ≠ .success ∧ w.call x.permit how = (.Opened, w.opened))) := by
  rcases Nat.lt_or_eq_of_le (h.issued x hx).2 with hlt | hcur
  · refine .inl ⟨hlt, ?_⟩
    have hne : x.permit.generation ≠ w.breaker.generation := by
      rw [(h.issued x hx).1, h.generation]
      exact hlt.ne
    cases how with
    | success =>
      simp only [call, Breaker.on_success, if_neg hne, if_pos hne]
      split <;> rfl
    | connection_failure => exact if_pos hne
    | abandoned => exact if_pos (.inl hne)
  · have hgen : x.permit.generation = w.breaker.generation := (h.current_iff hx).1 hcur
    obtain ⟨hs, hp⟩ | ⟨hs, hp⟩ := h.current_cases hx hcur
    · refine .inr (.inl ⟨hcur, hs, hp, ?_⟩)
      cases how with
      | success => exact .inl ⟨rfl, by simp [call, Breaker.on_success, hs, hp, hgen]⟩
      | abandoned => exact .inr (.inl ⟨rfl, by simp [call, Breaker.on_abandoned, hp]⟩)
      | connection_failure =>
        refine .inr (.inr ⟨rfl, ?_⟩)
        have hlt := (h.failures hs).2
        have hsmall : w.breaker.consecutive_failures + 1 < 2 ^ 32 := by
          simp only [kFailureThreshold] at hlt
          omega
        by_cases hthree : w.breaker.consecutive_failures + 1 < kFailureThreshold
        · refine .inl ⟨hthree, ?_⟩
          simp (disch := omega) [call, Breaker.on_connection_failure, hs, hp, hgen,
            Nat.mod_eq_of_lt, hthree]
        · refine .inr ⟨le_antisymm hlt (Nat.le_of_not_lt hthree), ?_⟩
          have hopen := open_locked_eq h
            (b := ⟨.Closed, w.breaker.generation, w.breaker.consecutive_failures + 1,
              w.breaker.open_until_ms⟩) nofun rfl
          simp (disch := omega) [call, Breaker.on_connection_failure, Breaker.failure_locked, hs,
            hp, hgen, Nat.mod_eq_of_lt, hthree, hopen]
    · have hopen := open_locked_eq h (b := w.breaker) (by simp [hs]) rfl
      refine .inr (.inr ⟨hcur, hs, hp, ?_⟩)
      cases how with
      | success => exact .inl ⟨rfl, by simp [call, Breaker.on_success, hs, hp, hgen]⟩
      | connection_failure =>
        refine .inr ⟨nofun, ?_⟩
        simp [call, Breaker.on_connection_failure, Breaker.failure_locked, hs, hp, hgen, hopen]
      | abandoned =>
        refine .inr ⟨nofun, ?_⟩
        simp [call, Breaker.on_abandoned, hs, hp, hgen, hopen]

/-! ### The invariant along a run -/

/-- The probes that are left when a permit is settled and the breaker does not open. -/
theorem probes_erase (hx : x ∈ w.outstanding) :
    (w.outstanding.erase x).countP (fun y ↦ y.permit.probe && w.Current y) =
      w.probes - if x.permit.probe && w.Current x then 1 else 0 := by
  rw [List.countP_erase]
  simp [World.probes, hx]

theorem settle_current {y : Issued} (hnone : (w.call x.permit how).1 ≠ .Opened) :
    (w.settle x how).Current y ↔ w.Current y := by
  simp only [Current, settle, if_neg hnone]

/-- A permit of an older generation, or a call that only counts. -/
theorem Inv.settle_quiet (h : w.Inv start) (hx : x ∈ w.outstanding) {n : ℕ}
    (hprobe : x.permit.probe = true → ¬ w.Current x)
    (hcall : w.call x.permit how = (.None, { w.breaker with consecutive_failures := n }))
    (hfail : w.breaker.state = .Closed →
      n = failuresSince (w.settle x how).log ∧ n < kFailureThreshold) :
    (w.settle x how).Inv start := by
  have hnone : (w.call x.permit how).1 ≠ .Opened := by
    rw [hcall]
    nofun
  have hb : (w.settle x how).breaker = { w.breaker with consecutive_failures := n } :=
    congrArg Prod.snd hcall
  have hopenings : (w.settle x how).openings = w.openings := if_neg hnone
  have hopened : (w.settle x how).opened_at = w.opened_at := if_neg hnone
  refine ⟨?_, ?_, ?_, fun y hy ↦ ?_, ?_, ?_, ?_⟩
  · rw [hb, hopenings]
    exact h.generation
  · rw [hb, hopenings]
    exact h.time
  · rw [hb, hopenings, hopened]
    exact h.deadline
  · rw [hopenings]
    exact h.issued y (List.mem_of_mem_erase hy)
  · have hcount := probes_erase hx
    rw [hb, ← h.probes]
    simp only [World.probes, settle_current hnone] at hcount ⊢
    rw [show (w.settle x how).outstanding = w.outstanding.erase x from rfl, hcount]
    cases hp : x.permit.probe with
    | true => simp [hprobe hp]
    | false => simp
  · rw [hb]
    intro hs y hy hc
    exact h.only_probes hs y (List.mem_of_mem_erase hy) ((settle_current hnone).1 hc)
  · rw [hb]
    exact hfail

/-- The breaker opens. -/
theorem Inv.settle_opened (h : w.Inv start) (hs : w.breaker.state ≠ .Open)
    (hcall : w.call x.permit how = (.Opened, w.opened)) : (w.settle x how).Inv start := by
  have hyes : (w.call x.permit how).1 = .Opened := by rw [hcall]
  have hb : (w.settle x how).breaker = w.opened := congrArg Prod.snd hcall
  have hopenings : (w.settle x how).openings = w.openings + 1 := if_pos hyes
  have hopened : (w.settle x how).opened_at = w.clock.ms := if_pos hyes
  -- what is still outstanding is of an older generation now
  have hold : ∀ y ∈ w.outstanding.erase x, ¬ (w.settle x how).Current y := by
    intro y hy hc
    have hle := (h.issued y (List.mem_of_mem_erase hy)).2
    rw [Current, hopenings] at hc
    omega
  refine ⟨?_, ?_, fun _ ↦ ?_, fun y hy ↦ ?_, ?_, fun _ y hy hc ↦ absurd hc (hold y hy), ?_⟩
  · rw [hb, hopenings]
    rfl
  · rw [hb]
    exact fun hne ↦ absurd rfl hne
  · rw [hb, hopenings, hopened]
    refine ⟨rfl, Int.le_refl _, ?_⟩
    have ht := h.time hs
    simp only [World.opened, kOpenForMs]
    omega
  · obtain ⟨hgen, hle⟩ := h.issued y (List.mem_of_mem_erase hy)
    rw [hopenings]
    exact ⟨hgen, Nat.le_succ_of_le hle⟩
  · rw [hb]
    refine List.countP_eq_zero.2 fun y hy ↦ ?_
    simp [hold y hy]
  · rw [hb]
    nofun

/-- The probe succeeds. -/
theorem Inv.settle_recovered (h : w.Inv start) (hx : x ∈ w.outstanding) (hc : w.Current x)
    (hs : w.breaker.state = .HalfOpen) (hp : x.permit.probe = true)
    (hcall : w.call x.permit how =
      (.Recovered, { w.breaker with consecutive_failures := 0, state := .Closed })) :
    (w.settle x how).Inv start := by
  have hnone : (w.call x.permit how).1 ≠ .Opened := by
    rw [hcall]
    nofun
  have hb : (w.settle x how).breaker =
      { w.breaker with consecutive_failures := 0, state := .Closed } := congrArg Prod.snd hcall
  have hopenings : (w.settle x how).openings = w.openings := if_neg hnone
  refine ⟨?_, fun _ ↦ ?_, ?_, fun y hy ↦ ?_, ?_, ?_, fun _ ↦ ?_⟩
  · rw [hb, hopenings]
    exact h.generation
  · rw [hopenings]
    exact h.time (by simp [hs])
  · rw [hb]
    nofun
  · rw [hopenings]
    exact h.issued y (List.mem_of_mem_erase hy)
  · have hcount := probes_erase hx
    have hone := h.probes
    rw [if_pos hs] at hone
    rw [hb]
    simp only [World.probes, settle_current hnone] at hcount hone ⊢
    rw [show (w.settle x how).outstanding = w.outstanding.erase x from rfl, hcount, hone]
    simp [hp, hc]
  · rw [hb]
    exact fun hne ↦ absurd rfl hne
  · rw [hb]
    refine ⟨?_, Nat.succ_pos _⟩
    have hreset : (Entry.mk how x.permit w.breaker.generation
        (w.call x.permit how).1).resets = true := by
      rw [hcall]
      simp [Entry.resets]
    exact (failuresSince_cons _ _).trans (if_pos hreset) |>.symm

/-- The record after a settlement that does not recover. -/
theorem failuresSince_settle (h : (w.call x.permit how).1 ≠ .Recovered) :
    failuresSince (w.settle x how).log =
      if how = .success ∧ x.permit.generation = w.breaker.generation then 0
      else failuresSince w.log +
        if how = .connection_failure ∧ x.permit.generation = w.breaker.generation then 1
        else 0 := by
  refine (failuresSince_cons _ _).trans ?_
  simp only [Entry.resets, Entry.fails, Entry.current, h, decide_false, Bool.or_false,
    Bool.and_eq_true, decide_eq_true_eq]

theorem Inv.settle (h : w.Inv start) (hx : x ∈ w.outstanding) : (w.settle x how).Inv start := by
  obtain ⟨hlt, hcall⟩ | ⟨hcur, hs, hp, hcall⟩ | ⟨hcur, hs, hp, hcall⟩ :=
    settle_cases how h hx
  · have hgen : x.permit.generation ≠ w.breaker.generation := by
      rw [(h.issued x hx).1, h.generation]
      exact hlt.ne
    refine h.settle_quiet hx (fun _ hc ↦ hlt.ne hc) hcall fun hs ↦ ?_
    rw [failuresSince_settle (by rw [hcall]; nofun), if_neg fun hc ↦ hgen hc.2,
      if_neg fun hc ↦ hgen hc.2]
    exact h.failures hs
  · have hgen : x.permit.generation = w.breaker.generation := (h.current_iff hx).1 hcur
    have hprobe : x.permit.probe = true → ¬ w.Current x := fun ht ↦ by
      rw [hp] at ht
      cases ht
    obtain ⟨rfl, hcall⟩ | ⟨rfl, hcall⟩ | ⟨rfl, ⟨hlt, hcall⟩ | ⟨-, hcall⟩⟩ := hcall
    · refine h.settle_quiet hx hprobe hcall fun _ ↦ ?_
      rw [failuresSince_settle (by rw [hcall]; nofun), if_pos ⟨rfl, hgen⟩]
      exact ⟨rfl, Nat.succ_pos _⟩
    · refine h.settle_quiet hx hprobe hcall fun hs ↦ ?_
      rw [failuresSince_settle (by rw [hcall]; nofun), if_neg nofun, if_neg nofun]
      exact h.failures hs
    · refine h.settle_quiet hx hprobe hcall fun hs ↦ ?_
      rw [failuresSince_settle (by rw [hcall]; nofun), if_neg nofun, if_pos ⟨rfl, hgen⟩,
        (h.failures hs).1]
      exact ⟨rfl, (h.failures hs).1 ▸ hlt⟩
    · exact h.settle_opened (by simp [hs]) hcall
  · obtain ⟨rfl, hcall⟩ | ⟨-, hcall⟩ := hcall
    · exact h.settle_recovered hx hcur hs hp hcall
    · exact h.settle_opened (by simp [hs]) hcall

/-- What `before_call` does: a permit in the closed state, the probe once the deadline has passed,
and an exception otherwise. -/
theorem issue_cases (w : World) :
    (w.breaker.state = .Closed ∧
      w.issue = { w with
        outstanding := w.outstanding ++ [⟨⟨w.breaker.generation, false⟩, w.openings⟩] }) ∨
    (w.breaker.state ≠ .Closed ∧ w.issue = w) ∨
    (w.breaker.state = .Open ∧ w.breaker.open_until_ms ≤ w.clock.ms ∧
      w.issue = { w with
        breaker := { w.breaker with state := .HalfOpen }
        outstanding := w.outstanding ++ [⟨⟨w.breaker.generation, true⟩, w.openings⟩] }) := by
  rw [issue]
  cases hs : w.breaker.state with
  | Closed =>
    rw [show w.breaker.before_call w.clock.ms = (some ⟨w.breaker.generation, false⟩, w.breaker) from
      if_pos hs]
    exact .inl ⟨rfl, rfl⟩
  | HalfOpen =>
    rw [show w.breaker.before_call w.clock.ms = (none, w.breaker) by
      simp [Breaker.before_call, hs]]
    exact .inr (.inl ⟨nofun, rfl⟩)
  | Open =>
    by_cases ht : w.clock.ms < w.breaker.open_until_ms
    · rw [show w.breaker.before_call w.clock.ms = (none, w.breaker) by
        simp [Breaker.before_call, hs, ht]]
      exact .inr (.inl ⟨nofun, rfl⟩)
    · rw [show w.breaker.before_call w.clock.ms =
          (some ⟨w.breaker.generation, true⟩, { w.breaker with state := .HalfOpen }) by
        simp [Breaker.before_call, hs, ht]]
      exact .inr (.inr ⟨rfl, Int.not_lt.1 ht, rfl⟩)

theorem probes_append (w : World) (y : Issued) :
    (w.outstanding ++ [y]).countP (fun z ↦ z.permit.probe && w.Current z) =
      w.probes + if y.permit.probe && w.Current y then 1 else 0 := by
  rw [List.countP_append, List.countP_singleton]
  rfl

theorem Inv.issue (h : w.Inv start) : w.issue.Inv start := by
  have hnew (probe : Bool) : ∀ y ∈ w.outstanding ++ [⟨⟨w.breaker.generation, probe⟩, w.openings⟩],
      y.permit.generation = y.epoch ∧ y.epoch ≤ w.openings := by
    intro y hy
    rcases List.mem_append.1 hy with hy | hy
    · exact h.issued y hy
    · obtain rfl := List.mem_singleton.1 hy
      exact ⟨h.generation, le_refl _⟩
  obtain ⟨hs, hw⟩ | ⟨-, hw⟩ | ⟨hs, hle, hw⟩ := w.issue_cases
  · rw [hw]
    refine { h with issued := hnew false, probes := ?_, only_probes := fun hne ↦ absurd hs hne }
    exact (probes_append w _).trans h.probes
  · rw [hw]
    exact h
  · rw [hw]
    obtain ⟨hd, -, ht⟩ := h.deadline hs
    refine ⟨h.generation, fun _ ↦ ?_, nofun, hnew true, ?_, fun _ y hy hc ↦ ?_, nofun⟩
    · show 1000 * (w.openings : ℤ) ≤ w.clock.ms - start.ms
      omega
    · have hzero := h.probes
      rw [if_neg (by simp [hs])] at hzero
      refine (probes_append w _).trans ?_
      rw [hzero]
      simp [Current]
    · rcases List.mem_append.1 hy with hy | hy
      · exact h.only_probes (by simp [hs]) y hy hc
      · obtain rfl := List.mem_singleton.1 hy
        rfl

theorem Inv.tick (h : w.Inv start) {t : ClockMs} (hle : w.clock.ms ≤ t.ms) :
    ({ w with clock := t } : World).Inv start where
  generation := h.generation
  time hs := by
    have ht := h.time hs
    show 1000 * (w.openings : ℤ) ≤ t.ms - start.ms
    omega
  deadline hs := by
    obtain ⟨hd, hopened, ht⟩ := h.deadline hs
    exact ⟨hd, Int.le_trans hopened hle, ht⟩
  issued := h.issued
  probes := h.probes
  only_probes := h.only_probes
  failures := h.failures

end World

open World

/-- What a step can be. -/
theorem step_cases {w w' : World} {l : Label} (h : breakerSystem.step l w = some w') :
    (∃ t : ClockMs, l = .tick t ∧ w.clock.ms ≤ t.ms ∧ w' = { w with clock := t }) ∨
    (l = .before_call ∧ w' = w.issue) ∨
    ∃ x how, l = .settle x how ∧ x ∈ w.outstanding ∧ w' = w.settle x how := by
  cases l with
  | tick t =>
    obtain ⟨hle, hw⟩ := Option.ite_none_right_eq_some.1 h
    exact .inl ⟨t, rfl, hle, (Option.some.inj hw).symm⟩
  | before_call => exact .inr (.inl ⟨rfl, (Option.some.inj h).symm⟩)
  | settle x how =>
    obtain ⟨hx, hw⟩ := Option.ite_none_right_eq_some.1 h
    exact .inr (.inr ⟨x, how, rfl, hx, (Option.some.inj hw).symm⟩)

theorem inv_of_reach {start : ClockMs} {w : World}
    (hr : breakerSystem.Reach (fun _ _ ↦ True) (.init start) w) : w.Inv start := by
  refine Labelled.invariant hr (Inv.init start) fun {w l w'} hinv _ hs ↦ ?_
  obtain ⟨t, rfl, hle, rfl⟩ | ⟨rfl, rfl⟩ | ⟨x, how, rfl, hx, rfl⟩ := step_cases hs
  · exact hinv.tick hle
  · exact hinv.issue
  · exact hinv.settle hx

namespace World

variable {w : World} {start : ClockMs}

/-- Half-open means that the probe is out. -/
theorem Inv.halfOpen_iff (h : w.Inv start) : w.breaker.state = .HalfOpen ↔
    ∃ x ∈ w.outstanding, x.permit.probe = true ∧ x.permit.generation = w.breaker.generation := by
  constructor
  · intro hs
    have hone := h.probes
    rw [if_pos hs] at hone
    obtain ⟨x, hx, hp⟩ := List.countP_pos_iff.1 (hone ▸ Nat.one_pos : 0 < w.probes)
    obtain ⟨hp, hc⟩ := Bool.and_eq_true_iff.1 hp
    exact ⟨x, hx, hp, (h.current_iff hx).1 (of_decide_eq_true hc)⟩
  · rintro ⟨x, hx, hp, hgen⟩
    obtain ⟨-, hp'⟩ | ⟨hs, -⟩ := h.current_cases hx ((h.current_iff hx).2 hgen)
    · rw [hp] at hp'
      cases hp'
    · exact hs

theorem Inv.one_probe (h : w.Inv start) : w.outstanding.countP
    (fun x ↦ x.permit.probe && decide (x.permit.generation = w.breaker.generation)) ≤ 1 := by
  have hsame : w.probes = w.outstanding.countP
      fun x ↦ x.permit.probe && decide (x.permit.generation = w.breaker.generation) := by
    refine List.countP_congr fun x hx ↦ ?_
    simp only [Bool.and_eq_true, decide_eq_true_eq, h.current_iff hx]
  have hcount := h.probes
  rw [← hsame, hcount]
  split <;> decide

/-- It is the third failure of the current generation in a row that opens a closed breaker. -/
theorem Inv.opens (h : w.Inv start) {l : Label} {w' : World}
    (hstep : breakerSystem.step l w = some w') (hs : w.breaker.state = .Closed)
    (hs' : w'.breaker.state = .Open) :
    ∃ x ∈ w.outstanding, l = .settle x .connection_failure ∧
      x.permit.generation = w.breaker.generation ∧ 3 ≤ failuresSince w'.log := by
  obtain ⟨t, rfl, -, rfl⟩ | ⟨rfl, rfl⟩ | ⟨x, how, rfl, hx, rfl⟩ := step_cases hstep
  · rw [hs] at hs'
    cases hs'
  · obtain ⟨-, hw⟩ | ⟨hne, -⟩ | ⟨hopen, -⟩ := w.issue_cases
    · rw [hw] at hs'
      rw [hs] at hs'
      cases hs'
    · exact absurd hs hne
    · rw [hs] at hopen
      cases hopen
  · have hb : (w.settle x how).breaker = (w.call x.permit how).2 := rfl
    rw [hb] at hs'
    obtain ⟨-, hcall⟩ | ⟨hcur, -, -, hcall⟩ | ⟨-, hhalf, -⟩ := settle_cases how h hx
    · rw [hcall, hs] at hs'
      cases hs'
    · obtain ⟨rfl, hcall⟩ | ⟨rfl, hcall⟩ | ⟨rfl, ⟨-, hcall⟩ | ⟨hthree, hcall⟩⟩ := hcall
      · rw [hcall] at hs'
        rw [show _ = w.breaker.state from rfl, hs] at hs'
        cases hs'
      · rw [hcall, hs] at hs'
        cases hs'
      · rw [hcall] at hs'
        rw [show _ = w.breaker.state from rfl, hs] at hs'
        cases hs'
      · have hgen := (h.current_iff hx).1 hcur
        refine ⟨x, hx, rfl, hgen, ?_⟩
        rw [failuresSince_settle (by rw [hcall]; nofun), if_neg nofun, if_pos ⟨rfl, hgen⟩,
          ← (h.failures hs).1, hthree]
        exact le_refl 3
    · rw [hs] at hhalf
      cases hhalf

/-- A permit from before the last opening does nothing. -/
theorem Inv.older (h : w.Inv start) {x : Issued} {how : Settlement} {w' : World}
    (hstep : breakerSystem.step (.settle x how) w = some w')
    (hold : x.epoch < w.openings ∨ x.permit.generation ≠ w.breaker.generation) :
    (w.call x.permit how).1 = .None ∧ w'.breaker = w.breaker := by
  obtain ⟨t, hl, -⟩ | ⟨hl, -⟩ | ⟨y, how', hl, hx, rfl⟩ := step_cases hstep
  · cases hl
  · cases hl
  · obtain ⟨rfl, rfl⟩ := Label.settle.inj hl
    have hcur : ¬ w.Current x := by
      rcases hold with hlt | hne
      · exact hlt.ne
      · exact fun hc ↦ hne ((h.current_iff hx).1 hc)
    obtain ⟨-, hcall⟩ | ⟨hc, -⟩ | ⟨hc, -⟩ := settle_cases how h hx
    · exact ⟨congrArg Prod.fst hcall, congrArg Prod.snd hcall⟩
    · exact absurd hc hcur
    · exact absurd hc hcur

/-- The probe is let through when the breaker has been open for a second. -/
theorem Inv.probes_after (h : w.Inv start) {l : Label} {w' : World}
    (hstep : breakerSystem.step l w = some w') (hs : w.breaker.state = .Open)
    (hs' : w'.breaker.state = .HalfOpen) :
    l = .before_call ∧ w.opened_at + kOpenForMs ≤ w.clock.ms := by
  obtain ⟨t, rfl, -, rfl⟩ | ⟨rfl, rfl⟩ | ⟨x, how, rfl, hx, rfl⟩ := step_cases hstep
  · rw [hs] at hs'
    cases hs'
  · obtain ⟨hclosed, -⟩ | ⟨-, hw⟩ | ⟨-, hle, -⟩ := w.issue_cases
    · rw [hs] at hclosed
      cases hclosed
    · rw [hw, hs] at hs'
      cases hs'
    · exact ⟨rfl, (h.deadline hs).1 ▸ hle⟩
  · have hb : (w.settle x how).breaker = (w.call x.permit how).2 := rfl
    obtain ⟨-, hcall⟩ | ⟨-, hclosed, -⟩ | ⟨-, hhalf, -⟩ := settle_cases how h hx
    · rw [hb, hcall, hs] at hs'
      cases hs'
    · rw [hs] at hclosed
      cases hclosed
    · rw [hs] at hhalf
      cases hhalf

/-- Only the success of the probe closes a half-open breaker. -/
theorem Inv.closes (h : w.Inv start) {l : Label} {w' : World}
    (hstep : breakerSystem.step l w = some w') (hs : w.breaker.state = .HalfOpen)
    (hs' : w'.breaker.state = .Closed) :
    ∃ x ∈ w.outstanding, l = .settle x .success ∧ x.permit.probe = true ∧
      x.permit.generation = w.breaker.generation := by
  obtain ⟨t, rfl, -, rfl⟩ | ⟨rfl, rfl⟩ | ⟨x, how, rfl, hx, rfl⟩ := step_cases hstep
  · rw [hs] at hs'
    cases hs'
  · obtain ⟨hclosed, -⟩ | ⟨-, hw⟩ | ⟨hopen, -⟩ := w.issue_cases
    · rw [hs] at hclosed
      cases hclosed
    · rw [hw, hs] at hs'
      cases hs'
    · rw [hs] at hopen
      cases hopen
  · have hb : (w.settle x how).breaker = (w.call x.permit how).2 := rfl
    obtain ⟨-, hcall⟩ | ⟨-, hclosed, -⟩ | ⟨hcur, -, hp, hcall⟩ := settle_cases how h hx
    · rw [hb, hcall, hs] at hs'
      cases hs'
    · rw [hs] at hclosed
      cases hclosed
    · obtain ⟨rfl, -⟩ | ⟨-, hcall⟩ := hcall
      · exact ⟨x, hx, rfl, hp, (h.current_iff hx).1 hcur⟩
      · rw [hb, hcall] at hs'
        cases hs'

end World

/-- **The automaton of the circuit breaker**, in every state that any number of callers can bring it
to: half-open means one probe; it is opened by the third failure in a row; a permit from before the
last opening does nothing; the probe is let through after the deadline, and only its success closes
the breaker. -/
theorem breaker_automaton (start : ClockMs) (w : World)
    (hr : breakerSystem.Reach (fun _ _ ↦ True) (.init start) w) :
    ((w.breaker.state = .HalfOpen ↔
        ∃ x ∈ w.outstanding, x.permit.probe = true ∧
          x.permit.generation = w.breaker.generation) ∧
      w.outstanding.countP
        (fun x ↦ x.permit.probe && decide (x.permit.generation = w.breaker.generation)) ≤ 1) ∧
    ∀ l w', breakerSystem.step l w = some w' →
      (w.breaker.state = .Closed → w'.breaker.state = .Open →
        ∃ x ∈ w.outstanding, l = .settle x .connection_failure ∧
          x.permit.generation = w.breaker.generation ∧ 3 ≤ failuresSince w'.log) ∧
      (∀ x how, l = .settle x how →
        x.epoch < w.openings ∨ x.permit.generation ≠ w.breaker.generation →
          (w.call x.permit how).1 = .None ∧ w'.breaker = w.breaker) ∧
      (w.breaker.state = .Open → w'.breaker.state = .HalfOpen →
        l = .before_call ∧ w.opened_at + kOpenForMs ≤ w.clock.ms) ∧
      (w.breaker.state = .HalfOpen → w'.breaker.state = .Closed →
        ∃ x ∈ w.outstanding, l = .settle x .success ∧ x.permit.probe = true ∧
          x.permit.generation = w.breaker.generation) := by
  have h := inv_of_reach hr
  refine ⟨⟨h.halfOpen_iff, h.one_probe⟩, fun l w' hstep ↦ ⟨h.opens hstep, ?_, h.probes_after hstep,
    h.closes hstep⟩⟩
  rintro x how rfl hold
  exact h.older hstep hold

instance decidableAnyStep (l : Label) (w : World) :
    Decidable ((fun _ _ ↦ True : Label → World → Prop) l w) :=
  .isTrue trivial

/-- Three failures open the breaker, a second later the probe is out. -/
theorem breaker_automaton_probe :
    ∃ w, breakerSystem.Reach (fun _ _ ↦ True) (.init ⟨0, by decide, by decide⟩) w ∧
      w.breaker.state = .HalfOpen ∧ w.outstanding.countP
        (fun x ↦ x.permit.probe && decide (x.permit.generation = w.breaker.generation)) ≤ 1 := by
  have hrun := Labelled.exists_of_run breakerSystem (fun _ _ ↦ True)
    (.init ⟨0, by decide, by decide⟩)
    [.before_call, .before_call, .before_call,
      .settle ⟨⟨0, false⟩, 0⟩ .connection_failure, .settle ⟨⟨0, false⟩, 0⟩ .connection_failure,
      .settle ⟨⟨0, false⟩, 0⟩ .connection_failure, .tick ⟨1000, by decide, by decide⟩, .before_call]
    (fun w ↦ w.breaker.state = .HalfOpen) (by decide)
  obtain ⟨w, hw, hs⟩ := hrun
  exact ⟨w, hw, hs, (breaker_automaton _ w hw).1.2⟩

end ChatNow.RedisCircuitBreaker
