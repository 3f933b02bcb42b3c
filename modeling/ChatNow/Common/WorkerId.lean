import ChatNow.Common.CacheVersion
import ChatNow.Lib.Fleet
import Mathlib.Tactic.Ring

/-!
# Worker ids leased from Redis

`WorkerIdAllocator` of `common/utils/worker_id.hpp`. Each instance has two threads: the one that
calls `acquire` and later `stop`, and the renew thread. Both are processes of a fleet over one Redis
and the atomics of the instances.

* `acquire`, `renew_round`, `stop`: the three methods, as programs.
* `Redis`: the keys, and Redis's own clock; an expired key is one that is not seen any more.
* `lease_overlap`: two instances can have one id only when the lease of one of them has run out
  without a renewal, and then Redis refuses its next renewal and it reports the loss.

A Redis command may throw before it is executed or after (`Fault`). The time between two calls is
arbitrary, so every delay of a thread is covered: a renewal that is late, or a clock that stands
still in the process while the lease runs out.
-/

namespace ChatNow.WorkerIdAllocator

def kMaxWorkerId : ℤ := 1024

def kLeaseSec : ℕ := 300

/-! ### Redis -/

/-- A slot key: its value, and when it expires. -/
structure Slot where
  owner : String
  deadline : ℕ
  deriving DecidableEq

/-- The keys `im:worker:{service}:seq` and `im:worker:{service}:slot:k`. -/
structure Redis where
  /-- The clock, in milliseconds. -/
  now : ℕ := 0
  seq : ℤ := 0
  slots : ℤ → Option Slot := fun _ ↦ none
  /-- When an owner's last SET or renewal was carried out; Redis does not keep it. -/
  renewed : String → ℕ := fun _ ↦ 0

namespace Redis

def leaseMs : ℕ := kLeaseSec * 1000

variable (r : Redis) (k : ℤ) (o : String)

/-- GET of a slot key. -/
def get : Option String := ((r.slots k).filter fun e ↦ r.now < e.deadline).map Slot.owner

/-- The slot is given to the owner, for the length of a lease. -/
def lease : Redis :=
  { r with slots := Function.update r.slots k (some ⟨o, r.now + leaseMs⟩)
           renewed := Function.update r.renewed o r.now }

/-- INCR of the sequence key. -/
def incr : ℤ × Redis := (r.seq + 1, { r with seq := r.seq + 1 })

/-- SET NX EX of a slot key. -/
def setNx : Bool × Redis := if r.get k = none then (true, r.lease k o) else (false, r)

/-- `kRenewLua`. -/
def renew : ℤ × Redis := if r.get k = some o then (1, r.lease k o) else (0, r)

/-- `kReleaseLua`. -/
def release : ℤ × Redis :=
  if r.get k = some o then (1, { r with slots := Function.update r.slots k none }) else (0, r)

/-- No more than the length of a lease has passed since the owner's last SET or renewal. -/
def InLease : Prop := r.now < r.renewed o + leaseMs

/-- As long as its lease runs, the slot is the owner's. -/
def Leased : Prop := r.InLease o → r.slots k = some ⟨o, r.renewed o + leaseMs⟩

variable {r k o} {k' : ℤ} {o' : String}

theorem Leased.get (h : r.Leased k o) (hin : r.InLease o) : r.get k = some o := by
  have hlt : r.now < r.renewed o + leaseMs := hin
  simp [Redis.get, h hin, hlt]

theorem leased_lease : (r.lease k o).Leased k o := by
  intro _
  simp [lease]

/-- Another owner may take a slot only when it is not leased. -/
theorem Leased.lease (h : r.Leased k o) (ho : o' ≠ o) (hk : r.get k' ≠ some o) :
    (r.lease k' o').Leased k o := by
  intro hin
  have hrenewed : (r.lease k' o').renewed o = r.renewed o := Function.update_of_ne ho.symm _ _
  have hin' : r.InLease o := by
    rw [InLease, hrenewed] at hin
    exact hin
  have hne : k ≠ k' := by
    rintro rfl
    exact hk (h.get hin')
  rw [hrenewed, ← h hin']
  exact Function.update_of_ne hne _ _

theorem Leased.incr (h : r.Leased k o) : r.incr.2.Leased k o := h

theorem Leased.tick (h : r.Leased k o) (d : ℕ) : Leased { r with now := r.now + d } k o := by
  intro hin
  have hlt : r.now + d < r.renewed o + leaseMs := hin
  exact h (show r.now < _ by omega)

theorem Leased.setNx (h : r.Leased k o) (ho : o' ≠ o) : (r.setNx k' o').2.Leased k o := by
  rw [Redis.setNx]
  split
  · next hk => exact h.lease ho (by simp [hk])
  · exact h

theorem Leased.renew (h : r.Leased k o) (ho : o' ≠ o) : (r.renew k' o').2.Leased k o := by
  rw [Redis.renew]
  split
  · next hk => exact h.lease ho (by simpa [hk] using ho)
  · exact h

/-- The owner's own renewal of the slot. -/
theorem Leased.renew_self (h : r.Leased k o) : (r.renew k o).2.Leased k o := by
  rw [Redis.renew]
  split
  · exact leased_lease
  · exact h

theorem Leased.release (h : r.Leased k o) (ho : o' ≠ o) : (r.release k' o').2.Leased k o := by
  rw [Redis.release]
  split
  · next hk =>
    intro hin
    have hne : k ≠ k' := by
      rintro rfl
      exact ho (Option.some.inj (hk.symm.trans (h.get hin)))
    rw [← h hin]
    exact Function.update_of_ne hne _ _
  · exact h

end Redis

/-! ### The methods -/

/-- What the threads of an instance call: Redis, the atomics, and each other. -/
inductive LeaseOp
  | incr
  | setNx (k : ℤ) (owner : String)
  | evalRenew (k : ℤ) (owner : String)
  | evalRelease (k : ℤ) (owner : String)
  | storeAllocated (id : ℤ)
  | loadAllocated
  | storeRunning (b : Bool)
  | storeLeaseLost
  | loadLeaseLost
  /-- The renew thread is created. -/
  | createThread
  /-- The renew thread's `wait_for`: it ends when the instance stops (`true`) or times out. -/
  | waitFor
  /-- The renew thread returns. -/
  | exitThread
  | join

/-- What a call gets back; `none` where the Redis client throws. -/
abbrev LeaseOp.Res : LeaseOp → Type
  | incr => Option ℤ
  | setNx _ _ => Option Bool
  | evalRenew _ _ => Option ℤ
  | evalRelease _ _ => Option ℤ
  | loadAllocated => ℤ
  | loadLeaseLost => Bool
  | waitFor => Bool
  | _ => Unit

abbrev LeaseM : Type → Type := Prog LeaseOp LeaseOp.Res

open Prog LeaseOp

variable (owner : String) (fallback_worker_id : ℤ)

/-- `start_renew_thread`. -/
def start_renew_thread : LeaseM Unit := do
  op (storeRunning true)
  op createThread

/-- The end of `acquire` after the scan or an exception. -/
def fall_back : LeaseM ℤ := do
  op (storeAllocated fallback_worker_id)
  return fallback_worker_id

/-- The loop of `acquire` over the candidates, with `n` of them left. -/
def scan (start : ℤ) (i : ℤ) : ℕ → LeaseM ℤ
  | 0 => fall_back fallback_worker_id
  | n + 1 => do
    let candidate := (start + i).tmod kMaxWorkerId
    match ← op (setNx candidate owner) with
    | none => fall_back fallback_worker_id
    | some true =>
      op (storeAllocated candidate)
      start_renew_thread
      return candidate
    | some false => scan start (i + 1) n

/-- `acquire`. -/
def acquire : LeaseM ℤ := do
  match ← op incr with
  | none => fall_back fallback_worker_id
  | some base =>
    let start := ((base - 1).tmod kMaxWorkerId + kMaxWorkerId).tmod kMaxWorkerId
    scan owner fallback_worker_id start 0 kMaxWorkerId.toNat

/-- The end of `stop`: the slot is given back. -/
def release_slot (allocated : ℤ) : LeaseM Unit := do
  if 0 ≤ allocated ∧ allocated < kMaxWorkerId then
    let lost ← op loadLeaseLost
    if lost = false then
      let _ ← op (evalRelease allocated owner)

/-- `stop`. -/
def stop : LeaseM Unit := do
  op (storeRunning false)
  op join
  let allocated ← op loadAllocated
  release_slot owner allocated

/-- Where a thread of an instance is between two rounds. -/
inductive Control
  | start | serve
  | renew | exited
  deriving DecidableEq

/-- One turn of the loop of the renew thread. -/
def renew_round : LeaseM Control := do
  if ← op waitFor then
    op exitThread
    return .exited
  let id ← op loadAllocated
  if id < 0 ∨ kMaxWorkerId ≤ id then return .renew
  match ← op (evalRenew id owner) with
  | none => return .renew
  | some ok =>
    if ok ≠ 1 then
      op storeLeaseLost
      op exitThread
      return .exited
    else return .renew

/-! ### Instances -/

/-- The members of `WorkerIdAllocator` that change. -/
structure Instance where
  running : Bool := false
  allocated : ℤ := -1
  lease_lost : Bool := false
  /-- The renew thread has been created and has not returned. -/
  renewing : Bool := false
  /-- A renewal was answered, and not with 1. -/
  refused : Bool := false
  deriving DecidableEq

/-- The two threads of an instance. -/
inductive Thread
  | main (i : ℕ)
  | renew (i : ℕ)
  deriving DecidableEq

/-- Whose thread it is. -/
def Thread.inst : Thread → ℕ
  | main i => i
  | renew i => i

structure Shared where
  redis : Redis := {}
  insts : ℕ → Instance := fun _ ↦ {}

/-- How a Redis command goes wrong. -/
inductive Fault | none | before | after

namespace Shared

variable (s : Shared)

/-- The answer to a Redis command, with the exception the fault asks for. -/
def answer {α : Type} (x : α × Redis) : Fault → Option α × Shared
  | .none => (some x.1, { s with redis := x.2 })
  | .before => (Option.none, s)
  | .after => (Option.none, { s with redis := x.2 })

/-- Instance `i` changes its members. -/
def modify (i : ℕ) (f : Instance → Instance) : Shared :=
  { s with insts := Function.update s.insts i (f (s.insts i)) }

@[simp] theorem modify_insts (i : ℕ) (f : Instance → Instance) :
    (s.modify i f).insts i = f (s.insts i) :=
  Function.update_self ..

theorem modify_insts_of_ne {i j : ℕ} (hj : j ≠ i) (f : Instance → Instance) :
    (s.modify i f).insts j = s.insts j :=
  Function.update_of_ne hj ..

@[simp] theorem modify_redis (i : ℕ) (f : Instance → Instance) :
    (s.modify i f).redis = s.redis := rfl

/-- Instance `i` obtained `id` from a slot and has not been stopped. -/
def Runs (i : ℕ) (id : ℤ) : Prop := (s.insts i).running = true ∧ (s.insts i).allocated = id

instance (i : ℕ) (id : ℤ) : Decidable (s.Runs i id) := inferInstanceAs (Decidable (_ ∧ _))

end Shared

/-- The answer to a renewal that is not 1. -/
def refuses (ok : Option ℤ) : Bool := ok.any (· ≠ 1)

/-- The effect of a call by a thread of instance `i`. -/
def exec (i : ℕ) (o : LeaseOp) (fault : Fault) (s : Shared) : Option (o.Res × Shared) :=
  match o with
  | incr => some (s.answer s.redis.incr fault)
  | setNx k owner => some (s.answer (s.redis.setNx k owner) fault)
  | evalRenew k owner =>
    let x := s.answer (s.redis.renew k owner) fault
    some (x.1, if refuses x.1 then x.2.modify i ({ · with refused := true }) else x.2)
  | evalRelease k owner => some (s.answer (s.redis.release k owner) fault)
  | storeAllocated id => some ((), s.modify i ({ · with allocated := id }))
  | loadAllocated => some ((s.insts i).allocated, s)
  | storeRunning b => some ((), s.modify i ({ · with running := b }))
  | storeLeaseLost => some ((), s.modify i ({ · with lease_lost := true }))
  | loadLeaseLost => some ((s.insts i).lease_lost, s)
  | createThread => some ((), s.modify i ({ · with renewing := true }))
  | waitFor => if (s.insts i).renewing then some (!(s.insts i).running, s) else Option.none
  | exitThread => some ((), s.modify i ({ · with renewing := false }))
  | join => if (s.insts i).renewing then Option.none else some ((), s)

/-- What a thread does at a control point. Stopping can begin at any time, and be repeated. -/
def round (owner : ℕ → String) (fallback : ℕ → ℤ) : Thread → Control → LeaseM Control
  | .main i, .start => do
    let _ ← acquire (owner i) (fallback i)
    return .serve
  | .main i, .serve => do
    stop (owner i)
    return .serve
  | .renew i, .renew => renew_round (owner i)
  | _, k => return k

/-- Any number of instances, with their owner strings and configured fallbacks; the only event is
that time passes. -/
def fleet (owner : ℕ → String) (fallback : ℕ → ℤ) :
    Fleet Thread LeaseOp LeaseOp.Res Control Shared Fault ℕ where
  round := round owner fallback
  exec t := exec t.inst
  env d s := some { s with redis := { s.redis with now := s.redis.now + d } }

abbrev State := Fleet.State Thread LeaseOp LeaseOp.Res Control Shared

/-- No instance has begun to acquire an id; Redis may hold anything. -/
def init (redis : Redis) : State where
  procs
    | .main _ => .ret .start
    | .renew _ => .ret .renew
  shared := { redis }

/-! ### What each thread may do next -/

/-- How far a thread has come. -/
inductive Phase
  /-- `acquire`: no slot yet. -/
  | acquiring
  /-- The slot is taken, and written nowhere yet. -/
  | took (k : ℤ)
  | stored (k : ℤ)
  /-- The instance runs with the id of the slot. -/
  | up (k : ℤ)
  /-- The instance runs with no slot: it fell back, or it was stopped. -/
  | down
  /-- The renew thread, in `wait_for` or not created yet. -/
  | waiting
  | awake
  | loaded (id : ℤ)
  /-- The renewal was refused. -/
  | refused

namespace Phase

/-- `acquire` has returned, or is about to. -/
def Settled : Phase → Prop
  | up _ => True
  | down => True
  | _ => False

/-- The renew thread is out of `wait_for`. -/
def Active : Phase → Prop
  | awake => True
  | loaded _ => True
  | refused => True
  | _ => False

end Phase

open Phase

/-- The contract of the thread that calls `acquire` and `stop`. -/
def mainContract (o : String) : Contract LeaseOp LeaseOp.Res Phase where
  allowed
    | acquiring, incr => True
    | acquiring, setNx _ o' => o' = o
    | acquiring, storeAllocated _ => True
    | took k, storeAllocated id => id = k
    | stored _, storeRunning b => b = true
    | up _, createThread => True
    | up _, storeRunning b => b = false
    | down, storeRunning b => b = false
    | down, join => True
    | down, loadAllocated => True
    | down, loadLeaseLost => True
    | down, evalRelease _ o' => o' = o
    | _, _ => False
  admits _ _ _ := True
  next
    | acquiring, setNx k _, r => if r = some true then took k else acquiring
    | acquiring, storeAllocated _, _ => down
    | took k, storeAllocated _, _ => stored k
    | stored k, storeRunning _, _ => up k
    | up _, storeRunning _, _ => down
    | t, _, _ => t

/-- The contract of the renew thread. -/
def renewContract (o : String) : Contract LeaseOp LeaseOp.Res Phase where
  allowed
    | refused, storeLeaseLost => True
    | refused, _ => False
    | _, waitFor => True
    | awake, loadAllocated => True
    | awake, exitThread => True
    | loaded id, evalRenew k o' => k = id ∧ o' = o
    | _, _ => False
  admits _ _ _ := True
  next
    | _, waitFor, _ => awake
    | awake, loadAllocated, id => loaded id
    | loaded _, evalRenew _ _, r => if refuses r then refused else awake
    | refused, storeLeaseLost, _ => awake
    | t, _, _ => t

def contract (owner : ℕ → String) : Thread → Contract LeaseOp LeaseOp.Res Phase
  | .main i => mainContract (owner i)
  | .renew i => renewContract (owner i)

@[simp] theorem contract_main (owner : ℕ → String) (i : ℕ) :
    contract owner (.main i) = mainContract (owner i) := rfl

@[simp] theorem contract_renew (owner : ℕ → String) (i : ℕ) :
    contract owner (.renew i) = renewContract (owner i) := rfl

/-- The phases in which a control point is entered. -/
def Enter : Thread → Phase → Control → Prop
  | .main _, t, .start => t = acquiring
  | .main _, t, .serve => t.Settled
  | .main _, _, _ => False
  | .renew _, t, _ => t ≠ refused


section Contracts

variable {o : String} {fallback : ℤ} {k : ℤ}

theorem fall_back_meets : (fall_back fallback).Meets (mainContract o) acquiring
    fun t _ ↦ t.Settled :=
  ⟨trivial, fun _ _ ↦ trivial⟩

/-- The scan ends with a slot, or without one. -/
theorem scan_meets (start i : ℤ) (n : ℕ) : (scan o fallback start i n).Meets (mainContract o)
    acquiring fun t _ ↦ t.Settled := by
  induction n generalizing i with
  | zero => exact fall_back_meets
  | succ n ih =>
    refine meets_op_bind.2 ⟨rfl, fun r _ ↦ ?_⟩
    match r with
    | none => exact fall_back_meets
    | some false => exact ih (i + 1)
    | some true =>
      exact ⟨rfl, fun _ _ ↦ ⟨rfl, fun _ _ ↦ ⟨trivial, fun _ _ ↦ trivial⟩⟩⟩

theorem acquire_meets : (acquire o fallback).Meets (mainContract o) acquiring
    fun t _ ↦ t.Settled := by
  refine meets_op_bind.2 ⟨trivial, fun r _ ↦ ?_⟩
  match r with
  | none => exact fall_back_meets
  | some base => exact scan_meets _ _ _

theorem release_slot_meets (allocated : ℤ) : (release_slot o allocated).Meets (mainContract o) down
    fun t _ ↦ t.Settled := by
  rw [release_slot]
  split
  · refine meets_op_bind.2 ⟨trivial, fun lost _ ↦ ?_⟩
    match lost with
    | true => exact trivial
    | false => exact ⟨rfl, fun _ _ ↦ trivial⟩
  · exact trivial

theorem stop_meets {t : Phase} (ht : t.Settled) : (stop o).Meets (mainContract o) t
    fun t _ ↦ t.Settled := by
  have hdown : (mainContract o).allowed t (storeRunning false) ∧
      ∀ r, (mainContract o).next t (storeRunning false) r = down := by
    match t, ht with
    | up _, _ => exact ⟨rfl, fun _ ↦ rfl⟩
    | down, _ => exact ⟨rfl, fun _ ↦ rfl⟩
  refine meets_op_bind.2 ⟨hdown.1, fun r _ ↦ ?_⟩
  rw [hdown.2 r]
  exact ⟨trivial, fun _ _ ↦ ⟨trivial, fun id _ ↦ release_slot_meets id⟩⟩

theorem renew_round_meets {t : Phase} (ht : t ≠ refused) :
    (renew_round o).Meets (renewContract o) t fun t _ ↦ t ≠ refused := by
  have hawake : (renewContract o).allowed t waitFor ∧
      ∀ r, (renewContract o).next t waitFor r = awake := by
    refine ⟨?_, fun r ↦ rfl⟩
    cases t with
    | refused => exact absurd rfl ht
    | _ => exact trivial
  refine meets_op_bind.2 ⟨hawake.1, fun stopped _ ↦ ?_⟩
  rw [hawake.2 stopped]
  match stopped with
  | true => exact ⟨trivial, fun _ _ ↦ nofun⟩
  | false =>
    refine meets_op_bind.2 ⟨trivial, fun id _ ↦ ?_⟩
    show (if id < 0 ∨ kMaxWorkerId ≤ id then pure .renew else _ : LeaseM Control).Meets _
      (loaded id) _
    split
    · exact nofun
    · refine meets_op_bind.2 ⟨⟨rfl, rfl⟩, fun ok _ ↦ ?_⟩
      match ok with
      | none => exact nofun
      | some ok =>
        by_cases hok : ok = 1
        · subst hok
          exact nofun
        · have hrefused : refuses (some ok) = true := by simpa [refuses] using hok
          show (if ok ≠ 1 then _ else pure .renew : LeaseM Control).Meets _
            (if refuses (some ok) then refused else awake) _
          rw [if_pos hok, if_pos hrefused]
          exact ⟨trivial, fun _ _ ↦ ⟨trivial, fun _ _ ↦ nofun⟩⟩

/-- Each round meets the contract of its thread. -/
theorem round_meets {owner : ℕ → String} {fallback : ℕ → ℤ} {t : Thread} {ph : Phase} {k : Control}
    (h : Enter t ph k) : (round owner fallback t k).Meets (contract owner t) ph (Enter t) := by
  match t, k, h with
  | .main i, .start, h =>
    obtain rfl : ph = acquiring := h
    exact acquire_meets.bind fun t _ ht ↦ ht
  | .main i, .serve, h => exact (stop_meets h).bind fun t _ ht ↦ ht
  | .renew i, .renew, h => exact renew_round_meets h
  | .renew i, .start, h => exact h
  | .renew i, .serve, h => exact h
  | .renew i, .exited, h => exact h

end Contracts

/-! ### The invariant -/

/-- What a phase of the main thread says of its instance and of the slot. -/
def MainOk (o : String) (redis : Redis) (x : Instance) : Phase → Prop
  | acquiring => x.running = false
  | took k => x.running = false ∧ redis.Leased k o
  | stored k => x.running = false ∧ redis.Leased k o ∧ x.allocated = k
  | up k => redis.Leased k o ∧ x.allocated = k
  | down => x.running = false
  | _ => False

/-- What holds of an instance with owner string `o`, whose threads are in the phases `m` and `r`. -/
structure Good (o : String) (redis : Redis) (x : Instance) (m r : Phase) : Prop where
  main : MainOk o redis x m
  launched : x.renewing = true → m.Settled
  active : r.Active → m.Settled
  loaded : ∀ id, r = loaded id → id = x.allocated
  told : x.refused = true → x.lease_lost = true ∨ r = refused

section Steps

variable {o : String} {redis redis' : Redis} {x : Instance} {m r : Phase} {s s' : Shared} {i j : ℕ}
  {c : LeaseOp} {f : Fault} {res : c.Res}

theorem MainOk.frame (h : MainOk o redis x m)
    (hleased : ∀ k, redis.Leased k o → redis'.Leased k o) : MainOk o redis' x m := by
  match m, h with
  | acquiring, h => exact h
  | took k, h => exact ⟨h.1, hleased k h.2⟩
  | stored k, h => exact ⟨h.1, hleased k h.2.1, h.2.2⟩
  | up k, h => exact ⟨hleased k h.1, h.2⟩
  | down, h => exact h

/-- The renew thread changes nothing that the phase of the main thread speaks of. -/
theorem MainOk.congr {x' : Instance} (h : MainOk o redis x m) (hrunning : x'.running = x.running)
    (hallocated : x'.allocated = x.allocated) : MainOk o redis x' m := by
  match m, h with
  | acquiring, h => exact hrunning.trans h
  | took k, h => exact ⟨hrunning.trans h.1, h.2⟩
  | stored k, h => exact ⟨hrunning.trans h.1, h.2.1, hallocated.trans h.2.2⟩
  | up k, h => exact ⟨h.1, hallocated.trans h.2⟩
  | down, h => exact hrunning.trans h

theorem Good.frame (h : Good o redis x m r)
    (hleased : ∀ k, redis.Leased k o → redis'.Leased k o) : Good o redis' x m r :=
  { h with main := h.main.frame hleased }

/-- The main thread moves to a settled phase, and leaves alone what the renew thread speaks of. -/
theorem Good.move {m' : Phase} {g : Instance → Instance} (h : Good o s.redis (s.insts i) m r)
    (hmain : MainOk o s.redis (g (s.insts i)) m') (hsettled : m'.Settled)
    (hallocated : (g (s.insts i)).allocated = (s.insts i).allocated)
    (hrefused : (g (s.insts i)).refused = (s.insts i).refused)
    (hlost : (g (s.insts i)).lease_lost = (s.insts i).lease_lost) :
    Good o (s.modify i g).redis ((s.modify i g).insts i) m' r := by
  refine ⟨?_, fun _ ↦ hsettled, fun _ ↦ hsettled, ?_, ?_⟩ <;> rw [Shared.modify_insts]
  · exact hmain
  · rw [hallocated]
    exact h.loaded
  · rw [hrefused, hlost]
    exact h.told

/-- A fault decides whether Redis changes, and whether there is an answer. -/
theorem answer_cases {α : Type} (s : Shared) (y : α × Redis) (f : Fault) :
    (s.answer y f).2.insts = s.insts ∧
      ((s.answer y f).2.redis = s.redis ∧ (s.answer y f).1 = none ∨
        (s.answer y f).2.redis = y.2 ∧ ∀ a, (s.answer y f).1 = some a → a = y.1) := by
  cases f with
  | none => exact ⟨rfl, .inr ⟨rfl, fun a h ↦ (Option.some.inj h).symm⟩⟩
  | before => exact ⟨rfl, .inl ⟨rfl, rfl⟩⟩
  | after => exact ⟨rfl, .inr ⟨rfl, nofun⟩⟩

/-- A call changes the members of its own instance only. -/
theorem exec_insts (hx : exec i c f s = some (res, s')) (hj : j ≠ i) : s'.insts j = s.insts j := by
  have hmodify : ∀ (s : Shared) f, (s.modify i f).insts j = s.insts j :=
    fun s ↦ s.modify_insts_of_ne hj
  cases c with
  | evalRenew k o =>
    obtain ⟨-, rfl⟩ := Prod.ext_iff.1 (Option.some.inj hx)
    have hinsts := (answer_cases s (s.redis.renew k o) f).1
    dsimp only
    split
    · rw [hmodify, hinsts]
    · rw [hinsts]
  | waitFor =>
    simp only [exec] at hx
    split at hx
    · obtain ⟨-, rfl⟩ := Prod.ext_iff.1 (Option.some.inj hx)
      rfl
    · cases hx
  | join =>
    simp only [exec] at hx
    split at hx
    · cases hx
    · obtain ⟨-, rfl⟩ := Prod.ext_iff.1 (Option.some.inj hx)
      rfl
  | _ =>
    obtain ⟨-, rfl⟩ := Prod.ext_iff.1 (Option.some.inj hx)
    first
      | rfl
      | exact congrFun (answer_cases s _ f).1 j
      | simp only [hmodify]

/-- What no call of an instance takes from another one: its lease. -/
def Spares (o : String) (redis redis' : Redis) : Prop :=
  ∀ o' ≠ o, ∀ k, redis.Leased k o' → redis'.Leased k o'

theorem Spares.refl : Spares o redis redis := fun _ _ _ h ↦ h

/-- A command that spares the others does so whatever goes wrong with it. -/
theorem spares_answer {α : Type} {y : α × Redis} (h : Spares o s.redis y.2) :
    Spares o s.redis (s.answer y f).2.redis := by
  rcases (answer_cases s y f).2 with ⟨hsame, -⟩ | ⟨hsame, -⟩
  · rw [hsame]
    exact .refl
  · rw [hsame]
    exact h

/-- A step of the thread that calls `acquire` and `stop`. -/
theorem main_step (h : Good o s.redis (s.insts i) m r) (ha : (mainContract o).allowed m c)
    (hx : exec i c f s = some (res, s')) :
    Good o s'.redis (s'.insts i) ((mainContract o).next m c res) r ∧
      Spares o s.redis s'.redis := by
  match m, c, ha with
  | acquiring, incr, _ =>
    obtain ⟨-, rfl⟩ := Prod.ext_iff.1 (Option.some.inj hx)
    obtain ⟨hinsts, -⟩ := answer_cases s s.redis.incr f
    refine ⟨?_, spares_answer fun o' _ k hk ↦ hk.incr⟩
    rw [hinsts]
    exact ⟨h.main, h.launched, h.active, h.loaded, h.told⟩
  | acquiring, setNx k _, rfl =>
    obtain ⟨rfl, rfl⟩ := Prod.ext_iff.1 (Option.some.inj hx)
    obtain ⟨hinsts, hcase⟩ := answer_cases s (s.redis.setNx k o) f
    refine ⟨?_, spares_answer fun o' ho' k' hk' ↦ hk'.setNx ho'.symm⟩
    rw [hinsts]
    have hactive : ¬ r.Active := fun hr ↦ h.active hr
    have hlaunched : (s.insts i).renewing ≠ true := fun hr ↦ h.launched hr
    refine ⟨?_, fun hr ↦ absurd hr hlaunched, fun hr ↦ absurd hr hactive, h.loaded, h.told⟩
    show MainOk _ _ _ (if (s.answer (s.redis.setNx k o) f).1 = some true then took k else acquiring)
    split
    · next htrue =>
      rcases hcase with ⟨-, hnone⟩ | ⟨hredis, hsome⟩
      · rw [hnone] at htrue
        cases htrue
      · have hset := hsome true htrue
        rw [hredis]
        refine ⟨h.main, ?_⟩
        rw [Redis.setNx] at hset ⊢
        split
        · exact Redis.leased_lease
        · next hk => rw [if_neg hk] at hset; cases hset
    · exact h.main
  | acquiring, storeAllocated _, _ =>
    obtain ⟨-, rfl⟩ := Prod.ext_iff.1 (Option.some.inj hx)
    refine ⟨⟨?_, fun _ ↦ trivial, fun _ ↦ trivial, fun id hid ↦ ?_, ?_⟩, .refl⟩
    · rw [Shared.modify_insts]
      exact h.main
    · subst hid
      exact absurd trivial (fun hr ↦ h.active hr)
    · rw [Shared.modify_insts]
      exact h.told
  | took k, storeAllocated _, rfl =>
    obtain ⟨-, rfl⟩ := Prod.ext_iff.1 (Option.some.inj hx)
    refine ⟨⟨?_, ?_, fun hr ↦ (h.active hr).elim, fun id hid ↦ ?_, ?_⟩, .refl⟩
    · rw [Shared.modify_insts]
      exact ⟨h.main.1, h.main.2, rfl⟩
    · rw [Shared.modify_insts]
      exact fun hr ↦ (h.launched hr).elim
    · subst hid
      exact (h.active trivial).elim
    · rw [Shared.modify_insts]
      exact h.told
  | stored k, storeRunning _, rfl =>
    obtain ⟨-, rfl⟩ := Prod.ext_iff.1 (Option.some.inj hx)
    exact ⟨h.move h.main.2 trivial rfl rfl rfl, .refl⟩
  | up k, createThread, _ =>
    obtain ⟨-, rfl⟩ := Prod.ext_iff.1 (Option.some.inj hx)
    exact ⟨h.move h.main trivial rfl rfl rfl, .refl⟩
  | up k, storeRunning _, rfl =>
    obtain ⟨-, rfl⟩ := Prod.ext_iff.1 (Option.some.inj hx)
    exact ⟨h.move rfl trivial rfl rfl rfl, .refl⟩
  | down, storeRunning _, rfl =>
    obtain ⟨-, rfl⟩ := Prod.ext_iff.1 (Option.some.inj hx)
    exact ⟨h.move rfl trivial rfl rfl rfl, .refl⟩
  | down, join, _ =>
    simp only [exec] at hx
    split at hx
    · cases hx
    · obtain ⟨-, rfl⟩ := Prod.ext_iff.1 (Option.some.inj hx)
      exact ⟨h, .refl⟩
  | down, loadAllocated, _ =>
    obtain ⟨-, rfl⟩ := Prod.ext_iff.1 (Option.some.inj hx)
    exact ⟨h, .refl⟩
  | down, loadLeaseLost, _ =>
    obtain ⟨-, rfl⟩ := Prod.ext_iff.1 (Option.some.inj hx)
    exact ⟨h, .refl⟩
  | down, evalRelease k _, rfl =>
    obtain ⟨-, rfl⟩ := Prod.ext_iff.1 (Option.some.inj hx)
    obtain ⟨hinsts, -⟩ := answer_cases s (s.redis.release k o) f
    refine ⟨?_, spares_answer fun o' ho' k' hk' ↦ hk'.release ho'.symm⟩
    rw [hinsts]
    exact ⟨h.main, h.launched, h.active, h.loaded, h.told⟩

/-- A step of the renew thread. -/
theorem renew_step (h : Good o s.redis (s.insts i) m r) (ha : (renewContract o).allowed r c)
    (hx : exec i c f s = some (res, s')) :
    Good o s'.redis (s'.insts i) m ((renewContract o).next r c res) ∧
      Spares o s.redis s'.redis := by
  match c, r, ha with
  | waitFor, r, hr =>
    simp only [exec] at hx
    split at hx
    · next hrenewing =>
      obtain ⟨-, rfl⟩ := Prod.ext_iff.1 (Option.some.inj hx)
      refine ⟨⟨h.main, h.launched, fun _ ↦ h.launched hrenewing, nofun, fun hrefused ↦ ?_⟩, .refl⟩
      rcases h.told hrefused with hlost | rfl
      · exact .inl hlost
      · exact hr.elim
    · cases hx
  | loadAllocated, awake, _ =>
    obtain ⟨rfl, rfl⟩ := Prod.ext_iff.1 (Option.some.inj hx)
    refine ⟨⟨h.main, h.launched, fun _ ↦ h.active trivial, fun id hid ↦ ?_, fun hrefused ↦ ?_⟩,
      .refl⟩
    · exact (loaded.inj hid).symm
    · exact .inl ((h.told hrefused).resolve_right nofun)
  | exitThread, awake, _ =>
    obtain ⟨-, rfl⟩ := Prod.ext_iff.1 (Option.some.inj hx)
    refine ⟨⟨?_, ?_, fun _ ↦ h.active trivial, nofun, ?_⟩, .refl⟩ <;> rw [Shared.modify_insts]
    · exact h.main.congr rfl rfl
    · exact nofun
    · exact h.told
  | storeLeaseLost, refused, _ =>
    obtain ⟨-, rfl⟩ := Prod.ext_iff.1 (Option.some.inj hx)
    refine ⟨⟨?_, ?_, fun _ ↦ h.active trivial, nofun, ?_⟩, .refl⟩ <;> rw [Shared.modify_insts]
    · exact h.main.congr rfl rfl
    · exact h.launched
    · exact fun _ ↦ .inl rfl
  | evalRenew k _, loaded _, ⟨rfl, rfl⟩ =>
    obtain ⟨rfl, rfl⟩ := Prod.ext_iff.1 (Option.some.inj hx)
    obtain ⟨hinsts, hcase⟩ := answer_cases s (s.redis.renew k o) f
    have hmain : MainOk o (s.answer (s.redis.renew k o) f).2.redis (s.insts i) m := by
      rcases hcase with ⟨hsame, -⟩ | ⟨hsame, -⟩
      · rw [hsame]
        exact h.main
      · rw [hsame]
        match m, h.main, h.active trivial with
        | down, hdown, _ => exact hdown
        | up k', ⟨hleased, hk'⟩, _ =>
          -- the id that was loaded is the one that the instance runs with
          obtain rfl : k = k' := (h.loaded k rfl).trans hk'
          exact ⟨hleased.renew_self, hk'⟩
    have hspares := spares_answer (f := f) (s := s) (y := s.redis.renew k o)
      fun o' ho' k' hk' ↦ hk'.renew ho'.symm
    show Good o (if refuses (s.answer (s.redis.renew k o) f).1 then _ else _ : Shared).redis
      ((if refuses (s.answer (s.redis.renew k o) f).1 then _ else _ : Shared).insts i) m
      (if refuses (s.answer (s.redis.renew k o) f).1 then refused else awake) ∧ _
    split
    · refine ⟨⟨?_, ?_, fun _ ↦ h.active trivial, nofun, fun _ ↦ .inr rfl⟩, hspares⟩
      · rw [Shared.modify_insts, hinsts]
        exact hmain.congr rfl rfl
      · rw [Shared.modify_insts, hinsts]
        exact h.launched
    · refine ⟨⟨?_, ?_, fun _ ↦ h.active trivial, nofun, ?_⟩, hspares⟩
      · rw [hinsts]
        exact hmain
      · rw [hinsts]
        exact h.launched
      · rw [hinsts]
        exact fun hrefused ↦ .inl ((h.told hrefused).resolve_right nofun)

end Steps

section Runs

variable {owner : ℕ → String} {fallback : ℕ → ℤ} {redis : Redis} {s : State}

/-- In every state of every run each instance is as its two phases say. -/
theorem good_of_reach (howner : Function.Injective owner)
    (hr : (fleet owner fallback).Reach (init redis) s) :
    ∃ ts : Thread → Phase,
      (∀ i, Good (owner i) s.shared.redis (s.shared.insts i) (ts (.main i)) (ts (.renew i))) ∧
      ∀ t, (s.procs t).Meets (contract owner t) (ts t) (Enter t) := by
  refine Fleet.invariant (C := contract owner) (E := Enter)
    (I := fun ts s ↦ ∀ i, Good (owner i) s.redis (s.insts i) (ts (.main i)) (ts (.renew i)))
    hr ?_ round_meets ?_ ?_
  · refine ⟨fun | .main _ => acquiring | .renew _ => waiting, fun i ↦ ?_, fun t ↦ ?_⟩
    · exact ⟨rfl, nofun, False.elim, nofun, nofun⟩
    · cases t with
      | main i => exact rfl
      | renew i => exact nofun
  · intro ts s t o f res s' hinv ha hx
    refine ⟨by cases t <;> trivial, fun j ↦ ?_⟩
    cases t with
    | main i =>
      obtain ⟨hgood, hspares⟩ := main_step (hinv i) ha hx
      rcases eq_or_ne j i with rfl | hji
      · simpa using hgood
      · have hframe := (hinv j).frame (hspares (owner j) (howner.ne hji))
        simpa [exec_insts hx hji, hji] using hframe
    | renew i =>
      obtain ⟨hgood, hspares⟩ := renew_step (hinv i) ha hx
      rcases eq_or_ne j i with rfl | hji
      · simpa using hgood
      · have hframe := (hinv j).frame (hspares (owner j) (howner.ne hji))
        simpa [exec_insts hx hji, hji] using hframe
  · rintro ts s d s' hinv hs j
    obtain rfl := Option.some.inj hs
    exact (hinv j).frame fun k hk ↦ hk.tick d

/-- An instance that runs with an id holds the slot of that id as long as its lease runs. -/
theorem Good.leased {o : String} {redis : Redis} {x : Instance} {m r : Phase} {id : ℤ}
    (h : Good o redis x m r) (hrunning : x.running = true) (hid : x.allocated = id) :
    redis.Leased id o := by
  match m, h.main with
  | acquiring, hoff => exact nomatch hrunning.symm.trans hoff
  | took _, ⟨hoff, _⟩ => exact nomatch hrunning.symm.trans hoff
  | stored _, ⟨hoff, _⟩ => exact nomatch hrunning.symm.trans hoff
  | down, hoff => exact nomatch hrunning.symm.trans hoff
  | up k, ⟨hleased, hk⟩ =>
    obtain rfl : k = id := hk.symm.trans hid
    exact hleased

/-- **Two instances that run with one id.** The lease of one of them has run out: Redis has carried
out neither a SET nor a renewal for it for `kLeaseSec`. Redis refuses a renewal of an instance while
another one that runs with its id is in its lease, and an instance that was refused has reported the
loss by the end of that round. -/
theorem lease_overlap (howner : Function.Injective owner)
    (hr : (fleet owner fallback).Reach (init redis) s) :
    (∀ i j id, i ≠ j → s.shared.Runs i id → s.shared.Runs j id →
      (s.shared.insts i).lease_lost = false → (s.shared.insts j).lease_lost = false →
        ¬ s.shared.redis.InLease (owner i) ∨ ¬ s.shared.redis.InLease (owner j)) ∧
    (∀ i j id, i ≠ j → s.shared.Runs i id → s.shared.Runs j id →
      s.shared.redis.InLease (owner j) → (s.shared.redis.renew id (owner i)).1 = 0) ∧
    ∀ i, (s.shared.insts i).refused = true → (∃ k, s.procs (.renew i) = .ret k) →
      (s.shared.insts i).lease_lost = true := by
  obtain ⟨ts, hgood, hmeets⟩ := good_of_reach howner hr
  refine ⟨fun i j id hij hi hj _ _ ↦ ?_, fun i j id hij hi hj hin ↦ ?_, fun i hrefused ⟨k, hk⟩ ↦ ?_⟩
  · by_contra hboth
    obtain ⟨hini, hinj⟩ := not_or.1 hboth
    have hgeti := ((hgood i).leased hi.1 hi.2).get (not_not.1 hini)
    have hgetj := ((hgood j).leased hj.1 hj.2).get (not_not.1 hinj)
    exact hij (howner (Option.some.inj (hgeti.symm.trans hgetj)))
  · have hgetj := ((hgood j).leased hj.1 hj.2).get hin
    have hne : s.shared.redis.get id ≠ some (owner i) := by
      rw [hgetj]
      exact fun h ↦ hij (howner (Option.some.inj h)).symm
    rw [Redis.renew, if_neg hne]
  · have hround := hmeets (.renew i)
    rw [hk, meets_ret] at hround
    exact ((hgood i).told hrefused).resolve_right hround

end Runs

/-! ### A lease that runs out

Instance 0 takes slot 0, and each of its renewals meets an exception. Meanwhile the INCR of each
other instance is carried out and its answer is lost, so that it falls back, and the 1025th draw of
the sequence begins at slot 0 again. -/

section Overlap

variable {s₀ s : State} {t n : ℕ}

/-- Instances that are numbered in decimal, with one fallback. -/
abbrev hosts : Fleet Thread LeaseOp LeaseOp.Res Control Shared Fault ℕ := fleet toString fun _ ↦ 5

theorem toString_injective : Function.Injective (toString : ℕ → String) :=
  fun _ _ h ↦ toString_inj.1 h

/-- Instance 0 runs with id 0, the time is `t`, and `n` more instances have fallen back. -/
structure Stage (t n : ℕ) (s : State) : Prop where
  now : s.shared.redis.now = t
  seq : s.shared.redis.seq = n + 1
  slot : s.shared.redis.slots 0 = some ⟨toString 0, 300000⟩
  first : s.shared.insts 0 = { running := true, allocated := 0, renewing := true }
  renewer : s.procs (.renew 0) = .ret .renew
  rest : ∀ j, n < j → s.procs (.main j) = .ret .start ∧ s.shared.insts j = {}

theorem stage_zero : ∃ s, hosts.Reach (init {}) s ∧ Stage 0 0 s := by
  have hacquire := Fleet.reach_round (i := .main 0) (List.replicate 5 .none)
    (.refl : hosts.Reach (init {}) _) rfl rfl
  refine ⟨_, hacquire, rfl, rfl, rfl, rfl, rfl, fun j hj ↦ ?_⟩
  have hne : j ≠ 0 := by omega
  simp [Shared.modify, Shared.answer, init, Thread.inst, hne]

/-- A renewal that does not reach Redis changes nothing. -/
theorem solo_late {s : Shared}
    (h : s.insts 0 = { running := true, allocated := 0, renewing := true }) :
    hosts.solo (.renew 0) [.none, .none, .before] (hosts.round (.renew 0) .renew) s =
      some (.renew, s) := by
  simp [Fleet.solo, fleet, round, renew_round, exec, Thread.inst, h, kMaxWorkerId, refuses,
    Shared.answer]

/-- A minute passes, and the renewal does not reach Redis. -/
theorem Stage.late (h : Stage t n s) (hr : hosts.Reach s₀ s) :
    ∃ s', hosts.Reach s₀ s' ∧ Stage (t + 60000) n s' := by
  have htick : hosts.Reach s₀ _ := hr.tail ⟨.event 60000, trivial, rfl⟩
  have hround := Fleet.reach_round _ htick h.renewer (solo_late h.first)
  refine ⟨_, hround, ?_, h.seq, h.slot, h.first, ?_, fun j hj ↦ ?_⟩
  · exact congrArg (· + 60000) h.now
  · exact Function.update_self (Thread.renew 0) (ret Control.renew) s.procs
  · exact ⟨(h.rest j hj).1, (h.rest j hj).2⟩

/-- One more instance falls back. -/
theorem Stage.next (h : Stage t n s) (hr : hosts.Reach s₀ s) :
    ∃ s', hosts.Reach s₀ s' ∧ Stage t (n + 1) s' := by
  have hround := Fleet.reach_round [.after, .none] hr (h.rest (n + 1) (by omega)).1 rfl
  have hinsts : ∀ j ≠ n + 1, ((s.shared.answer s.shared.redis.incr .after).2.modify (n + 1)
      ({ · with allocated := 5 })).insts j = s.shared.insts j :=
    fun j hj ↦ Shared.modify_insts_of_ne _ hj _
  refine ⟨_, hround, h.now, ?_, h.slot, (hinsts 0 (by omega)).trans h.first, h.renewer,
    fun j hj ↦ ?_⟩
  · show s.shared.redis.seq + 1 = _
    rw [h.seq]
    push_cast
    rfl
  · have hne : j ≠ n + 1 := by omega
    obtain ⟨hproc, hinst⟩ := h.rest j (by omega)
    exact ⟨by simpa [hne] using hproc, (hinsts j hne).trans hinst⟩

theorem stage_end : ∃ s, hosts.Reach (init {}) s ∧ Stage 300000 1023 s := by
  have hlate : ∃ s, hosts.Reach (init {}) s ∧ Stage 300000 0 s := by
    obtain ⟨s₀, hr, h⟩ := stage_zero
    obtain ⟨s₁, hr, h⟩ := h.late hr
    obtain ⟨s₂, hr, h⟩ := h.late hr
    obtain ⟨s₃, hr, h⟩ := h.late hr
    obtain ⟨s₄, hr, h⟩ := h.late hr
    exact h.late hr
  have hnext : ∀ n, ∃ s, hosts.Reach (init {}) s ∧ Stage 300000 n s := by
    intro n
    induction n with
    | zero => exact hlate
    | succ n ih =>
      obtain ⟨s, hr, h⟩ := ih
      exact h.next hr
  exact hnext 1023

/-- The draw of 1025 begins at slot 0, and takes it when nobody holds it. -/
theorem solo_acquire {i : ℕ} {s : Shared} (hseq : s.redis.seq = 1024)
    (hfree : s.redis.get 0 = none) :
    hosts.solo (.main i) (List.replicate 5 .none) (hosts.round (.main i) .start) s = some (.serve,
      (({ s with redis := Redis.lease { s.redis with seq := 1025 } 0 (toString i) }.modify i
        ({ · with allocated := 0 })).modify i ({ · with running := true })).modify i
          ({ · with renewing := true })) := by
  obtain ⟨⟨now, seq, slots, renewed⟩, insts⟩ := s
  obtain rfl : seq = 1024 := hseq
  have hincr : hosts.exec (.main i) incr .none ⟨⟨now, 1024, slots, renewed⟩, insts⟩ =
      some (some 1025, ⟨⟨now, 1025, slots, renewed⟩, insts⟩) := rfl
  have hset : hosts.exec (.main i) (setNx 0 (toString i)) .none
      ⟨⟨now, 1025, slots, renewed⟩, insts⟩ =
        some (some true, ⟨Redis.lease ⟨now, 1025, slots, renewed⟩ 0 (toString i), insts⟩) := by
    have hfree' : (⟨now, 1025, slots, renewed⟩ : Redis).get 0 = none := hfree
    simp only [fleet, exec, Redis.setNx, hfree', Shared.answer, if_true]
  exact (Fleet.solo_call hincr).trans ((Fleet.solo_call hset).trans rfl)

/-- Instances 0 and 1024 run with id 0, and neither reports a loss. -/
theorem overlap : ∃ s, hosts.Reach (init {}) s ∧ s.shared.Runs 0 0 ∧ s.shared.Runs 1024 0 ∧
    (s.shared.insts 0).lease_lost = false ∧ (s.shared.insts 1024).lease_lost = false := by
  obtain ⟨s, hr, h⟩ := stage_end
  obtain ⟨hproc, hinst⟩ := h.rest 1024 (by omega)
  have hfree : s.shared.redis.get 0 = none := by
    simp [Redis.get, h.slot, h.now]
  have hround := Fleet.reach_round _ hr hproc (solo_acquire (h.seq.trans rfl) hfree)
  refine ⟨_, hround, ?_⟩
  simp [Shared.Runs, Shared.modify, h.first, hinst]

/-- So the ids of the instances that report no loss are not unique. -/
theorem worker_id_twice : ¬ ∀ (owner : ℕ → String) (fallback : ℕ → ℤ) (redis : Redis) (s : State),
    Function.Injective owner → (fleet owner fallback).Reach (init redis) s →
      ∀ i j id, i ≠ j → s.shared.Runs i id → s.shared.Runs j id →
        (s.shared.insts i).lease_lost = true ∨ (s.shared.insts j).lease_lost = true := by
  intro hunique
  obtain ⟨s, hr, hfirst, hsecond, hi, hj⟩ := overlap
  rcases hunique _ _ _ s toString_injective hr 0 1024 0 (by omega) hfirst hsecond with h | h
  · exact nomatch hi.symm.trans h
  · exact nomatch hj.symm.trans h

/-- The bound at that moment: more than a lease has passed for one of the two. -/
theorem lease_overlap_hosts : ∃ s, hosts.Reach (init {}) s ∧ s.shared.Runs 0 0 ∧
    s.shared.Runs 1024 0 ∧ (¬ s.shared.redis.InLease (toString 0) ∨
      ¬ s.shared.redis.InLease (toString 1024)) := by
  obtain ⟨s, hr, hfirst, hsecond, hi, hj⟩ := overlap
  have hlease := (lease_overlap toString_injective hr).1 0 1024 0 (by omega) hfirst hsecond hi hj
  exact ⟨s, hr, hfirst, hsecond, hlease⟩

end Overlap

end ChatNow.WorkerIdAllocator
