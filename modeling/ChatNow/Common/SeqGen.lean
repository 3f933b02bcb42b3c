import ChatNow.Lib.Pool
import ChatNow.Lib.Rounding
import Mathlib.Data.List.Dedup
import Mathlib.Logic.Function.Basic

/-!
# Session sequence numbers

`SeqGen` of `common/dao/data_redis.hpp`, as SendMessage uses it, and the backfill that a message
service runs when it starts. The numbers of a conversation live in a Redis counter, in messages on
their way to the table, and in the table; each of them can be ahead of the next.

* `next_session_seq`, `send`: a request takes a number and publishes a message with it.
* `backfill_seq_from_db`: the counters are raised to one more than the maximum of the table.
* `seq_unique`: as long as no number is drawn from a counter that was lost, and a lost counter is
  restored from a table that has caught up (`recovered`), no number is received twice.
* `seq_twice`, `seq_twice_in_flight`: without that they are.

The comment of the class speaks of a maximum with the table at every call. `next_session_seq` has no
such thing; it is a bare INCR.
-/

namespace ChatNow.SeqGen

/-! ### The programs -/

inductive SeqOp
  /-- INCR of the counter of a conversation. -/
  | incr (ssid : String)
  /-- The message of a request goes to the queue. -/
  | publish (ssid : String) (seq : ℕ)
  | tryLock
  | unlock
  /-- `select_max_seq_by_session`. -/
  | selectMaxSeq
  /-- EVAL of `kBackfillLua`. -/
  | evalBackfill (ssid : String) (base : ℕ)

/-- What a call gets back; INCR gets nothing when the client throws. -/
abbrev SeqOp.Res : SeqOp → Type
  | incr _ => Option ℕ
  | tryLock => Bool
  | selectMaxSeq => List (String × ℕ)
  | _ => Unit

abbrev SeqM : Type → Type := Prog SeqOp SeqOp.Res

open Prog SeqOp

/-- `next_session_seq`. -/
def next_session_seq (ssid : String) : SeqM ℕ := do
  match ← op (incr ssid) with
  | some n => return n
  | none => return 0

/-- SendMessage, as far as the number of its message goes. -/
def send (ssid : String) : SeqM Unit := do
  let session_seq ← next_session_seq ssid
  if session_seq = 0 then return ()
  else op (publish ssid session_seq)

/-- `backfill_session`; the script's answer is not looked at, and an exception is logged. -/
def backfill_session (ssid : String) (base : ℕ) : SeqM Unit := op (evalBackfill ssid base)

/-- The loop of `backfill_seq_from_db_` over the conversations. -/
def backfill_rows : List (String × ℕ) → SeqM Unit
  | [] => return ()
  | (ssid, max_seq) :: session_seqs => do
    if max_seq > 0 then backfill_session ssid (max_seq + 1)
    backfill_rows session_seqs

/-- `backfill_seq_from_db_`, for the conversations. -/
def backfill_seq_from_db : SeqM Unit := do
  if ← op tryLock then
    let session_seqs ← op selectMaxSeq
    backfill_rows session_seqs
    op unlock

/-! ### The machine -/

/-- A message: the request that sent it, its conversation and its number. -/
structure Numbered where
  request : ℕ
  ssid : String
  seq : ℕ
  deriving DecidableEq

/-- What the table asks to be unique. -/
def Numbered.key (m : Numbered) : String × ℕ := (m.ssid, m.seq)

structure SeqState where
  /-- The counters in Redis. -/
  counters : String → Option ℕ := fun _ ↦ none
  /-- The numbers that requests have received. -/
  received : List Numbered := []
  /-- The messages that have been published. -/
  queue : List Numbered := []
  /-- The rows of the message table. -/
  table : List Numbered := []

namespace SeqState

variable (s : SeqState)

def setCounter (ssid : String) (v : Option ℕ) : SeqState :=
  { s with counters := Function.update s.counters ssid v }

theorem counters_setCounter (ssid ssid' : String) (v : Option ℕ) :
    (s.setCounter ssid v).counters ssid' = if ssid' = ssid then v else s.counters ssid' :=
  Function.update_apply _ _ _ _

/-- The number that the next INCR stands for. -/
def next (ssid : String) : ℕ := (s.counters ssid).getD 0 + 1

/-- An INCR that is answered. -/
def issue (i : ℕ) (ssid : String) : SeqState :=
  { s.setCounter ssid (some (s.next ssid)) with received := ⟨i, ssid, s.next ssid⟩ :: s.received }

/-- `kBackfillLua`, where Lua compares doubles. -/
def backfill (ssid : String) (base : ℕ) : SeqState :=
  match s.counters ssid with
  | none => s.setCounter ssid (some base)
  | some cur =>
    if roundBits 53 cur < roundBits 53 base then s.setCounter ssid (some base) else s

theorem received_backfill (ssid : String) (base : ℕ) :
    (s.backfill ssid base).received = s.received := by
  rw [backfill]
  split
  · rfl
  · split <;> rfl

/-- SELECT session_id, MAX(seq_id) ... GROUP BY session_id, in the order of the table. -/
def maxSeqs : List (String × ℕ) :=
  (s.table.map Numbered.ssid).dedup.map fun ssid ↦
    (ssid, ((s.table.filter (·.ssid = ssid)).map Numbered.seq).foldr max 0)

end SeqState

/-- What is left open at a call. -/
inductive Choice
  | answered
  /-- The client throws; the command may have been carried out. -/
  | thrown (carried_out : Bool)
  /-- Whether the lock is obtained in time. -/
  | locked (b : Bool)
  /-- The order of the rows of a query. -/
  | rows (session_seqs : List (String × ℕ))

/-- Redis counts in signed 64-bit numbers, and INCR fails past the last one. -/
def exec (i : ℕ) (o : SeqOp) (c : Choice) (s : SeqState) : Option (o.Res × SeqState) :=
  match o, c with
  | incr ssid, .answered => if s.next ssid < 2 ^ 63 then some (some (s.next ssid), s.issue i ssid)
    else some (none, s)
  | incr ssid, .thrown true => some (none, s.setCounter ssid (some (s.next ssid)))
  | incr _, .thrown false => some (none, s)
  | publish ssid seq, _ => some ((), { s with queue := ⟨i, ssid, seq⟩ :: s.queue })
  | tryLock, .locked b => some (b, s)
  | unlock, _ => some ((), s)
  | selectMaxSeq, .rows session_seqs =>
    if session_seqs.Perm s.maxSeqs then some (session_seqs, s) else none
  | selectMaxSeq, .thrown _ => some ([], s)
  | evalBackfill ssid base, .answered => some ((), s.backfill ssid base)
  | evalBackfill ssid base, .thrown true => some ((), s.backfill ssid base)
  | evalBackfill _ _, .thrown false => some ((), s)
  | _, _ => none

inductive Event
  /-- A request for a conversation arrives. -/
  | send (ssid : String)
  /-- A message service starts. -/
  | startup
  /-- A published message is written to the table; one whose number is there is rejected. -/
  | persist (m : Numbered)
  /-- A counter is lost. -/
  | lose (ssid : String)

abbrev SeqPool : Type := Pool SeqOp SeqOp.Res SeqState

def env (e : Event) (p : SeqPool) : Option SeqPool :=
  match e with
  | .send ssid => some { p with threads := p.threads ++ [SeqGen.send ssid] }
  | .startup => some { p with threads := p.threads ++ [backfill_seq_from_db] }
  | .persist m =>
    if m ∈ p.shared.queue then
      if m.key ∈ p.shared.table.map Numbered.key then some p
      else some { p with shared := { p.shared with table := m :: p.shared.table } }
    else none
  | .lose ssid => some { p with shared := p.shared.setCounter ssid none }

def machine : Machine SeqOp SeqOp.Res SeqState Choice Event where
  exec := exec
  env := env

def start : SeqPool := ⟨[], {}⟩

/-! ### The assumptions -/

/-- Every base of a backfill is below 2^53. -/
def bounded : Machine.Guard SeqOp SeqOp.Res SeqState Choice Event where
  onOp _ o _ _ :=
    match o with
    | evalBackfill _ base => base < 2 ^ 53
    | _ => True
  onEv _ _ := True

/-- Moreover the first number that is drawn from a counter that is not there is the first of its
conversation, and a counter that is not there is restored to at least every number received. -/
def recovered : Machine.Guard SeqOp SeqOp.Res SeqState Choice Event where
  onOp _ o _ s :=
    match o with
    | incr ssid => s.counters ssid = none → ∀ m ∈ s.received, m.ssid ≠ ssid
    | evalBackfill ssid base =>
      base < 2 ^ 53 ∧ (s.counters ssid = none → ∀ m ∈ s.received, m.ssid = ssid → m.seq ≤ base)
    | _ => True
  onEv _ _ := True

instance (i : ℕ) (o : SeqOp) (c : Choice) (s : SeqState) : Decidable (bounded.onOp i o c s) :=
  match o with
  | evalBackfill _ base => inferInstanceAs (Decidable (base < 2 ^ 53))
  | incr _ => .isTrue trivial
  | publish _ _ => .isTrue trivial
  | tryLock => .isTrue trivial
  | unlock => .isTrue trivial
  | selectMaxSeq => .isTrue trivial

instance (e : Event) (p : SeqPool) : Decidable (bounded.onEv e p) := .isTrue trivial

instance (i : ℕ) (o : SeqOp) (c : Choice) (s : SeqState) : Decidable (recovered.onOp i o c s) :=
  match o with
  | incr ssid =>
    inferInstanceAs (Decidable (s.counters ssid = none → ∀ m ∈ s.received, m.ssid ≠ ssid))
  | evalBackfill ssid base =>
    inferInstanceAs (Decidable (base < 2 ^ 53 ∧
      (s.counters ssid = none → ∀ m ∈ s.received, m.ssid = ssid → m.seq ≤ base)))
  | publish _ _ => .isTrue trivial
  | tryLock => .isTrue trivial
  | unlock => .isTrue trivial
  | selectMaxSeq => .isTrue trivial

instance (e : Event) (p : SeqPool) : Decidable (recovered.onEv e p) := .isTrue trivial

/-! ### What a thread has in hand -/

/-- The number that a request has received and not published yet. -/
inductive Phase
  | idle
  | holds (ssid : String) (seq : ℕ)

open Phase

/-- A message is published with the number that its request received. -/
def contract : Contract SeqOp SeqOp.Res Phase where
  allowed
    | idle, publish _ _ => False
    | idle, _ => True
    | holds ssid seq, publish ssid' seq' => ssid' = ssid ∧ seq' = seq
    | holds _ _, _ => False
  admits _ _ _ := True
  next
    | idle, incr ssid, some n => holds ssid n
    | _, _, _ => idle

theorem send_meets {ssid : String} : (send ssid).Meets contract idle fun _ _ ↦ True := by
  refine meets_op_bind.2 ⟨trivial, fun r _ ↦ ?_⟩
  match r with
  | none => exact trivial
  | some n =>
    show (if n = 0 then _ else _ : SeqM Unit).Meets contract (holds ssid n) _
    split
    · exact trivial
    · exact ⟨⟨rfl, rfl⟩, fun _ _ ↦ trivial⟩

theorem backfill_rows_meets (session_seqs : List (String × ℕ)) :
    (backfill_rows session_seqs).Meets contract idle fun t _ ↦ t = idle := by
  induction session_seqs with
  | nil => exact rfl
  | cons row session_seqs ih =>
    obtain ⟨ssid, max_seq⟩ := row
    rw [backfill_rows]
    split
    · exact ⟨trivial, fun _ _ ↦ ih⟩
    · exact ih

theorem backfill_seq_from_db_meets :
    backfill_seq_from_db.Meets contract idle fun _ _ ↦ True := by
  refine meets_op_bind.2 ⟨trivial, fun got _ ↦ ?_⟩
  match got with
  | false => exact trivial
  | true =>
    refine meets_op_bind.2 ⟨trivial, fun session_seqs _ ↦ ?_⟩
    refine (backfill_rows_meets session_seqs).bind ?_
    rintro _ _ rfl
    exact ⟨trivial, fun _ _ ↦ trivial⟩

/-! ### The invariant -/

/-- The numbers are behind their counters, where these are there, and each was received once. -/
structure SeqState.Sound (s : SeqState) : Prop where
  behind : ∀ m ∈ s.received, ∀ v, s.counters m.ssid = some v → m.seq ≤ v
  nodup : (s.received.map Numbered.key).Nodup
  queue : ∀ m ∈ s.queue, m ∈ s.received
  table : ∀ m ∈ s.table, m ∈ s.received

/-- With what the threads have in hand. -/
structure Inv (ts : List Phase) (s : SeqState) : Prop where
  sound : s.Sound
  holds : ∀ i ssid seq, ts[i]? = some (holds ssid seq) → (⟨i, ssid, seq⟩ : Numbered) ∈ s.received

namespace SeqState

variable {s : SeqState} {ssid : String} {v base : ℕ}

/-- A counter may move to any number that none of its conversation's is past. -/
theorem Sound.setCounter (h : s.Sound) (hv : ∀ m ∈ s.received, m.ssid = ssid → m.seq ≤ v) :
    (s.setCounter ssid (some v)).Sound := by
  refine ⟨fun m hm w hw ↦ ?_, h.nodup, h.queue, h.table⟩
  rw [counters_setCounter] at hw
  split at hw
  · next hssid =>
    obtain rfl := Option.some.inj hw
    exact hv m hm hssid
  · exact h.behind m hm w hw

theorem Sound.lose (h : s.Sound) : (s.setCounter ssid none).Sound := by
  refine ⟨fun m hm w hw ↦ ?_, h.nodup, h.queue, h.table⟩
  rw [counters_setCounter] at hw
  split at hw
  · cases hw
  · exact h.behind m hm w hw

/-- The next number is past all those received, unless the counter was lost. -/
theorem Sound.lt_next (h : s.Sound)
    (hlost : s.counters ssid = none → ∀ m ∈ s.received, m.ssid ≠ ssid) {m : Numbered}
    (hm : m ∈ s.received) (hssid : m.ssid = ssid) : m.seq < s.next ssid := by
  cases hc : s.counters ssid with
  | none => exact absurd hssid (hlost hc m hm)
  | some v =>
    have hle := h.behind m hm v (by rw [hssid, hc])
    rw [next, hc, Option.getD_some]
    omega

theorem Sound.issue (h : s.Sound)
    (hlost : s.counters ssid = none → ∀ m ∈ s.received, m.ssid ≠ ssid) (i : ℕ) :
    (s.issue i ssid).Sound := by
  have hlt := fun m hm hssid ↦ h.lt_next (m := m) hlost hm hssid
  have hset := h.setCounter fun m hm hssid ↦ (hlt m hm hssid).le
  refine ⟨?_, ?_, fun m hm ↦ ?_, fun m hm ↦ ?_⟩
  · rintro m (_ | ⟨_, hm⟩) w hw
    · rw [show (s.issue i ssid).counters ssid = some (s.next ssid) from
        (s.counters_setCounter ssid ssid _).trans (if_pos rfl)] at hw
      exact (Option.some.inj hw).le
    · exact hset.behind m hm w hw
  · refine List.nodup_cons.2 ⟨fun hmem ↦ ?_, h.nodup⟩
    obtain ⟨m, hm, hkey⟩ := List.mem_map.1 hmem
    obtain ⟨hssid, hseq⟩ := Prod.mk.inj hkey
    exact absurd hseq (hlt m hm hssid).ne
  · exact List.mem_cons_of_mem _ (h.queue m hm)
  · exact List.mem_cons_of_mem _ (h.table m hm)

/-- A backfill raises a counter, or restores one that is not there. -/
theorem Sound.backfill (h : s.Sound) (hbase : base < 2 ^ 53)
    (hlost : s.counters ssid = none → ∀ m ∈ s.received, m.ssid = ssid → m.seq ≤ base) :
    (s.backfill ssid base).Sound := by
  rw [SeqState.backfill]
  split
  · next hc => exact h.setCounter (hlost hc)
  · next cur hc =>
    split
    · next hlt =>
      rw [roundBits_lt_iff (by decide) hbase] at hlt
      refine h.setCounter fun m hm hssid ↦ ?_
      have hle := h.behind m hm cur (by rw [hssid, hc])
      omega
    · exact h

end SeqState

section Steps

variable {ts : List Phase} {s s' : SeqState} {i : ℕ} {t : Phase} {o : SeqOp} {c : Choice}
  {r : o.Res}

/-- A call that hands out no number leaves what the threads have in hand. -/
theorem Inv.set_idle (h : Inv ts s) (hsound : s'.Sound) (hreceived : s'.received = s.received) :
    Inv (ts.set i idle) s' := by
  refine ⟨hsound, fun j ssid seq hj ↦ ?_⟩
  rw [hreceived]
  exact h.holds j ssid seq (Pool.getElem?_of_set hj nofun)

theorem Inv.issue (h : Inv ts s) {ssid : String}
    (hlost : s.counters ssid = none → ∀ m ∈ s.received, m.ssid ≠ ssid) :
    Inv (ts.set i (Phase.holds ssid (s.next ssid))) (s.issue i ssid) := by
  refine ⟨h.sound.issue hlost i, fun j ssid' seq hj ↦ ?_⟩
  rcases Pool.getElem?_set_cases hj with ⟨rfl, heq⟩ | ⟨-, hj⟩
  · obtain ⟨rfl, rfl⟩ := Phase.holds.inj heq
    exact List.mem_cons_self
  · exact List.mem_cons_of_mem _ (h.holds j ssid' seq hj)

theorem inv_call (h : Inv ts s) (hi : ts[i]? = some t) (ha : contract.allowed t o)
    (hG : recovered.onOp i o c s) (hx : exec i o c s = some (r, s')) :
    Inv (ts.set i (contract.next t o r)) s' := by
  match t, o, c, ha with
  | idle, incr ssid, .answered, _ =>
    simp only [exec] at hx
    split at hx
    · obtain ⟨rfl, rfl⟩ := Prod.mk.inj (Option.some.inj hx)
      exact h.issue hG
    · obtain ⟨rfl, rfl⟩ := Prod.mk.inj (Option.some.inj hx)
      exact h.set_idle h.sound rfl
  | idle, incr ssid, .thrown true, _ =>
    obtain ⟨rfl, rfl⟩ := Prod.mk.inj (Option.some.inj hx)
    exact h.set_idle (h.sound.setCounter fun m hm hssid ↦ (h.sound.lt_next hG hm hssid).le) rfl
  | idle, incr ssid, .thrown false, _ =>
    obtain ⟨rfl, rfl⟩ := Prod.mk.inj (Option.some.inj hx)
    exact h.set_idle h.sound rfl
  | idle, tryLock, .locked b, _ =>
    obtain ⟨-, rfl⟩ := Prod.mk.inj (Option.some.inj hx)
    exact h.set_idle h.sound rfl
  | idle, unlock, _, _ =>
    obtain ⟨-, rfl⟩ := Prod.mk.inj (Option.some.inj hx)
    exact h.set_idle h.sound rfl
  | idle, selectMaxSeq, .rows session_seqs, _ =>
    simp only [exec] at hx
    split at hx
    · obtain ⟨-, rfl⟩ := Prod.mk.inj (Option.some.inj hx)
      exact h.set_idle h.sound rfl
    · cases hx
  | idle, selectMaxSeq, .thrown _, _ =>
    obtain ⟨-, rfl⟩ := Prod.mk.inj (Option.some.inj hx)
    exact h.set_idle h.sound rfl
  | idle, evalBackfill ssid base, .answered, _ =>
    obtain ⟨-, rfl⟩ := Prod.mk.inj (Option.some.inj hx)
    exact h.set_idle (h.sound.backfill hG.1 hG.2) (s.received_backfill ssid base)
  | idle, evalBackfill ssid base, .thrown true, _ =>
    obtain ⟨-, rfl⟩ := Prod.mk.inj (Option.some.inj hx)
    exact h.set_idle (h.sound.backfill hG.1 hG.2) (s.received_backfill ssid base)
  | idle, evalBackfill ssid base, .thrown false, _ =>
    obtain ⟨-, rfl⟩ := Prod.mk.inj (Option.some.inj hx)
    exact h.set_idle h.sound rfl
  | holds ssid seq, publish _ _, _, ⟨rfl, rfl⟩ =>
    obtain ⟨-, rfl⟩ := Prod.mk.inj (Option.some.inj hx)
    refine h.set_idle ⟨h.sound.behind, h.sound.nodup, fun m hm ↦ ?_, h.sound.table⟩ rfl
    rcases List.mem_cons.1 hm with rfl | hm
    · exact h.holds i ssid seq hi
    · exact h.sound.queue m hm

/-- Nothing that happens around the threads hands out a number. -/
theorem inv_event {p p' : SeqPool} {e : Event} (h : Inv ts p.shared)
    (hmeets : p.Meets contract (fun _ ↦ True) ts) (hx : env e p = some p') :
    ∃ ts', Inv ts' p'.shared ∧ p'.Meets contract (fun _ ↦ True) ts' := by
  have hspawn : Inv (ts ++ [idle]) p.shared := ⟨h.sound, fun j ssid seq hj ↦
    h.holds j ssid seq (Pool.getElem?_of_append hj nofun)⟩
  cases e with
  | send ssid =>
    obtain rfl := Option.some.inj hx
    exact ⟨_, hspawn, hmeets.spawn send_meets _⟩
  | startup =>
    obtain rfl := Option.some.inj hx
    exact ⟨_, hspawn, hmeets.spawn backfill_seq_from_db_meets _⟩
  | persist m =>
    simp only [env] at hx
    split at hx
    · next hm =>
      split at hx
      · obtain rfl := Option.some.inj hx
        exact ⟨ts, h, hmeets⟩
      · obtain rfl := Option.some.inj hx
        refine ⟨ts, ⟨⟨h.sound.behind, h.sound.nodup, h.sound.queue, ?_⟩, h.holds⟩, hmeets⟩
        rintro m' (_ | ⟨_, hm'⟩)
        · exact h.sound.queue m hm
        · exact h.sound.table m' hm'
    · cases hx
  | lose ssid =>
    obtain rfl := Option.some.inj hx
    exact ⟨ts, ⟨h.sound.lose, h.holds⟩, hmeets⟩

end Steps

/-- As long as lost counters are restored in time, what was received is sound. -/
theorem sound_of_reach {p : SeqPool} (hr : machine.Reach recovered start p) : p.shared.Sound := by
  have hinv : ∃ ts, Inv ts p.shared ∧ p.Meets contract (fun _ ↦ True) ts := by
    refine machine.invariant hr ?_ ?_ ?_
    · refine ⟨[], ⟨⟨?_, ?_, ?_, ?_⟩, ?_⟩, .nil⟩ <;> simp [start]
    · intro ts s i t o c r s' h hi ha hG hx
      exact ⟨trivial, inv_call h hi ha hG hx⟩
    · intro ts p e p' h hmeets _ hx
      exact inv_event h hmeets hx
  obtain ⟨ts, h, -⟩ := hinv
  exact h.sound

/-- **Session numbers.** No two requests have received the same number of a conversation, and a
message that is to be written finds its number in the table only if it was written before. -/
theorem seq_unique {p : SeqPool} (hr : machine.Reach recovered start p) :
    (p.shared.received.map Numbered.key).Nodup ∧
      ∀ m ∈ p.shared.queue, ∀ m' ∈ p.shared.table, m.key = m'.key → m = m' := by
  have h := sound_of_reach hr
  refine ⟨h.nodup, fun m hm m' hm' hkey ↦ ?_⟩
  exact List.inj_on_of_nodup_map h.nodup (h.queue m hm) (h.table m' hm') hkey

/-! ### A counter that is lost -/

/-- The counter is lost after the first number, and the next request receives it again. -/
theorem seq_twice : ¬ ∀ p, machine.Reach bounded start p →
    (p.shared.received.map Numbered.key).Nodup := by
  intro hunique
  obtain ⟨p, hr, hp⟩ := machine.exists_of_run bounded start
    [.event (.send "c"), .call 0 .answered, .event (.lose "c"), .event (.send "c"),
      .call 1 .answered]
    (fun p ↦ ¬ (p.shared.received.map Numbered.key).Nodup) (by decide)
  exact hp (hunique p hr)

/-- Nor is it enough that a lost counter is restored before it is used: the table is behind the
messages in flight. Here 1 is in the table, and 2 and 3 are not yet. -/
theorem seq_twice_in_flight : ∃ p, machine.Reach bounded start p ∧
    (⟨2, "c", 3⟩ : Numbered) ∈ p.shared.queue ∧ (⟨4, "c", 3⟩ : Numbered) ∈ p.shared.received :=
  machine.exists_of_run bounded start
    [.event (.send "c"), .call 0 .answered, .call 0 .answered, .event (.persist ⟨0, "c", 1⟩),
      .event (.send "c"), .call 1 .answered, .call 1 .answered,
      .event (.send "c"), .call 2 .answered, .call 2 .answered,
      .event (.lose "c"), .event .startup, .call 3 (.locked true), .call 3 (.rows [("c", 1)]),
      .call 3 .answered, .event (.send "c"), .call 4 .answered]
    (fun p ↦ (⟨2, "c", 3⟩ : Numbered) ∈ p.shared.queue ∧
      (⟨4, "c", 3⟩ : Numbered) ∈ p.shared.received) (by decide)

/-- A counter that is lost and restored from a table that has caught up: the numbers go on. -/
theorem seq_unique_restored : ∃ p, machine.Reach recovered start p ∧
    p.shared.received = [⟨2, "c", 3⟩, ⟨0, "c", 1⟩] ∧
    (p.shared.received.map Numbered.key).Nodup := by
  obtain ⟨p, hr, hp⟩ := machine.exists_of_run recovered start
    [.event (.send "c"), .call 0 .answered, .call 0 .answered, .event (.persist ⟨0, "c", 1⟩),
      .event (.lose "c"), .event .startup, .call 1 (.locked true), .call 1 (.rows [("c", 1)]),
      .call 1 .answered, .event (.send "c"), .call 2 .answered]
    (fun p ↦ p.shared.received = [⟨2, "c", 3⟩, ⟨0, "c", 1⟩]) (by decide)
  exact ⟨p, hr, hp, (seq_unique hr).1⟩

end ChatNow.SeqGen
