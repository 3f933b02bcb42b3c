import ChatNow.Lib.Fleet
import Mathlib.Tactic.Ring

/-!
# Leader election over etcd

`LeaderElection` of `common/infra/leader_election.hpp`. Each instance is one process of a fleet, its
campaign thread; the two loops of that thread are control points, so a term of office may last for
any number of TTL checks.

* `campaign`, `hold`, `resign`: one turn of the loop of `campaign_loop_`, one turn of the loop of
  `_hold_leadership_`, and what follows it.
* `Etcd`: the leases and the election key. A lease may end at any time, with the key that is
  attached to it; nothing else removes the key.
* `leader_overlap`: the flags of two instances can be up together only when the lease of one of them
  has ended, and that one has made at most `kMaxTtlFailures` TTL checks since.

The flag is a memory of the lease, and falls after the fifth check that says otherwise: between the
end of a lease and that check another instance can win the key (`leader_twice`). The callbacks are
taken to return; an `on_acquired` that throws would leave the flag up with no loop to lower it.
-/

namespace ChatNow.LeaderElection

def kMaxTtlFailures : ℕ := 5

/-! ### The campaign thread -/

/-- What the etcd client answers: a response that is ok, one that is not, or an exception. -/
inductive Reply (α : Type)
  | ok (a : α)
  | failed
  | thrown

/-- What the campaign thread calls. -/
inductive ElectOp
  /-- `start`: `_running = true` and the thread is created. -/
  | start
  | loadRunning
  | leasegrant
  /-- The transaction: if the key has version 0 it is put with the lease, else it is read. -/
  | txn (lease_id : ℕ)
  /-- The constructor of `etcd::KeepAlive`. -/
  | keepAlive (lease_id : ℕ)
  | storeLeader
  | loadLeader
  | exchangeLeader
  | leaserevoke (lease_id : ℕ)
  | leasetimetolive (lease_id : ℕ)
  /-- `_sleep_interruptible_`. -/
  | sleep

/-- What a call gets back. For the transaction it is whether the list of values is empty. -/
abbrev ElectOp.Res : ElectOp → Type
  | loadRunning => Bool
  | leasegrant => Reply ℕ
  | txn _ => Reply Bool
  | keepAlive _ => Reply Unit
  | leaserevoke _ => Reply Unit
  | loadLeader => Bool
  | exchangeLeader => Bool
  | leasetimetolive _ => Reply ℤ
  | sleep => Bool
  | _ => Unit

abbrev ElectM : Type → Type := Prog ElectOp ElectOp.Res

/-- Where the thread is between two rounds. -/
inductive Control
  | stopped
  | campaign
  /-- The head of the loop of `_hold_leadership_`. -/
  | hold (lease_id : ℕ) (consecutive_failures : ℕ)
  | resign

open Prog ElectOp

/-- The sleep at the end of a turn of `campaign_loop_`. -/
def pause : ElectM Control := do
  if ← op sleep then return .campaign else return .stopped

/-- One turn of `campaign_loop_`, up to `_hold_leadership_`. -/
def campaign : ElectM Control := do
  if (← op loadRunning) = false then return .stopped
  match ← op leasegrant with
  | .thrown => pause
  | .failed => pause
  | .ok lease_id =>
    match ← op (txn lease_id) with
    | .thrown => pause
    | .ok true =>
      match ← op (keepAlive lease_id) with
      | .ok _ =>
        op storeLeader
        return .hold lease_id 0
      | _ => pause
    | _ =>
      let _ ← op (leaserevoke lease_id)
      pause

/-- A TTL check of `_hold_leadership_` that failed. -/
def count_failure (lease_id consecutive_failures : ℕ) : Control :=
  if consecutive_failures + 1 ≥ kMaxTtlFailures then .resign
  else .hold lease_id (consecutive_failures + 1)

/-- One turn of the loop of `_hold_leadership_`. -/
def hold (lease_id consecutive_failures : ℕ) : ElectM Control := do
  if (← op loadRunning) = false then return .resign
  if (← op loadLeader) = false then return .resign
  if (← op sleep) = false then return .resign
  match ← op (leasetimetolive lease_id) with
  | .ok ttl =>
    if ttl ≤ 0 then return count_failure lease_id consecutive_failures
    else return .hold lease_id 0
  | _ => return count_failure lease_id consecutive_failures

/-- What `campaign_loop_` does after `_hold_leadership_`. -/
def resign : ElectM Control := do
  let _ ← op exchangeLeader
  pause

def round : ℕ → Control → ElectM Control
  | _, .stopped => do
    op start
    return .campaign
  | _, .campaign => campaign
  | _, .hold lease_id consecutive_failures => hold lease_id consecutive_failures
  | _, .resign => resign

/-! ### Etcd -/

/-- The leases and the election key. -/
structure Etcd where
  /-- To whom each lease was granted; a lease is named by its position. -/
  granted : List ℕ := []
  /-- The lease has not ended. -/
  alive : ℕ → Bool := fun _ ↦ false
  /-- The lease that the election key is attached to. -/
  key : Option ℕ := none
  /-- How many TTL checks were made for a lease after it had ended; nobody keeps it. -/
  late_checks : ℕ → ℕ := fun _ ↦ 0

namespace Etcd

variable (e : Etcd) (i lease_id : ℕ)

def grant : Etcd :=
  { e with granted := e.granted ++ [i], alive := Function.update e.alive e.granted.length true }

/-- A lease ends, by expiry or because it is revoked, and the key with it. -/
def expire : Etcd :=
  { e with alive := Function.update e.alive lease_id false
           key := if e.key = some lease_id then none else e.key }

/-- The key is put, attached to the lease. -/
def put : Etcd := { e with key := some lease_id }

/-- A TTL check is counted when the lease has ended. -/
def check : Etcd :=
  if e.alive lease_id then e
  else
    { e with late_checks := Function.update e.late_checks lease_id (e.late_checks lease_id + 1) }

/-- The TTL that is reported, where `ttl` seconds are left of a lease that has not ended. -/
def ttl (ttl : ℕ) : ℤ := if e.alive lease_id then ttl else -1

end Etcd

/-! ### The fleet -/

structure Instance where
  running : Bool := false
  is_leader : Bool := false
  /-- The lease of the last transaction that it won; the code has it in a local variable. -/
  won : Option ℕ := none

structure Shared where
  etcd : Etcd := {}
  insts : ℕ → Instance := fun _ ↦ {}

/-- How a request to etcd goes. -/
inductive Outcome
  /-- It is carried out, and answered; `ttl` is what is left of the lease that is asked for. -/
  | answered (ttl : ℕ)
  /-- The client reports an error, or throws; the request may have been carried out. -/
  | lost (carried_out throws : Bool)

namespace Shared

variable (s : Shared)

/-- Instance `i` changes its members. -/
def modify (i : ℕ) (f : Instance → Instance) : Shared :=
  { s with insts := Function.update s.insts i (f (s.insts i)) }

/-- The answer to a request, with the failure that the outcome asks for. -/
def answer {α : Type} (x : Reply α × Shared) : Outcome → Reply α × Shared
  | .answered _ => x
  | .lost carried_out throws =>
    (if throws then .thrown else .failed, if carried_out then x.2 else s)

/-- The transaction of instance `i`. A put with a lease that has ended is an error. -/
def txn (i lease_id : ℕ) : Reply Bool × Shared :=
  if s.etcd.key = none then
    if s.etcd.alive lease_id then
      (.ok true, { s with etcd := s.etcd.put lease_id }.modify i ({ · with won := some lease_id }))
    else (.failed, s)
  else (.ok false, s)

@[simp] theorem modify_insts (i : ℕ) (f : Instance → Instance) :
    (s.modify i f).insts i = f (s.insts i) :=
  Function.update_self ..

theorem modify_insts_of_ne {i j : ℕ} (hj : j ≠ i) (f : Instance → Instance) :
    (s.modify i f).insts j = s.insts j :=
  Function.update_of_ne hj ..

/-- How many seconds are left, as the outcome has it. -/
def left : Outcome → ℕ
  | .answered ttl => ttl
  | .lost _ _ => 0

end Shared

/-- The effect of a call by instance `i`. -/
def exec (i : ℕ) (o : ElectOp) (c : Outcome) (s : Shared) : Option (o.Res × Shared) :=
  match o with
  | start => some ((), s.modify i ({ · with running := true }))
  | loadRunning => some ((s.insts i).running, s)
  | leasegrant =>
    some (s.answer (.ok s.etcd.granted.length, { s with etcd := s.etcd.grant i }) c)
  | txn lease_id => some (s.answer (s.txn i lease_id) c)
  | keepAlive _ => some (s.answer (.ok (), s) c)
  | storeLeader => some ((), s.modify i ({ · with is_leader := true }))
  | loadLeader => some ((s.insts i).is_leader, s)
  | exchangeLeader => some ((s.insts i).is_leader, s.modify i ({ · with is_leader := false }))
  | leaserevoke lease_id => some (s.answer (.ok (), { s with etcd := s.etcd.expire lease_id }) c)
  | leasetimetolive lease_id =>
    let s' := { s with etcd := s.etcd.check lease_id }
    some (s'.answer (.ok (s.etcd.ttl lease_id (Shared.left c)), s') c)
  | sleep => some ((s.insts i).running, s)

/-- What happens around the threads. -/
inductive Event
  /-- A lease ends at etcd. -/
  | expire (lease_id : ℕ)
  /-- `stop` of an instance, up to the join. -/
  | stop (i : ℕ)

def fleet : Fleet ℕ ElectOp ElectOp.Res Control Shared Outcome Event where
  round := round
  exec := exec
  env
    | .expire lease_id, s => some { s with etcd := s.etcd.expire lease_id }
    | .stop i, s => some (s.modify i ({ · with running := false }))

abbrev State := Fleet.State ℕ ElectOp ElectOp.Res Control Shared

/-- No instance has been started, and etcd has no lease. -/
def init : State where
  procs _ := .ret .stopped
  shared := {}

/-! ### The term of an instance -/

/-- How far a campaign thread has come. -/
inductive Phase
  | idle
  /-- It has a lease, and no answer to the transaction. -/
  | granted (lease_id : ℕ)
  | elected (lease_id : ℕ)
  /-- The flag is up, and `failures` checks have failed in a row. -/
  | leading (lease_id failures : ℕ)
  /-- The flag is up, and the loop of `_hold_leadership_` has been left. -/
  | ending (lease_id : ℕ)

open Phase

namespace Phase

/-- The answer to the transaction. -/
def voted (lease_id : ℕ) : Reply Bool → Phase
  | .ok true => elected lease_id
  | .thrown => idle
  | _ => granted lease_id

/-- The answer to a TTL check. -/
def checked (lease_id failures : ℕ) : Reply ℤ → Phase
  | .ok ttl => if ttl ≤ 0 then failed else leading lease_id 0
  | _ => failed
where
  failed : Phase :=
    if failures + 1 ≥ kMaxTtlFailures then ending lease_id else leading lease_id (failures + 1)

end Phase

def contract : Contract ElectOp ElectOp.Res Phase where
  allowed
    | idle, start => True
    | idle, loadRunning => True
    | idle, sleep => True
    | idle, leasegrant => True
    | granted l, txn lease_id => lease_id = l
    | granted l, leaserevoke lease_id => lease_id = l
    | elected l, keepAlive lease_id => lease_id = l
    | elected _, storeLeader => True
    | leading _ _, loadRunning => True
    | leading _ _, loadLeader => True
    | leading _ _, sleep => True
    | leading l _, leasetimetolive lease_id => lease_id = l
    | leading _ _, exchangeLeader => True
    | ending _, exchangeLeader => True
    | _, _ => False
  admits _ _ _ := True
  next
    | idle, leasegrant, .ok lease_id => granted lease_id
    | granted l, txn _, r => voted l r
    | granted _, leaserevoke _, _ => idle
    | elected l, keepAlive _, .ok _ => elected l
    | elected _, keepAlive _, _ => idle
    | elected l, storeLeader, _ => leading l 0
    | leading l f, leasetimetolive _, r => checked l f r
    | leading _ _, exchangeLeader, _ => idle
    | ending _, exchangeLeader, _ => idle
    | t, _, _ => t

/-- The phases in which a control point is entered. -/
def Enter : Phase → Control → Prop
  | idle, .stopped => True
  | idle, .campaign => True
  | leading l f, .hold lease_id failures => lease_id = l ∧ failures = f
  | leading _ _, .resign => True
  | ending _, .resign => True
  | _, _ => False

section Contracts

variable {l f : ℕ}

theorem pause_meets : pause.Meets contract idle Enter := by
  refine meets_op_bind.2 ⟨trivial, fun running _ ↦ ?_⟩
  match running with
  | true => exact trivial
  | false => exact trivial

theorem campaign_meets : campaign.Meets contract idle Enter := by
  refine meets_op_bind.2 ⟨trivial, fun running _ ↦ ?_⟩
  match running with
  | false => exact trivial
  | true =>
    refine meets_op_bind.2 ⟨trivial, fun lease _ ↦ ?_⟩
    match lease with
    | .thrown => exact pause_meets
    | .failed => exact pause_meets
    | .ok lease_id =>
      refine meets_op_bind.2 ⟨rfl, fun vote _ ↦ ?_⟩
      match vote with
      | .thrown => exact pause_meets
      | .failed => exact ⟨rfl, fun _ _ ↦ pause_meets⟩
      | .ok false => exact ⟨rfl, fun _ _ ↦ pause_meets⟩
      | .ok true =>
        refine meets_op_bind.2 ⟨rfl, fun kept _ ↦ ?_⟩
        match kept with
        | .thrown => exact pause_meets
        | .failed => exact pause_meets
        | .ok _ => exact ⟨trivial, fun _ _ ↦ ⟨rfl, rfl⟩⟩

/-- A failed check leaves the loop or counts one more failure, as its phase says. -/
theorem count_failure_enter : Enter (checked.failed l f) (count_failure l f) := by
  rw [checked.failed, count_failure]
  split
  · exact trivial
  · exact ⟨rfl, rfl⟩

theorem hold_meets : (hold l f).Meets contract (leading l f) Enter := by
  refine meets_op_bind.2 ⟨trivial, fun running _ ↦ ?_⟩
  match running with
  | false => exact trivial
  | true =>
    refine meets_op_bind.2 ⟨trivial, fun leader _ ↦ ?_⟩
    match leader with
    | false => exact trivial
    | true =>
      refine meets_op_bind.2 ⟨trivial, fun awake _ ↦ ?_⟩
      match awake with
      | false => exact trivial
      | true =>
        refine meets_op_bind.2 ⟨rfl, fun reply _ ↦ ?_⟩
        match reply with
        | .thrown => exact count_failure_enter
        | .failed => exact count_failure_enter
        | .ok ttl =>
          show (if ttl ≤ 0 then _ else _ : ElectM Control).Meets _
            (if ttl ≤ 0 then checked.failed l f else leading l 0) _
          split
          · exact count_failure_enter
          · exact ⟨rfl, rfl⟩

theorem resign_meets {t : Phase} (ht : Enter t .resign) : resign.Meets contract t Enter := by
  match t, ht with
  | leading _ _, _ => exact ⟨trivial, fun _ _ ↦ pause_meets⟩
  | ending _, _ => exact ⟨trivial, fun _ _ ↦ pause_meets⟩

theorem round_meets {i : ℕ} {t : Phase} {k : Control} (h : Enter t k) :
    (round i k).Meets contract t Enter := by
  match t, k, h with
  | idle, .stopped, _ => exact ⟨trivial, fun _ _ ↦ trivial⟩
  | idle, .campaign, _ => exact campaign_meets
  | leading _ _, .hold _ _, ⟨rfl, rfl⟩ => exact hold_meets
  | leading _ _, .resign, h => exact resign_meets h
  | ending _, .resign, h => exact resign_meets h

end Contracts

/-! ### The invariant -/

/-- Instance `i` won the key with the lease, and holds it as long as the lease does not end. -/
structure Office (e : Etcd) (i l : ℕ) : Prop where
  granted : e.granted[l]? = some i
  holds : e.alive l = true → e.key = some l ∧ e.late_checks l = 0

/-- What a phase of an instance says of its members and of etcd. -/
def Good (e : Etcd) (x : Instance) (i : ℕ) : Phase → Prop
  | idle => x.is_leader = false
  | granted l => x.is_leader = false ∧ e.granted[l]? = some i ∧ e.late_checks l = 0
  | elected l => x.is_leader = false ∧ x.won = some l ∧ Office e i l ∧ e.late_checks l = 0
  | leading l f => x.won = some l ∧ Office e i l ∧ e.late_checks l ≤ f ∧ f < kMaxTtlFailures
  | ending l => x.won = some l ∧ Office e i l ∧ e.late_checks l ≤ kMaxTtlFailures

/-- No check was made for a lease that is not granted yet. -/
def Fresh (e : Etcd) : Prop := ∀ l, e.granted.length ≤ l → e.late_checks l = 0

/-- What a change at etcd leaves to instance `j`: its leases, and the key while the lease lasts. -/
def Spares (j : ℕ) (e e' : Etcd) : Prop :=
  ∀ l, e.granted[l]? = some j → e'.granted[l]? = some j ∧ e'.late_checks l = e.late_checks l ∧
    (e'.alive l = true → e.alive l = true ∧ (e.key = some l → e'.key = some l))

section Steps

variable {e e' : Etcd} {x : Instance} {i j l : ℕ} {t : Phase} {s s' : Shared} {o : ElectOp}
  {c : Outcome} {r : o.Res}

theorem Spares.refl : Spares j e e := fun _ h ↦ ⟨h, rfl, fun ha ↦ ⟨ha, id⟩⟩

theorem Office.frame (h : Office e j l) (he : Spares j e e') : Office e' j l := by
  obtain ⟨hgranted, hlate, halive⟩ := he l h.granted
  refine ⟨hgranted, fun ha ↦ ?_⟩
  obtain ⟨ha', hkey⟩ := halive ha
  rw [hlate]
  exact ⟨hkey (h.holds ha').1, (h.holds ha').2⟩

theorem Good.frame (h : Good e x j t) (he : Spares j e e') : Good e' x j t := by
  match t, h with
  | idle, h => exact h
  | granted l, ⟨hleader, hgranted, hlate⟩ =>
    obtain ⟨hgranted', hlate', -⟩ := he l hgranted
    exact ⟨hleader, hgranted', hlate'.trans hlate⟩
  | elected l, ⟨hleader, hwon, hoffice, hlate⟩ =>
    exact ⟨hleader, hwon, hoffice.frame he, (he l hoffice.granted).2.1.trans hlate⟩
  | leading l f, ⟨hwon, hoffice, hlate, hf⟩ =>
    exact ⟨hwon, hoffice.frame he, (he l hoffice.granted).2.1.trans_le hlate, hf⟩
  | ending l, ⟨hwon, hoffice, hlate⟩ =>
    exact ⟨hwon, hoffice.frame he, (he l hoffice.granted).2.1.trans_le hlate⟩

/-- `stop` leaves the flag to the campaign thread. -/
theorem Good.stop (h : Good e x i t) : Good e { x with running := false } i t := by
  match t, h with
  | idle, h => exact h
  | granted _, h => exact h
  | elected _, h => exact h
  | leading _ _, h => exact h
  | ending _, h => exact h

theorem spares_grant : Spares j e (e.grant i) := by
  intro l hl
  have hlt : l < e.granted.length := (List.getElem?_eq_some_iff.1 hl).1
  have halive : (e.grant i).alive l = e.alive l := Function.update_of_ne (Nat.ne_of_lt hlt) _ _
  refine ⟨by rw [Etcd.grant, List.getElem?_append_left hlt, hl], rfl, fun ha ↦ ⟨?_, id⟩⟩
  rwa [halive] at ha

theorem spares_put (hkey : e.key = none) : Spares j e (e.put l) :=
  fun _ h ↦ ⟨h, rfl, fun ha ↦ ⟨ha, fun hkey' ↦ nomatch hkey.symm.trans hkey'⟩⟩

/-- The end of a lease takes nothing from anybody whose own lease has not ended. -/
theorem spares_expire : Spares j e (e.expire l) := by
  intro l' hl'
  refine ⟨hl', rfl, fun ha ↦ ?_⟩
  have hne : l' ≠ l := by
    rintro rfl
    simp [Etcd.expire] at ha
  have halive : (e.expire l).alive l' = e.alive l' := Function.update_of_ne hne _ _
  refine ⟨halive ▸ ha, fun hkey ↦ ?_⟩
  have hkey' : e.key ≠ some l := by simpa [hkey] using hne
  rwa [Etcd.expire, if_neg hkey']

theorem spares_check (hl : e.granted[l]? = some i) (hji : j ≠ i) : Spares j e (e.check l) := by
  rw [Etcd.check]
  split
  · exact .refl
  · intro l' hl'
    have hne : l' ≠ l := by
      rintro rfl
      exact hji (Option.some.inj (hl'.symm.trans hl))
    exact ⟨hl', Function.update_of_ne hne _ _, fun ha ↦ ⟨ha, id⟩⟩

/-- A request is answered, or is carried out without an answer, or is not carried out. -/
theorem answer_cases {α : Type} {y : Reply α × Shared} {r : Reply α}
    (h : s.answer y c = (r, s')) :
    r = y.1 ∧ s' = y.2 ∨ (s' = s ∨ s' = y.2) ∧ ∀ a, r ≠ .ok a := by
  match c, h with
  | .answered _, h => exact .inl ⟨congrArg Prod.fst h.symm, congrArg Prod.snd h.symm⟩
  | .lost carried_out throws, h =>
    obtain ⟨rfl, rfl⟩ := Prod.mk.inj h
    refine .inr ⟨?_, ?_⟩
    · cases carried_out
      · exact .inl rfl
      · exact .inr rfl
    · cases throws
      · exact fun a ↦ nofun
      · exact fun a ↦ nofun

/-- What a step of instance `i` has to establish. -/
structure StepOk (i : ℕ) (s s' : Shared) (t : Phase) : Prop where
  good : Good s'.etcd (s'.insts i) i t
  fresh : Fresh s'.etcd
  insts : ∀ j ≠ i, s'.insts j = s.insts j
  spares : ∀ j ≠ i, Spares j s.etcd s'.etcd

/-- A step that leaves etcd alone. -/
theorem stepOk_modify {f : Instance → Instance} (hfresh : Fresh s.etcd)
    (hgood : Good s.etcd (f (s.insts i)) i t) : StepOk i s (s.modify i f) t where
  good := by rwa [Shared.modify_insts]
  fresh := hfresh
  insts _ hj := s.modify_insts_of_ne hj f
  spares _ _ := .refl

theorem stepOk_self (hfresh : Fresh s.etcd) (hgood : Good s.etcd (s.insts i) i t) :
    StepOk i s s t :=
  ⟨hgood, hfresh, fun _ _ ↦ rfl, fun _ _ ↦ .refl⟩

theorem step_leasegrant {r : Reply ℕ} (hfresh : Fresh s.etcd) (h : Good s.etcd (s.insts i) i idle)
    (hx : exec i leasegrant c s = some (r, s')) :
    StepOk i s s' (contract.next idle leasegrant r) := by
  have hfresh' : Fresh (s.etcd.grant i) := fun l hl ↦ hfresh l (by
    have : s.etcd.granted.length + 1 ≤ l := by simpa [Etcd.grant] using hl
    omega)
  rcases answer_cases (Option.some.inj hx) with ⟨rfl, rfl⟩ | ⟨hstate, hreply⟩
  · refine ⟨⟨h, ?_, hfresh _ le_rfl⟩, hfresh', fun _ _ ↦ rfl, fun _ _ ↦ spares_grant⟩
    simp [Etcd.grant]
  · have hidle : contract.next idle leasegrant r = idle := by
      match r, hreply with
      | .ok a, hreply => exact absurd rfl (hreply a)
      | .failed, _ => rfl
      | .thrown, _ => rfl
    rw [hidle]
    rcases hstate with rfl | rfl
    · exact stepOk_self hfresh h
    · exact ⟨h, hfresh', fun _ _ ↦ rfl, fun _ _ ↦ spares_grant⟩

/-- The transaction is won, or changes nothing. -/
theorem txn_cases (s : Shared) (i l : ℕ) :
    s.etcd.key = none ∧ s.txn i l = (.ok true,
      { s with etcd := s.etcd.put l }.modify i ({ · with won := some l })) ∨
    (s.txn i l).2 = s ∧ (s.txn i l).1 ≠ .ok true := by
  rw [Shared.txn]
  split
  · next hkey =>
    split
    · exact .inl ⟨hkey, rfl⟩
    · exact .inr ⟨rfl, nofun⟩
  · exact .inr ⟨rfl, nofun⟩

theorem step_txn {r : Reply Bool} (hfresh : Fresh s.etcd)
    (h : Good s.etcd (s.insts i) i (granted l)) (hx : exec i (txn l) c s = some (r, s')) :
    StepOk i s s' (contract.next (granted l) (txn l) r) := by
  -- an answer that does not say that the key was won
  have hvoted : ∀ {x : Instance} {e : Etcd}, Good e x i (granted l) → r ≠ .ok true →
      Good e x i (voted l r) := by
    intro x e hgood hne
    match r, hne with
    | .ok false, _ => exact hgood
    | .failed, _ => exact hgood
    | .thrown, _ => exact hgood.1
    | .ok true, hne => exact absurd rfl hne
  show StepOk i s s' (voted l r)
  rcases txn_cases s i l with ⟨hkey, hwin⟩ | ⟨hsame, hlost⟩
  · have hwon : ∀ {t : Phase}, Good (s.etcd.put l) { s.insts i with won := some l } i t →
        StepOk i s ({ s with etcd := s.etcd.put l }.modify i ({ · with won := some l })) t := by
      intro t hgood
      refine ⟨?_, hfresh, fun j hj ↦ Shared.modify_insts_of_ne _ hj _, fun _ _ ↦ spares_put hkey⟩
      rwa [Shared.modify_insts]
    rcases answer_cases (Option.some.inj hx) with ⟨rfl, rfl⟩ | ⟨hstate, hreply⟩
    · rw [hwin]
      exact hwon ⟨h.1, rfl, ⟨h.2.1, fun _ ↦ ⟨rfl, h.2.2⟩⟩, h.2.2⟩
    · rcases hstate with rfl | rfl
      · exact stepOk_self hfresh (hvoted h (hreply true))
      · rw [hwin]
        exact hwon (hvoted h (hreply true))
  · rcases answer_cases (Option.some.inj hx) with ⟨rfl, rfl⟩ | ⟨hstate, hreply⟩
    · rw [hsame]
      exact stepOk_self hfresh (hvoted h hlost)
    · rw [hsame, or_self] at hstate
      subst hstate
      exact stepOk_self hfresh (hvoted h (hreply true))

theorem step_leaserevoke {r : Reply Unit} (hfresh : Fresh s.etcd)
    (h : Good s.etcd (s.insts i) i (granted l)) (hx : exec i (leaserevoke l) c s = some (r, s')) :
    StepOk i s s' idle := by
  have hexpire : StepOk i s { s with etcd := s.etcd.expire l } idle :=
    ⟨h.1, hfresh, fun _ _ ↦ rfl, fun _ _ ↦ spares_expire⟩
  rcases answer_cases (Option.some.inj hx) with ⟨-, rfl⟩ | ⟨rfl | rfl, -⟩
  · exact hexpire
  · exact stepOk_self hfresh h.1
  · exact hexpire

theorem step_keepAlive {r : Reply Unit} (hfresh : Fresh s.etcd)
    (h : Good s.etcd (s.insts i) i (elected l)) (hx : exec i (keepAlive l) c s = some (r, s')) :
    StepOk i s s' (contract.next (elected l) (keepAlive l) r) := by
  obtain rfl : s' = s := by
    rcases answer_cases (Option.some.inj hx) with ⟨-, rfl⟩ | ⟨rfl | rfl, -⟩ <;> rfl
  match r with
  | .ok _ => exact stepOk_self hfresh h
  | .failed => exact stepOk_self hfresh h.1
  | .thrown => exact stepOk_self hfresh h.1

/-- After one more failed check. -/
theorem good_failed {f : ℕ} (hwon : x.won = some l) (hoffice : Office e i l)
    (hlate : e.late_checks l ≤ f + 1) (hf : f < kMaxTtlFailures) :
    Good e x i (checked.failed l f) := by
  rw [checked.failed]
  split
  · exact ⟨hwon, hoffice, by omega⟩
  · exact ⟨hwon, hoffice, hlate, by omega⟩

/-- A check for a lease that has ended fails, whatever comes of it. -/
theorem checked_of_ended {f : ℕ} {r : Reply ℤ} (hdead : s.etcd.alive l = false)
    (hx : exec i (leasetimetolive l) c s = some (r, s')) : checked l f r = checked.failed l f := by
  rcases answer_cases (Option.some.inj hx) with ⟨rfl, -⟩ | ⟨-, hreply⟩
  · rw [Etcd.ttl, if_neg (by simp [hdead]), checked, if_pos (by decide)]
  · match r, hreply with
    | .ok ttl, hreply => exact absurd rfl (hreply ttl)
    | .failed, _ => rfl
    | .thrown, _ => rfl

theorem fresh_check (hfresh : Fresh e) (hl : e.granted[l]? = some i) : Fresh (e.check l) := by
  rw [Etcd.check]
  split
  · exact hfresh
  · intro l' hl'
    have hlt : l < e.granted.length := (List.getElem?_eq_some_iff.1 hl).1
    have hle : e.granted.length ≤ l' := hl'
    exact (Function.update_of_ne (by omega) _ _).trans (hfresh l' hle)

theorem step_check {f : ℕ} {r : Reply ℤ} (hfresh : Fresh s.etcd)
    (h : Good s.etcd (s.insts i) i (leading l f))
    (hx : exec i (leasetimetolive l) c s = some (r, s')) :
    StepOk i s s' (contract.next (leading l f) (leasetimetolive l) r) := by
  obtain ⟨hwon, hoffice, hlate, hf⟩ := h
  show StepOk i s s' (checked l f r)
  have hstate : s' = { s with etcd := s.etcd.check l } := by
    rcases answer_cases (Option.some.inj hx) with ⟨-, rfl⟩ | ⟨rfl | rfl, -⟩ <;> rfl
  cases halive : s.etcd.alive l with
  | true =>
    have hcheck : s.etcd.check l = s.etcd := if_pos halive
    have hzero := (hoffice.holds halive).2
    rw [hstate, hcheck]
    refine stepOk_self hfresh ?_
    have hfailed := good_failed hwon hoffice (by omega) hf
    match r with
    | .failed => exact hfailed
    | .thrown => exact hfailed
    | .ok ttl =>
      rw [checked]
      split
      · exact hfailed
      · exact ⟨hwon, hoffice, hzero.le, by decide⟩
  | false =>
    rw [checked_of_ended halive hx]
    subst hstate
    have hcheck : s.etcd.check l = { s.etcd with
        late_checks := Function.update s.etcd.late_checks l (s.etcd.late_checks l + 1) } :=
      if_neg (by simp [halive])
    have hlate' : (s.etcd.check l).late_checks l ≤ f + 1 := by
      have hcount : (s.etcd.check l).late_checks l = s.etcd.late_checks l + 1 := by
        rw [hcheck]
        exact Function.update_self (β := fun _ ↦ ℕ) ..
      omega
    have hoffice' : Office (s.etcd.check l) i l := by
      rw [hcheck]
      exact ⟨hoffice.granted, fun ha ↦ nomatch halive.symm.trans ha⟩
    exact ⟨good_failed hwon hoffice' hlate' hf, fresh_check hfresh hoffice.granted,
      fun _ _ ↦ rfl, fun j hj ↦ spares_check hoffice.granted hj⟩

/-- A step of the campaign thread. -/
theorem step_ok (hfresh : Fresh s.etcd) (h : Good s.etcd (s.insts i) i t)
    (ha : contract.allowed t o) (hx : exec i o c s = some (r, s')) :
    StepOk i s s' (contract.next t o r) := by
  match t, o, ha with
  | idle, start, _ =>
    obtain ⟨-, rfl⟩ := Prod.mk.inj (Option.some.inj hx)
    exact stepOk_modify hfresh h
  | idle, loadRunning, _ =>
    obtain ⟨-, rfl⟩ := Prod.mk.inj (Option.some.inj hx)
    exact stepOk_self hfresh h
  | idle, sleep, _ =>
    obtain ⟨-, rfl⟩ := Prod.mk.inj (Option.some.inj hx)
    exact stepOk_self hfresh h
  | idle, leasegrant, _ => exact step_leasegrant hfresh h hx
  | granted l, txn _, rfl => exact step_txn hfresh h hx
  | granted l, leaserevoke _, rfl => exact step_leaserevoke hfresh h hx
  | elected l, keepAlive _, rfl => exact step_keepAlive hfresh h hx
  | elected l, storeLeader, _ =>
    obtain ⟨-, rfl⟩ := Prod.mk.inj (Option.some.inj hx)
    obtain ⟨-, hwon, hoffice, hlate⟩ := h
    exact stepOk_modify hfresh ⟨hwon, hoffice, hlate.le, by decide⟩
  | leading l f, loadRunning, _ =>
    obtain ⟨-, rfl⟩ := Prod.mk.inj (Option.some.inj hx)
    exact stepOk_self hfresh h
  | leading l f, loadLeader, _ =>
    obtain ⟨-, rfl⟩ := Prod.mk.inj (Option.some.inj hx)
    exact stepOk_self hfresh h
  | leading l f, sleep, _ =>
    obtain ⟨-, rfl⟩ := Prod.mk.inj (Option.some.inj hx)
    exact stepOk_self hfresh h
  | leading l f, leasetimetolive _, rfl => exact step_check hfresh h hx
  | leading l f, exchangeLeader, _ =>
    obtain ⟨-, rfl⟩ := Prod.mk.inj (Option.some.inj hx)
    exact stepOk_modify hfresh rfl
  | ending l, exchangeLeader, _ =>
    obtain ⟨-, rfl⟩ := Prod.mk.inj (Option.some.inj hx)
    exact stepOk_modify hfresh rfl

end Steps

section Runs

variable {s : State}

/-- In every state of every run each instance is as its phase says. -/
theorem good_of_reach (hr : fleet.Reach init s) :
    ∃ ts : ℕ → Phase, ∀ i, Good s.shared.etcd (s.shared.insts i) i (ts i) := by
  suffices h : ∃ ts : ℕ → Phase, (Fresh s.shared.etcd ∧
      ∀ i, Good s.shared.etcd (s.shared.insts i) i (ts i)) ∧
        ∀ i, (s.procs i).Meets contract (ts i) Enter by
    obtain ⟨ts, ⟨-, hgood⟩, -⟩ := h
    exact ⟨ts, hgood⟩
  refine Fleet.invariant (C := fun _ ↦ contract) (E := fun _ ↦ Enter)
    (I := fun ts s ↦ Fresh s.etcd ∧ ∀ i, Good s.etcd (s.insts i) i (ts i)) hr ?_ round_meets ?_ ?_
  · exact ⟨fun _ ↦ idle, ⟨fun _ _ ↦ rfl, fun _ ↦ rfl⟩, fun _ ↦ trivial⟩
  · rintro ts s i o c r s' ⟨hfresh, hgood⟩ ha hx
    have hstep := step_ok hfresh (hgood i) ha hx
    refine ⟨trivial, hstep.fresh, fun j ↦ ?_⟩
    rcases eq_or_ne j i with rfl | hji
    · rw [Function.update_self]
      exact hstep.good
    · rw [Function.update_of_ne hji, hstep.insts j hji]
      exact (hgood j).frame (hstep.spares j hji)
  · rintro ts s e s' ⟨hfresh, hgood⟩ hs
    cases e with
    | expire l =>
      obtain rfl := Option.some.inj hs
      exact ⟨hfresh, fun j ↦ (hgood j).frame spares_expire⟩
    | stop i =>
      obtain rfl := Option.some.inj hs
      refine ⟨hfresh, fun j ↦ ?_⟩
      rcases eq_or_ne j i with rfl | hji
      · rw [Shared.modify_insts]
        exact (hgood j).stop
      · rw [Shared.modify_insts_of_ne _ hji]
        exact hgood j

/-- The lease with which instance `i` was elected has ended, and since then the instance has made at
most `kMaxTtlFailures` TTL checks. -/
def Shared.Lapsed (s : Shared) (i : ℕ) : Prop :=
  ∃ l, (s.insts i).won = some l ∧ s.etcd.alive l = false ∧ s.etcd.late_checks l ≤ kMaxTtlFailures

/-- A leader holds the key, or its lease has lapsed. -/
theorem Good.leader {e : Etcd} {x : Instance} {i : ℕ} {t : Phase} (h : Good e x i t)
    (hleader : x.is_leader = true) : ∃ l, x.won = some l ∧ Office e i l ∧
      e.late_checks l ≤ kMaxTtlFailures := by
  match t, h with
  | idle, hoff => exact nomatch hleader.symm.trans hoff
  | granted _, ⟨hoff, _⟩ => exact nomatch hleader.symm.trans hoff
  | elected _, ⟨hoff, _⟩ => exact nomatch hleader.symm.trans hoff
  | leading l f, ⟨hwon, hoffice, hlate, hf⟩ => exact ⟨l, hwon, hoffice, by omega⟩
  | ending l, ⟨hwon, hoffice, hlate⟩ => exact ⟨l, hwon, hoffice, hlate⟩

/-- **Two flags that are up.** The lease of one of the two has lapsed. -/
theorem leader_overlap (hr : fleet.Reach init s) {i j : ℕ} (hij : i ≠ j)
    (hi : (s.shared.insts i).is_leader = true) (hj : (s.shared.insts j).is_leader = true) :
    s.shared.Lapsed i ∨ s.shared.Lapsed j := by
  obtain ⟨ts, hgood⟩ := good_of_reach hr
  obtain ⟨l, hwon, hoffice, hlate⟩ := (hgood i).leader hi
  obtain ⟨l', hwon', hoffice', hlate'⟩ := (hgood j).leader hj
  cases halive : s.shared.etcd.alive l with
  | false => exact .inl ⟨l, hwon, halive, hlate⟩
  | true =>
    cases halive' : s.shared.etcd.alive l' with
    | false => exact .inr ⟨l', hwon', halive', hlate'⟩
    | true =>
      -- both leases last, so both have the key
      have hkey := (hoffice.holds halive).1
      have hkey' := (hoffice'.holds halive').1
      obtain rfl : l = l' := Option.some.inj (hkey.symm.trans hkey')
      exact absurd (Option.some.inj (hoffice.granted.symm.trans hoffice'.granted)) hij

/-! ### A lease that ends in office

The lease of instance 0 ends, and instance 1 wins the key before instance 0 has checked. -/

/-- Instance `i` is started and wins the election, if the key is free. -/
def electedBy (i : ℕ) : List (Fleet.Label ℕ Outcome Event) :=
  [.loop i, .call i (.answered 0), .loop i, .call i (.answered 0), .call i (.answered 0),
    .call i (.answered 0), .call i (.answered 0), .call i (.answered 0)]

theorem overlap : ∃ s, fleet.Reach init s ∧
    (s.shared.insts 0).is_leader = true ∧ (s.shared.insts 1).is_leader = true := by
  have hrun := fleet.system.exists_of_run (fun _ _ ↦ True) init
    (electedBy 0 ++ [.event (.expire 0)] ++ electedBy 1)
    (fun s ↦ (s.shared.insts 0).is_leader = true ∧ (s.shared.insts 1).is_leader = true) (by decide)
  exact hrun

/-- So there can be two leaders. -/
theorem leader_twice : ¬ ∀ s, fleet.Reach init s → ∀ i j,
    (s.shared.insts i).is_leader = true → (s.shared.insts j).is_leader = true → i = j := by
  intro hunique
  obtain ⟨s, hr, h₀, h₁⟩ := overlap
  exact absurd (hunique s hr 0 1 h₀ h₁) (by decide)

theorem leader_overlap_zero_one : ∃ s, fleet.Reach init s ∧
    (s.shared.Lapsed 0 ∨ s.shared.Lapsed 1) := by
  obtain ⟨s, hr, h₀, h₁⟩ := overlap
  exact ⟨s, hr, leader_overlap hr (by decide) h₀ h₁⟩

end Runs

end ChatNow.LeaderElection
