import ChatNow.Lib.Backlog
import ChatNow.Lib.Pool
import ChatNow.Lib.SortedSet
import ChatNow.Pipeline.Signature
import Mathlib.Data.List.Lex
import Mathlib.Data.List.Perm.Basic

/-!
# The outboxes of the message service

`PushOutbox` and `ESOutbox` of `common/dao/data_redis.hpp`, each with its reaper
(`start_push_outbox_reaper` and `start_es_outbox_reaper` of `message/source/message_server.h`). What
could not be published is put into a sorted set by the time; every five seconds the reaper of the
leader publishes the fifty oldest payloads again, and the callback of a publish removes its payload
when the broker has acknowledged it. The reaper does not wait for the callbacks.

The two reapers differ in one place: that for pushes looks whether there is a publisher.

* `outbox_keeps`: a payload is in the outbox, or has been acknowledged, whatever fails.
* `outbox_drains`: what is left in the end, when it is always the same payloads that are refused.
-/

namespace ChatNow

open Prog

/-- What is published: a serialized message, byte by byte, in the order in which Redis compares
texts. -/
abbrev Payload := List (Fin 256)

/-- The operations of the reaper and of the callbacks. -/
inductive OutboxOp
  /-- `peek`; a read that fails answers as if there were nothing. -/
  | peek (limit : ℕ)
  /-- `publish_confirm`: the callback runs later. -/
  | publishConfirm (item : Payload)
  /-- `remove`. -/
  | remove (item : Payload)

/-- What each operation answers. -/
@[reducible]
def OutboxOp.Res : OutboxOp → Type
  | peek _ => List Payload
  | publishConfirm _ => Reply Unit
  | remove _ => Unit

/-- Programs about an outbox. -/
abbrev OutboxM := Prog OutboxOp OutboxOp.Res

open OutboxOp

/-- The loop over the items; an exception leaves it. -/
def publish_items : List Payload → OutboxM Unit
  | [] => return ()
  | item :: items => do
    match ← op (publishConfirm item) with
    | .thrown => return ()
    | .ok () => publish_items items

/-- A round of the reaper. -/
def reap_outbox (publisher : Bool) : OutboxM Unit := do
  let items ← op (peek 50)
  if items = [] then return ()
  else if !publisher then return ()
  else publish_items items

/-- The callback of a publish. -/
def confirm_item (item : Payload) (st : PublishStatus) : OutboxM Unit := do
  if st = .Acked then op (remove item)
  else return ()

/-! ### The machine -/

/-- The outbox, and what has happened. -/
structure OutboxState where
  items : SortedSet Payload ℤ := {}
  /-- What has been put in. -/
  enqueued : List Payload := []
  /-- What has been published and waits for its callback. -/
  in_flight : List Payload := []
  /-- What the broker has acknowledged. -/
  acked : List Payload := []
  /-- How many rounds of a reaper have begun. -/
  rounds : ℕ := 0

/-- What the environment decides at a call. -/
structure OutboxChoice where
  /-- The call fails. -/
  fault : Bool := false
  /-- Its effect takes place all the same. -/
  late : Bool := false

/-- The effect of a call. -/
def OutboxState.exec (_ : ℕ) : (o : OutboxOp) → OutboxChoice → OutboxState →
    Option (o.Res × OutboxState)
  | .peek limit, c, s => some (if c.fault then [] else s.items.zrange limit, s)
  | .publishConfirm item, c, s =>
    some (if c.fault then (.thrown, s) else (.ok (), { s with in_flight := item :: s.in_flight }))
  | .remove item, c, s =>
    some ((), if c.fault && !c.late then s else { s with items := s.items.zrem item })

/-- What can happen beside the calls. -/
inductive OutboxEv
  /-- A payload that has not been published is put in. -/
  | enqueue (payload : Payload) (score_ts : ℤ)
  /-- The reaper of a leader wakes up; there may be several who take themselves for it. -/
  | tick
  /-- The callback of a publish is due. -/
  | confirm (k : ℕ) (st : PublishStatus)
  /-- A publish whose callback will not come. -/
  | forget (k : ℕ)
  /-- A thread is gone. -/
  | crash (i : ℕ)

abbrev OutboxPool := Pool OutboxOp OutboxOp.Res OutboxState

/-- The state after a callback has become due. -/
def OutboxState.confirmed (s : OutboxState) (k : ℕ) (item : Payload) (st : PublishStatus) :
    OutboxState :=
  { s with
    in_flight := s.in_flight.eraseIdx k
    acked := if st = .Acked then item :: s.acked else s.acked }

/-- The effect of an event. -/
def OutboxState.env (publisher : Bool) : OutboxEv → OutboxPool → Option OutboxPool
  | .enqueue payload score_ts, p => some ⟨p.threads, { p.shared with
      items := p.shared.items.zadd score_ts payload
      enqueued := payload :: p.shared.enqueued }⟩
  | .tick, p => some ⟨p.threads ++ [reap_outbox publisher],
      { p.shared with rounds := p.shared.rounds + 1 }⟩
  | .confirm k st, p =>
    match p.shared.in_flight[k]? with
    | none => none
    | some item => some ⟨p.threads ++ [confirm_item item st], p.shared.confirmed k item st⟩
  | .forget k, p => some ⟨p.threads, { p.shared with
      in_flight := p.shared.in_flight.eraseIdx k }⟩
  | .crash i, p => some ⟨p.threads.set i (.ret ()), p.shared⟩

/-- An outbox with its reapers and callbacks. -/
def outbox (publisher : Bool) :
    Machine OutboxOp OutboxOp.Res OutboxState OutboxChoice OutboxEv :=
  ⟨OutboxState.exec, OutboxState.env publisher⟩

/-! ### The contract -/

/-- How far a thread has come. -/
inductive OutboxThread
  | starts
  /-- It has these items left to publish. -/
  | publishes (todo : List Payload)
  | confirms (item : Payload) (st : PublishStatus)
  | ended

namespace OutboxThread

/-- What the thread is going to publish. -/
def todo : OutboxThread → List Payload
  | publishes todo => todo
  | _ => []

/-- The thread has nothing left to do. -/
def Done : OutboxThread → Prop
  | starts => False
  | publishes todo => todo = []
  | confirms _ st => st ≠ .Acked
  | ended => True

/-- What a thread may do, and what it gets. -/
def contract : Contract OutboxOp OutboxOp.Res OutboxThread where
  allowed t o :=
    match t, o with
    | starts, .peek limit => limit = 50
    | publishes todo, .publishConfirm item => todo.head? = some item
    | confirms item st, .remove item' => st = .Acked ∧ item' = item
    | _, _ => False
  admits _ _ _ := True
  next t o r :=
    match t, o, r with
    | starts, .peek _, items => publishes items
    | publishes todo, .publishConfirm _, .ok () => publishes todo.tail
    | _, _, _ => ended

theorem publish_items_meets (items : List Payload) :
    (publish_items items).Meets contract (.publishes items) fun t _ ↦ t.Done := by
  induction items with
  | nil => rfl
  | cons item items ih =>
    refine meets_op_bind.2 ⟨rfl, fun r _ ↦ ?_⟩
    cases r with
    | thrown => trivial
    | ok _ => exact ih

/-- A reaper with a publisher publishes what it has read. -/
theorem reap_outbox_meets (publisher : Bool) :
    (reap_outbox publisher).Meets contract .starts fun t _ ↦ publisher = true → t.Done := by
  refine meets_op_bind.2 ⟨rfl, fun items _ ↦ ?_⟩
  show (ite _ _ _ : OutboxM Unit).Meets contract (.publishes items) _
  split
  · next hnil => exact fun _ ↦ hnil
  · cases publisher with
    | false => exact fun h ↦ by cases h
    | true => exact (publish_items_meets items).mono fun t _ ht _ ↦ ht

theorem confirm_item_meets (item : Payload) (st : PublishStatus) :
    (confirm_item item st).Meets contract (.confirms item st) fun t _ ↦ t.Done := by
  show (ite _ _ _ : OutboxM Unit).Meets contract _ _
  split
  · next h => exact ⟨⟨h, rfl⟩, fun _ _ ↦ trivial⟩
  · next h => exact h

/-- What a thread may do, state by state. -/
theorem allowed_cases {t : OutboxThread} {o : OutboxOp} (h : contract.allowed t o) :
    t = starts ∧ o = .peek 50 ∨
      (∃ item items, t = publishes (item :: items) ∧ o = .publishConfirm item) ∨
      ∃ item, t = confirms item .Acked ∧ o = .remove item := by
  cases t with
  | starts =>
    cases o with
    | peek limit =>
      obtain rfl : limit = 50 := h
      exact .inl ⟨rfl, rfl⟩
    | _ => exact h.elim
  | publishes todo =>
    cases o with
    | publishConfirm item =>
      obtain ⟨items, rfl⟩ := List.head?_eq_some_iff.1 h
      exact .inr (.inl ⟨item, items, rfl, rfl⟩)
    | _ => exact h.elim
  | confirms item st =>
    cases o with
    | remove item' =>
      obtain ⟨rfl, rfl⟩ := h
      exact .inr (.inr ⟨_, rfl, rfl⟩)
    | _ => exact h.elim
  | ended => exact h.elim

end OutboxThread

open OutboxThread

/-! ### Nothing is lost -/

/-- What holds in every run. -/
structure OutboxKeeps (ts : List OutboxThread) (s : OutboxState) : Prop where
  items : ∀ x ∈ s.items.members, x ∈ s.enqueued
  todo : ∀ t ∈ ts, ∀ x ∈ t.todo, x ∈ s.enqueued
  in_flight : ∀ x ∈ s.in_flight, x ∈ s.enqueued
  acked : ∀ x ∈ s.acked, x ∈ s.enqueued
  confirms : ∀ x, .confirms x .Acked ∈ ts → x ∈ s.acked
  kept : ∀ x ∈ s.enqueued, x ∈ s.items.members ∨ x ∈ s.acked

section Keeps

variable {ts : List OutboxThread} {s s' : OutboxState} {i k : ℕ} {t u : OutboxThread}
  {publisher : Bool}

/-- A thread moves on. -/
theorem OutboxKeeps.moves (h : OutboxKeeps ts s) (htodo : ∀ x ∈ u.todo, x ∈ s.enqueued)
    (hu : ∀ x, u ≠ .confirms x .Acked) : OutboxKeeps (ts.set i u) s where
  items := h.items
  todo t ht x hx := by
    rcases List.mem_or_eq_of_mem_set ht with ht | rfl
    · exact h.todo t ht x hx
    · exact htodo x hx
  in_flight := h.in_flight
  acked := h.acked
  confirms x hx := by
    rcases List.mem_or_eq_of_mem_set hx with hx | heq
    · exact h.confirms x hx
    · exact absurd heq.symm (hu x)
  kept := h.kept

theorem outboxKeeps_call {o : OutboxOp} {c : OutboxChoice} {r : o.Res} (h : OutboxKeeps ts s)
    (hi : ts[i]? = some t) (ha : contract.allowed t o)
    (hx : OutboxState.exec i o c s = some (r, s')) :
    OutboxKeeps (ts.set i (contract.next t o r)) s' := by
  rcases allowed_cases ha with ⟨rfl, rfl⟩ | ⟨item, items, rfl, rfl⟩ | ⟨item, rfl, rfl⟩
  · obtain ⟨rfl, rfl⟩ := Prod.mk.inj (Option.some.inj hx)
    refine h.moves (u := .publishes _) (fun x hmem ↦ ?_) (fun x hx ↦ by cases hx)
    replace hmem : x ∈ (if c.fault = true then [] else s.items.zrange 50) := hmem
    split at hmem
    · cases hmem
    · exact h.items x (s.items.mem_of_mem_zrange hmem)
  · have htodo := h.todo _ (List.mem_of_getElem? hi)
    simp only [OutboxState.exec] at hx
    split at hx
    · obtain ⟨rfl, rfl⟩ := Prod.mk.inj (Option.some.inj hx)
      exact h.moves (u := .ended) (fun x hmem ↦ by cases hmem) (fun x hx ↦ by cases hx)
    · obtain ⟨rfl, rfl⟩ := Prod.mk.inj (Option.some.inj hx)
      have hmoved := h.moves (i := i) (u := .publishes items)
        (fun x hmem ↦ htodo x (List.mem_cons_of_mem _ hmem)) (fun x hx ↦ by cases hx)
      refine { hmoved with in_flight := fun x hmem ↦ ?_ }
      rcases List.mem_cons.1 hmem with rfl | hmem
      · exact htodo _ List.mem_cons_self
      · exact h.in_flight x hmem
  · have hacked := h.confirms item (List.mem_of_getElem? hi)
    have hmoved := h.moves (i := i) (u := .ended) (fun x hmem ↦ by cases hmem)
      (fun x hx ↦ by cases hx)
    obtain ⟨-, rfl⟩ := Prod.mk.inj (Option.some.inj hx)
    split
    · exact hmoved
    · refine { hmoved with items := fun x hmem ↦ ?_, kept := fun x hmem ↦ ?_ }
      · exact h.items x (SortedSet.mem_zrem _ |>.1 hmem).1
      · rcases h.kept x hmem with hin | hacked'
        · rcases eq_or_ne x item with rfl | hne
          · exact .inr hacked
          · exact .inl ((SortedSet.mem_zrem _).2 ⟨hin, hne⟩)
        · exact .inr hacked'

theorem outboxKeeps_event {p p' : OutboxPool} {e : OutboxEv} (h : OutboxKeeps ts p.shared)
    (hm : p.Meets contract (fun _ ↦ True) ts) (hx : OutboxState.env publisher e p = some p') :
    ∃ ts', OutboxKeeps ts' p'.shared ∧ p'.Meets contract (fun _ ↦ True) ts' := by
  cases e with
  | enqueue payload score_ts =>
    obtain rfl := Option.some.inj hx
    refine ⟨ts, ⟨fun x hmem ↦ ?_, fun t ht x hmem ↦ ?_, fun x hmem ↦ ?_, fun x hmem ↦ ?_,
      h.confirms, fun x hmem ↦ ?_⟩, hm⟩
    · rcases (SortedSet.mem_zadd _).1 hmem with rfl | hmem
      · exact List.mem_cons_self
      · exact List.mem_cons_of_mem _ (h.items x hmem)
    · exact List.mem_cons_of_mem _ (h.todo t ht x hmem)
    · exact List.mem_cons_of_mem _ (h.in_flight x hmem)
    · exact List.mem_cons_of_mem _ (h.acked x hmem)
    · rcases List.mem_cons.1 hmem with rfl | hmem
      · exact .inl ((SortedSet.mem_zadd _).2 (.inl rfl))
      · exact (h.kept x hmem).imp_left fun hin ↦ (SortedSet.mem_zadd _).2 (.inr hin)
  | tick =>
    obtain rfl := Option.some.inj hx
    refine ⟨ts ++ [.starts], ⟨h.items, fun t ht x hmem ↦ ?_, h.in_flight, h.acked,
      fun x hmem ↦ ?_, h.kept⟩, hm.spawn ((reap_outbox_meets publisher).mono
        fun _ _ _ ↦ trivial) _⟩
    · rcases List.mem_append.1 ht with ht | ht
      · exact h.todo t ht x hmem
      · obtain rfl := List.mem_singleton.1 ht
        cases hmem
    · rcases List.mem_append.1 hmem with hmem | hmem
      · exact h.confirms x hmem
      · cases List.mem_singleton.1 hmem
  | confirm k st =>
    simp only [OutboxState.env] at hx
    split at hx
    · cases hx
    · next item hitem =>
      obtain rfl := Option.some.inj hx
      have hsub : ∀ x ∈ p.shared.acked, x ∈ (p.shared.confirmed k item st).acked := by
        intro x hmem
        rw [OutboxState.confirmed]
        split
        · exact List.mem_cons_of_mem _ hmem
        · exact hmem
      refine ⟨ts ++ [.confirms item st], ⟨h.items, fun t ht x hmem ↦ ?_, fun x hmem ↦ ?_,
        fun x hmem ↦ ?_, fun x hmem ↦ ?_, fun x hmem ↦ ?_⟩,
        hm.spawn ((confirm_item_meets item st).mono fun _ _ _ ↦ trivial) _⟩
      · rcases List.mem_append.1 ht with ht | ht
        · exact h.todo t ht x hmem
        · obtain rfl := List.mem_singleton.1 ht
          cases hmem
      · exact h.in_flight x (List.mem_of_mem_eraseIdx hmem)
      · replace hmem : x ∈ (if st = .Acked then item :: p.shared.acked else p.shared.acked) := hmem
        split at hmem
        · rcases List.mem_cons.1 hmem with rfl | hmem
          · exact h.in_flight _ (List.mem_of_getElem? hitem)
          · exact h.acked x hmem
        · exact h.acked x hmem
      · rcases List.mem_append.1 hmem with hmem | hmem
        · exact hsub x (h.confirms x hmem)
        · obtain ⟨rfl, rfl⟩ := OutboxThread.confirms.inj (List.mem_singleton.1 hmem)
          exact List.mem_cons_self
      · exact (h.kept x hmem).imp_right (hsub x)
  | forget k =>
    obtain rfl := Option.some.inj hx
    exact ⟨ts, ⟨h.items, h.todo, fun x hmem ↦ h.in_flight x (List.mem_of_mem_eraseIdx hmem),
      h.acked, h.confirms, h.kept⟩, hm⟩
  | crash i =>
    obtain rfl := Option.some.inj hx
    exact ⟨ts, h, hm.stop (fun _ ↦ trivial) i _⟩

end Keeps

/-- **Nothing is lost, and nothing else is published**: in every run, whatever fails and however
many reapers there are, a payload has been put into the outbox exactly when it is there or has been
acknowledged by the broker; and what waits for its callback has been put in. -/
theorem outbox_keeps (publisher : Bool) (p : OutboxPool)
    (hr : (outbox publisher).Reach .any ⟨[], {}⟩ p) (payload : Payload) :
    (payload ∈ p.shared.enqueued ↔
      payload ∈ p.shared.items.members ∨ payload ∈ p.shared.acked) ∧
      (payload ∈ p.shared.in_flight → payload ∈ p.shared.enqueued) := by
  have h₀ : OutboxKeeps [] {} := by
    refine ⟨?_, ?_, ?_, ?_, ?_, ?_⟩
    all_goals exact fun _ h ↦ by cases h
  obtain ⟨ts, h, -⟩ : ∃ ts, OutboxKeeps ts p.shared ∧ p.Meets contract (fun _ ↦ True) ts := by
    refine Machine.invariant hr ⟨[], h₀, .nil⟩ ?_ ?_
    · intro ts s i t o c r s' h hi ha _ hx
      exact ⟨trivial, outboxKeeps_call h hi ha hx⟩
    · intro ts p e p' h hm _ hx
      exact outboxKeeps_event h hm hx
  exact ⟨⟨h.kept payload, fun hmem ↦ hmem.elim (h.items payload) (h.acked payload)⟩,
    h.in_flight payload⟩

/-- A payload is published, and put in again before the callback. -/
def putInAgain : List (Machine.Label OutboxChoice OutboxEv) :=
  [.event (.enqueue [7] 1), .event .tick, .call 0 {}, .call 0 {}, .event (.enqueue [7] 2),
    .event (.confirm 0 .Acked), .call 1 {}]

/-- It has been acknowledged. -/
theorem outbox_keeps_acknowledged :
    ∃ p, (outbox true).Reach .any ⟨[], {}⟩ p ∧ [7] ∈ p.shared.enqueued ∧
      [7] ∉ p.shared.items.members ∧ [7] ∈ p.shared.acked := by
  obtain ⟨p, hp, hin, hout⟩ := Machine.exists_of_run (outbox true) .any ⟨[], {}⟩ putInAgain
    (fun p ↦ [7] ∈ p.shared.enqueued ∧ [7] ∉ p.shared.items.members) (by decide +kernel)
  exact ⟨p, hp, hin, hout, ((outbox_keeps true p hp [7]).1.1 hin).resolve_left hout⟩

/-! ### What is left -/

/-- Nothing is going on. -/
def Quiet (p : OutboxPool) : Prop :=
  (∀ q ∈ p.threads, q.finished = true) ∧ p.shared.in_flight = []

instance (p : OutboxPool) : Decidable (Quiet p) :=
  inferInstanceAs (Decidable (_ ∧ p.shared.in_flight = []))

/-- Nothing fails and nothing is put in, a round begins when the one before it is over, and it is
always the same payloads that are not acknowledged. -/
def calm (refused : Payload → Bool) :
    Machine.Guard OutboxOp OutboxOp.Res OutboxState OutboxChoice OutboxEv where
  onOp _ _ c _ := c.fault = false
  onEv e p :=
    match e with
    | .tick => Quiet p
    | .confirm k st => ∀ item ∈ p.shared.in_flight[k]?, st = .Acked ↔ refused item = false
    | _ => False

/-- The thread is going to remove the payload, or may be. -/
def OutboxThread.Holds (t : OutboxThread) (x : Payload) : Prop :=
  match t with
  | starts => True
  | publishes todo => x ∈ todo
  | confirms item st => st = .Acked ∧ item = x
  | ended => False

/-- What holds in a round that has begun with the queue `l`. -/
structure OutboxRound (refused : Payload → Bool) (l : List Payload) (ts : List OutboxThread)
    (s : OutboxState) : Prop where
  nodup : l.Nodup
  queue : s.items.members = l.filter (· ∈ s.items.members)
  left : ∀ x ∈ l, x ∉ s.items.members → x ∈ l.take 50 ∧ refused x = false
  todo : ∀ t ∈ ts, ∀ x ∈ t.todo, x ∈ l.take 50
  in_flight : ∀ x ∈ s.in_flight, x ∈ l.take 50
  confirms : ∀ x, .confirms x .Acked ∈ ts → x ∈ l.take 50 ∧ refused x = false
  held : ∀ x ∈ l.take 50, refused x = false → x ∈ s.items.members →
    (∃ t ∈ ts, t.Holds x) ∨ x ∈ s.in_flight
  /-- Until the queue has been read, nothing else happens. -/
  fresh : ∀ i : ℕ, ts[i]? = some .starts →
    s.items.members = l ∧ s.in_flight = [] ∧ ∀ (j : ℕ) t, ts[j]? = some t → j ≠ i → t.Done

section Round

variable {refused : Payload → Bool} {l : List Payload} {ts : List OutboxThread}
  {s s' : OutboxState} {i k : ℕ} {t u : OutboxThread} {x : Payload}

theorem not_holds_of_done (h : t.Done) : ¬t.Holds x := by
  cases t with
  | starts => exact h.elim
  | publishes todo =>
    obtain rfl : todo = [] := h
    exact List.not_mem_nil
  | confirms item st => exact fun hholds ↦ h hholds.1
  | ended => exact id

theorem todo_of_done (h : t.Done) : t.todo = [] := by
  cases t with
  | publishes todo => exact h
  | _ => rfl

/-- Who had a payload has it after a step of another thread. -/
theorem holds_set (h : ∃ t' ∈ ts, t'.Holds x) (hi : ts[i]? = some t)
    (ht : t.Holds x → u.Holds x ∨ x ∈ s.in_flight) :
    (∃ t' ∈ ts.set i u, t'.Holds x) ∨ x ∈ s.in_flight := by
  obtain ⟨t', ht', hx⟩ := h
  obtain ⟨j, hj⟩ := List.getElem?_of_mem ht'
  rcases eq_or_ne i j with rfl | hne
  · obtain rfl := Option.some.inj (hi.symm.trans hj)
    exact (ht hx).imp_left fun hu ↦ ⟨u, List.mem_of_getElem? (Pool.getElem?_set_self hi), hu⟩
  · refine .inl ⟨t', List.mem_of_getElem? (i := j) ?_, hx⟩
    rwa [List.getElem?_set_ne hne]

/-- **The end of a round.** -/
theorem OutboxRound.members_eq (h : OutboxRound refused l ts s) (hdone : ∀ t ∈ ts, t.Done)
    (hflight : s.in_flight = []) : s.items.members = Backlog.round refused 50 l := by
  have hgone : ∀ x ∈ l.take 50, refused x = false → x ∉ s.items.members := by
    intro x hx hacked hmem
    rcases h.held x hx hacked hmem with ⟨t, ht, hholds⟩ | hin
    · exact not_holds_of_done (hdone t ht) hholds
    · rw [hflight] at hin
      cases hin
  have hstays : ∀ x ∈ l, x ∉ l.take 50 ∨ refused x = true → x ∈ s.items.members := by
    intro x hx hor
    by_contra hnot
    obtain ⟨htake, hacked⟩ := h.left x hx hnot
    rcases hor with hor | hor
    · exact hor htake
    · rw [hacked] at hor
      cases hor
  rw [h.queue, Backlog.round]
  conv_lhs => rw [← List.take_append_drop 50 l, List.filter_append]
  congr 1
  · refine List.filter_congr fun x hx ↦ ?_
    cases hrefused : refused x with
    | true => exact decide_eq_true (hstays x (List.mem_of_mem_take hx) (.inr hrefused))
    | false => exact decide_eq_false (hgone x hx hrefused)
  · refine List.filter_eq_self.2 fun x hx ↦ decide_eq_true ?_
    refine hstays x (List.mem_of_mem_drop hx) (.inl fun htake ↦ ?_)
    exact List.disjoint_take_drop h.nodup le_rfl htake hx

/-- The next round begins. -/
theorem OutboxRound.begins (hdone : ∀ t ∈ ts, t.Done) (hflight : s.in_flight = []) (n : ℕ) :
    OutboxRound refused s.items.members (ts ++ [.starts]) { s with rounds := n } where
  nodup := s.items.nodup_members
  queue := (List.filter_eq_self.2 fun x hx ↦ decide_eq_true hx).symm
  left x hx hnot := absurd hx hnot
  todo t ht x hx := by
    rcases List.mem_append.1 ht with ht | ht
    · rw [todo_of_done (hdone t ht)] at hx
      cases hx
    · obtain rfl := List.mem_singleton.1 ht
      cases hx
  in_flight x hx := by
    rw [show ({ s with rounds := n } : OutboxState).in_flight = [] from hflight] at hx
    cases hx
  confirms x hx := by
    rcases List.mem_append.1 hx with hx | hx
    · exact absurd rfl (hdone _ hx)
    · cases List.mem_singleton.1 hx
  held x _ _ _ := .inl ⟨.starts, List.mem_append_right _ (List.mem_singleton_self _), trivial⟩
  fresh i hi := by
    refine ⟨rfl, hflight, fun j t hj hne ↦ ?_⟩
    rcases Pool.getElem?_append_cases hi with ⟨rfl, -⟩ | ⟨-, hi⟩
    · rcases Pool.getElem?_append_cases hj with ⟨rfl, -⟩ | ⟨-, hj⟩
      · exact absurd rfl hne
      · exact hdone t (List.mem_of_getElem? hj)
    · exact (hdone _ (List.mem_of_getElem? hi)).elim

/-- A thread that is not the first moves on: nobody waits to read the queue. -/
theorem OutboxRound.not_fresh (h : OutboxRound refused l ts s) (hi : ts[i]? = some t)
    (ht : ¬t.Done) (hne : t ≠ .starts) (j : ℕ) : ts[j]? ≠ some .starts := by
  intro hj
  refine ht ((h.fresh j hj).2.2 i t hi ?_)
  rintro rfl
  exact hne (Option.some.inj (hi.symm.trans hj))

/-- **Every call** in a round. -/
theorem outboxRound_call {o : OutboxOp} {c : OutboxChoice} {r : o.Res}
    (h : OutboxRound refused l ts s) (hi : ts[i]? = some t) (ha : contract.allowed t o)
    (hfault : c.fault = false) (hx : OutboxState.exec i o c s = some (r, s')) :
    OutboxRound refused l (ts.set i (contract.next t o r)) s' := by
  rcases allowed_cases ha with ⟨rfl, rfl⟩ | ⟨item, items, rfl, rfl⟩ | ⟨item, rfl, rfl⟩
  · -- the queue is read
    obtain ⟨hmembers, hflight, hdone⟩ := h.fresh i hi
    simp only [OutboxState.exec, hfault, Bool.false_eq_true, if_false] at hx
    obtain ⟨rfl, rfl⟩ := Prod.mk.inj (Option.some.inj hx)
    have hread : s.items.zrange 50 = l.take 50 := by rw [SortedSet.zrange, hmembers]
    rw [hread]
    refine { h with todo := ?_, confirms := ?_, held := ?_, fresh := ?_ }
    · intro t' ht' x hmem
      rcases List.mem_or_eq_of_mem_set ht' with ht' | rfl
      · exact h.todo t' ht' x hmem
      · exact hmem
    · intro x hmem
      rcases List.mem_or_eq_of_mem_set hmem with hmem | heq
      · exact h.confirms x hmem
      · cases heq
    · intro x hmem _ _
      exact .inl ⟨.publishes (l.take 50), List.mem_of_getElem? (Pool.getElem?_set_self hi), hmem⟩
    · intro j hj
      rcases Pool.getElem?_set_cases hj with ⟨-, heq⟩ | ⟨hne, hj⟩
      · cases heq
      · exact (hdone j _ hj hne).elim
  · -- an item is published
    have hnot := h.not_fresh hi (fun hdone ↦ by cases hdone) (fun heq ↦ by cases heq)
    have htodo := h.todo _ (List.mem_of_getElem? hi)
    simp only [OutboxState.exec, hfault, Bool.false_eq_true, if_false] at hx
    obtain ⟨rfl, rfl⟩ := Prod.mk.inj (Option.some.inj hx)
    refine { h with todo := ?_, in_flight := ?_, confirms := ?_, held := ?_, fresh := ?_ }
    · intro t' ht' x hmem
      rcases List.mem_or_eq_of_mem_set ht' with ht' | rfl
      · exact h.todo t' ht' x hmem
      · exact htodo x (List.mem_cons_of_mem _ hmem)
    · intro x hmem
      rcases List.mem_cons.1 hmem with rfl | hmem
      · exact htodo _ List.mem_cons_self
      · exact h.in_flight x hmem
    · intro x hmem
      rcases List.mem_or_eq_of_mem_set hmem with hmem | heq
      · exact h.confirms x hmem
      · cases heq
    · intro x hmem hacked hin
      rcases h.held x hmem hacked hin with hholds | hflight
      · refine holds_set (s := { s with in_flight := item :: s.in_flight }) hholds hi fun hx ↦ ?_
        rcases List.mem_cons.1 hx with rfl | hx
        · exact .inr List.mem_cons_self
        · exact .inl hx
      · exact .inr (List.mem_cons_of_mem _ hflight)
    · intro j hj
      rcases Pool.getElem?_set_cases hj with ⟨-, heq⟩ | ⟨-, hj⟩
      · cases heq
      · exact absurd hj (hnot j)
  · -- an item is removed
    have hnot := h.not_fresh hi (fun hdone ↦ hdone rfl) (fun heq ↦ by cases heq)
    have hitem := h.confirms item (List.mem_of_getElem? hi)
    simp only [OutboxState.exec, hfault, Bool.false_and, Bool.false_eq_true, if_false] at hx
    obtain ⟨-, rfl⟩ := Prod.mk.inj (Option.some.inj hx)
    have hmem_iff : ∀ x, x ∈ (s.items.zrem item).members ↔ x ∈ s.items.members ∧ x ≠ item :=
      fun x ↦ SortedSet.mem_zrem _
    refine ⟨h.nodup, ?_, ?_, ?_, h.in_flight, ?_, ?_, ?_⟩
    · show (s.items.zrem item).members = l.filter (· ∈ (s.items.zrem item).members)
      rw [SortedSet.members_zrem]
      conv_lhs => rw [h.queue, List.filter_filter]
      refine List.filter_congr fun x _ ↦ ?_
      rw [← SortedSet.members_zrem, ← Bool.decide_and]
      exact decide_eq_decide.2 ((and_comm).trans (hmem_iff x).symm)
    · intro x hx hnotin
      rcases eq_or_ne x item with rfl | hne
      · exact hitem
      · exact h.left x hx fun hin ↦ hnotin ((hmem_iff x).2 ⟨hin, hne⟩)
    · intro t' ht' x hmem
      rcases List.mem_or_eq_of_mem_set ht' with ht' | rfl
      · exact h.todo t' ht' x hmem
      · cases hmem
    · intro x hmem
      rcases List.mem_or_eq_of_mem_set hmem with hmem | heq
      · exact h.confirms x hmem
      · cases heq
    · intro x hmem hacked hin
      obtain ⟨hin, hne⟩ := (hmem_iff x).1 hin
      rcases h.held x hmem hacked hin with hholds | hflight
      · exact holds_set hholds hi fun hx ↦ absurd hx.2.symm hne
      · exact .inr hflight
    · intro j hj
      rcases Pool.getElem?_set_cases hj with ⟨-, heq⟩ | ⟨-, hj⟩
      · cases heq
      · exact absurd hj (hnot j)

/-- A callback becomes due. -/
theorem OutboxRound.confirm (h : OutboxRound refused l ts s) {item : Payload} {st : PublishStatus}
    (hitem : s.in_flight[k]? = some item) (hst : st = .Acked ↔ refused item = false) :
    OutboxRound refused l (ts ++ [.confirms item st]) (s.confirmed k item st) := by
  have hperm : s.in_flight.Perm (item :: s.in_flight.eraseIdx k) := by
    obtain ⟨hlt, rfl⟩ := List.getElem?_eq_some_iff.1 hitem
    exact (List.getElem_cons_eraseIdx_perm hlt).symm
  refine ⟨h.nodup, h.queue, h.left, ?_, fun x hmem ↦ h.in_flight x (List.mem_of_mem_eraseIdx hmem),
    ?_, ?_, ?_⟩
  · intro t ht x hmem
    rcases List.mem_append.1 ht with ht | ht
    · exact h.todo t ht x hmem
    · obtain rfl := List.mem_singleton.1 ht
      cases hmem
  · intro x hmem
    rcases List.mem_append.1 hmem with hmem | hmem
    · exact h.confirms x hmem
    · obtain ⟨rfl, rfl⟩ := OutboxThread.confirms.inj (List.mem_singleton.1 hmem)
      exact ⟨h.in_flight _ (List.mem_of_getElem? hitem), hst.1 rfl⟩
  · intro x hmem hacked hin
    rcases h.held x hmem hacked hin with ⟨t, ht, hx⟩ | hflight
    · exact .inl ⟨t, List.mem_append_left _ ht, hx⟩
    · rcases List.mem_cons.1 (hperm.mem_iff.1 hflight) with rfl | hflight
      · exact .inl ⟨_, List.mem_append_right _ (List.mem_singleton_self _), hst.2 hacked, rfl⟩
      · exact .inr hflight
  · intro j hj
    rcases Pool.getElem?_append_cases hj with ⟨-, heq⟩ | ⟨-, hj⟩
    · cases heq
    · have hnone := (h.fresh j hj).2.1
      rw [hnone] at hitem
      cases hitem

/-- What holds in a calm run: no round has begun, or one with what the rounds before it have
left. -/
def OutboxCalm (refused : Payload → Bool) (s₀ : OutboxState) (ts : List OutboxThread)
    (s : OutboxState) : Prop :=
  s.rounds = 0 ∧ ts = [] ∧ s.in_flight = [] ∧ s.items = s₀.items ∨
    ∃ n, s.rounds = n + 1 ∧
      OutboxRound refused ((Backlog.round refused 50)^[n] s₀.items.members) ts s

/-- What is in the outbox between two rounds. -/
theorem OutboxCalm.members_eq {s₀ : OutboxState} (h : OutboxCalm refused s₀ ts s)
    (hdone : ∀ t ∈ ts, t.Done) (hflight : s.in_flight = []) :
    s.items.members = (Backlog.round refused 50)^[s.rounds] s₀.items.members := by
  rcases h with ⟨hrounds, -, -, hitems⟩ | ⟨n, hrounds, hround⟩
  · rw [hrounds, hitems]
    rfl
  · rw [hrounds, Function.iterate_succ_apply']
    exact hround.members_eq hdone hflight

theorem outboxCalm_event {s₀ : OutboxState} {p p' : OutboxPool} {e : OutboxEv}
    (h : OutboxCalm refused s₀ ts p.shared) (hm : p.Meets contract OutboxThread.Done ts)
    (hG : (calm refused).onEv e p) (hx : OutboxState.env true e p = some p') :
    ∃ ts', OutboxCalm refused s₀ ts' p'.shared ∧ p'.Meets contract OutboxThread.Done ts' := by
  cases e with
  | tick =>
    obtain ⟨hfinished, hflight⟩ := hG
    have hdone := hm.finished hfinished
    obtain rfl := Option.some.inj hx
    refine ⟨ts ++ [.starts], .inr ⟨p.shared.rounds, rfl, ?_⟩,
      hm.spawn ((reap_outbox_meets true).mono fun _ _ ht ↦ ht rfl) _⟩
    rw [← h.members_eq hdone hflight]
    exact OutboxRound.begins hdone hflight _
  | confirm k st =>
    simp only [OutboxState.env] at hx
    split at hx
    · cases hx
    · next item hitem =>
      obtain rfl := Option.some.inj hx
      refine ⟨ts ++ [.confirms item st], ?_, hm.spawn (confirm_item_meets item st) _⟩
      rcases h with ⟨-, -, hflight, -⟩ | ⟨n, hrounds, hround⟩
      · rw [hflight] at hitem
        cases hitem
      · exact .inr ⟨n, hrounds, hround.confirm hitem (hG item hitem)⟩
  | enqueue payload score_ts | forget k | crash i => exact hG.elim

theorem outboxCalm_call {s₀ : OutboxState} {o : OutboxOp} {c : OutboxChoice} {r : o.Res}
    (h : OutboxCalm refused s₀ ts s) (hi : ts[i]? = some t) (ha : contract.allowed t o)
    (hfault : c.fault = false) (hx : OutboxState.exec i o c s = some (r, s')) :
    OutboxCalm refused s₀ (ts.set i (contract.next t o r)) s' := by
  rcases h with ⟨-, rfl, -, -⟩ | ⟨n, hrounds, hround⟩
  · cases hi
  · refine .inr ⟨n, ?_, outboxRound_call hround hi ha hfault hx⟩
    rw [← hrounds]
    rcases allowed_cases ha with ⟨rfl, rfl⟩ | ⟨item, items, rfl, rfl⟩ | ⟨item, rfl, rfl⟩
    all_goals
      simp only [OutboxState.exec, hfault, Bool.false_and, Bool.false_eq_true, if_false] at hx
      obtain ⟨-, rfl⟩ := Prod.mk.inj (Option.some.inj hx)
      rfl

end Round

/-- **What is left in the end.** In a run in which nothing fails and nothing is put in, the rounds
do not overlap and it is always the same payloads that are refused, each finished round has tried
the first fifty. After as many rounds as there were payloads there are left, for good, the refused
ones up to the fiftieth and everything behind that: with fifty refused payloads at the head nothing
else is published ever, and fewer hold nobody up. -/
theorem outbox_drains (refused : Payload → Bool) (s₀ : OutboxState) (hs : s₀.in_flight = [])
    (hrounds : s₀.rounds = 0) (p : OutboxPool)
    (hr : (outbox true).Reach (calm refused) ⟨[], s₀⟩ p) (hquiet : Quiet p) :
    p.shared.items.members = (Backlog.round refused 50)^[p.shared.rounds] s₀.items.members ∧
      (s₀.items.members.length ≤ p.shared.rounds →
        p.shared.items.members = Backlog.stuck refused 50 s₀.items.members) := by
  obtain ⟨ts, h, hm⟩ : ∃ ts, OutboxCalm refused s₀ ts p.shared ∧
      p.Meets contract OutboxThread.Done ts := by
    refine Machine.invariant hr ⟨[], .inl ⟨hrounds, rfl, hs, rfl⟩, .nil⟩ ?_ ?_
    · intro ts s i t o c r s' h hi ha hG hx
      exact ⟨trivial, outboxCalm_call h hi ha hG hx⟩
    · intro ts p e p' h hm hG hx
      exact outboxCalm_event h hm hG hx
  have hmembers := h.members_eq (hm.finished hquiet.1) hquiet.2
  exact ⟨hmembers, fun hle ↦ hmembers.trans (Backlog.iterate_round hle)⟩

instance (refused : Payload → Bool) (i : ℕ) (o : OutboxOp) (c : OutboxChoice) (s : OutboxState) :
    Decidable ((calm refused).onOp i o c s) :=
  inferInstanceAs (Decidable (c.fault = false))

instance (refused : Payload → Bool) (e : OutboxEv) (p : OutboxPool) :
    Decidable ((calm refused).onEv e p) :=
  match e with
  | .tick => inferInstanceAs (Decidable (Quiet p))
  | .confirm k st => inferInstanceAs (Decidable
      (∀ item ∈ p.shared.in_flight[k]?, st = .Acked ↔ refused item = false))
  | .enqueue _ _ => .isFalse id
  | .forget _ => .isFalse id
  | .crash _ => .isFalse id

/-- Two payloads. -/
def twoPayloads : OutboxState where
  items := ⟨[toLex (1, [7]), toLex (2, [8])], by decide, by decide⟩
  enqueued := [[7], [8]]

/-- Two rounds, in which the first payload is refused. -/
def twoRounds : List (Machine.Label OutboxChoice OutboxEv) :=
  [.event .tick, .call 0 {}, .call 0 {}, .call 0 {}, .event (.confirm 1 .Nacked),
    .event (.confirm 0 .Acked), .call 2 {}, .event .tick, .call 3 {}, .call 3 {},
    .event (.confirm 0 .Lost)]

/-- It is left. -/
theorem outbox_drains_two :
    twoPayloads.in_flight = [] ∧ twoPayloads.rounds = 0 ∧ ∃ p,
      (outbox true).Reach (calm (· = [7])) ⟨[], twoPayloads⟩ p ∧ Quiet p ∧
      p.shared.rounds = 2 ∧ p.shared.items.members = [[7]] := by
  obtain ⟨p, hp, hquiet, hrounds⟩ := Machine.exists_of_run (outbox true) (calm (· = [7]))
    ⟨[], twoPayloads⟩ twoRounds (fun p ↦ Quiet p ∧ p.shared.rounds = 2) (by decide +kernel)
  have h := (outbox_drains (· = [7]) twoPayloads rfl rfl p hp hquiet).2 (by rw [hrounds]; decide)
  exact ⟨rfl, rfl, p, hp, hquiet, hrounds, h.trans (by decide)⟩

end ChatNow
