import ChatNow.Common.CircuitBreaker
import ChatNow.Lib.Custody

/-!
# The callers of the circuit breaker

`RedisPipeline` and the calls of `RedisClient` of `common/dao/data_redis.hpp`: each of them gets a
permit from the breaker (`before_call_`) and settles it when it has been answered or given up. A
pipeline takes its permit along when it is moved.

A client is the breaker with its clock, the pipelines by their addresses, and the guarded calls that
have begun. What the pipelines and functions of redis++ do is not known here: they return or throw
(`Thrown`), which is part of the name of a step. Results are moved out of a guarded call without
throwing, as those of all commands are.

Permits are numbered (`Held`), which the code does not do, to tell them apart in the record of the
calls: two permits of a closed breaker are equal.
-/

namespace ChatNow.RedisClient

open RedisCircuitBreaker

/-! ### What is thrown -/

/-- The class of an exception, as far as the handlers tell them apart. A class that is derived from
one of redis++ counts as that one; `derived` is any other that is derived from `sw::redis::Error`.
-/
inductive Thrown
  | IoError
  | ClosedError
  | ReplyError
  | Error (what : String)
  | derived
  | other
  deriving DecidableEq

/-- The text of an error that redis++ throws when the pool has no connection. -/
def is_pool_wait_message (message : List Char) : Bool :=
  let before := "Failed to fetch a connection in ".toList
  let after := " milliseconds".toList
  before.length + after.length < message.length && before.isPrefixOf message &&
    after.isSuffixOf message &&
      ((message.drop before.length).take (message.length - before.length - after.length)).all
        Char.isDigit

/-- `is_redis_pool_wait_error`: the class has to be `sw::redis::Error` itself. -/
def is_redis_pool_wait_error : Thrown → Bool
  | .Error what => is_pool_wait_message what.toList
  | _ => false

/-- There was no connection, or it has broken. -/
def Thrown.connection : Thrown → Bool
  | .IoError => true
  | .ClosedError => true
  | e => is_redis_pool_wait_error e

/-- What a function is run for. -/
inductive Op
  /-- The backend makes a pipeline. -/
  | pipeline
  /-- A command is put into a pipeline. -/
  | queue
  /-- A pipeline is executed. -/
  | exec
  /-- The function of a guarded call. -/
  | call
  deriving DecidableEq

/-- What the handlers do with the permit. The one of `queue_` has none for `ReplyError`. -/
def handler (op : Op) : Thrown → Settlement
  | .IoError => .connection_failure
  | .ClosedError => .connection_failure
  | .ReplyError => if op = .queue then .abandoned else .success
  | .other => .abandoned
  | e => if is_redis_pool_wait_error e then .connection_failure else .abandoned

/-- What is done with the permit when a function has returned or thrown whose answer settles it. -/
def answered (op : Op) : Option Thrown → Settlement
  | none => .success
  | some e => handler op e

/-- What is done with the permit when a function has returned or thrown; a pipeline that has been
made and a command that has been put into it leave it as it is. -/
def owed : Op → Option Thrown → Option Settlement
  | .pipeline, x => x.map (handler .pipeline)
  | .queue, x => x.map (handler .queue)
  | .exec, x => some (answered .exec x)
  | .call, x => some (answered .call x)

/-! ### The client -/

/-- A permit and its number. -/
structure Held where
  id : ℕ
  issued : Issued
  deriving DecidableEq

/-- The members of `RedisPipeline`. Of `_pipeline` it is known with which permit it was made;
nothing is left of one that has been moved. -/
structure RedisPipeline where
  pipeline : Option Held
  breaker : Bool
  permit : Held
  settled : Bool
  deriving DecidableEq

/-- What is recorded. -/
inductive Event
  /-- A function has been run, and returned or thrown. -/
  | ran (pipeline : Option Held) (op : Op) (x : Option Thrown)
  /-- A permit has been passed to a method of the breaker. -/
  | settled (permit : Held) (how : Settlement)
  deriving DecidableEq

structure Client where
  world : World
  pipelines : ℕ → Option RedisPipeline := fun _ ↦ none
  calls : ℕ → Option Held := fun _ ↦ none
  /-- The permits that have been issued. -/
  issued : List Held := []
  /-- What has happened, the last event first. -/
  log : List Event := []

namespace Client

variable (c : Client)

/-- `before_call_`; `none` when it throws `RedisCircuitOpen`. -/
def before_call_ : Option Held × Client :=
  match c.world.breaker.before_call c.world.clock.ms with
  | (some permit, _) =>
    let h : Held := ⟨c.issued.length, permit, c.world.openings⟩
    (some h, { c with world := c.world.issue, issued := h :: c.issued })
  | (none, _) => (none, { c with world := c.world.issue })

/-- A permit is passed to a method of the breaker. -/
def settle (h : Held) (how : Settlement) : Client :=
  { c with world := c.world.settle h.issued how, log := .settled h how :: c.log }

/-- A function has been run. -/
def ran (pipeline : Option Held) (op : Op) (x : Option Thrown) : Client :=
  { c with log := .ran pipeline op x :: c.log }

/-- A guarded call begins or ends. -/
def setCall (k : ℕ) (h : Option Held) : Client :=
  { c with calls := Function.update c.calls k h }

/-- An address gets a pipeline, or loses it. -/
def put (i : ℕ) (p : Option RedisPipeline) : Client :=
  { c with pipelines := Function.update c.pipelines i p }

end Client

namespace RedisPipeline

variable (p : RedisPipeline) (c : Client)

/-- `settle_success_` and `record_connection_failure_`. -/
def settle_ (how : Settlement) : RedisPipeline × Client :=
  if p.settled then (p, c) else ({ p with settled := true }, c.settle p.permit how)

/-- `abandon_`. -/
def abandon_ : RedisPipeline × Client :=
  if p.settled || !p.breaker then (p, c)
  else ({ p with settled := true }, c.settle p.permit .abandoned)

/-- What `queue_` and `exec` do at the end. -/
def finish (x : Option Settlement) : RedisPipeline × Client :=
  match x with
  | none => (p, c)
  | some .abandoned => p.abandon_ c
  | some how => p.settle_ c how

/-- What is left of a pipeline that has been moved. -/
def moved : RedisPipeline := { p with pipeline := none, breaker := false, settled := true }

end RedisPipeline

/-- What can happen. -/
inductive Label
  | tick (t : ClockMs)
  /-- `pipeline`, at an address. -/
  | pipeline (i : ℕ) (x : Option Thrown)
  | queue (i : ℕ) (x : Option Thrown)
  | exec (i : ℕ) (x : Option Thrown)
  /-- The move constructor, at the second address. -/
  | move (i j : ℕ)
  /-- The move assignment, to the first. -/
  | assign (i j : ℕ)
  | destroy (i : ℕ)
  /-- `guarded_` or `guarded_void_` begins. -/
  | call (k : ℕ)
  /-- Its function returns or throws. -/
  | answer (k : ℕ) (x : Option Thrown)

namespace Client

variable (c : Client)

/-- `RedisClient::pipeline`. -/
def pipeline (i : ℕ) (x : Option Thrown) : Client :=
  match c.before_call_ with
  | (none, c) => c
  | (some h, c) =>
    let c := c.ran (some h) .pipeline x
    match x with
    | none => c.put i (some ⟨some h, true, h, false⟩)
    | some e => c.settle h (handler .pipeline e)

/-- `queue_` and `exec`, which throw when the permit has been settled. -/
def run (i : ℕ) (p : RedisPipeline) (op : Op) (x : Option Thrown) : Client :=
  if p.settled then c
  else
    let (p, c) := p.finish (c.ran p.pipeline op x) (owed op x)
    c.put i (some p)

/-- `guarded_` and `guarded_void_` up to their function. -/
def call (k : ℕ) : Client :=
  match c.before_call_ with
  | (none, c) => c
  | (some h, c) => c.setCall k (some h)

/-- The function of a guarded call has returned or thrown. -/
def answer (k : ℕ) (h : Held) (x : Option Thrown) : Client :=
  let c := (c.ran (some h) .call x).settle h (answered .call x)
  c.setCall k none

/-- What happens. -/
def step : Label → Client → Option Client
  | .tick t, c =>
    if c.world.clock.ms ≤ t.ms then some { c with world := { c.world with clock := t } } else none
  | .pipeline i x, c => if c.pipelines i = none then some (c.pipeline i x) else none
  | .queue i x, c => (c.pipelines i).map fun p ↦ c.run i p .queue x
  | .exec i x, c => (c.pipelines i).map fun p ↦ c.run i p .exec x
  | .move i j, c =>
    if c.pipelines j = none then
      (c.pipelines i).map fun p ↦ (c.put i (some p.moved)).put j (some p)
    else none
  | .assign i j, c =>
    match c.pipelines i, c.pipelines j with
    | some p, some q =>
      if i = j then some c
      else
        let (_, c) := p.abandon_ c
        some ((c.put j (some q.moved)).put i (some q))
    | _, _ => none
  | .destroy i, c =>
    (c.pipelines i).map fun p ↦
      let (_, c) := p.abandon_ c
      c.put i none
  | .call k, c => if c.calls k = none then some (c.call k) else none
  | .answer k x, c => (c.calls k).map fun h ↦ c.answer k h x

end Client

/-- A client and those who call it. -/
def clients : Labelled Client Label := ⟨Client.step⟩

/-! ### Who has which permit -/

/-- The permit that a pipeline has to settle. -/
def RedisPipeline.held (p : RedisPipeline) : Option Held :=
  if p.settled then none else some p.permit

/-- The permits that pipelines and guarded calls have to settle. -/
def Client.held (c : Client) : ℕ ⊕ ℕ → Option Held
  | .inl i => (c.pipelines i).bind RedisPipeline.held
  | .inr k => c.calls k

/-- The permits of a client, as tokens that are used by functions. -/
abbrev Permits : Type := Custody (ℕ ⊕ ℕ) Held (Op × Option Thrown) Settlement

/-- How tokens change hands: a permit that is dropped is abandoned. -/
abbrev Hands : Permits → Permits → Prop := Custody.Step (fun u ↦ owed u.1 u.2) .abandoned

/-- The event that is recorded for a token. -/
def eventOf : Custody.Entry Held (Op × Option Thrown) Settlement → Event
  | .used h u => .ran (some h) u.1 u.2
  | .settled h how => .settled h how

/-- A client and its permits, of which pipelines and calls have those that are given. -/
structure Tracks (c : Client) (held : ℕ ⊕ ℕ → Option Held) (a : Permits) : Prop where
  held : a.held = held
  issued : a.issued = c.issued
  log : c.log = a.log.map eventOf
  ids : ∀ h ∈ c.issued, h.id < c.issued.length
  outstanding : ∀ x, c.world.outstanding.count x +
    (a.settlements.map Prod.fst).countP (fun h ↦ h.issued = x) =
      c.issued.countP fun h ↦ h.issued = x

/-- A pipeline that has to settle a permit is the one that was made with it. -/
def Intact (c : Client) : Prop :=
  ∀ i p, c.pipelines i = some p → p.settled = false → p.breaker = true ∧ p.pipeline = some p.permit

/-- A client and its permits. -/
structure Represents (c : Client) (a : Permits) : Prop where
  tracks : Tracks c c.held a
  intact : Intact c

section Permits

variable {c c' : Client} {f : ℕ ⊕ ℕ → Option Held} {a : Permits} {h : Held} {l : ℕ ⊕ ℕ}
  {how : Settlement} {i k : ℕ} {p : RedisPipeline}

theorem before_call_cases (c : Client) :
    (∃ h : Held,
        c.before_call_ = (some h, { c with world := c.world.issue, issued := h :: c.issued }) ∧
        h.id = c.issued.length ∧ c.world.issue.outstanding = c.world.outstanding ++ [h.issued]) ∨
      c.before_call_ = (none, { c with world := c.world.issue }) ∧
        c.world.issue.outstanding = c.world.outstanding := by
  rw [Client.before_call_, World.issue]
  rcases c.world.breaker.before_call c.world.clock.ms with ⟨- | permit, b⟩
  · exact .inr ⟨rfl, rfl⟩
  · exact .inl ⟨_, rfl, rfl, rfl⟩

/-- A permit is issued. -/
theorem Tracks.issue (ht : Tracks c f a) (hf : f l = none) (hid : h.id = c.issued.length)
    (hout : c.world.issue.outstanding = c.world.outstanding ++ [h.issued]) :
    ∃ a', Hands a a' ∧ Tracks { c with world := c.world.issue, issued := h :: c.issued }
      (Function.update f l (some h)) a' := by
  have hnew : h ∉ a.issued := fun hmem ↦ by
    have := ht.ids h (ht.issued ▸ hmem)
    omega
  refine ⟨_, .issue (a := l) (by rw [ht.held, hf]) hnew, by rw [ht.held], by rw [ht.issued], ht.log,
    fun h' hmem ↦ ?_, fun y ↦ ?_⟩
  · rw [List.length_cons]
    rcases List.mem_cons.1 hmem with rfl | hmem
    · omega
    · exact (ht.ids h' hmem).trans (Nat.lt_succ_self _)
  · have hy := ht.outstanding y
    show c.world.issue.outstanding.count y + _ = _
    rw [hout, List.count_append, List.count_singleton, List.countP_cons]
    have heq : (h.issued == y) = decide (h.issued = y) := rfl
    rw [heq]
    exact (Nat.add_right_comm ..).trans (congrArg (· + _) hy)

/-- A function is run, and nothing is due. -/
theorem Tracks.use (ht : Tracks c f a) (hf : f l = some h) (op : Op) (x : Option Thrown)
    (howed : owed op x = none) : ∃ a', Hands a a' ∧ Tracks (c.ran (some h) op x) f a' :=
  ⟨_, .use (a := l) (u := (op, x)) (by rw [ht.held, hf]) howed, ht.held, ht.issued,
    congrArg (Event.ran (some h) op x :: ·) ht.log, ht.ids, ht.outstanding⟩

/-- **A permit that is held is outstanding.** -/
theorem Tracks.mem_outstanding (ht : Tracks c f a)
    (hs : Custody.Sound (fun u ↦ owed u.1 u.2) Settlement.abandoned a) (hf : f l = some h) :
    h.issued ∈ c.world.outstanding := by
  have hheld : a.held l = some h := by rw [ht.held, hf]
  have hnot : h ∉ a.settlements.map Prod.fst := fun hmem ↦ by
    obtain ⟨how, hhow⟩ := Custody.mem_map_settlements.1 hmem
    exact (hs.live hheld).2 how hhow
  have hsub : (h :: a.settlements.map Prod.fst).Subperm a.issued := by
    refine List.subperm_of_subset (List.nodup_cons.2 ⟨hnot, hs.once⟩) fun h' hmem ↦ ?_
    rcases List.mem_cons.1 hmem with rfl | hmem
    · exact (hs.live hheld).1
    · obtain ⟨how, hhow⟩ := Custody.mem_map_settlements.1 hmem
      exact hs.known hhow
  have hle := hsub.countP_le fun h' ↦ decide (h'.issued = h.issued)
  rw [List.countP_cons, decide_eq_true rfl, if_pos rfl, ht.issued] at hle
  have hcount := ht.outstanding h.issued
  exact List.count_pos_iff.1 (by omega)

/-- A permit is passed to the breaker, after a function that has called for it, if there was one. -/
theorem Tracks.settle (ht : Tracks c f a)
    (hs : Custody.Sound (fun u ↦ owed u.1 u.2) Settlement.abandoned a) (hf : f l = some h)
    (us : List (Custody.Entry Held (Op × Option Thrown) Settlement))
    (hus : us.filterMap Custody.Entry.settlement = []) :
    Tracks { c with world := c.world.settle h.issued how
                    log := .settled h how :: (us.map eventOf ++ c.log) }
      (Function.update f l none)
      { a with held := Function.update a.held l none, log := .settled h how :: (us ++ a.log) } where
  held := by rw [ht.held]
  issued := ht.issued
  log := by rw [ht.log, List.map_cons, List.map_append]; rfl
  ids := ht.ids
  outstanding y := by
    have hmem := ht.mem_outstanding hs hf
    have hy := ht.outstanding y
    have hsettlements : Custody.settlements { a with
        held := Function.update a.held l none, log := .settled h how :: (us ++ a.log) } =
        (h, how) :: a.settlements := by
      show (h, how) :: (us ++ a.log).filterMap Custody.Entry.settlement = _
      rw [List.filterMap_append, hus, List.nil_append]
      rfl
    rw [hsettlements, List.map_cons, List.countP_cons]
    show (c.world.outstanding.erase h.issued).count y + _ = c.issued.countP _
    by_cases heq : h.issued = y
    · subst heq
      have hpos := List.count_pos_iff.2 hmem
      rw [List.count_erase_self, decide_eq_true rfl, if_pos rfl]
      omega
    · rw [List.count_erase_of_ne (Ne.symm heq), decide_eq_false heq, if_neg Bool.false_ne_true]
      exact hy

/-- A function is run, and the permit is settled. -/
theorem Tracks.finish (ht : Tracks c f a)
    (hs : Custody.Sound (fun u ↦ owed u.1 u.2) Settlement.abandoned a) (hf : f l = some h)
    (op : Op) (x : Option Thrown) (howed : owed op x = some how) :
    ∃ a', Hands a a' ∧
      Tracks ((c.ran (some h) op x).settle h how) (Function.update f l none) a' :=
  ⟨_, .finish (a := l) (u := (op, x)) (by rw [ht.held, hf]) howed,
    ht.settle hs hf [.used h (op, x)] rfl⟩

/-- A permit is abandoned. -/
theorem Tracks.drop (ht : Tracks c f a)
    (hs : Custody.Sound (fun u ↦ owed u.1 u.2) Settlement.abandoned a) (hf : f l = some h) :
    ∃ a', Hands a a' ∧ Tracks (c.settle h .abandoned) (Function.update f l none) a' :=
  ⟨_, .drop (a := l) (by rw [ht.held, hf]), ht.settle hs hf [] rfl⟩

/-- A permit changes hands. -/
theorem Tracks.move (ht : Tracks c f a) {l' : ℕ ⊕ ℕ} (hf : f l = some h) (hf' : f l' = none) :
    ∃ a', Hands a a' ∧
      Tracks c (Function.update (Function.update f l none) l' (some h)) a' :=
  ⟨_, .move (by rw [ht.held, hf]) (by rw [ht.held, hf']), by rw [ht.held], ht.issued, ht.log,
    ht.ids, ht.outstanding⟩

theorem Tracks.put (ht : Tracks c f a) (i : ℕ) (p : Option RedisPipeline) :
    Tracks (c.put i p) f a :=
  ⟨ht.held, ht.issued, ht.log, ht.ids, ht.outstanding⟩

theorem Tracks.of_rejected (ht : Tracks c f a)
    (hout : c.world.issue.outstanding = c.world.outstanding) :
    Tracks { c with world := c.world.issue } f a :=
  ⟨ht.held, ht.issued, ht.log, ht.ids, fun y ↦ by
    show c.world.issue.outstanding.count y + _ = _
    rw [hout]
    exact ht.outstanding y⟩

/-! ### What pipelines and calls have -/

theorem held_put (c : Client) (i : ℕ) (p : Option RedisPipeline) :
    (c.put i p).held = Function.update c.held (.inl i) (p.bind RedisPipeline.held) := by
  funext l
  cases l with
  | inl j =>
    rcases eq_or_ne j i with rfl | hne
    · rw [Function.update_self]
      show (Function.update c.pipelines j p j).bind _ = _
      rw [Function.update_self]
    · rw [Function.update_of_ne (fun heq ↦ hne (Sum.inl.inj heq))]
      show (Function.update c.pipelines i p j).bind _ = _
      rw [Function.update_of_ne hne]
      rfl
  | inr k => exact (Function.update_of_ne Sum.inr_ne_inl ..).symm

theorem held_setCall (c : Client) (k : ℕ) (h : Option Held) :
    (c.setCall k h).held = Function.update c.held (.inr k) h := by
  funext l
  cases l with
  | inl j => exact (Function.update_of_ne Sum.inl_ne_inr ..).symm
  | inr j =>
    rcases eq_or_ne j k with rfl | hne
    · rw [Function.update_self]
      exact Function.update_self ..
    · rw [Function.update_of_ne (fun heq ↦ hne (Sum.inr.inj heq))]
      exact Function.update_of_ne hne ..

theorem Intact.put (hc : Intact c) (i : ℕ) {p : Option RedisPipeline}
    (hp : ∀ q, p = some q → q.settled = false → q.breaker = true ∧ q.pipeline = some q.permit) :
    Intact (c.put i p) := by
  intro j q hq
  change Function.update c.pipelines i p j = some q at hq
  rcases eq_or_ne j i with rfl | hne
  · rw [Function.update_self] at hq
    exact hp q hq
  · rw [Function.update_of_ne hne] at hq
    exact hc j q hq

end Permits

/-! ### A step -/

/-- What a step of a client comes to: permits change hands, and the breaker makes steps of its own.
-/
def Follows (a : Permits) (c c' : Client) : Prop :=
  ∃ a', Relation.ReflTransGen Hands a a' ∧ Represents c' a' ∧
    breakerSystem.Reach (fun _ _ ↦ True) c.world c'.world

section Steps

variable {c c' : Client} {a : Permits} {h : Held} {op : Op} {x : Option Thrown} {i j k : ℕ}
  {p q : RedisPipeline}

theorem reach_issue (w : World) : breakerSystem.Reach (fun _ _ ↦ True) w w.issue :=
  .single ⟨.before_call, trivial, rfl⟩

theorem reach_settle {w : World} {y : Issued} (hy : y ∈ w.outstanding) (how : Settlement) :
    breakerSystem.Reach (fun _ _ ↦ True) w (w.settle y how) :=
  .single ⟨.settle y how, trivial, if_pos hy⟩

/-- `pipeline`. -/
theorem follows_pipeline (hr : Represents c a)
    (hs : Custody.Sound (fun u ↦ owed u.1 u.2) Settlement.abandoned a)
    (hi : c.pipelines i = none) (x : Option Thrown) : Follows a c (c.pipeline i x) := by
  have hheld : c.held (.inl i) = none := by rw [Client.held, hi]; rfl
  rw [Client.pipeline]
  rcases before_call_cases c with ⟨h, heq, hid, hout⟩ | ⟨heq, hout⟩
  · rw [heq]
    dsimp only
    obtain ⟨a₁, hstep₁, ht₁⟩ := hr.tracks.issue hheld hid hout
    have hs₁ := hs.step hstep₁
    have hself : Function.update c.held (Sum.inl i) (some h) (.inl i) = some h :=
      Function.update_self ..
    cases x with
    | none =>
      obtain ⟨a₂, hstep₂, ht₂⟩ := ht₁.use hself .pipeline none rfl
      refine ⟨a₂, .tail (.single hstep₁) hstep₂, ⟨?_, ?_⟩, reach_issue _⟩
      · rw [held_put]
        exact ht₂.put i _
      · refine Intact.put hr.intact i fun q hq _ ↦ ?_
        obtain rfl := Option.some.inj hq
        exact ⟨rfl, rfl⟩
    | some e =>
      obtain ⟨a₂, hstep₂, ht₂⟩ := ht₁.finish hs₁ hself .pipeline (some e) rfl
      have hsame : Function.update (Function.update c.held (Sum.inl i) (some h)) (.inl i) none =
          c.held := by
        rw [Function.update_idem, ← hheld, Function.update_eq_self]
      refine ⟨a₂, .tail (.single hstep₁) hstep₂, ⟨hsame ▸ ht₂, hr.intact⟩, ?_⟩
      exact (reach_issue _).trans (reach_settle (ht₁.mem_outstanding hs₁ hself) _)
  · rw [heq]
    exact ⟨a, .refl, ⟨hr.tracks.of_rejected hout, hr.intact⟩, reach_issue _⟩

/-- A guarded call begins. -/
theorem follows_call (hr : Represents c a) (hk : c.calls k = none) : Follows a c (c.call k) := by
  rw [Client.call]
  rcases before_call_cases c with ⟨h, heq, hid, hout⟩ | ⟨heq, hout⟩
  · rw [heq]
    dsimp only
    have hheld : c.held (.inr k) = none := hk
    obtain ⟨a₁, hstep₁, ht₁⟩ := hr.tracks.issue hheld hid hout
    refine ⟨a₁, .single hstep₁, ⟨?_, hr.intact⟩, reach_issue _⟩
    rw [held_setCall]
    exact ⟨ht₁.held, ht₁.issued, ht₁.log, ht₁.ids, ht₁.outstanding⟩
  · rw [heq]
    exact ⟨a, .refl, ⟨hr.tracks.of_rejected hout, hr.intact⟩, reach_issue _⟩

/-- A guarded call ends. -/
theorem follows_answer (hr : Represents c a)
    (hs : Custody.Sound (fun u ↦ owed u.1 u.2) Settlement.abandoned a) (hk : c.calls k = some h)
    (x : Option Thrown) : Follows a c (c.answer k h x) := by
  have hheld : c.held (.inr k) = some h := hk
  obtain ⟨a₁, hstep₁, ht₁⟩ := hr.tracks.finish hs hheld .call x rfl
  refine ⟨a₁, .single hstep₁, ⟨?_, hr.intact⟩, reach_settle (hr.tracks.mem_outstanding hs hheld) _⟩
  rw [Client.answer, held_setCall]
  exact ⟨ht₁.held, ht₁.issued, ht₁.log, ht₁.ids, ht₁.outstanding⟩

theorem finish_eq (hset : p.settled = false) (hb : p.breaker = true) (how : Settlement) :
    p.finish c (some how) = ({ p with settled := true }, c.settle p.permit how) := by
  cases how <;> simp [RedisPipeline.finish, RedisPipeline.settle_, RedisPipeline.abandon_, hset, hb]

/-- `queue_` and `exec`. -/
theorem follows_run (hr : Represents c a)
    (hs : Custody.Sound (fun u ↦ owed u.1 u.2) Settlement.abandoned a)
    (hi : c.pipelines i = some p) (op : Op) (x : Option Thrown) : Follows a c (c.run i p op x) := by
  rw [Client.run]
  cases hset : p.settled with
  | true => exact ⟨a, .refl, hr, .refl⟩
  | false =>
    rw [if_neg Bool.false_ne_true]
    obtain ⟨hb, hpipeline⟩ := hr.intact i p hi hset
    have hown : p.held = some p.permit := by rw [RedisPipeline.held, hset]; rfl
    have hheld : c.held (.inl i) = some p.permit := by rw [Client.held, hi, ← hown]; rfl
    rw [hpipeline]
    cases howed : owed op x with
    | none =>
      obtain ⟨a₁, hstep₁, ht₁⟩ := hr.tracks.use hheld op x howed
      refine ⟨a₁, .single hstep₁, ⟨?_, ?_⟩, .refl⟩
      · show Tracks (Client.put _ i (some p)) (Client.held (Client.put _ i (some p))) a₁
        have hsame : Function.update c.held (Sum.inl i) (some p.permit) = c.held := by
          rw [← hheld, Function.update_eq_self]
        rw [held_put]
        show Tracks _ (Function.update c.held _ p.held) a₁
        rw [hown, hsame]
        exact ht₁.put i _
      · refine Intact.put hr.intact i fun q hq _ ↦ ?_
        obtain rfl := Option.some.inj hq
        exact ⟨hb, hpipeline⟩
    | some how =>
      rw [finish_eq hset hb]
      dsimp only
      obtain ⟨a₁, hstep₁, ht₁⟩ := hr.tracks.finish hs hheld op x howed
      refine ⟨a₁, .single hstep₁, ⟨?_, ?_⟩,
        reach_settle (hr.tracks.mem_outstanding hs hheld) how⟩
      · rw [held_put]
        exact ht₁.put i _
      · refine Intact.put hr.intact i fun q hq hq' ↦ ?_
        obtain rfl := Option.some.inj hq
        cases hq'

/-- `abandon_`, of a pipeline at an address. -/
theorem follows_abandon_ (hr : Represents c a)
    (hs : Custody.Sound (fun u ↦ owed u.1 u.2) Settlement.abandoned a)
    (hi : c.pipelines i = some p) :
    ∃ a', Relation.ReflTransGen Hands a a' ∧
      Tracks (p.abandon_ c).2 (Function.update c.held (.inl i) none) a' ∧
      (p.abandon_ c).2.held = c.held ∧ Intact (p.abandon_ c).2 ∧
      breakerSystem.Reach (fun _ _ ↦ True) c.world (p.abandon_ c).2.world := by
  cases hset : p.settled with
  | true =>
    have hheld : c.held (.inl i) = none := by
      rw [Client.held, hi]
      show p.held = none
      rw [RedisPipeline.held, hset]
      rfl
    have hdone : p.abandon_ c = (p, c) := by rw [RedisPipeline.abandon_, hset]; rfl
    rw [hdone, ← hheld, Function.update_eq_self]
    exact ⟨a, .refl, hr.tracks, rfl, hr.intact, .refl⟩
  | false =>
    obtain ⟨hb, -⟩ := hr.intact i p hi hset
    have hheld : c.held (.inl i) = some p.permit := by
      rw [Client.held, hi]
      show p.held = _
      rw [RedisPipeline.held, hset]
      rfl
    rw [show p.abandon_ c = _ from finish_eq hset hb .abandoned]
    obtain ⟨a₁, hstep₁, ht₁⟩ := hr.tracks.drop hs hheld
    exact ⟨a₁, .single hstep₁, ht₁, rfl, hr.intact,
      reach_settle (hr.tracks.mem_outstanding hs hheld) _⟩

/-- A pipeline is handed over, with its permit if it has to settle one. -/
theorem Tracks.hand_over {f : ℕ ⊕ ℕ → Option Held} {l l' : ℕ ⊕ ℕ} (ht : Tracks c f a)
    (hf : f l = p.held) (hf' : f l' = none) :
    ∃ a', Relation.ReflTransGen Hands a a' ∧
      Tracks c (Function.update (Function.update f l none) l' p.held) a' := by
  cases hheld : p.held with
  | none =>
    rw [hheld] at hf
    have hsame : Function.update (Function.update f l none) l' none = f := by
      rw [← hf, Function.update_eq_self, hf, ← hf', Function.update_eq_self]
    refine ⟨a, .refl, ?_⟩
    rwa [hsame]
  | some h =>
    rw [hheld] at hf
    obtain ⟨a₁, hstep₁, ht₁⟩ := ht.move hf hf'
    exact ⟨a₁, .single hstep₁, ht₁⟩

/-- The move constructor. -/
theorem follows_move (hr : Represents c a) (hi : c.pipelines i = some p)
    (hj : c.pipelines j = none) : Follows a c ((c.put i (some p.moved)).put j (some p)) := by
  have hne : j ≠ i := by
    rintro rfl
    rw [hi] at hj
    cases hj
  have hheld : c.held (.inl i) = p.held := by rw [Client.held, hi]; rfl
  have hfree : c.held (.inl j) = none := by rw [Client.held, hj]; rfl
  obtain ⟨a₁, hsteps, ht₁⟩ := hr.tracks.hand_over hheld hfree
  refine ⟨a₁, hsteps, ⟨?_, ?_⟩, .refl⟩
  · rw [held_put, held_put]
    exact (ht₁.put i _).put j _
  · refine Intact.put (Intact.put hr.intact i fun q hq hq' ↦ ?_) j fun q hq hq' ↦ ?_
    · obtain rfl := Option.some.inj hq
      cases hq'
    · obtain rfl := Option.some.inj hq
      exact hr.intact i p hi hq'

/-- The move assignment. -/
theorem follows_assign (hr : Represents c a)
    (hs : Custody.Sound (fun u ↦ owed u.1 u.2) Settlement.abandoned a)
    (hi : c.pipelines i = some p) (hj : c.pipelines j = some q) (hne : i ≠ j) :
    Follows a c (((p.abandon_ c).2.put j (some q.moved)).put i (some q)) := by
  obtain ⟨a₁, hsteps₁, ht₁, hsame, hintact, hworld⟩ := follows_abandon_ hr hs hi
  generalize (p.abandon_ c).2 = c₁ at ht₁ hsame hintact hworld ⊢
  have hheld : Function.update c.held (Sum.inl i) none (.inl j) = q.held := by
    rw [Function.update_of_ne (fun heq ↦ hne (Sum.inl.inj heq).symm), Client.held, hj]
    rfl
  obtain ⟨a₂, hsteps₂, ht₂⟩ := ht₁.hand_over hheld (Function.update_self ..)
  refine ⟨a₂, hsteps₁.trans hsteps₂, ⟨?_, ?_⟩, hworld⟩
  · rw [held_put, held_put, hsame]
    show Tracks _ (Function.update (Function.update c.held _ none) _ q.held) a₂
    rw [Function.update_comm (fun heq ↦ hne (Sum.inl.inj heq)), Function.update_idem] at ht₂
    exact (ht₂.put j _).put i _
  · refine Intact.put (Intact.put hintact j fun r hr' hset ↦ ?_) i fun r hr' hset ↦ ?_
    · obtain rfl := Option.some.inj hr'
      cases hset
    · obtain rfl := Option.some.inj hr'
      exact hr.intact j q hj hset

/-- The destructor. -/
theorem follows_destroy (hr : Represents c a)
    (hs : Custody.Sound (fun u ↦ owed u.1 u.2) Settlement.abandoned a)
    (hi : c.pipelines i = some p) : Follows a c ((p.abandon_ c).2.put i none) := by
  obtain ⟨a₁, hsteps₁, ht₁, hsame, hintact, hworld⟩ := follows_abandon_ hr hs hi
  generalize (p.abandon_ c).2 = c₁ at ht₁ hsame hintact hworld ⊢
  refine ⟨a₁, hsteps₁, ⟨?_, ?_⟩, hworld⟩
  · rw [held_put, hsame]
    exact ht₁.put i _
  · exact Intact.put hintact i fun q hq ↦ by cases hq

/-- **A step** of a client. -/
theorem follows_step (hr : Represents c a)
    (hs : Custody.Sound (fun u ↦ owed u.1 u.2) Settlement.abandoned a) {lbl : Label}
    (hstep : clients.step lbl c = some c') : Follows a c c' := by
  cases lbl with
  | tick t =>
    obtain ⟨hle, heq⟩ := Option.ite_none_right_eq_some.1 hstep
    obtain rfl := Option.some.inj heq
    have ht := hr.tracks
    exact ⟨a, .refl, ⟨⟨ht.held, ht.issued, ht.log, ht.ids, ht.outstanding⟩, hr.intact⟩,
      .single ⟨.tick t, trivial, if_pos hle⟩⟩
  | pipeline i x =>
    obtain ⟨hi, heq⟩ := Option.ite_none_right_eq_some.1 hstep
    obtain rfl := Option.some.inj heq
    exact follows_pipeline hr hs hi x
  | queue i x =>
    obtain ⟨p, hi, rfl⟩ := Option.map_eq_some_iff.1 hstep
    exact follows_run hr hs hi .queue x
  | exec i x =>
    obtain ⟨p, hi, rfl⟩ := Option.map_eq_some_iff.1 hstep
    exact follows_run hr hs hi .exec x
  | move i j =>
    obtain ⟨hj, heq⟩ := Option.ite_none_right_eq_some.1 hstep
    obtain ⟨p, hi, rfl⟩ := Option.map_eq_some_iff.1 heq
    exact follows_move hr hi hj
  | assign i j =>
    change Client.step (.assign i j) c = some c' at hstep
    rw [Client.step] at hstep
    split at hstep
    · next p q hi hj =>
      split at hstep
      · obtain rfl := Option.some.inj hstep
        exact ⟨a, .refl, hr, .refl⟩
      · next hne =>
        obtain rfl := Option.some.inj hstep
        exact follows_assign hr hs hi hj hne
    · cases hstep
  | destroy i =>
    obtain ⟨p, hi, rfl⟩ := Option.map_eq_some_iff.1 hstep
    exact follows_destroy hr hs hi
  | call k =>
    obtain ⟨hk, heq⟩ := Option.ite_none_right_eq_some.1 hstep
    obtain rfl := Option.some.inj heq
    exact follows_call hr hk
  | answer k x =>
    obtain ⟨h, hk, rfl⟩ := Option.map_eq_some_iff.1 hstep
    exact follows_answer hr hs hk x

end Steps

/-! ### Runs -/

/-- The client of a new breaker, at any time. -/
def Client.start (t : ClockMs) : Client := { world := World.init t }

/-- The event passes the permit to the breaker. -/
def Event.settles (h : Held) : Event → Bool
  | .ran _ _ _ => false
  | .settled h' _ => h' = h

/-- The server has replied, be it with an error. -/
def Replied (op : Op) (x : Option Thrown) : Prop :=
  x = some .ReplyError ∨ x = none ∧ (op = .exec ∨ op = .call)

/-- How the permits of a client are settled. -/
structure Settles (c : Client) : Prop where
  /-- Exactly once, by the time that all pipelines are destroyed and all calls have ended. -/
  once : (∀ i, c.pipelines i = none) → (∀ k, c.calls k = none) →
    ∀ h ∈ c.issued, c.log.countP (Event.settles h) = 1
  at_most_once : ∀ h, c.log.countP (Event.settles h) ≤ 1
  /-- An error of the connection goes to `on_connection_failure`. -/
  connection : ∀ {w op e}, .ran w op (some e) ∈ c.log → e.connection = true →
    ∃ h, w = some h ∧ .settled h .connection_failure ∈ c.log
  /-- A reply does not. -/
  reply : ∀ {w op x}, .ran w op x ∈ c.log → Replied op x →
    ∃ h, w = some h ∧ .settled h .connection_failure ∉ c.log
  /-- A pipeline is executed before its permit is settled. -/
  exec : ∀ {later earlier w x}, c.log = later ++ .ran w .exec x :: earlier →
    ∃ h, w = some h ∧ ∀ how, .settled h how ∉ earlier

section Runs

variable {t : ClockMs} {c : Client} {a : Permits} {h : Held}

theorem represents_start (t : ClockMs) : Represents (.start t) {} where
  tracks := {
    held := funext fun l ↦ by cases l <;> rfl
    issued := rfl
    log := rfl
    ids := fun _ hmem ↦ absurd hmem List.not_mem_nil
    outstanding := fun _ ↦ rfl }
  intact i p hi := by cases hi

/-- **A run of a client** is a history of its permits, and a run of the breaker. -/
theorem represents_of_reach (hr : clients.Reach (fun _ _ ↦ True) (.start t) c) :
    ∃ a, Relation.ReflTransGen Hands {} a ∧ Represents c a ∧
      breakerSystem.Reach (fun _ _ ↦ True) (World.init t) c.world := by
  induction hr with
  | refl => exact ⟨{}, .refl, represents_start t, .refl⟩
  | tail _ hstep ih =>
    obtain ⟨a, hsteps, hrep, hworld⟩ := ih
    obtain ⟨lbl, -, hlbl⟩ := hstep
    obtain ⟨a', hsteps', hrep', hworld'⟩ := follows_step hrep (Custody.Sound.reach hsteps) hlbl
    exact ⟨a', hsteps.trans hsteps', hrep', hworld.trans hworld'⟩

theorem countP_settles (a : Permits) (h : Held) :
    (a.log.map eventOf).countP (Event.settles h) = (a.settlements.map Prod.fst).count h := by
  rw [Custody.settlements]
  induction a.log with
  | nil => rfl
  | cons e log ih =>
    cases e with
    | used h' u => exact ih
    | settled h' how =>
      rw [List.map_cons, List.countP_cons, ih]
      show _ = List.count h (h' :: (log.filterMap Custody.Entry.settlement).map Prod.fst)
      rw [List.count_cons]
      rfl

theorem mem_log (hr : Represents c a) {u : Op × Option Thrown} {w : Option Held}
    (hmem : .ran w u.1 u.2 ∈ c.log) : ∃ h, w = some h ∧ .used h u ∈ a.log := by
  rw [hr.tracks.log] at hmem
  obtain ⟨e, he, heq⟩ := List.mem_map.1 hmem
  cases e with
  | used h u' =>
    obtain ⟨hw, h₁, h₂⟩ := Event.ran.inj heq
    exact ⟨h, hw.symm, (Prod.ext h₁ h₂ : u' = u) ▸ he⟩
  | settled h how => cases heq

theorem settled_mem_log (hr : Represents c a) {how : Settlement} :
    .settled h how ∈ c.log ↔ .settled h how ∈ a.log := by
  rw [hr.tracks.log]
  constructor
  · intro hmem
    obtain ⟨e, he, heq⟩ := List.mem_map.1 hmem
    cases e with
    | used h' u => cases heq
    | settled h' how' =>
      obtain ⟨rfl, rfl⟩ := Event.settled.inj heq
      exact he
  · exact fun hmem ↦ List.mem_map.2 ⟨_, hmem, rfl⟩

theorem handler_connection (op : Op) {e : Thrown} (he : e.connection = true) :
    handler op e = .connection_failure := by
  cases e with
  | IoError => rfl
  | ClosedError => rfl
  | ReplyError => cases he
  | Error what => exact if_pos he
  | derived => cases he
  | other => cases he

theorem owed_error (op : Op) (e : Thrown) : owed op (some e) = some (handler op e) := by
  cases op <;> rfl

theorem owed_reply {op : Op} {x : Option Thrown} (hx : Replied op x) :
    ∃ how, owed op x = some how ∧ how ≠ .connection_failure := by
  rcases hx with rfl | ⟨rfl, rfl | rfl⟩
  · refine ⟨_, owed_error op .ReplyError, ?_⟩
    rw [handler]
    split <;> decide
  · exact ⟨.success, rfl, by decide⟩
  · exact ⟨.success, rfl, by decide⟩

/-- **Every permit is settled once**, and as what has happened calls for. -/
theorem settles_of_reach (hr : clients.Reach (fun _ _ ↦ True) (.start t) c) : Settles c := by
  obtain ⟨a, hsteps, hrep, -⟩ := represents_of_reach hr
  have hs := Custody.Sound.reach hsteps
  have hcount (h : Held) : c.log.countP (Event.settles h) =
      (a.settlements.map Prod.fst).count h := by
    rw [hrep.tracks.log, countP_settles]
  refine ⟨fun hpipelines hcalls h hmem ↦ ?_, fun h ↦ ?_, fun {w op e} hmem he ↦ ?_,
    fun {w op x} hmem hx ↦ ?_, fun {later earlier w x} heq ↦ ?_⟩
  · have hnone : ∀ l, a.held l = none := by
      intro l
      rw [hrep.tracks.held]
      cases l with
      | inl i => rw [Client.held, hpipelines]; rfl
      | inr k => exact hcalls k
    rw [hcount, (hs.perm hnone).count_eq]
    exact List.count_eq_one_of_mem hs.nodup (hrep.tracks.issued ▸ hmem)
  · rw [hcount]
    exact List.nodup_iff_count_le_one.1 hs.once h
  · obtain ⟨h, rfl, hused⟩ := mem_log hrep (u := (op, some e)) hmem
    refine ⟨h, rfl, (settled_mem_log hrep).2 (hs.paid hused ?_)⟩
    show owed op (some e) = _
    rw [owed_error, handler_connection op he]
  · obtain ⟨h, rfl, hused⟩ := mem_log hrep (u := (op, x)) hmem
    obtain ⟨how, howed, hne⟩ := owed_reply hx
    refine ⟨h, rfl, fun hfailure ↦ hne ?_⟩
    exact hs.settled_eq (hs.paid hused howed) ((settled_mem_log hrep).1 hfailure)
  · rw [hrep.tracks.log] at heq
    obtain ⟨later', rest, hlog, -, hrest⟩ := List.map_eq_append_iff.1 heq
    obtain ⟨e, earlier', hcons, hevent, rfl⟩ := List.map_eq_cons_iff.1 hrest
    cases e with
    | settled h how => cases hevent
    | used h u =>
      obtain ⟨rfl, -, -⟩ := Event.ran.inj hevent
      refine ⟨h, rfl, fun how hmem ↦ ?_⟩
      obtain ⟨e', he', hsettled⟩ := List.mem_map.1 hmem
      cases e' with
      | used h' u' => cases hsettled
      | settled h' how' =>
        obtain ⟨rfl, rfl⟩ := Event.settled.inj hsettled
        exact hs.order later' earlier' h' u (hcons ▸ hlog) how' he'

/-- A pipeline is moved into another, a command of which is not accepted; a call fails. -/
theorem settles_of_reach_moved : ∃ c, clients.Reach (fun _ _ ↦ True) (.start { ms := 0 }) c ∧
    c.issued.length = 3 ∧ Settles c := by
  obtain ⟨c, hr, hn⟩ := Labelled.exists_of_run clients (fun _ _ ↦ True) (.start { ms := 0 })
    [.pipeline 0 none, .pipeline 1 none, .queue 0 none, .assign 1 0, .queue 0 none,
      .queue 1 (some .ReplyError), .exec 1 none, .call 0, .answer 0 (some .IoError), .destroy 0,
      .destroy 1]
    (fun c ↦ c.issued.length = 3) (by decide +kernel)
  exact ⟨c, hr, hn, settles_of_reach hr⟩

end Runs

end ChatNow.RedisClient
