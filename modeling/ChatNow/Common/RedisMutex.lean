import ChatNow.Common.WorkerId
import ChatNow.Lib.Labelled
import ChatNow.Lib.Lease

/-!
# Locks that expire

`RedisMutex` of `common/utils/redis_mutex.hpp` and the lease of `CleanupWorker` in
`media/source/cleanup_worker.hpp`, over one Redis. A mutex has a random token of its own and a
worker its instance id; the key of a lock has the token of whoever has taken it.

Scripts and single commands are atomic, and a command may throw before it is carried out or after.
Between any two of them the clock of Redis may advance by any time, and keys expire. A client holds
its key (`holds`) from the command with which it takes it, to its own release that is carried out,
or to the expiry of the key. This is nothing that a client keeps: `_locked` stays when the key
expires, which is why an unlock can be late.
-/

namespace ChatNow.RedisLocks

/-- The keys of Redis that locks are made of. -/
abbrev Db : Type := Leases String String

/-- Whether a command throws, and if so whether it is carried out before. -/
inductive Fault | none | before | after
  deriving DecidableEq

/-- What the caller of a command gets, and what it leaves behind. -/
def answer {α : Type} (db : Db) (x : α × Db) : Fault → Option α × Db
  | .none => (some x.1, x.2)
  | .before => (none, db)
  | .after => (none, x.2)

/-! ### `RedisMutex` -/

/-- The members of `RedisMutex`, and the `try_lock` that is under way. -/
structure RedisMutex where
  key : String
  token : String
  ttl_ms : ℤ
  locked : Bool := false
  /-- The deadline of the `try_lock`. -/
  trying : Option ℤ := none

namespace RedisMutex

/-- The constructor. -/
def make (key token : String) (ttl_ms : ℤ) : RedisMutex :=
  { key := "im:lock:" ++ key, token, ttl_ms }

variable (m : RedisMutex) (db : Db) (redis_now : ℤ) (fault : Fault)

/-- `try_lock` up to its loop. -/
def try_lock (now timeout : ℤ) : RedisMutex := { m with trying := some (now + timeout) }

/-- A turn of the loop of `try_lock`, which reads the clock at its head and before it sleeps, and
whether `try_lock` returns with the lock. How long it sleeps does not matter. -/
def turn (deadline now later : ℤ) : Bool × RedisMutex × Db :=
  if now < deadline then
    match answer db (db.setNx redis_now m.key m.token m.ttl_ms) fault with
    | (some true, db) => (true, { m with locked := true, trying := none }, db)
    | (some false, db) =>
      if deadline - later ≤ 0 then (false, { m with trying := none }, db) else (false, m, db)
    | (none, db) => (false, { m with trying := none }, db)
  else (false, { m with trying := none }, db)

/-- `unlock`, which is also the destructor. -/
def unlock : RedisMutex × Db :=
  if m.locked = false then (m, db)
  else ({ m with locked := false }, (answer db (db.casDel redis_now m.key m.token) fault).2)

end RedisMutex

/-! ### The lease of `CleanupWorker` -/

def kMediaGcLeaseKey : String := "im:media:gc:lease"

def kMediaGcLeaseTtlSec : ℤ := 600

namespace CleanupWorker

variable (instance_id : String) (db : Db) (redis_now : ℤ) (fault : Fault)

/-- `kAcquireLua`. -/
def kAcquireLua : ℤ × Db :=
  let (ok, taken) := db.setNx redis_now kMediaGcLeaseKey instance_id (kMediaGcLeaseTtlSec * 1000)
  if ok then (1, taken)
  else
    let (own, prolonged) :=
      db.prolong redis_now kMediaGcLeaseKey instance_id (kMediaGcLeaseTtlSec * 1000)
    if own then (1, prolonged) else (0, db)

/-- `try_acquire_lease`. -/
def try_acquire_lease : Bool × Db :=
  let (ret, db) := answer db (kAcquireLua instance_id db redis_now) fault
  (ret = some 1, db)

/-- `renew_lease`. -/
def renew_lease : Bool × Db := try_acquire_lease instance_id db redis_now fault

/-- `try_release_lease`. -/
def try_release_lease : Db :=
  (answer db (db.casDel redis_now kMediaGcLeaseKey instance_id) fault).2

end CleanupWorker

/-! ### Clients -/

/-- Who takes locks. -/
inductive Client
  | mutex (i : ℕ)
  | worker (i : ℕ)
  deriving DecidableEq

/-- Redis and its clients. -/
structure World where
  /-- The clock of Redis, in milliseconds. -/
  now : ℤ
  db : Db
  mutexes : ℕ → RedisMutex
  /-- The instance ids. -/
  workers : ℕ → String
  /-- Who holds the key of its lock. -/
  holds : Client → Bool := fun _ ↦ false

namespace World

variable (w : World)

/-- The key of the lock of a client. -/
def key : Client → String
  | .mutex i => (w.mutexes i).key
  | .worker _ => kMediaGcLeaseKey

/-- What a client writes under its key. -/
def token : Client → String
  | .mutex i => (w.mutexes i).token
  | .worker i => w.workers i

def setHolds (c : Client) (b : Bool) : World := { w with holds := Function.update w.holds c b }

end World

/-- What happens. -/
inductive Step
  | tick (d : ℕ)
  | try_lock (i : ℕ) (now timeout : ℤ)
  | turn (i : ℕ) (now later : ℤ) (fault : Fault)
  /-- `unlock`, by its caller or by the destructor. -/
  | unlock (i : ℕ) (fault : Fault)
  | acquire (i : ℕ) (fault : Fault)
  | renew (i : ℕ) (fault : Fault)
  | release (i : ℕ) (fault : Fault)

/-- The client that a step is made by. -/
def Step.client : Step → Option Client
  | .tick _ => none
  | .try_lock i _ _ | .turn i _ _ _ | .unlock i _ => some (.mutex i)
  | .acquire i _ | .renew i _ | .release i _ => some (.worker i)

namespace World

variable (w : World)

def setMutex (i : ℕ) (m : RedisMutex) (db : Db) : World :=
  { w with mutexes := Function.update w.mutexes i m, db := db }

/-- A client has been told that it has its key. -/
def acquired (c : Client) (ok : Bool) : World := if ok then w.setHolds c true else w

/-- A release that has been carried out. -/
def released (c : Client) (fault : Fault) : World :=
  if fault = .before then w else w.setHolds c false

/-- The effect of a step. -/
def step : Step → World → Option World
  | .tick d, w =>
    let now := w.now + d
    some { w with now := now
                  holds := fun c ↦ w.holds c && (w.db.owner now (w.key c)).isSome }
  | .try_lock i now timeout, w =>
    if (w.mutexes i).trying = none then
      some (w.setMutex i ((w.mutexes i).try_lock now timeout) w.db)
    else none
  | .turn i now later fault, w =>
    (w.mutexes i).trying.map fun deadline ↦
      let (ok, m, db) := (w.mutexes i).turn w.db w.now fault deadline now later
      (w.setMutex i m db).acquired (.mutex i) ok
  | .unlock i fault, w =>
    let (m, db) := (w.mutexes i).unlock w.db w.now fault
    let w' := w.setMutex i m db
    some (if (w.mutexes i).locked then w'.released (.mutex i) fault else w')
  | .acquire i fault, w =>
    let (ok, db) := CleanupWorker.try_acquire_lease (w.workers i) w.db w.now fault
    some ({ w with db := db }.acquired (.worker i) ok)
  | .renew i fault, w =>
    let (ok, db) := CleanupWorker.renew_lease (w.workers i) w.db w.now fault
    some ({ w with db := db }.acquired (.worker i) ok)
  | .release i fault, w =>
    some ({ w with db := CleanupWorker.try_release_lease (w.workers i) w.db w.now fault }.released
      (.worker i) fault)

end World

/-- Locks over one Redis. -/
def locks : Labelled World Step := ⟨World.step⟩

/-! ### What a command of a client does -/

section Commands

variable {db : Db} {now : ℤ} {k t : String} {fault : Fault}

/-- A command that leaves a key alone does so when it throws. -/
theorem answer_frame {α : Type} {x : α × Db} (hx : x.2 k = db k) :
    (answer db x fault).2 k = db k := by
  cases fault with
  | none => exact hx
  | before => rfl
  | after => exact hx

/-- A turn of `try_lock` leaves keys alone that somebody has. -/
theorem turn_frame (m : RedisMutex) (h : db.owner now k = some t) (fault : Fault)
    (deadline now' later : ℤ) :
    (m.turn db now fault deadline now' later).2.2 k = db k := by
  have hset : (answer db (db.setNx now m.key m.token m.ttl_ms) fault).2 k = db k :=
    answer_frame (Leases.setNx_of_owner h m.key m.token m.ttl_ms)
  rw [RedisMutex.turn]
  split
  · split
    · next heq => rwa [heq] at hset
    · next heq =>
      rw [heq] at hset
      split <;> exact hset
    · next heq => rwa [heq] at hset
  · rfl

/-- A `try_lock` that returns with the lock has its key. -/
theorem owner_turn (m : RedisMutex) (deadline now' later : ℤ)
    (h : (m.turn db now fault deadline now' later).1 = true) :
    (m.turn db now fault deadline now' later).2.2.owner now m.key = some m.token := by
  rw [RedisMutex.turn] at h ⊢
  split at h
  · next hnow =>
    rw [if_pos hnow]
    cases fault with
    | none =>
      cases hset : (db.setNx now m.key m.token m.ttl_ms).1 with
      | true =>
        simp only [answer, hset]
        exact Leases.owner_setNx hset
      | false =>
        simp only [answer, hset] at h
        split at h <;> cases h
    | before => cases h
    | after => cases h
  · cases h

theorem turn_static (m : RedisMutex) (db : Db) (now : ℤ) (fault : Fault)
    (deadline now' later : ℤ) :
    (m.turn db now fault deadline now' later).2.1.key = m.key ∧
      (m.turn db now fault deadline now' later).2.1.token = m.token := by
  rw [RedisMutex.turn]
  split
  · split
    · exact ⟨rfl, rfl⟩
    · split <;> exact ⟨rfl, rfl⟩
    · exact ⟨rfl, rfl⟩
  · exact ⟨rfl, rfl⟩

theorem unlock_static (m : RedisMutex) (db : Db) (now : ℤ) (fault : Fault) :
    (m.unlock db now fault).1.key = m.key ∧ (m.unlock db now fault).1.token = m.token := by
  rw [RedisMutex.unlock]
  split <;> exact ⟨rfl, rfl⟩

/-- An unlock leaves the keys of others alone. -/
theorem unlock_frame (m : RedisMutex) (h : db.owner now k = some t)
    (hne : k = m.key → t ≠ m.token) : (m.unlock db now fault).2 k = db k := by
  rw [RedisMutex.unlock]
  split
  · rfl
  · exact answer_frame (Leases.casDel_of_owner h hne)

/-- `kAcquireLua` takes the key or does nothing. -/
theorem kAcquireLua_cases (id : String) (db : Db) (now : ℤ) :
    (CleanupWorker.kAcquireLua id db now).2.owner now kMediaGcLeaseKey = some id ∨
      CleanupWorker.kAcquireLua id db now = (0, db) := by
  simp only [CleanupWorker.kAcquireLua]
  split
  · next hset => exact .inl (Leases.owner_setNx hset)
  · split
    · next hown => exact .inl (Leases.owner_prolong hown (by decide))
    · exact .inr rfl

theorem kAcquireLua_frame (id : String) (h : db.owner now k = some t)
    (hne : k = kMediaGcLeaseKey → t ≠ id) : (CleanupWorker.kAcquireLua id db now).2 k = db k := by
  simp only [CleanupWorker.kAcquireLua]
  split
  · exact Leases.setNx_of_owner h _ _ _
  · split
    · exact Leases.prolong_of_owner h hne _
    · rfl

end Commands

/-! ### What a step does to the locks -/

/-- What a step of a client may do. -/
structure Moved (w w' : World) (c : Client) : Prop where
  key : w'.key = w.key
  token : w'.token = w.token
  now : w'.now = w.now
  /-- Nobody else's key changes. -/
  others : ∀ k t, w.db.owner w.now k = some t → (k = w.key c → t ≠ w.token c) → w'.db k = w.db k
  holds : ∀ c', c' ≠ c → w'.holds c' = w.holds c'
  /-- Who holds its key afterwards has it, if it had the key when it held it before. -/
  self : w'.holds c = true →
    (w.holds c = true → w.db.owner w.now (w.key c) = some (w.token c)) →
    w'.db.owner w.now (w.key c) = some (w.token c)

section Steps

variable {w w' : World} {i : ℕ} {fault : Fault} {m : RedisMutex} {db : Db}

/-- The key and the token of a mutex stay. -/
theorem key_setMutex (hkey : m.key = (w.mutexes i).key) : (w.setMutex i m db).key = w.key := by
  funext c
  cases c with
  | worker j => rfl
  | mutex j =>
    show (Function.update w.mutexes i m j).key = _
    rcases eq_or_ne j i with rfl | hne
    · rw [Function.update_self, hkey]
      rfl
    · rw [Function.update_of_ne hne]
      rfl

theorem token_setMutex (htoken : m.token = (w.mutexes i).token) :
    (w.setMutex i m db).token = w.token := by
  funext c
  cases c with
  | worker j => rfl
  | mutex j =>
    show (Function.update w.mutexes i m j).token = _
    rcases eq_or_ne j i with rfl | hne
    · rw [Function.update_self, htoken]
      rfl
    · rw [Function.update_of_ne hne]
      rfl

/-- A client takes its key, or does not get it. -/
theorem moved_acquired {w₁ : World} {c : Client} {ok : Bool} (hkey : w₁.key = w.key)
    (htoken : w₁.token = w.token) (hnow : w₁.now = w.now) (hholds : w₁.holds = w.holds)
    (hothers : ∀ k t, w.db.owner w.now k = some t → (k = w.key c → t ≠ w.token c) →
      w₁.db k = w.db k)
    (hok : ok = true → w₁.db.owner w.now (w.key c) = some (w.token c))
    (hown : w.db.owner w.now (w.key c) = some (w.token c) →
      w₁.db.owner w.now (w.key c) = some (w.token c)) :
    Moved w (w₁.acquired c ok) c := by
  cases ok with
  | true =>
    refine ⟨hkey, htoken, hnow, hothers, fun c' hc' ↦ ?_, fun _ _ ↦ hok rfl⟩
    exact (Function.update_of_ne hc' _ _).trans (congrFun hholds c')
  | false =>
    refine ⟨hkey, htoken, hnow, hothers, fun c' _ ↦ congrFun hholds c', fun hc hhad ↦ ?_⟩
    exact hown (hhad ((congrFun hholds c).symm.trans hc))

/-- A client gives its key back, or does not get that far. -/
theorem moved_released {w₁ : World} {c : Client} (hkey : w₁.key = w.key)
    (htoken : w₁.token = w.token) (hnow : w₁.now = w.now) (hholds : w₁.holds = w.holds)
    (hothers : ∀ k t, w.db.owner w.now k = some t → (k = w.key c → t ≠ w.token c) →
      w₁.db k = w.db k)
    (hbefore : fault = .before → w₁.db = w.db) :
    Moved w (w₁.released c fault) c := by
  rw [World.released]
  split
  · next hfault =>
    refine ⟨hkey, htoken, hnow, hothers, fun c' _ ↦ congrFun hholds c', fun hc hhad ↦ ?_⟩
    rw [hbefore hfault]
    exact hhad ((congrFun hholds c).symm.trans hc)
  · refine ⟨hkey, htoken, hnow, hothers, fun c' hc' ↦ ?_, fun hc ↦ ?_⟩
    · exact (Function.update_of_ne hc' _ _).trans (congrFun hholds c')
    · have hfalse : (w₁.setHolds c false).holds c = false := Function.update_self ..
      rw [hfalse] at hc
      cases hc

theorem moved_turn (now later deadline : ℤ) :
    let x := (w.mutexes i).turn w.db w.now fault deadline now later
    Moved w ((w.setMutex i x.2.1 x.2.2).acquired (.mutex i) x.1) (.mutex i) := by
  have hstatic := turn_static (w.mutexes i) w.db w.now fault deadline now later
  have hframe := fun k t (h : w.db.owner w.now k = some t) ↦
    turn_frame (w.mutexes i) h fault deadline now later
  exact moved_acquired (key_setMutex hstatic.1) (token_setMutex hstatic.2) rfl rfl
    (fun k t h _ ↦ hframe k t h) (owner_turn (w.mutexes i) deadline now later)
    fun h ↦ (Leases.owner_congr (hframe _ _ h) w.now).trans h

theorem moved_try_lock (now timeout : ℤ) :
    Moved w (w.setMutex i ((w.mutexes i).try_lock now timeout) w.db) (.mutex i) where
  key := key_setMutex rfl
  token := token_setMutex rfl
  now := rfl
  others _ _ _ _ := rfl
  holds _ _ := rfl
  self hc hhad := hhad hc

theorem moved_unlock :
    let x := (w.mutexes i).unlock w.db w.now fault
    let w' := w.setMutex i x.1 x.2
    Moved w (if (w.mutexes i).locked then w'.released (.mutex i) fault else w') (.mutex i) := by
  intro x w'
  have hstatic := unlock_static (w.mutexes i) w.db w.now fault
  cases hlocked : (w.mutexes i).locked with
  | true =>
    refine moved_released (key_setMutex hstatic.1) (token_setMutex hstatic.2) rfl rfl
      (fun k t h hne ↦ unlock_frame (w.mutexes i) h hne) fun hbefore ↦ ?_
    show ((w.mutexes i).unlock w.db w.now fault).2 = w.db
    rw [RedisMutex.unlock, hlocked, hbefore]
    rfl
  | false =>
    have hx : x = (w.mutexes i, w.db) := if_pos hlocked
    refine ⟨key_setMutex hstatic.1, token_setMutex hstatic.2, rfl, fun k t _ _ ↦ ?_,
      fun _ _ ↦ rfl, fun hc hhad ↦ ?_⟩
    · exact congrFun (congrArg Prod.snd hx) k
    · show x.2.owner _ _ = _
      rw [hx]
      exact hhad hc

theorem moved_acquire :
    let x := CleanupWorker.try_acquire_lease (w.workers i) w.db w.now fault
    Moved w ({ w with db := x.2 }.acquired (.worker i) x.1) (.worker i) := by
  intro x
  have hcases := kAcquireLua_cases (w.workers i) w.db w.now
  have hkept : w.db.owner w.now kMediaGcLeaseKey = some (w.workers i) →
      (CleanupWorker.kAcquireLua (w.workers i) w.db w.now).2.owner w.now kMediaGcLeaseKey =
        some (w.workers i) := fun hown ↦ by
    rcases hcases with htaken | hno
    · exact htaken
    · rw [hno]
      exact hown
  refine moved_acquired rfl rfl rfl rfl (fun k t h hne ↦ ?_) (fun hok ↦ ?_) (fun hown ↦ ?_)
  · exact answer_frame (kAcquireLua_frame (w.workers i) h hne)
  · cases fault with
    | none =>
      refine hcases.resolve_right fun hno ↦ ?_
      have hret : (CleanupWorker.kAcquireLua (w.workers i) w.db w.now).1 = 1 :=
        Option.some.inj (of_decide_eq_true hok)
      rw [hno] at hret
      cases hret
    | before => cases hok
    | after => cases hok
  · cases fault with
    | none => exact hkept hown
    | before => exact hown
    | after => exact hkept hown

theorem moved_release :
    let db := CleanupWorker.try_release_lease (w.workers i) w.db w.now fault
    Moved w ({ w with db := db }.released (.worker i) fault) (.worker i) := by
  intro db
  refine moved_released rfl rfl rfl rfl (fun k t h hne ↦ ?_) fun hbefore ↦ ?_
  · exact answer_frame (Leases.casDel_of_owner h hne)
  · subst hbefore
    rfl

/-- **Every step of a client.** -/
theorem moved_of_step {s : Step} {c : Client} (hs : World.step s w = some w')
    (hc : s.client = some c) : Moved w w' c := by
  cases s with
  | tick d => cases hc
  | try_lock i now timeout =>
    obtain rfl := Option.some.inj hc
    obtain ⟨-, hs⟩ := Option.ite_none_right_eq_some.1 hs
    exact Option.some.inj hs ▸ moved_try_lock now timeout
  | turn i now later fault =>
    obtain rfl := Option.some.inj hc
    obtain ⟨deadline, -, hw⟩ := Option.map_eq_some_iff.1 hs
    exact hw ▸ moved_turn now later deadline
  | unlock i fault =>
    obtain rfl := Option.some.inj hc
    exact Option.some.inj hs ▸ moved_unlock
  | acquire i fault =>
    obtain rfl := Option.some.inj hc
    exact Option.some.inj hs ▸ moved_acquire
  | renew i fault =>
    obtain rfl := Option.some.inj hc
    exact Option.some.inj hs ▸ moved_acquire
  | release i fault =>
    obtain rfl := Option.some.inj hc
    exact Option.some.inj hs ▸ moved_release

end Steps

/-! ### Exclusion -/

/-- Mutexes that have been constructed and workers, before any of them does anything. What is in
Redis does not matter. -/
def World.start (keys tokens : ℕ → String) (ttl_ms : ℕ → ℤ) (workers : ℕ → String) (now : ℤ)
    (db : Db) : World where
  now := now
  db := db
  mutexes i := .make (keys i) (tokens i) (ttl_ms i)
  workers := workers

/-- Clients of one key write different tokens. -/
def World.Distinct (w : World) : Prop :=
  ∀ c c', c ≠ c' → w.key c = w.key c' → w.token c ≠ w.token c'

/-- Who holds its key has it. -/
def World.Owned (w : World) : Prop :=
  ∀ c, w.holds c = true → w.db.owner w.now (w.key c) = some (w.token c)

section Exclusion

variable {w w' : World} {c c' : Client}

/-- No mutex has the key of the lease. -/
theorem mutex_key_ne (key : String) : "im:lock:" ++ key ≠ kMediaGcLeaseKey := by
  intro heq
  have hlist := congrArg String.toList heq
  rw [String.toList_append] at hlist
  have hfourth := congrArg (·[3]?) hlist
  simp [kMediaGcLeaseKey] at hfourth

theorem distinct_start {keys tokens : ℕ → String} {ttl_ms : ℕ → ℤ} {workers : ℕ → String} {now : ℤ}
    {db : Db} (htokens : Function.Injective tokens) (hworkers : Function.Injective workers) :
    (World.start keys tokens ttl_ms workers now db).Distinct := by
  intro c c' hne hkey htoken
  cases c with
  | mutex i =>
    cases c' with
    | mutex j => exact hne (congrArg _ (htokens htoken))
    | worker j => exact mutex_key_ne _ hkey
  | worker i =>
    cases c' with
    | mutex j => exact mutex_key_ne _ hkey.symm
    | worker j => exact hne (congrArg _ (hworkers htoken))

/-- **The keys of others** stay as they are. -/
theorem Moved.frame (hm : Moved w w' c) (hd : w.Distinct) (h : w.Owned) (hne : c' ≠ c)
    (hc' : w.holds c' = true) : w'.db (w.key c') = w.db (w.key c') :=
  hm.others _ _ (h c' hc') (hd c' c hne)

theorem Moved.owned (hm : Moved w w' c) (hd : w.Distinct) (h : w.Owned) : w'.Owned := by
  intro c' hc'
  rw [hm.key, hm.token, hm.now]
  rcases eq_or_ne c' c with rfl | hne
  · exact hm.self hc' (h c')
  · have hbefore : w.holds c' = true := (hm.holds c' hne).symm.trans hc'
    exact (Leases.owner_congr (hm.frame hd h hne hbefore) _).trans (h c' hbefore)

/-- **Every step** leaves the keys with those who hold them. -/
theorem owned_step {s : Step} (hd : w.Distinct) (h : w.Owned) (hs : World.step s w = some w') :
    w'.Distinct ∧ w'.Owned := by
  cases hc : s.client with
  | some c =>
    have hm := moved_of_step hs hc
    refine ⟨?_, hm.owned hd h⟩
    rw [World.Distinct, hm.key, hm.token]
    exact hd
  | none =>
    -- time passes
    cases s with
    | tick d =>
      obtain rfl := Option.some.inj hs
      refine ⟨hd, fun c hc ↦ ?_⟩
      obtain ⟨hc, hthere⟩ := Bool.and_eq_true_iff.1 hc
      have hle : w.now ≤ w.now + d := by omega
      exact Leases.owner_later (h c hc) hle hthere
    | _ => cases hc

end Exclusion

/-- **Locks that expire are exclusive.** Of the clients of one key at most one holds it, at any time
of any run, and no step of another client, whatever it does, changes the key of who holds it. The
slots of worker ids, whose runs have a module of their own, are released by the same script. -/
theorem holds_exclusive {keys tokens : ℕ → String} {ttl_ms : ℕ → ℤ} {workers : ℕ → String} {now : ℤ}
    {db : Db} {w : World} (htokens : Function.Injective tokens)
    (hworkers : Function.Injective workers)
    (hw : locks.Reach (fun _ _ ↦ True) (.start keys tokens ttl_ms workers now db) w) :
    (∀ c c', w.key c = w.key c' → w.holds c = true → w.holds c' = true → c = c') ∧
      (∀ s w' c', World.step s w = some w' → s.client = some c' → ∀ c, c ≠ c' →
        w.holds c = true → w'.db (w.key c) = w.db (w.key c) ∧ w'.holds c = true) ∧
      ∀ (r : WorkerIdAllocator.Redis) (k : ℤ) (o o' : String), r.get k = some o → o' ≠ o →
        (r.release k o').2 = r := by
  obtain ⟨hd, h⟩ : w.Distinct ∧ w.Owned := by
    refine Labelled.invariant (I := fun w ↦ w.Distinct ∧ w.Owned) hw
      ⟨distinct_start htokens hworkers, fun c hc ↦ ?_⟩ fun h _ hs ↦ owned_step h.1 h.2 hs
    cases hc
  refine ⟨fun c c' hkey hc hc' ↦ ?_, fun s w' c' hs hclient c hne hc ↦ ?_,
    fun r k o o' hown hne ↦ ?_⟩
  · by_contra hne
    refine hd c c' hne hkey (Option.some.inj ((h c hc).symm.trans ?_))
    rw [hkey]
    exact h c' hc'
  · have hm := moved_of_step hs hclient
    exact ⟨hm.frame hd h hne hc, (hm.holds c hne).trans hc⟩
  · rw [WorkerIdAllocator.Redis.release, hown,
      if_neg fun heq ↦ hne (Option.some.inj heq).symm]

/-- A mutex is unlocked twice after its key has expired and another has taken it. -/
theorem holds_exclusive_late : ∃ w, locks.Reach (fun _ _ ↦ True)
    (.start (fun _ ↦ "warm") toString (fun _ ↦ 5000) toString 0 fun _ ↦ none) w ∧
      w.holds (.mutex 1) = true ∧ w.holds (.mutex 0) = false := by
  obtain ⟨w, hw, hc, hc'⟩ := Labelled.exists_of_run (L := locks) (fun _ _ ↦ True)
    (.start (fun _ ↦ "warm") toString (fun _ ↦ 5000) toString 0 fun _ ↦ none)
    [.try_lock 0 0 100, .turn 0 1 2 .none, .tick 6000, .try_lock 1 0 100, .turn 1 1 2 .none,
      .unlock 0 .none, .unlock 0 .none]
    (fun w ↦ w.holds (.mutex 1) = true ∧ w.key (.mutex 0) = w.key (.mutex 1)) (by decide +kernel)
  refine ⟨w, hw, hc, Bool.eq_false_iff.2 fun hc₀ ↦ ?_⟩
  cases (holds_exclusive (fun _ _ ↦ toString_inj.1) (fun _ _ ↦ toString_inj.1) hw).1 _ _ hc' hc₀ hc

end ChatNow.RedisLocks
