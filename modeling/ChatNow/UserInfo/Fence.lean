import ChatNow.Lib.Pool
import ChatNow.Lib.Rounding
import ChatNow.Lib.Versioned
import ChatNow.UserInfo.FillContract

/-!
# The generation fence of the user-info cache

`UpdateProfile` deletes the copy of a profile before it writes the row and once more after it, and
raises the generation both times. A reader may have read the row before the change and store its
copy long after it.

* `userCache`: the machine, with calls of `resolve_user_info` on any number of instances, calls of
  `UpdateProfile` and any other readers that keep to their contract as threads. Beside the copy of a
  profile stands the moment at which its row was read; Redis does not know it.
* `UserInv`: what is stored is as new as all that is settled, since a copy is stored only under the
  generation that stood before its row was read.
* `profile_fenced`: nothing that `get` or `batch_get` finds was read before an update that had
  completed by then.

Lua compares generations as doubles, which is why they have to stay below `2 ^ 53`.
-/

namespace ChatNow

open Prog UserOp

/-! ### The state -/

/-- A user: the row over time with the generation, and the copy in Redis. -/
structure UserKeys where
  /-- The rows that have been committed, with the generation key. -/
  db : Versioned (Option User) := .start none
  /-- Redis counts in signed 64-bit numbers. -/
  version_lt : db.version < 2 ^ 63 := by decide
  /-- The value key. -/
  value : Option String := none
  /-- The moment at which the row was read that the value was made from. -/
  value_from : ℕ := 0

namespace UserKeys

variable (c : UserKeys)

/-- The text under the generation key. -/
def generation_key : Option String :=
  if c.db.version = 0 then none else some (toString c.db.version)

/-- A row is committed. -/
def write (row : Option User) : UserKeys :=
  { c with db := c.db.change row, version_lt := c.version_lt }

/-- `kSetIfGenerationLua`, with its result, for a row that was read at moment `m`. -/
def setIfGeneration (v : FencedValue) (m : ℕ) : ℕ × UserKeys :=
  if roundBits 53 c.db.version = roundBits 53 v.observed_generation then
    (1, { c with value := some v.serialized, value_from := m })
  else (0, c)

/-- `kInvalidateLua`, run after the change at moment `m`. -/
def invalidate (m : ℕ) : Option UserKeys :=
  if h : c.db.version + 1 < 2 ^ 63 then some { db := c.db.raise m, version_lt := h }
  else none

end UserKeys

/-- A copy that `get` or `batch_get` has found. -/
structure FoundCopy where
  uid : String
  value : String
  /-- The moment at which its row was read. -/
  read_at : ℕ
  /-- The updates that had completed when it was found. -/
  since : List ℕ
  deriving DecidableEq

/-- The caches, and what happened. -/
structure UserState where
  users : String → UserKeys := fun _ ↦ {}
  l1 : ℕ → String → Option String := fun _ _ ↦ none
  /-- The mutexes of the `InflightRegistry`s that are held. -/
  inflight : ℕ → String → Bool := fun _ _ ↦ false
  /-- The moment at which a thread has last read the row of a user. -/
  read_at : ℕ → String → ℕ := fun _ _ ↦ 0
  /-- The moment of the change that a thread has last made to a user. -/
  changed : ℕ → String → ℕ := fun _ _ ↦ 0
  /-- The changes of the `UpdateProfile` calls that have completed. -/
  completed : String → List ℕ := fun _ ↦ []
  found : List FoundCopy := []

namespace UserState

variable (s : UserState)

def setUser (uid : String) (c : UserKeys) : UserState :=
  { s with users := Function.update s.users uid c }

theorem users_setUser (uid uid' : String) (c : UserKeys) :
    (s.setUser uid c).users uid' = if uid' = uid then c else s.users uid' :=
  Function.update_apply _ _ _ _

def setLocal (inst : ℕ) (uid : String) (bytes : Option String) : UserState :=
  { s with l1 := Function.update s.l1 inst (Function.update (s.l1 inst) uid bytes) }

def setInflight (inst : ℕ) (uid : String) (held : Bool) : UserState :=
  { s with
    inflight := Function.update s.inflight inst (Function.update (s.inflight inst) uid held) }

/-- Thread `i` reads the row of a user. -/
def reads (i : ℕ) (uid : String) : UserState :=
  { s with
    read_at := Function.update s.read_at i
      (Function.update (s.read_at i) uid (s.users uid).db.now) }

/-- The value keys of some users are read. -/
def finds (uids : List String) : UserState :=
  { s with
    found := s.found ++ uids.filterMap fun uid ↦
      (s.users uid).value.map fun value ↦
        ⟨uid, value, (s.users uid).value_from, s.completed uid⟩ }

/-- The write of one entry by thread `i`. -/
def set (i : ℕ) (uid : String) (v : FencedValue) : ℕ × UserState :=
  let r := (s.users uid).setIfGeneration v (s.read_at i uid)
  (r.1, s.setUser uid r.2)

end UserState

/-- The last loop of `kBatchSetIfGenerationLua`. The first one finds nothing to refuse: all keys are
strings or not there, and all numbers are written by the code. -/
def UserState.setAll (i : ℕ) : List (String × FencedValue) → UserState → ℕ × UserState
  | [], s => (0, s)
  | (uid, v) :: entries, s =>
    let r := s.set i uid v
    let rest := UserState.setAll i entries r.2
    (r.1 + rest.1, rest.2)

/-- What the environment decides at a call. -/
structure UserChoice where
  /-- Redis fails. -/
  fault : Bool := false
  /-- The RPC succeeds; the database transaction does. -/
  ok : Bool := true
  /-- `select_by_id` does not swallow an exception. -/
  selected : Bool := true

/-- The row that `select_by_id` returns. -/
def UserState.selected (s : UserState) (c : UserChoice) (uid : String) : Option User :=
  if c.selected then (s.users uid).db.current else none

/-! ### The operations -/

/-- The effect of a call by thread `i`. -/
def UserState.exec (codec : UserInfoCodec) (i : ℕ) :
    (o : UserOp) → UserChoice → UserState → Option (UserOp.Res o × UserState)
  | l1Get inst uid, _, s => some (s.l1 inst uid, s)
  | l1Set inst uid bytes, _, s => some ((), s.setLocal inst uid (some bytes))
  | l1Invalidate inst uid, _, s => some ((), s.setLocal inst uid none)
  | getValue uid, c, s =>
    if c.fault then some (.thrown, s) else some (.ok (s.users uid).value, s.finds [uid])
  | getGeneration uid, c, s =>
    if c.fault then some (.thrown, s) else some (.ok (s.users uid).generation_key, s)
  | mget uids, c, s =>
    if c.fault then some (.thrown, s)
    else some (.ok (uids.map fun uid ↦ ((s.users uid).value, (s.users uid).generation_key)),
      s.finds uids)
  | evalSetIfGeneration uid v, c, s =>
    if c.fault then some (.thrown, s)
    else
      let r := s.set i uid v
      some (.ok r.1, r.2)
  | evalBatchSetIfGeneration entries, c, s =>
    if c.fault then some (.thrown, s)
    else
      let r := s.setAll i entries
      some (.ok r.1, r.2)
  | evalInvalidate uid, c, s =>
    if c.fault then some (.thrown, s)
    else
      match (s.users uid).invalidate (s.changed i uid) with
      | some keys => some (.ok (), s.setUser uid keys)
      | none => some (.thrown, s)
  | acquire inst uid, _, s =>
    if s.inflight inst uid then none else some ((), s.setInflight inst uid true)
  | release inst uid, _, s => some ((), s.setInflight inst uid false)
  | callGetProfile uid, c, s =>
    if !c.ok then some (.failed, s)
    else
      match s.selected c uid with
      | none => some (.notFound, s.reads i uid)
      | some user => some (.found (codec.serialize user), s.reads i uid)
  | selectById uid, c, s => some (s.selected c uid, s.reads i uid)
  | updateUser uid user, c, s =>
    if !c.ok || (s.users uid).db.current = none then some (false, s)
    else some (true, { s.setUser uid ((s.users uid).write (some user)) with
      changed := Function.update s.changed i
        (Function.update (s.changed i) uid (s.users uid).db.history.length) })
  | updated uid, _, s => some ((), { s with
      completed := Function.update s.completed uid (s.completed uid ++ [s.changed i uid]) })

/-! ### The environment -/

/-- What can happen beside the calls. -/
inductive UserEv (codec : UserInfoCodec)
  /-- A `resolve_user_info` call begins on an instance. -/
  | resolve (inst : ℕ) (uid : String)
  /-- An `UpdateProfile` call begins. -/
  | update (auth_user : String) (request : UpdateProfileReq)
  /-- Any other reader begins. -/
  | reader (r : Filler codec)
  /-- A row is written by something else: a registration, a login. -/
  | rewrite (uid : String) (row : Option User)
  /-- The value key expires. -/
  | expire (uid : String)
  /-- An L1 entry expires or is evicted. -/
  | evict (inst : ℕ) (uid : String)

abbrev UserPool := Pool UserOp UserOp.Res UserState

/-- The effect of an event. -/
def UserState.env (codec : UserInfoCodec) (cfg : ℕ → UserInfoConfig) :
    UserEv codec → UserPool → Option UserPool
  | .resolve inst uid, p =>
    some ⟨p.threads ++ [do let _ ← resolve_user_info codec (cfg inst) inst uid], p.shared⟩
  | .update auth_user request, p => some ⟨p.threads ++ [update_call auth_user request], p.shared⟩
  | .reader r, p => some ⟨p.threads ++ [r.prog], p.shared⟩
  | .rewrite uid row, p => some ⟨p.threads, p.shared.setUser uid ((p.shared.users uid).write row)⟩
  | .expire uid, p =>
    some ⟨p.threads, p.shared.setUser uid { p.shared.users uid with value := none }⟩
  | .evict inst uid, p => some ⟨p.threads, p.shared.setLocal inst uid none⟩

/-- The user-info cache, with instances built as `cfg` says. -/
def userCache (codec : UserInfoCodec) (cfg : ℕ → UserInfoConfig) :
    Machine UserOp UserOp.Res UserState UserChoice (UserEv codec) :=
  ⟨UserState.exec codec, UserState.env codec cfg⟩

/-- No user yet, and nothing cached. -/
def UserState.init : UserPool := ⟨[], {}⟩

/-- The user whose generation is raised. -/
def UserOp.invalidates : UserOp → Option String
  | evalInvalidate uid => some uid
  | _ => none

/-- Redis does not fail, and a double tells the generations apart. -/
def smallGenerations (codec : UserInfoCodec) :
    Machine.Guard UserOp UserOp.Res UserState UserChoice (UserEv codec) where
  onOp _ o c s := c.fault = false ∧
    ∀ uid ∈ o.invalidates, (s.users uid).db.version + 1 < 2 ^ 53
  onEv _ _ := True

/-! ### What the keys hold -/

namespace UserKeys

variable {c c' : UserKeys} {g m : ℕ}

theorem generation_of_key (c : UserKeys) :
    UserInfoCache.generation_of c.generation_key = some c.db.version := by
  rw [generation_key]
  split
  · next h =>
    rw [h]
    rfl
  · have hlt : c.db.version < 2 ^ 64 := c.version_lt.trans (by decide)
    exact stoull_text_toString hlt

/-- What is stored is as new as all that is settled. -/
def Fenced (c : UserKeys) : Prop := c.value ≠ none → c.db.settled ≤ c.value_from

@[simp] theorem db_setIfGeneration (c : UserKeys) (v : FencedValue) (m : ℕ) :
    (c.setIfGeneration v m).2.db = c.db := by
  rw [setIfGeneration]
  split <;> rfl

/-- A copy is stored only while nothing has been settled since the generation was read. -/
theorem Fenced.setIfGeneration (h : c.Fenced) (hlt : c.db.version < 2 ^ 53) {v : FencedValue}
    (hread : c.db.ReadAt v.observed_generation m) : (c.setIfGeneration v m).2.Fenced := by
  rw [UserKeys.setIfGeneration]
  split
  · next hv =>
    have hobserved : v.observed_generation < 2 ^ 53 := hread.1.trans_lt hlt
    have heq := (roundBits_eq_iff (by decide) hobserved).1 hv
    exact fun _ ↦ hread.2 heq.symm
  · exact h

theorem invalidate_cases (h : c.invalidate m = some c') :
    c'.db = c.db.raise m ∧ c'.Fenced := by
  unfold invalidate at h
  split at h
  · obtain rfl := Option.some.inj h
    exact ⟨rfl, fun hne ↦ absurd rfl hne⟩
  · cases h

theorem invalidate_ne_none (h : c.db.version + 1 < 2 ^ 53) : c.invalidate m ≠ none := by
  have hlt : c.db.version + 1 < 2 ^ 63 := h.trans (by decide)
  rw [invalidate, dif_pos hlt]
  exact Option.some_ne_none _

end UserKeys

/-! ### The threads -/

/-- What a reader knows of its readings of a user. -/
def FillPhase.Known (db : Versioned (Option User)) (read_at : ℕ) : FillPhase → Prop
  | idle => True
  | read g => g ≤ db.version
  | fetched g _ => db.ReadAt g read_at

namespace FillPhase

variable {db db' : Versioned (Option User)} {read_at : ℕ} {ph : FillPhase}

theorem Known.of_le (h : ph.Known db read_at) (hle : db ≤ db') : ph.Known db' read_at := by
  cases ph with
  | idle => exact trivial
  | read g => exact le_trans h hle.2.1
  | fetched g text => exact Versioned.ReadAt.of_le h hle

theorem known_of_raw (c : UserKeys) (read_at : ℕ) :
    (of_raw c.generation_key).Known c.db read_at := by
  rw [of_raw, c.generation_of_key]
  exact le_refl c.db.version

theorem Known.fetch (h : ph.Known db read_at) (text : String) :
    (ph.fetch text).Known db db.now := by
  cases ph with
  | idle => exact trivial
  | read g => exact Versioned.readAt_now h
  | fetched g _ => exact Versioned.readAt_now h.1

end FillPhase

/-- How far an `UpdateProfile` call has come. -/
inductive UpdatePhase
  | pending
  | committed
  | settled

/-- The contract of an `UpdateProfile` call: it raises the generation after the change. -/
def updateContract (uid : String) : Contract UserOp UserOp.Res UpdatePhase where
  allowed
    | .pending, selectById _ => True
    | .pending, evalInvalidate _ => True
    | .pending, updateUser u _ => u = uid
    | .committed, evalInvalidate u => u = uid
    | .settled, updated u => u = uid
    | _, _ => False
  admits ph o r :=
    match ph, o, r with
    | .committed, evalInvalidate _, r => r = .ok ()
    | _, _, _ => True
  next ph o r :=
    match ph, o, r with
    | .pending, updateUser _ _, true => .committed
    | .committed, evalInvalidate _, _ => .settled
    | ph, _, _ => ph

theorem update_call_meets (auth_user : String) (request : UpdateProfileReq) :
    (update_call auth_user request).Meets (updateContract auth_user) .pending fun _ _ ↦ True := by
  have hprofile : (UpdateProfile auth_user request).Meets (updateContract auth_user) .pending
      fun ph r ↦ ∀ user, r = .ok user → ph = .settled := by
    refine meets_op_bind.2 ⟨trivial, fun row _ ↦ ?_⟩
    cases row with
    | none => exact nofun
    | some user =>
      dsimp only
      split
      · exact nofun
      · refine meets_op_bind.2 ⟨trivial, fun first _ ↦ ?_⟩
        have hrest : ∀ invalidated : Bool, (do
            if ← op (updateUser auth_user (request.apply user)) then
              let _ ← UserInfoCache.invalidate auth_user
              return .ok (request.apply user)
            else return .error ⟨error.kSystemInternalError, "db update failed"⟩ :
            UserM (Except ServiceError User)).Meets (updateContract auth_user) .pending
            fun ph r ↦ ∀ user, r = .ok user → ph = .settled := by
          refine fun _ ↦ meets_op_bind.2 ⟨rfl, fun written _ ↦ ?_⟩
          cases written with
          | false => exact nofun
          | true =>
            refine meets_op_bind.2 ⟨rfl, fun second hsecond ↦ ?_⟩
            obtain rfl : second = .ok () := hsecond
            exact fun _ _ ↦ rfl
        cases first with
        | ok _ => exact hrest true
        | thrown => exact hrest false
  refine hprofile.bind fun ph r hr ↦ ?_
  cases r with
  | error e => exact trivial
  | ok user =>
    obtain rfl := hr user rfl
    exact ⟨rfl, fun _ _ ↦ trivial⟩

/-- What a thread of the pool is, and where it stands. -/
inductive UserThread
  | fill (ph : FillPhases)
  | update (uid : String) (ph : UpdatePhase)

/-- The contract of the threads of the pool, each by its own. -/
def userContract (codec : UserInfoCodec) : Contract UserOp UserOp.Res UserThread where
  allowed
    | .fill ph, o => (fillContract codec).allowed ph o
    | .update uid ph, o => (updateContract uid).allowed ph o
  admits
    | .fill ph, o, r => (fillContract codec).admits ph o r
    | .update uid ph, o, r => (updateContract uid).admits ph o r
  next
    | .fill ph, o, r => .fill ((fillContract codec).next ph o r)
    | .update uid ph, o, r => .update uid ((updateContract uid).next ph o r)

/-- What thread `i` knows. -/
def UserThread.Knows (i : ℕ) (s : UserState) : UserThread → Prop
  | fill ph => ∀ uid, (ph uid).Known (s.users uid).db (s.read_at i uid)
  | update uid ph => ph = .settled → s.changed i uid ≤ (s.users uid).db.settled

/-! ### The invariant -/

/-- What the cache keeps. -/
structure UserInv (ts : List UserThread) (s : UserState) : Prop where
  fenced : ∀ uid, (s.users uid).Fenced
  small : ∀ uid, (s.users uid).db.version < 2 ^ 53
  changed : ∀ i uid, s.changed i uid < (s.users uid).db.history.length
  completed : ∀ uid, ∀ k ∈ s.completed uid, k ≤ (s.users uid).db.settled
  threads : ∀ (i : ℕ) (t : UserThread), ts[i]? = some t → t.Knows i s
  found : ∀ q ∈ s.found, ∀ k ∈ q.since, k ≤ q.read_at

/-- A step of thread `i`, as the rest sees it. -/
structure UserState.Next (i : ℕ) (s s' : UserState) : Prop where
  db : ∀ uid, (s.users uid).db ≤ (s'.users uid).db
  fenced : ∀ uid, (s.users uid).Fenced → (s'.users uid).Fenced
  small : ∀ uid, (s'.users uid).db.version = (s.users uid).db.version ∨
    (s'.users uid).db.version < 2 ^ 53
  changed : ∀ j uid, s'.changed j uid = s.changed j uid ∨
    j = i ∧ s'.changed j uid < (s'.users uid).db.history.length
  read_at : ∀ j, j ≠ i → s'.read_at j = s.read_at j
  completed : ∀ uid, ∀ k ∈ s'.completed uid, k ∈ s.completed uid ∨ k ≤ (s'.users uid).db.settled
  found : ∀ q ∈ s'.found, q ∈ s.found ∨ ∀ k ∈ q.since, k ≤ q.read_at

namespace UserInv

variable {ts ts' : List UserThread} {s s' : UserState} {i : ℕ}

/-- **One step.** -/
theorem next (h : UserInv ts s) (hs : s.Next i s')
    (ht : ∀ (j : ℕ) (t : UserThread), ts'[j]? = some t →
      j ≠ i ∧ ts[j]? = some t ∨ t.Knows j s') : UserInv ts' s' where
  fenced uid := hs.fenced uid (h.fenced uid)
  small uid := by
    rcases hs.small uid with heq | hlt
    · rw [heq]
      exact h.small uid
    · exact hlt
  changed j uid := by
    rcases hs.changed j uid with heq | ⟨-, hlt⟩
    · rw [heq]
      exact (h.changed j uid).trans_le (hs.db uid).1.length_le
    · exact hlt
  completed uid k hk := by
    rcases hs.completed uid k hk with hk | hk
    · exact (h.completed uid k hk).trans (hs.db uid).2.2.1
    · exact hk
  threads j t hj := by
    rcases ht j t hj with ⟨hne, hj⟩ | hknows
    · have hknows := h.threads j t hj
      cases t with
      | fill ph =>
        intro uid
        rw [hs.read_at j hne]
        exact (hknows uid).of_le (hs.db uid)
      | update uid ph =>
        intro hph
        rcases hs.changed j uid with heq | ⟨heq, -⟩
        · rw [heq]
          exact (hknows hph).trans (hs.db uid).2.2.1
        · exact absurd heq hne
    · exact hknows
  found q hq := by
    rcases hs.found q hq with hq | hq
    · exact h.found q hq
    · exact hq

/-- A call of thread `i`. -/
theorem set (h : UserInv ts s) (hs : s.Next i s') {t : UserThread} (ht : t.Knows i s') :
    UserInv (ts.set i t) s' := by
  refine h.next hs fun j u hj ↦ ?_
  rcases Pool.getElem?_set_cases hj with ⟨rfl, rfl⟩ | hj
  · exact .inr ht
  · exact .inl hj

/-- A thread joins. -/
theorem append (h : UserInv ts s) {t : UserThread} (ht : t.Knows ts.length s)
    (hs : s.Next ts.length s) : UserInv (ts ++ [t]) s := by
  refine h.next hs fun j u hj ↦ ?_
  rcases Pool.getElem?_append_cases hj with ⟨rfl, rfl⟩ | ⟨hlt, hj⟩
  · exact .inr ht
  · exact .inl ⟨hlt.ne, hj⟩

/-- No thread has moved. -/
theorem event (h : UserInv ts s) (hs : s.Next ts.length s') : UserInv ts s' :=
  h.next hs fun _ _ hj ↦ .inl ⟨(List.getElem?_eq_some_iff.1 hj).1.ne, hj⟩

end UserInv

/-! ### What a call does -/

namespace UserState

variable {s s' s'' : UserState} {i : ℕ}

theorem Next.refl (i : ℕ) (s : UserState) : s.Next i s where
  db _ := le_refl _
  fenced _ h := h
  small _ := .inl rfl
  changed _ _ := .inl rfl
  read_at _ _ := rfl
  completed _ _ h := .inl h
  found _ h := .inl h

theorem Next.trans (h : s.Next i s') (h' : s'.Next i s'') : s.Next i s'' where
  db uid := (h.db uid).trans (h'.db uid)
  fenced uid hf := h'.fenced uid (h.fenced uid hf)
  small uid := by
    rcases h'.small uid with heq | hlt
    · rw [heq]
      exact h.small uid
    · exact .inr hlt
  changed j uid := by
    rcases h'.changed j uid with heq | hlt
    · rw [heq]
      rcases h.changed j uid with heq | ⟨hj, hlt⟩
      · exact .inl heq
      · exact .inr ⟨hj, hlt.trans_le (h'.db uid).1.length_le⟩
    · exact .inr hlt
  read_at j hj := (h'.read_at j hj).trans (h.read_at j hj)
  completed uid k hk := by
    rcases h'.completed uid k hk with hk | hk
    · rcases h.completed uid k hk with hk | hk
      · exact .inl hk
      · exact .inr (hk.trans (h'.db uid).2.2.1)
    · exact .inr hk
  found q hq := by
    rcases h'.found q hq with hq | hq
    · exact h.found q hq
    · exact .inr hq

theorem next_setUser {uid : String} {c : UserKeys} (hdb : (s.users uid).db ≤ c.db)
    (hfenced : (s.users uid).Fenced → c.Fenced)
    (hsmall : c.db.version = (s.users uid).db.version ∨ c.db.version < 2 ^ 53) :
    s.Next i (s.setUser uid c) :=
  { Next.refl i s with
    db := fun uid' ↦ by
      rw [users_setUser]
      split
      · next h => exact h ▸ hdb
      · exact le_refl _
    fenced := fun uid' h ↦ by
      rw [users_setUser]
      split
      · next heq => exact hfenced (heq ▸ h)
      · exact h
    small := fun uid' ↦ by
      rw [users_setUser]
      split
      · next h => exact h ▸ hsmall
      · exact .inl rfl
    changed := fun _ _ ↦ .inl rfl
    completed := fun _ _ hk ↦ .inl hk }

/-- A row is committed. -/
theorem next_write (uid : String) (row : Option User) :
    s.Next i (s.setUser uid ((s.users uid).write row)) :=
  next_setUser (Versioned.le_change _ row) id (.inl rfl)

theorem next_reads (uid : String) : s.Next i (s.reads i uid) :=
  { Next.refl i s with
    read_at := fun _ hj ↦ Function.update_of_ne hj _ _ }

theorem next_setLocal (inst : ℕ) (uid : String) (bytes : Option String) :
    s.Next i (s.setLocal inst uid bytes) :=
  { Next.refl i s with }

theorem next_setInflight (inst : ℕ) (uid : String) (held : Bool) :
    s.Next i (s.setInflight inst uid held) :=
  { Next.refl i s with }

/-- What is found is as new as all that has completed. -/
theorem next_finds {ts : List UserThread} (h : UserInv ts s) (uids : List String) :
    s.Next i (s.finds uids) :=
  { Next.refl i s with
    found := fun q hq ↦ by
      rcases List.mem_append.1 hq with hq | hq
      · exact .inl hq
      · obtain ⟨uid, -, hq⟩ := List.mem_filterMap.1 hq
        obtain ⟨value, hvalue, rfl⟩ := Option.map_eq_some_iff.1 hq
        have hne : (s.users uid).value ≠ none := by
          rw [hvalue]
          exact Option.some_ne_none _
        exact .inr fun k hk ↦ (h.completed uid k hk).trans (h.fenced uid hne) }

/-- One entry is stored, or is not. -/
theorem next_set {uid : String} {v : FencedValue} (hsmall : (s.users uid).db.version < 2 ^ 53)
    (hread : (s.users uid).db.ReadAt v.observed_generation (s.read_at i uid)) :
    s.Next i (s.set i uid v).2 := by
  refine next_setUser ?_ (fun h ↦ h.setIfGeneration hsmall hread) ?_
  · rw [UserKeys.db_setIfGeneration]
  · rw [UserKeys.db_setIfGeneration]
    exact .inl rfl

theorem db_set (uid uid' : String) (v : FencedValue) :
    ((s.set i uid v).2.users uid').db = (s.users uid').db := by
  show ((s.setUser uid _).users uid').db = _
  rw [users_setUser]
  split
  · next h => rw [UserKeys.db_setIfGeneration, h]
  · rfl

/-- The loop of the batch script, entry by entry. -/
theorem next_setAll {entries : List (String × FencedValue)}
    (hsmall : ∀ uid, (s.users uid).db.version < 2 ^ 53)
    (hread : ∀ e ∈ entries, (s.users e.1).db.ReadAt e.2.observed_generation (s.read_at i e.1)) :
    s.Next i (s.setAll i entries).2 ∧ (s.setAll i entries).2.read_at = s.read_at := by
  induction entries generalizing s with
  | nil => exact ⟨.refl i s, rfl⟩
  | cons e entries ih =>
    obtain ⟨uid, v⟩ := e
    have hfirst := next_set (hsmall uid) (hread (uid, v) List.mem_cons_self)
    obtain ⟨hrest, hkeep⟩ := ih (s := (s.set i uid v).2) (fun uid' ↦ by
      rw [db_set]
      exact hsmall uid') fun e he ↦ by
      rw [db_set]
      exact hread e (List.mem_cons_of_mem _ he)
    exact ⟨hfirst.trans hrest, hkeep⟩

end UserState

section Calls

variable {codec : UserInfoCodec} {ts : List UserThread} {s s' : UserState} {i : ℕ} {o : UserOp}
  {c : UserChoice} {r : o.Res} {ph : FillPhases}

/-- What a reader knows it does not lose by a step that reads no row. -/
theorem fill_of_next (hk : (UserThread.fill ph).Knows i s) (hs : s.Next i s')
    (hread : s'.read_at = s.read_at) : (UserThread.fill ph).Knows i s' := by
  intro uid
  rw [hread]
  exact (hk uid).of_le (hs.db uid)

/-- A reading of generations. -/
theorem fill_update (hk : (UserThread.fill ph).Knows i s) (uid : String) :
    (UserThread.fill
      (Function.update ph uid (.of_raw (s.users uid).generation_key))).Knows i s := by
  intro uid'
  rw [Function.update_apply]
  split
  · next h =>
    rw [h]
    exact FillPhase.known_of_raw _ _
  · exact hk uid'

/-- A reading of a row. -/
theorem fill_reads (hk : (UserThread.fill ph).Knows i s) (uid text : String) :
    (UserThread.fill (Function.update ph uid ((ph uid).fetch text))).Knows i (s.reads i uid) := by
  intro uid'
  show FillPhase.Known (s.users uid').db
    (Function.update s.read_at i (Function.update (s.read_at i) uid _) i uid') _
  rw [Function.update_self, Function.update_apply, Function.update_apply]
  split
  · next h =>
    rw [h]
    exact (hk uid).fetch text
  · exact hk uid'

/-- An invalidation of a generation that is small empties the entry, and settles the last change of
its thread. -/
theorem invalidate_call {uid : String} {r : (evalInvalidate uid).Res} (hfault : c.fault = false)
    (hlt : (s.users uid).db.version + 1 < 2 ^ 53)
    (hx : UserState.exec codec i (evalInvalidate uid) c s = some (r, s')) :
    r = .ok () ∧ s.Next i s' ∧ ∃ keys, s' = s.setUser uid keys ∧
      keys.db = (s.users uid).db.raise (s.changed i uid) := by
  simp only [UserState.exec, hfault, Bool.false_eq_true, if_false] at hx
  split at hx
  · next keys hkeys =>
    obtain ⟨rfl, rfl⟩ := Prod.mk.inj (Option.some.inj hx)
    obtain ⟨hdb, hfenced⟩ := UserKeys.invalidate_cases hkeys
    refine ⟨rfl, UserState.next_setUser (hdb ▸ Versioned.le_raise _ _) (fun _ ↦ hfenced) (.inr ?_),
      keys, rfl, hdb⟩
    rw [hdb]
    exact hlt
  · next hnone => exact absurd hnone (UserKeys.invalidate_ne_none hlt)

/-- **What a reader's call does**: it stores only what was read under the generation it names. -/
theorem fill_call (h : UserInv ts s) (hk : (UserThread.fill ph).Knows i s)
    (ha : (fillContract codec).allowed ph o) (hG : (smallGenerations codec).onOp i o c s)
    (hx : UserState.exec codec i o c s = some (r, s')) :
    (fillContract codec).admits ph o r ∧ s.Next i s' ∧
      (UserThread.fill ((fillContract codec).next ph o r)).Knows i s' := by
  obtain ⟨hfault, hG⟩ := hG
  -- most calls have nothing to do with the phase
  have hkeep (hs : s.Next i s') (hread : s'.read_at = s.read_at) :
      s.Next i s' ∧ (UserThread.fill ph).Knows i s' := ⟨hs, fill_of_next hk hs hread⟩
  cases o with
  | l1Get inst uid =>
    obtain ⟨rfl, rfl⟩ := Prod.mk.inj (Option.some.inj hx)
    exact ⟨trivial, hkeep (.refl i s) rfl⟩
  | l1Set inst uid bytes =>
    obtain ⟨-, rfl⟩ := Prod.mk.inj (Option.some.inj hx)
    exact ⟨trivial, hkeep (UserState.next_setLocal inst uid (some bytes)) rfl⟩
  | l1Invalidate inst uid =>
    obtain ⟨-, rfl⟩ := Prod.mk.inj (Option.some.inj hx)
    exact ⟨trivial, hkeep (UserState.next_setLocal inst uid none) rfl⟩
  | getValue uid =>
    simp only [UserState.exec, hfault, Bool.false_eq_true, if_false] at hx
    obtain ⟨rfl, rfl⟩ := Prod.mk.inj (Option.some.inj hx)
    exact ⟨trivial, hkeep (UserState.next_finds h [uid]) rfl⟩
  | getGeneration uid =>
    simp only [UserState.exec, hfault, Bool.false_eq_true, if_false] at hx
    obtain ⟨rfl, rfl⟩ := Prod.mk.inj (Option.some.inj hx)
    exact ⟨trivial, .refl i s, fill_update hk uid⟩
  | mget uids =>
    simp only [UserState.exec, hfault, Bool.false_eq_true, if_false] at hx
    obtain ⟨rfl, rfl⟩ := Prod.mk.inj (Option.some.inj hx)
    refine ⟨⟨_, rfl⟩, UserState.next_finds h uids, fun uid ↦ ?_⟩
    show FillPhase.Known (s.users uid).db (s.read_at i uid) (ph.mget uids (uids.map _) uid)
    rw [FillPhases.mget_map]
    split
    · exact FillPhase.known_of_raw _ _
    · exact hk uid
  | evalSetIfGeneration uid v =>
    simp only [UserState.exec, hfault, Bool.false_eq_true, if_false] at hx
    obtain ⟨rfl, rfl⟩ := Prod.mk.inj (Option.some.inj hx)
    have hknown := hk uid
    rw [show ph uid = _ from ha] at hknown
    exact ⟨trivial, hkeep (UserState.next_set (h.small uid) hknown) rfl⟩
  | evalBatchSetIfGeneration entries =>
    simp only [UserState.exec, hfault, Bool.false_eq_true, if_false] at hx
    obtain ⟨rfl, rfl⟩ := Prod.mk.inj (Option.some.inj hx)
    have hentries (e) (he : e ∈ entries) :
        (s.users e.1).db.ReadAt e.2.observed_generation (s.read_at i e.1) := by
      have hknown := hk e.1
      rw [ha e he] at hknown
      exact hknown
    obtain ⟨hs, hread⟩ := UserState.next_setAll h.small hentries
    exact ⟨trivial, hkeep hs hread⟩
  | evalInvalidate uid =>
    obtain ⟨-, hs, keys, rfl, -⟩ := invalidate_call hfault (hG uid rfl) hx
    exact ⟨trivial, hkeep hs rfl⟩
  | acquire inst uid =>
    simp only [UserState.exec] at hx
    split at hx
    · cases hx
    · obtain ⟨-, rfl⟩ := Prod.mk.inj (Option.some.inj hx)
      exact ⟨trivial, hkeep (UserState.next_setInflight inst uid true) rfl⟩
  | release inst uid =>
    obtain ⟨-, rfl⟩ := Prod.mk.inj (Option.some.inj hx)
    exact ⟨trivial, hkeep (UserState.next_setInflight inst uid false) rfl⟩
  | callGetProfile uid =>
    simp only [UserState.exec] at hx
    split at hx
    · obtain ⟨rfl, rfl⟩ := Prod.mk.inj (Option.some.inj hx)
      exact ⟨trivial, hkeep (.refl i s) rfl⟩
    · split at hx
      · obtain ⟨rfl, rfl⟩ := Prod.mk.inj (Option.some.inj hx)
        exact ⟨trivial, UserState.next_reads uid, fill_reads hk uid _⟩
      · obtain ⟨rfl, rfl⟩ := Prod.mk.inj (Option.some.inj hx)
        exact ⟨trivial, UserState.next_reads uid, fill_reads hk uid _⟩
  | selectById uid =>
    obtain ⟨rfl, rfl⟩ := Prod.mk.inj (Option.some.inj hx)
    exact ⟨trivial, UserState.next_reads uid, fill_reads hk uid _⟩
  | updateUser uid user => exact False.elim ha
  | updated uid => exact False.elim ha

/-- What an update's call does: it settles the change that it has committed. -/
theorem update_step {uid : String} {ph : UpdatePhase} (h : UserInv ts s)
    (hk : (UserThread.update uid ph).Knows i s) (ha : (updateContract uid).allowed ph o)
    (hG : (smallGenerations codec).onOp i o c s)
    (hx : UserState.exec codec i o c s = some (r, s')) :
    (updateContract uid).admits ph o r ∧ s.Next i s' ∧
      (UserThread.update uid ((updateContract uid).next ph o r)).Knows i s' := by
  obtain ⟨hfault, hG⟩ := hG
  cases ph with
  | pending =>
    cases o with
    | selectById u =>
      obtain ⟨-, rfl⟩ := Prod.mk.inj (Option.some.inj hx)
      exact ⟨trivial, UserState.next_reads u, nofun⟩
    | evalInvalidate u =>
      obtain ⟨-, hs, -⟩ := invalidate_call hfault (hG u rfl) hx
      exact ⟨trivial, hs, nofun⟩
    | updateUser u user =>
      obtain rfl : u = uid := ha
      simp only [UserState.exec] at hx
      split at hx
      · obtain ⟨rfl, rfl⟩ := Prod.mk.inj (Option.some.inj hx)
        exact ⟨trivial, .refl i s, nofun⟩
      · obtain ⟨rfl, rfl⟩ := Prod.mk.inj (Option.some.inj hx)
        refine ⟨trivial, { UserState.next_write u (some user) with
          changed := fun j u' ↦ ?_ }, nofun⟩
        show Function.update s.changed i _ j u' = _ ∨
          _ ∧ Function.update s.changed i _ j u' < ((s.setUser u _).users u').db.history.length
        by_cases hj : j = i
        · subst hj
          rw [Function.update_self, Function.update_apply, UserState.users_setUser]
          split
          · refine .inr ⟨rfl, ?_⟩
            simp [UserKeys.write]
          · exact .inl rfl
        · rw [Function.update_of_ne hj]
          exact .inl rfl
    | _ => exact False.elim ha
  | committed =>
    cases o with
    | evalInvalidate u =>
      obtain rfl : u = uid := ha
      obtain ⟨rfl, hs, keys, rfl, hdb⟩ := invalidate_call hfault (hG u rfl) hx
      refine ⟨rfl, hs, fun _ ↦ ?_⟩
      show s.changed i u ≤ ((s.setUser u keys).users u).db.settled
      rw [UserState.users_setUser, if_pos rfl, hdb]
      exact Versioned.le_settled_raise (h.changed i u)
    | _ => exact False.elim ha
  | settled =>
    cases o with
    | updated u =>
      obtain rfl : u = uid := ha
      obtain ⟨-, rfl⟩ := Prod.mk.inj (Option.some.inj hx)
      refine ⟨trivial, { UserState.Next.refl i s with completed := fun u' k hmem ↦ ?_ }, hk⟩
      rcases Versioned.mem_update_append hmem with hmem | ⟨rfl, rfl⟩
      · exact .inl hmem
      · exact .inr (hk rfl)
    | _ => exact False.elim ha

end Calls

/-! ### The result -/

theorem userInv_init : UserInv [] {} where
  fenced _ h := absurd rfl h
  small _ := Nat.two_pow_pos 53
  changed _ _ := Nat.one_pos
  completed := nofun
  threads := nofun
  found := nofun

/-- A reader of the pool follows its contract. -/
theorem fill_meets {codec : UserInfoCodec} {q : UserM Unit}
    (h : q.Meets (fillContract codec) (fun _ ↦ .idle) fun _ _ ↦ True) :
    q.Meets (userContract codec) (.fill fun _ ↦ .idle) fun _ _ ↦ True :=
  (h.map (D := userContract codec) .fill (fun _ _ ha ↦ ha) (fun _ _ _ hr ↦ hr)
    fun _ _ _ ↦ rfl).mono fun _ _ _ ↦ trivial

theorem update_meets (codec : UserInfoCodec) (auth_user : String) (request : UpdateProfileReq) :
    (update_call auth_user request).Meets (userContract codec) (.update auth_user .pending)
      fun _ _ ↦ True :=
  ((update_call_meets auth_user request).map (D := userContract codec) (.update auth_user)
    (fun _ _ ha ↦ ha) (fun _ _ _ hr ↦ hr) fun _ _ _ ↦ rfl).mono fun _ _ _ ↦ trivial

section Events

variable {codec : UserInfoCodec} {cfg : ℕ → UserInfoConfig} {ts : List UserThread}
  {p p' : UserPool}

/-- An event keeps the invariant, and every thread it starts meets its contract. -/
theorem userInv_event {e : UserEv codec} (h : UserInv ts p.shared)
    (hm : p.Meets (userContract codec) (fun _ ↦ True) ts)
    (hx : UserState.env codec cfg e p = some p') :
    ∃ ts', UserInv ts' p'.shared ∧ p'.Meets (userContract codec) (fun _ ↦ True) ts' := by
  have hfill : UserInv (ts ++ [.fill fun _ ↦ .idle]) p.shared :=
    h.append (fun _ ↦ trivial) (.refl _ _)
  cases e with
  | resolve inst uid =>
    obtain rfl := Option.some.inj hx
    refine ⟨_, hfill, hm.spawn (fill_meets ?_) _⟩
    exact resolve_user_info_fills.bind fun _ _ _ ↦ trivial
  | update auth_user request =>
    obtain rfl := Option.some.inj hx
    exact ⟨_, h.append (t := .update auth_user .pending) nofun (.refl _ _),
      hm.spawn (update_meets codec auth_user request) _⟩
  | reader r =>
    obtain rfl := Option.some.inj hx
    exact ⟨_, hfill, hm.spawn (fill_meets r.meets) _⟩
  | rewrite uid row =>
    obtain rfl := Option.some.inj hx
    exact ⟨ts, h.event (UserState.next_write uid row), hm⟩
  | expire uid =>
    obtain rfl := Option.some.inj hx
    refine ⟨ts, h.event (UserState.next_setUser (le_refl _) (fun _ hne ↦ ?_) (.inl rfl)), hm⟩
    exact absurd rfl hne
  | evict inst uid =>
    obtain rfl := Option.some.inj hx
    exact ⟨ts, h.event (UserState.next_setLocal inst uid none), hm⟩

end Events

/-- The invariant holds in every reachable state. -/
theorem userInv_of_reach {codec : UserInfoCodec} {cfg : ℕ → UserInfoConfig} {p : UserPool}
    (hr : (userCache codec cfg).Reach (smallGenerations codec) UserState.init p) :
    ∃ ts, UserInv ts p.shared ∧ p.Meets (userContract codec) (fun _ ↦ True) ts := by
  refine Machine.invariant hr ⟨[], userInv_init, .nil⟩ ?_ ?_
  · intro ts s i t o c r s' hinv hi ha hG hx
    cases t with
    | fill ph =>
      obtain ⟨hadm, hs, hk⟩ := fill_call hinv (hinv.threads i _ hi) ha hG hx
      exact ⟨hadm, hinv.set hs hk⟩
    | update uid ph =>
      obtain ⟨hadm, hs, hk⟩ := update_step hinv (hinv.threads i _ hi) ha hG hx
      exact ⟨hadm, hinv.set hs hk⟩
  · intro ts p e p' hinv hm _ hx
    exact userInv_event hinv hm hx

/-- **The generation fence**: in every run in which Redis does not fail and the generations stay
below `2 ^ 53`, no copy that is found was made from a row that was read before an update that had
completed. -/
theorem profile_fenced (codec : UserInfoCodec) (cfg : ℕ → UserInfoConfig) (p : UserPool)
    (hr : (userCache codec cfg).Reach (smallGenerations codec) UserState.init p) :
    ∀ q ∈ p.shared.found, ∀ k ∈ q.since, k ≤ q.read_at := by
  obtain ⟨ts, h, -⟩ := userInv_of_reach hr
  exact h.found

instance (codec : UserInfoCodec) (i : ℕ) (o : UserOp) (c : UserChoice) (s : UserState) :
    Decidable ((smallGenerations codec).onOp i o c s) :=
  inferInstanceAs (Decidable (_ ∧ ∀ uid ∈ o.invalidates, _))

instance (codec : UserInfoCodec) (e : UserEv codec) (p : UserPool) :
    Decidable ((smallGenerations codec).onEv e p) := .isTrue trivial

/-- A codec of a few columns. -/
def plainCodec : UserInfoCodec := ⟨fun user ↦ user.user_id ++ "/" ++ user.nickname, fun _ ↦ true⟩

/-- The reader of a message to two users. -/
def twoUsers : Filler plainCodec where
  prog := batch_fill plainCodec [51, user_info_bucket "u2"] [user_info_bucket "u2"] ["u1", "u2"]
  meets := batch_fill_fills (by decide)

/-- Thread `i` makes its next `n` calls. -/
def calls (i n : ℕ) : List (Machine.Label UserChoice (UserEv plainCodec)) :=
  List.replicate n (.call i {})

/-- Thread 0 reads the old row; thread 1 updates it; the copy of thread 0 comes too late, that of
thread 2 is kept, and thread 3 finds it. -/
def lateFill : List (Machine.Label UserChoice (UserEv plainCodec)) :=
  [.event (.rewrite "u1" (some { user_id := "u1", nickname := "old" })),
    .event (.resolve 0 "u1")] ++ calls 0 6 ++
  .event (.update "u1" { nickname := some "new" }) :: calls 1 5 ++ calls 0 2 ++
  .event (.resolve 0 "u1") :: calls 2 9 ++ .event (.reader twoUsers) :: calls 3 4

theorem profile_fenced_lateFill :
    ∃ p, (userCache plainCodec fun _ ↦ {}).Reach (smallGenerations plainCodec) UserState.init p ∧
      p.shared.found = [⟨"u1", "u1/new", 2, [2]⟩] ∧
      ∀ q ∈ p.shared.found, ∀ k ∈ q.since, k ≤ q.read_at := by
  obtain ⟨p, hp, hfound⟩ := Machine.exists_of_run (userCache plainCodec fun _ ↦ {})
    (smallGenerations plainCodec) UserState.init lateFill
    (fun p ↦ p.shared.found = [⟨"u1", "u1/new", 2, [2]⟩]) (by decide)
  exact ⟨p, hp, hfound, profile_fenced _ _ p hp⟩

end ChatNow
