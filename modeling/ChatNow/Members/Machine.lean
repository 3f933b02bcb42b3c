import ChatNow.Lib.Pool
import ChatNow.Lib.Versioned
import ChatNow.Members.Resolve
import Mathlib.Logic.Function.Basic

/-!
# The members cache as one machine

The Redis keys and the database rows of every conversation, the L1 maps and the mutexes of every
Transmite instance, as a `Machine` over `MemOp`. Calls of `resolve_members` on any number of
instances, calls of `GetMemberIds` and conversation writes are threads of the pool; that they begin,
and that an entry of a cache expires or is evicted, are events.

A conversation's membership over time is a `Versioned` value: a commit changes it, and the script of
`Members::invalidate` raises the version and settles the change that its writer has committed. Sets
are answered in any order. The warm lock of Redis expires by a clock of its own, so whether it is
obtained is left open; an RPC may fail, and otherwise answers what is committed at that moment.
-/

namespace ChatNow

open Prog MemOp

/-! ### The state -/

/-- A conversation: its members over time, and its keys in Redis. -/
structure Conv where
  /-- The members that have been committed, with the version key. -/
  db : Versioned (Finset String) := .start ∅
  /-- Redis counts in signed 64-bit numbers. -/
  version_lt : db.version < 2 ^ 63 := by decide
  /-- The members key; the empty set is the absent key. -/
  members : Finset String := ∅
  /-- The sentinel key is there. -/
  sentinel : Bool := false

namespace Conv

variable (c : Conv)

/-- The text under the version key. -/
def version_key : Option String :=
  if c.db.version = 0 then none else some (toString c.db.version)

/-- A membership is committed. -/
def commit (members : Finset String) : Conv :=
  { c with db := c.db.change members, version_lt := c.version_lt }

/-- `kWarmIfVersionLua`, with its result. -/
def warmIfVersion (observed : String) (uids : List String) : ℕ × Conv :=
  if c.version_key.getD "0" = observed then
    (1, { c with members := uids.toFinset, sentinel := false })
  else (0, c)

/-- `kSentinelIfVersionLua`, with its result. -/
def sentinelIfVersion (observed : String) : ℕ × Conv :=
  if c.version_key.getD "0" = observed then (1, { c with members := ∅, sentinel := true })
  else (0, c)

/-- `kInvalidateLua`, run after the change at moment `m`; `INCR` fails past the last number, and the
script with it. -/
def invalidate (m : ℕ) : Option Conv :=
  if h : c.db.version + 1 < 2 ^ 63 then
    some { db := c.db.raise m, version_lt := h, members := ∅, sentinel := false }
  else none

end Conv

/-- The layers, and what happened. -/
structure MemState where
  convs : String → Conv := fun _ ↦ {}
  l1 : ℕ → String → Option MembersCacheEntry := fun _ _ ↦ none
  /-- The mutexes of the `InflightRegistry`s that are held. -/
  inflight : ℕ → String → Bool := fun _ _ ↦ false
  /-- The threads that run `resolve_members` calls. -/
  calls : List ℕ := []
  /-- The moment of the change that a thread has committed. -/
  changed : ℕ → ℕ := fun _ ↦ 0
  /-- The changes of a conversation whose invalidation has completed. -/
  completed : String → List ℕ := fun _ ↦ []
  /-- The version at which a thread has found the sentinel, until it next reads the version. -/
  confirming : ℕ → Option ℕ := fun _ ↦ none
  /-- Every result of a `resolve_members` call, with the changes completed before it began. -/
  results : List (String × List ℕ × MembersResult) := []
  /-- Every answer of a GetMemberIds call, likewise. -/
  served : List (String × List ℕ × List String) := []

namespace MemState

variable (s : MemState)

def setConv (ssid : String) (c : Conv) : MemState :=
  { s with convs := Function.update s.convs ssid c }

theorem convs_setConv (ssid ssid' : String) (c : Conv) :
    (s.setConv ssid c).convs ssid' = if ssid' = ssid then c else s.convs ssid' :=
  Function.update_apply _ _ _ _

def setLocal (inst : ℕ) (ssid : String) (e : Option MembersCacheEntry) : MemState :=
  { s with l1 := Function.update s.l1 inst (Function.update (s.l1 inst) ssid e) }

theorem l1_setLocal (inst inst' : ℕ) (ssid ssid' : String) (e : Option MembersCacheEntry) :
    (s.setLocal inst ssid e).l1 inst' ssid' =
      if inst' = inst ∧ ssid' = ssid then e else s.l1 inst' ssid' := by
  simp only [setLocal, Function.update_apply]
  by_cases hinst : inst' = inst
  · rw [if_pos hinst, Function.update_apply, hinst]
    simp
  · rw [if_neg hinst, if_neg fun h ↦ hinst h.1]

def setInflight (inst : ℕ) (ssid : String) (held : Bool) : MemState :=
  { s with
    inflight := Function.update s.inflight inst (Function.update (s.inflight inst) ssid held) }

def setConfirming (i : ℕ) (v : Option ℕ) : MemState :=
  { s with confirming := Function.update s.confirming i v }

end MemState

/-- What the environment decides at a call. -/
structure MemChoice where
  /-- The store behind the call fails. -/
  fault : Bool := false
  /-- The warm lock is obtained; the RPC succeeds. -/
  ok : Bool := true
  /-- The order in which a set is answered. -/
  order : List String := []

/-- The listing is one of the set. -/
def Lists (order : List String) (members : Finset String) : Prop :=
  order.Nodup ∧ order.toFinset = members

instance (order : List String) (members : Finset String) : Decidable (Lists order members) :=
  inferInstanceAs (Decidable (_ ∧ _))

/-! ### The operations -/

/-- The effect of a call by thread `i`. -/
def MemState.exec (i : ℕ) :
    (o : MemOp) → MemChoice → MemState → Option (MemOp.Res o × MemState)
  | l1Get inst ssid, _, s => some (s.l1 inst ssid, s)
  | l1Set inst ssid entry, _, s => some ((), s.setLocal inst ssid (some entry))
  | l1Invalidate inst ssid, _, s => some ((), s.setLocal inst ssid none)
  | getVersion ssid, c, s =>
    if c.fault then some (.thrown, s)
    else some (.ok (s.convs ssid).version_key, s.setConfirming i none)
  | smembers ssid, c, s =>
    if c.fault then some (.thrown, s)
    else if Lists c.order (s.convs ssid).members then some (.ok c.order, s)
    else none
  | getSentinel ssid, c, s =>
    if c.fault then some (.thrown, s)
    else if (s.convs ssid).sentinel then
      some (.ok true, s.setConfirming i (some (s.convs ssid).db.version))
    else some (.ok false, s)
  | evalWarmIfVersion ssid observed uids, c, s =>
    if c.fault then some (.thrown, s)
    else
      let r := (s.convs ssid).warmIfVersion observed uids
      some (.ok r.1, s.setConv ssid r.2)
  | evalSentinelIfVersion ssid observed, c, s =>
    if c.fault then some (.thrown, s)
    else
      let r := (s.convs ssid).sentinelIfVersion observed
      some (.ok r.1, s.setConv ssid r.2)
  | evalInvalidate ssid, c, s =>
    if c.fault then some (.thrown, s)
    else
      match (s.convs ssid).invalidate (s.changed i) with
      | some conv => some (.ok (), { s.setConv ssid conv with
          completed := Function.update s.completed ssid (s.completed ssid ++ [s.changed i]) })
      | none => some (.thrown, s)
  | acquire inst ssid, _, s =>
    if s.inflight inst ssid then none else some ((), s.setInflight inst ssid true)
  | release inst ssid, _, s => some ((), s.setInflight inst ssid false)
  | tryLock _, c, s => if c.fault then some (.thrown, s) else some (.ok c.ok, s)
  | unlock _, _, s => some ((), s)
  | callGetMemberIds ssid, c, s =>
    if !c.ok then some (none, s)
    else if Lists c.order (s.convs ssid).db.current then some (some c.order, s)
    else none
  | selectMembers ssid, c, s =>
    if c.fault then some ([], s)
    else if Lists c.order (s.convs ssid).db.current then some (c.order, s)
    else none
  | commitMembers ssid members, _, s =>
    some ((), { s.setConv ssid ((s.convs ssid).commit members) with
      changed := Function.update s.changed i (s.convs ssid).db.history.length })
  | resolved ssid since result, _, s =>
    some ((), { s with results := s.results ++ [(ssid, since, result)] })
  | .served ssid since uids, _, s =>
    some ((), { s with served := s.served ++ [(ssid, since, uids)] })

/-! ### The environment -/

/-- What can happen beside the calls. -/
inductive MemEv
  /-- A `resolve_members` call begins on an instance. -/
  | resolve (inst : ℕ) (ssid : String)
  /-- A GetMemberIds call begins. -/
  | getMemberIds (auth_user ssid : String)
  /-- A conversation write begins. -/
  | write (ssid : String) (members : Finset String)
  /-- The members key expires. -/
  | expireMembers (ssid : String)
  /-- The sentinel key expires. -/
  | expireSentinel (ssid : String)
  /-- An L1 entry expires or is evicted. -/
  | evict (inst : ℕ) (ssid : String)

abbrev MemPool := Pool MemOp MemOp.Res MemState

/-- The effect of an event. A call takes with it the changes that are completed when it begins. -/
def MemState.env (cfg : ℕ → MembersConfig) : MemEv → MemPool → Option MemPool
  | .resolve inst ssid, p =>
    some ⟨p.threads ++ [resolve_call (cfg inst) inst ssid (p.shared.completed ssid)],
      { p.shared with calls := p.shared.calls ++ [p.threads.length] }⟩
  | .getMemberIds auth_user ssid, p =>
    some ⟨p.threads ++ [GetMemberIds auth_user ssid (p.shared.completed ssid)], p.shared⟩
  | .write ssid members, p => some ⟨p.threads ++ [write_members ssid members], p.shared⟩
  | .expireMembers ssid, p =>
    some ⟨p.threads, p.shared.setConv ssid { p.shared.convs ssid with members := ∅ }⟩
  | .expireSentinel ssid, p =>
    some ⟨p.threads, p.shared.setConv ssid { p.shared.convs ssid with sentinel := false }⟩
  | .evict inst ssid, p => some ⟨p.threads, p.shared.setLocal inst ssid none⟩

/-- The members cache, with instances built as `cfg` says. -/
def membersCache (cfg : ℕ → MembersConfig) :
    Machine MemOp MemOp.Res MemState MemChoice MemEv :=
  ⟨MemState.exec, MemState.env cfg⟩

/-- No conversation yet, and nothing cached. -/
def MemState.init : MemPool := ⟨[], {}⟩

abbrev MemGuard := Machine.Guard MemOp MemOp.Res MemState MemChoice MemEv

abbrev MemLabel := Machine.Label MemChoice MemEv

end ChatNow
