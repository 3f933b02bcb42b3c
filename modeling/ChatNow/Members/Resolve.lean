import ChatNow.Common.CacheVersion
import ChatNow.Pipeline.Signature
import Mathlib.Data.Finset.Basic

/-!
# The members cache

SendMessage asks `resolve_members` who is in a conversation. The answer is kept in two layers: L1,
a map in the memory of each Transmite instance, and L2, three Redis keys for each conversation that
all instances and the conversation service share: the set of members, a sentinel that says there are
none, and a version. A change of the membership is committed to the database first; then
`Members::invalidate` raises the version and deletes the two other keys.

This module is the text of the code that reads and fills the layers, `transmite_server.h`
(`resolve_members`), `data_redis.hpp` (`Members`) and `conversation_server.h` (`GetMemberIds`), as
programs over one signature. One Redis command, one Lua script, one RPC, one query and one access to
L1 is one operation; between two of them anything may happen.
-/

namespace ChatNow

/-- `MembersCacheEntry`. -/
structure MembersCacheEntry where
  members : List String := []
  version : ℕ := 0
  sentinel : Bool := false
  deriving DecidableEq

/-- The operations of the members cache. -/
inductive MemOp
  /-- `LocalCache::get` of an instance, with an expired entry read as none. -/
  | l1Get (inst : ℕ) (ssid : String)
  /-- `LocalCache::set`. -/
  | l1Set (inst : ℕ) (ssid : String) (entry : MembersCacheEntry)
  /-- `LocalCache::invalidate`. -/
  | l1Invalidate (inst : ℕ) (ssid : String)
  /-- `GET` of the version key. -/
  | getVersion (ssid : String)
  /-- `SMEMBERS` of the members key. -/
  | smembers (ssid : String)
  /-- `GET` of the sentinel key: whether it has a value. -/
  | getSentinel (ssid : String)
  /-- `kWarmIfVersionLua`. -/
  | evalWarmIfVersion (ssid observed : String) (uids : List String)
  /-- `kSentinelIfVersionLua`. -/
  | evalSentinelIfVersion (ssid observed : String)
  /-- `kInvalidateLua`. -/
  | evalInvalidate (ssid : String)
  /-- Taking the mutex that the `InflightRegistry` of an instance has for the conversation. -/
  | acquire (inst : ℕ) (ssid : String)
  /-- Giving that mutex back. -/
  | release (inst : ℕ) (ssid : String)
  /-- `RedisMutex::try_lock` of the warm lock. -/
  | tryLock (ssid : String)
  /-- `RedisMutex::unlock`, which reports nothing. -/
  | unlock (ssid : String)
  /-- The `GetMemberIds` call of `fetch_members_from_conversation_service_`. -/
  | callGetMemberIds (ssid : String)
  /-- `ConversationMemberTable::members`, empty on failure. -/
  | selectMembers (ssid : String)
  /-- The transaction of a change: from here on these are the members. -/
  | commitMembers (ssid : String) (members : Finset String)
  /-- A `resolve_members` call returns. `since` are the changes that were committed and invalidated
  when it began; the code does not see them. -/
  | resolved (ssid : String) (since : List ℕ) (result : MembersResult)
  /-- A GetMemberIds call answers. -/
  | served (ssid : String) (since : List ℕ) (uids : List String)

/-- What each operation answers. -/
@[reducible]
def MemOp.Res : MemOp → Type
  | l1Get _ _ => Option MembersCacheEntry
  | l1Set _ _ _ => Unit
  | l1Invalidate _ _ => Unit
  | getVersion _ => Reply (Option String)
  | smembers _ => Reply (List String)
  | getSentinel _ => Reply Bool
  | evalWarmIfVersion _ _ _ => Reply ℕ
  | evalSentinelIfVersion _ _ => Reply ℕ
  | evalInvalidate _ => Reply Unit
  | acquire _ _ => Unit
  | release _ _ => Unit
  | tryLock _ => Reply Bool
  | unlock _ => Unit
  | callGetMemberIds _ => Option (List String)
  | selectMembers _ => List String
  | commitMembers _ _ => Unit
  | resolved _ _ _ => Unit
  | served _ _ _ => Unit

/-- Programs of the members cache. -/
abbrev MemM := Prog MemOp MemOp.Res

open Prog MemOp

/-! ### The `Members` class -/

namespace Members

/-- What `Members::version` makes of the version key. -/
def version_of : Reply (Option String) → ℕ
  | .ok none => 0
  | .ok (some raw) => (parse_cache_version raw).getD kUnknownCacheVersion
  | .thrown => kUnknownCacheVersion

/-- `Members::version`. -/
def version (ssid : String) : MemM ℕ := do
  return version_of (← op (getVersion ssid))

/-- `Members::Snapshot`. -/
structure Snapshot where
  members : List String := []
  version : ℕ := 0
  stable : Bool := true

/-- `Members::list_snapshot`. -/
def list_snapshot (ssid : String) : MemM Snapshot := do
  let before ← version ssid
  match ← op (smembers ssid) with
  | .thrown => return { stable := false }
  | .ok members =>
    let after ← version ssid
    return { members := members, version := after
             stable := cache_snapshot_is_stable before after }

/-- `Members::warm_if_version`, with the default TTL. -/
def warm_if_version (ssid : String) (uids : List String) (observed_version : ℕ) : MemM Bool := do
  if uids.isEmpty then return false
  if !cache_version_is_known observed_version then return false
  match ← op (evalWarmIfVersion ssid (toString observed_version) uids) with
  | .ok n => return n == 1
  | .thrown => return false

/-- `Members::set_sentinel_if_version`, with the default TTL. -/
def set_sentinel_if_version (ssid : String) (observed_version : ℕ) : MemM Bool := do
  if !cache_version_is_known observed_version then return false
  match ← op (evalSentinelIfVersion ssid (toString observed_version)) with
  | .ok n => return n == 1
  | .thrown => return false

/-- What both callers write after a fetch: the sentinel when there are no members, else the set. -/
def write_back (ssid : String) (uids : List String) (observed_version : ℕ) : MemM Bool :=
  if uids.isEmpty then set_sentinel_if_version ssid observed_version
  else warm_if_version ssid uids observed_version

/-- `Members::is_sentinel`. -/
def is_sentinel (ssid : String) : MemM Bool := do
  match ← op (getSentinel ssid) with
  | .ok exists_ => return exists_
  | .thrown => return false

/-- `Members::invalidate`, which swallows what it catches. -/
def invalidate (ssid : String) : MemM Unit := do
  let _ ← op (evalInvalidate ssid)
  return ()

end Members

/-! ### `resolve_members` -/

/-- The parts that a Transmite instance may be built without. -/
structure MembersConfig where
  /-- `_local_members_cache` is set. -/
  local_members_cache : Bool := true
  /-- `_inflight_registry` is set. -/
  inflight_registry : Bool := true
  deriving DecidableEq

section Resolve

variable (cfg : MembersConfig) (inst : ℕ) (ssid : String)

/-- What an L1 entry that is still valid answers. -/
def MembersCacheEntry.result (entry : MembersCacheEntry) : MembersResult :=
  if entry.sentinel then ⟨[], true, entry.version⟩ else ⟨entry.members, false, entry.version⟩

/-- The local `try_local`. -/
def try_local : MemM (Option MembersResult) := do
  if !cfg.local_members_cache then return none
  match ← op (l1Get inst ssid) with
  | none => return none
  | some entry =>
    let now_version ← Members.version ssid
    if !cache_l1_version_matches entry.version now_version then
      op (l1Invalidate inst ssid)
      return none
    return some entry.result

/-- What the local `set_local_members` and `set_local_sentinel` share. -/
def set_local (entry : MembersCacheEntry) : MemM Unit := do
  if !cache_version_is_known entry.version then return ()
  if cfg.local_members_cache then op (l1Set inst ssid entry)

/-- The local `set_local_members`. -/
def set_local_members (members : List String) (version : ℕ) : MemM Unit :=
  set_local cfg inst ssid { members := members, version := version, sentinel := false }

/-- The local `set_local_sentinel`. -/
def set_local_sentinel (version : ℕ) : MemM Unit :=
  set_local cfg inst ssid { version := version, sentinel := true }

/-- After a fetch: `set_local_sentinel` when there are no members, else `set_local_members`. -/
def set_local_fetched (members : List String) (version : ℕ) : MemM Unit :=
  if members.isEmpty then set_local_sentinel cfg inst ssid version
  else set_local_members cfg inst ssid members version

/-- The local `release_guard`; without a registry there is nothing to release. -/
def release_guard : MemM Unit := do
  if cfg.inflight_registry then op (release inst ssid)

/-- An L2 miss: the warm lock, the RPC and the two layers, the same in both branches up to
`release_guard`. An exception of `try_lock` leaves the function, and the guard's destructor releases
it. -/
def warm_from_service : MemM (Reply MembersResult) := do
  match ← op (tryLock ssid) with
  | .thrown =>
    release_guard cfg inst ssid
    return .thrown
  | .ok false =>
    release_guard cfg inst ssid
    return .ok {}
  | .ok true =>
    let observed_version ← Members.version ssid
    match ← op (callGetMemberIds ssid) with
    | none =>
      op (unlock ssid)
      release_guard cfg inst ssid
      return .ok {}
    | some members =>
      if !(← Members.write_back ssid members observed_version) then
        op (unlock ssid)
        release_guard cfg inst ssid
        return .ok {}
      set_local_fetched cfg inst ssid members observed_version
      op (unlock ssid)
      release_guard cfg inst ssid
      return .ok ⟨members, members.isEmpty, observed_version⟩

/-- From the L2 lookup on, in both branches: with a registry under its mutex, which is given back
before L1 is written; without one after a second, unlocked look at L1. -/
def resolve_shared : MemM (Reply MembersResult) := do
  let snap ← Members.list_snapshot ssid
  if !snap.stable then
    release_guard cfg inst ssid
    return .ok {}
  if !snap.members.isEmpty then
    release_guard cfg inst ssid
    set_local_members cfg inst ssid snap.members snap.version
    return .ok ⟨snap.members, false, snap.version⟩
  let stable_empty_snapshot := snap.stable && snap.members.isEmpty
  if cache_sentinel_confirms_empty stable_empty_snapshot (← Members.is_sentinel ssid) then
    let observed ← Members.version ssid
    release_guard cfg inst ssid
    set_local_sentinel cfg inst ssid observed
    return .ok ⟨[], true, observed⟩
  if !cfg.inflight_registry then
    if let some result ← try_local cfg inst ssid then return .ok result
  warm_from_service cfg inst ssid

/-- `resolve_members`; `thrown` when an exception leaves it. -/
def resolve_members : MemM (Reply MembersResult) := do
  if let some result ← try_local cfg inst ssid then return .ok result
  if cfg.inflight_registry then
    op (acquire inst ssid)
    if let some result ← try_local cfg inst ssid then
      release_guard cfg inst ssid
      return .ok result
  resolve_shared cfg inst ssid

/-- A call, with what it returns recorded. -/
def resolve_call (since : List ℕ) : MemM Unit := do
  match ← resolve_members cfg inst ssid with
  | .ok result => op (resolved ssid since result)
  | .thrown => return ()

end Resolve

/-! ### The conversation service -/

/-- `GetMemberIds`, for a caller that is authenticated as `auth_user`; an answer is recorded, and
the exception for a caller who is not a member is none. -/
def GetMemberIds (auth_user ssid : String) (since : List ℕ) : MemM Unit := do
  let answer (uids : List String) : MemM Unit :=
    if auth_user ≠ "__system__" ∧ auth_user ∉ uids then return () else op (served ssid since uids)
  let snap ← Members.list_snapshot ssid
  if snap.stable && !snap.members.isEmpty then
    answer snap.members
  else if cache_sentinel_confirms_empty (snap.stable && snap.members.isEmpty)
      (← Members.is_sentinel ssid) then
    answer []
  else
    let observed_version ← Members.version ssid
    let uids ← op (selectMembers ssid)
    let _ ← Members.write_back ssid uids observed_version
    answer uids

/-- A conversation write: the transaction of a change of the membership, then
`invalidate_members_cache_`. -/
def write_members (ssid : String) (members : Finset String) : MemM Unit := do
  op (commitMembers ssid members)
  Members.invalidate ssid

end ChatNow
