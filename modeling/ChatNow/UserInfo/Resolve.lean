import ChatNow.Common.ErrorCodes
import ChatNow.Common.ReliabilityState
import ChatNow.Pipeline.Signature

/-!
# The user-info cache

The profiles of users, as SendMessage puts them beside a message. They are rows of the identity
service; Redis keeps a serialized copy of each, and the memory of each Transmite instance another
one. Beside the copy Redis keeps a **generation**, a counter that is raised whenever the copy is
deleted, and a copy is stored only under the generation that was read before the row.

This module is the text: `UserInfoCache` of `common/dao/data_redis.hpp`, `resolve_user_info` of
`transmite_server.h`, and `UpdateProfile` of `identity_server.h`, over one signature. One command,
one script, one query and one RPC is one operation.
-/

namespace ChatNow

/-! ### Rows and requests -/

/-- The columns of a user that `fill_user_info` reads and `UpdateProfile` writes. -/
structure User where
  user_id : String
  nickname : String := ""
  description : String := ""
  phone : String := ""
  avatar_id : String := ""
  deriving DecidableEq

/-- The fields of `UpdateProfileReq` that may be set. -/
structure UpdateProfileReq where
  nickname : Option String := none
  bio : Option String := none
  avatar_file_id : Option String := none
  phone : Option String := none

/-- `nickname_check`, on bytes. -/
def nickname_check (nickname : String) : Bool :=
  3 ≤ nickname.utf8ByteSize && nickname.utf8ByteSize ≤ 22 &&
    nickname.toList.all fun c ↦ c.isAlpha || c.isDigit || c = '_' || c = '-'

/-- The fields that are set take the place of the columns. -/
def UpdateProfileReq.apply (req : UpdateProfileReq) (user : User) : User :=
  { user with
    nickname := req.nickname.getD user.nickname
    description := req.bio.getD user.description
    phone := req.phone.getD user.phone
    avatar_id := req.avatar_file_id.getD user.avatar_id }

/-- The generated code of the `UserInfo` message. -/
structure UserInfoCodec where
  /-- `fill_user_info`, then `SerializeAsString`. -/
  serialize : User → String
  /-- `ParseFromString`. -/
  parses : String → Bool

/-- The local `parseable`. -/
def UserInfoCodec.parseable (codec : UserInfoCodec) (bytes : String) : Bool :=
  bytes ≠ "" && codec.parses bytes

/-- What is stored for a row; the empty text says that there is none. -/
def UserInfoCodec.text (codec : UserInfoCodec) : Option User → String
  | some user => codec.serialize user
  | none => ""

/-- What a `GetProfile` call comes back with. -/
inductive ProfileReply
  /-- The channel or the call failed, or the answer is an error other than the next one. -/
  | failed
  /-- `kAuthUserNotFound`. -/
  | notFound
  /-- The `UserInfo` of the answer, serialized. -/
  | found (bytes : String)
  deriving DecidableEq

/-- `UserInfoCache::FencedValue`. -/
structure FencedValue where
  serialized : String
  observed_generation : ℕ
  deriving DecidableEq

/-! ### The signature -/

/-- The operations of the user-info cache. -/
inductive UserOp
  /-- `LocalCache::get` of an instance. -/
  | l1Get (inst : ℕ) (uid : String)
  /-- `LocalCache::set`. -/
  | l1Set (inst : ℕ) (uid bytes : String)
  /-- `LocalCache::invalidate`. -/
  | l1Invalidate (inst : ℕ) (uid : String)
  /-- `GET` of the value key. -/
  | getValue (uid : String)
  /-- `GET` of the generation key. -/
  | getGeneration (uid : String)
  /-- `MGET` of the value key and the generation key of each user. -/
  | mget (uids : List String)
  /-- `kSetIfGenerationLua`. -/
  | evalSetIfGeneration (uid : String) (value : FencedValue)
  /-- `kBatchSetIfGenerationLua`. -/
  | evalBatchSetIfGeneration (entries : List (String × FencedValue))
  /-- `kInvalidateLua`. -/
  | evalInvalidate (uid : String)
  /-- Taking the mutex that the `InflightRegistry` of an instance has for the user. -/
  | acquire (inst : ℕ) (uid : String)
  /-- Giving that mutex back. -/
  | release (inst : ℕ) (uid : String)
  /-- The call of `fetch_user_info_from_identity_`. -/
  | callGetProfile (uid : String)
  /-- `UserTable::select_by_id`, nothing when the query fails. -/
  | selectById (uid : String)
  /-- `UserTable::update`. -/
  | updateUser (uid : String) (user : User)
  /-- An `UpdateProfile` call has returned without an error. -/
  | updated (uid : String)

/-- What each operation answers. -/
@[reducible]
def UserOp.Res : UserOp → Type
  | l1Get _ _ => Option String
  | getValue _ => Reply (Option String)
  | getGeneration _ => Reply (Option String)
  | mget _ => Reply (List (Option String × Option String))
  | evalSetIfGeneration _ _ => Reply ℕ
  | evalBatchSetIfGeneration _ => Reply ℕ
  | evalInvalidate _ => Reply Unit
  | callGetProfile _ => ProfileReply
  | selectById _ => Option User
  | updateUser _ _ => Bool
  | _ => Unit

/-- Programs of the user-info cache. -/
abbrev UserM := Prog UserOp UserOp.Res

open Prog UserOp

/-! ### Keys -/

/-- `fnv1a_32`. -/
def fnv1a_32 (value : String) : UInt32 :=
  value.toUTF8.data.toList.foldl (fun hash c ↦ (hash ^^^ c.toUInt32) * 16777619) 2166136261

/-- `user_info_bucket`. -/
def user_info_bucket (uid : String) : UInt32 := fnv1a_32 uid % 64

/-- The groups of a hash map from buckets, in the order in which it is gone through. -/
def bucket_groups {α : Type} (uid : α → String) (order : List UInt32) (entries : List α) :
    List (List α) :=
  (order.map fun b ↦ entries.filter fun e ↦ user_info_bucket (uid e) = b).filter (· ≠ [])

/-! ### `UserInfoCache` -/

namespace UserInfoCache

/-- The generation that the text under the key stands for. -/
def generation_of : Option String → Option ℕ
  | some raw => stoull_text raw
  | none => some 0

/-- `get`. -/
def get (uid : String) : UserM (Option String) := do
  match ← op (getValue uid) with
  | .ok value => return value
  | .thrown => return none

/-- `BatchResult`. -/
structure BatchResult where
  hits : List (String × String) := []
  /-- With the generation that was observed. -/
  misses : List (String × Option ℕ) := []

/-- The loop of `batch_get` over the entries of a group. -/
def sort_values : List String → List (Option String × Option String) → BatchResult → BatchResult
  | [], _, result => result
  | uid :: uids, [], result =>
    sort_values uids [] { result with misses := result.misses ++ [(uid, none)] }
  | uid :: uids, (some value, _) :: values, result =>
    sort_values uids values { result with hits := result.hits ++ [(uid, value)] }
  | uid :: uids, (none, raw) :: values, result =>
    sort_values uids values { result with misses := result.misses ++ [(uid, generation_of raw)] }

/-- The loop of `batch_get` over the groups. -/
def batch_get_groups : List (List String) → BatchResult → UserM BatchResult
  | [], result => return result
  | entries :: groups, result => do
    let unknown := entries.map fun uid ↦ (uid, none)
    match ← op (mget entries) with
    | .ok values => batch_get_groups groups (sort_values entries values result)
    | .thrown => batch_get_groups groups { result with misses := result.misses ++ unknown }

/-- `batch_get`. -/
def batch_get (order : List UInt32) (uids : List String) : UserM BatchResult :=
  batch_get_groups (bucket_groups id order (uids.take 2000)) {}

/-- `generation`. -/
def generation (uid : String) : UserM (Option ℕ) := do
  match ← op (getGeneration uid) with
  | .ok raw => return generation_of raw
  | .thrown => return none

/-- `GenerationWriteResult`. -/
inductive GenerationWriteResult
  | Committed
  | Conflict
  | Unavailable
  deriving DecidableEq

/-- `execute_generation_write`. -/
def execute_generation_write : Reply ℕ → GenerationWriteResult
  | .ok n => if n = 0 then .Conflict else .Committed
  | .thrown => .Unavailable

/-- `set_if_generation`. -/
def set_if_generation (uid serialized : String) (expected_generation : ℕ) :
    UserM GenerationWriteResult := do
  return execute_generation_write (← op (evalSetIfGeneration uid ⟨serialized, expected_generation⟩))

/-- The loop of `batch_set` over the groups. -/
def batch_set_groups : List (List (String × FencedValue)) → ℕ → UserM ℕ
  | [], written => return written
  | entries :: groups, written => do
    match ← op (evalBatchSetIfGeneration entries) with
    | .ok n => batch_set_groups groups (written + n)
    | .thrown => batch_set_groups groups written

/-- `batch_set`, of a map in the order in which it is gone through. -/
def batch_set (order : List UInt32) (values : List (String × FencedValue)) : UserM ℕ :=
  batch_set_groups (bucket_groups Prod.fst order (values.take 2000)) 0

/-- `invalidate`. -/
def invalidate (uid : String) : UserM Bool := do
  match ← op (evalInvalidate uid) with
  | .ok _ => return true
  | .thrown => return false

end UserInfoCache

/-! ### `resolve_user_info` -/

/-- The parts that a Transmite instance may be built without. -/
structure UserInfoConfig where
  /-- `_local_user_cache` is set. -/
  local_user_cache : Bool := true
  /-- `_user_info_cache` is set. -/
  user_info_cache : Bool := true
  /-- `_inflight_registry` is set. -/
  inflight_registry : Bool := true

section Resolve

variable (codec : UserInfoCodec) (cfg : UserInfoConfig) (inst : ℕ) (uid : String)

/-- The local `read_l1`. -/
def read_l1 : UserM (Option String) := do
  if !cfg.local_user_cache then return none
  match ← op (l1Get inst uid) with
  | none => return none
  | some bytes =>
    if codec.parseable bytes then return some bytes
    op (l1Invalidate inst uid)
    if cfg.user_info_cache then
      let _ ← UserInfoCache.invalidate uid
      return none
    return none

/-- `fetch_user_info_from_identity_`: the bytes of the profile, and `confirmed_not_found`. -/
def fetch_user_info_from_identity : UserM (Option String × Bool) := do
  match ← op (callGetProfile uid) with
  | .failed => return (none, false)
  | .notFound => return (none, true)
  | .found bytes => return (if codec.parseable bytes then some bytes else none, false)

/-- `publish_user_info_l1`, with the write that it is given. -/
def publish_user_info_l1 (result : UserInfoCache.GenerationWriteResult) (bytes : String) :
    UserM Unit := do
  if result = .Conflict then return ()
  if cfg.local_user_cache then op (l1Set inst uid bytes)

/-- The generation that a copy may be stored under, if there is one. -/
def observed_generation : UserM (Option ℕ) :=
  if cfg.user_info_cache then UserInfoCache.generation uid else return none

/-- The write of a copy under the generation that was observed. -/
def set_if_observed (serialized : String) :
    Option ℕ → UserM UserInfoCache.GenerationWriteResult
  | some generation => UserInfoCache.set_if_generation uid serialized generation
  | none => return .Unavailable

/-- `resolve_after_lock`, once neither layer has a copy. -/
def resolve_from_identity : UserM (Option String) := do
  let generation ← observed_generation cfg uid
  match ← fetch_user_info_from_identity codec uid with
  | (none, confirmed_not_found) =>
    if confirmed_not_found then
      let _ ← set_if_observed uid "" generation
      return none
    else return none
  | (some bytes, _) =>
    let write_result ← set_if_observed uid bytes generation
    publish_user_info_l1 cfg inst uid write_result bytes
    return some bytes

/-- `resolve_after_lock`. -/
def resolve_after_lock : UserM (Option String) := do
  if let some bytes ← read_l1 codec cfg inst uid then return some bytes
  if cfg.user_info_cache then
    match ← UserInfoCache.get uid with
    | none => resolve_from_identity codec cfg inst uid
    | some redis =>
      if redis = "" then return none
      if codec.parseable redis then
        if cfg.local_user_cache then op (l1Set inst uid redis)
        return some redis
      let _ ← UserInfoCache.invalidate uid
      resolve_from_identity codec cfg inst uid
  else resolve_from_identity codec cfg inst uid

/-- `resolve_user_info`. -/
def resolve_user_info : UserM (Option String) := do
  if let some bytes ← read_l1 codec cfg inst uid then return some bytes
  if cfg.inflight_registry then
    op (acquire inst uid)
    let result ← resolve_after_lock codec cfg inst uid
    op (release inst uid)
    return result
  else resolve_after_lock codec cfg inst uid

end Resolve

/-! ### `UpdateProfile` -/

/-- `UpdateProfile`, for a caller that is authenticated as `auth_user`. What it writes to the search
index is left out. -/
def UpdateProfile (auth_user : String) (request : UpdateProfileReq) :
    UserM (Except ServiceError User) := do
  match ← op (selectById auth_user) with
  | none => return .error ⟨error.kAuthUserNotFound, "user not found"⟩
  | some user =>
    if request.nickname.any fun nickname ↦ !nickname_check nickname then
      return .error ⟨error.kAuthInvalidCredentials, "nickname invalid"⟩
    let user := request.apply user
    let _ ← UserInfoCache.invalidate auth_user
    if ← op (updateUser auth_user user) then
      let _ ← UserInfoCache.invalidate auth_user
      return .ok user
    else return .error ⟨error.kSystemInternalError, "db update failed"⟩

/-- A call, with its success recorded. -/
def update_call (auth_user : String) (request : UpdateProfileReq) : UserM Unit := do
  match ← UpdateProfile auth_user request with
  | .ok _ => op (updated auth_user)
  | .error _ => return ()

end ChatNow
