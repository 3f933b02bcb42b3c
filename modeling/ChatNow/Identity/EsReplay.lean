import ChatNow.Common.EsIndex

/-!
# Index writes of the identity service, direct and replayed

`ESUser::append_data` of `common/dao/data_es.hpp`, and the payload through which
`identity/source/identity_server.h` writes it again. The payload has every argument of the write, so
what is replayed is what would have been written (`replay_payload`).
-/

namespace ChatNow

/-- The arguments of `ESUser::append_data`. -/
structure UserDoc where
  uid : String
  mail : String
  phone : String
  nickname : String
  description : String
  avatar_id : String
  status : ℤ := 0
  deriving DecidableEq

namespace ESUser

def append_data (u : UserDoc) : EsRequest :=
  .index u.uid
    [("user_id", .string u.uid), ("nickname", .string u.nickname), ("mail", .string u.mail),
      ("phone", .string u.phone), ("description", .string u.description),
      ("avatar_id", .string u.avatar_id), ("status", .int u.status)]

variable (lib : JsonLib)

def outbox_payload_upsert_ (u : UserDoc) : lib.Text :=
  lib.Serialize
    [("op", .string "upsert"), ("uid", .string u.uid), ("mail", .string u.mail),
      ("phone", .string u.phone), ("nick", .string u.nickname), ("desc", .string u.description),
      ("avatar", .string u.avatar_id), ("status", .int u.status)]

/-- What `replay_es_write_` asks of the index; `none` when it asks nothing. -/
def replay_es_write_ (payload : lib.Text) : Option EsRequest := do
  let root ← lib.UnSerialize payload
  let opName ← (root.get "op" (.string "")).asString
  if opName = "upsert" then
    return append_data {
      uid := ← (root.get "uid" (.string "")).asString
      mail := ← (root.get "mail" (.string "")).asString
      phone := ← (root.get "phone" (.string "")).asString
      nickname := ← (root.get "nick" (.string "")).asString
      description := ← (root.get "desc" (.string "")).asString
      avatar_id := ← (root.get "avatar" (.string "")).asString
      status := ← (root.get "status" (.int 0)).asInt }
  else
    none

variable {lib}

theorem replay_payload (u : UserDoc) :
    replay_es_write_ lib (outbox_payload_upsert_ lib u) = some (append_data u) := by
  rw [replay_es_write_, outbox_payload_upsert_, lib.round_trip]
  rfl

end ESUser

end ChatNow
