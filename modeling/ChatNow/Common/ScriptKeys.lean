import ChatNow.Common.Uuid
import ChatNow.Lib.HashSlot
import ChatNow.Presence.Keys
import ChatNow.UserInfo.BatchFill

/-!
# The keys of the scripts

Redis Cluster runs a script only if all keys that it is called with are in one slot. The builders of
`common/utils/redis_keys.hpp` and of `UnackedPush` therefore bracket the id that the keys share. The
ids stand in the keys as they are, so a bracket at the head of an id, or no id at all, leaves an
empty tag, which does not count: then each key has the slot of its whole text.

## Main results

* `script_keys_slots`: which calls have their keys in one slot, and which keys belong to one user.
-/

namespace ChatNow

/-! ### Slots -/

/-- The slot of a key in Redis Cluster, for a hash of texts. -/
def key_slot (hash : List Char → ℕ) (key : String) : ℕ :=
  HashSlot.slot '\x7b' '\x7d' hash 16384 key.toList

/-- A bit of the checksum. -/
def crc16_bit (crc : BitVec 16) : BitVec 16 :=
  if crc.msb then (crc <<< 1) ^^^ 0x1021#16 else crc <<< 1

/-- A byte of the checksum. -/
def crc16_byte (crc : BitVec 16) (byte : UInt8) : BitVec 16 :=
  crc16_bit^[8] (crc ^^^ (byte.toBitVec.setWidth 16 <<< 8))

/-- The hash of Redis Cluster, CRC16 of the bytes. -/
def crc16 (text : List Char) : ℕ :=
  ((text.flatMap String.utf8EncodeChar).foldl crc16_byte 0#16).toNat

example : crc16 "123456789".toList = 0x31C3 := by decide +kernel

/-! ### The builders -/

def members_key (cid : String) : String := "im:conversation:members:" ++ Presence.hash_tag cid

def members_sentinel_key (cid : String) : String :=
  "im:conversation:sentinel:" ++ Presence.hash_tag cid

def members_version_key (cid : String) : String :=
  "im:conversation:members_ver:" ++ Presence.hash_tag cid

def online_key (uid : String) : String := "im:online:" ++ Presence.hash_tag uid

def device_set_key (uid : String) : String := "im:dev:" ++ Presence.hash_tag uid

namespace UnackedPush

def key_for (uid device_id : String) : String :=
  "im:unack:" ++ "\x7b" ++ uid ++ ":" ++ device_id ++ "\x7d"

def idx_key_for (uid device_id : String) : String :=
  "im:unack:" ++ "idx:\x7b" ++ uid ++ ":" ++ device_id ++ "\x7d"

def repair_key_for (uid device_id : String) : String :=
  "im:unack:" ++ "repair:\x7b" ++ uid ++ ":" ++ device_id ++ "\x7d"

/-- The three keys of a ledger, in the order of the scripts. -/
def keys (uid device_id : String) : List String :=
  [key_for uid device_id, idx_key_for uid device_id, repair_key_for uid device_id]

end UnackedPush

/-! ### The calls -/

/-- A call of a script with more than one key, by the ids that its keys are made of. -/
inductive ScriptCall
  /-- `Members::warm_if_version`. -/
  | warm_if_version (ssid : String)
  /-- `Members::add`. -/
  | add_member (ssid : String)
  /-- `Members::remove`. -/
  | remove_member (ssid : String)
  /-- `Members::invalidate`. -/
  | invalidate_members (ssid : String)
  /-- `Members::set_sentinel_if_version`. -/
  | set_sentinel_if_version (ssid : String)
  /-- `OnlineRoute::bind`. -/
  | bind (uid : String)
  /-- `OnlineRoute::touch`. -/
  | touch (uid : String)
  /-- `OnlineRoute::unbind`. -/
  | unbind (uid : String)
  /-- `UnackedPush::push`. -/
  | push (uid device_id : String)
  /-- `UnackedPush::ack`. -/
  | ack (uid device_id : String)
  /-- `UnackedPush::peek_due`. -/
  | peek_due (uid device_id : String)
  /-- `UnackedPush::bump_score`. -/
  | bump_score (uid device_id : String)
  /-- `UserInfoCache::set_if_generation`. -/
  | set_if_generation (uid : String)
  /-- `UserInfoCache::invalidate`. -/
  | invalidate_user (uid : String)
  /-- `UserInfoCache::batch_set`, for one of the groups of its entries. -/
  | batch_set (order : List UInt32) (values group : List (String × FencedValue))
    (hgroup : group ∈ bucket_groups Prod.fst order (values.take 2000))

namespace ScriptCall

/-- The keys of the call, in the order of the source. -/
def keys : ScriptCall → List String
  | warm_if_version ssid => [members_key ssid, members_version_key ssid, members_sentinel_key ssid]
  | add_member ssid => [members_key ssid, members_version_key ssid, members_sentinel_key ssid]
  | remove_member ssid => [members_key ssid, members_version_key ssid, members_sentinel_key ssid]
  | invalidate_members ssid =>
    [members_key ssid, members_sentinel_key ssid, members_version_key ssid]
  | set_sentinel_if_version ssid =>
    [members_sentinel_key ssid, members_version_key ssid, members_key ssid]
  | bind uid => [online_key uid, device_set_key uid]
  | touch uid => [online_key uid, device_set_key uid]
  | unbind uid => [online_key uid, device_set_key uid]
  | push uid device_id => UnackedPush.keys uid device_id
  | ack uid device_id => UnackedPush.keys uid device_id
  | peek_due uid device_id => UnackedPush.keys uid device_id
  | bump_score uid device_id => UnackedPush.keys uid device_id
  | set_if_generation uid => [user_info_key uid, user_info_generation_key uid]
  | invalidate_user uid => [user_info_key uid, user_info_generation_key uid]
  | batch_set _ _ group _ => script_keys group

end ScriptCall

/-- The id has something before its first closing bracket: it is not empty and does not begin with
one. -/
def Taggable (id : String) : Prop := id ≠ "" ∧ id.toList.head? ≠ some '\x7d'

/-- What brackets the keys of the call can be a tag. Behind the user id of a ledger there is a colon
at least, and the buckets of users are numbers. -/
def ScriptCall.Taggable : ScriptCall → Prop
  | warm_if_version ssid | add_member ssid | remove_member ssid | invalidate_members ssid
  | set_sentinel_if_version ssid => ChatNow.Taggable ssid
  | bind uid | touch uid | unbind uid => ChatNow.Taggable uid
  | push uid _ | ack uid _ | peek_due uid _ | bump_score uid _ => uid.toList.head? ≠ some '\x7d'
  | set_if_generation _ | invalidate_user _ | batch_set _ _ _ _ => True

/-! ### One slot -/

section OneSlot

variable {id : String} {keys : List String}

/-- The keys are in one slot of Redis Cluster, whatever the hash. -/
def SameSlot (keys : List String) : Prop :=
  ∀ hash, ∀ k ∈ keys, ∀ k' ∈ keys, key_slot hash k = key_slot hash k'

theorem sameSlot_iff :
    SameSlot keys ↔ HashSlot.OneSlot '\x7b' '\x7d' 16384 (keys.map String.toList) := by
  constructor
  · intro h hash k hk k' hk'
    obtain ⟨key, hkey, rfl⟩ := List.mem_map.1 hk
    obtain ⟨key', hkey', rfl⟩ := List.mem_map.1 hk'
    exact h hash key hkey key' hkey'
  · intro h hash k hk k' hk'
    exact h hash _ (List.mem_map_of_mem hk) _ (List.mem_map_of_mem hk')

theorem taggable_iff : Taggable id ↔ Delimited.before '\x7d' id.toList ≠ [] := by
  have hnone : id.toList.head? = none ↔ id = "" := by
    rw [List.head?_eq_none_iff, String.toList_eq_nil_iff]
  rw [Ne, Delimited.before_eq_nil_iff, hnone, not_or]
  rfl

/-- The keys are prefixes in front of the bracketed id, and there are two of them. -/
def Brackets (id : String) (keys : List String) : Prop :=
  (∀ k ∈ keys, ∃ pre : String, '\x7b' ∉ pre.toList ∧ k = pre ++ Presence.hash_tag id) ∧
    ∃ k ∈ keys, ∃ k' ∈ keys, k ≠ k'

theorem Brackets.sameSlot_iff (h : Brackets id keys) : SameSlot keys ↔ Taggable id := by
  obtain ⟨hkeys, k, hk, k', hk', hne⟩ := h
  rw [ChatNow.sameSlot_iff, taggable_iff]
  refine HashSlot.oneSlot_bracketed_iff (by decide) ?_
    ⟨_, List.mem_map_of_mem hk, _, List.mem_map_of_mem hk', fun heq ↦ hne (String.toList_inj.1 heq)⟩
  intro text htext
  obtain ⟨key, hkey, rfl⟩ := List.mem_map.1 htext
  obtain ⟨pre, hpre, rfl⟩ := hkeys key hkey
  refine ⟨pre.toList, [], hpre, ?_⟩
  rw [Presence.hash_tag, String.toList_append, String.toList_append, String.toList_append]
  rfl

theorem brackets_members (ssid : String) :
    Brackets ssid [members_key ssid, members_version_key ssid, members_sentinel_key ssid] := by
  refine ⟨?_, _, List.mem_cons_self, _, List.mem_cons_of_mem _ List.mem_cons_self, ?_⟩
  · intro k hk
    rw [List.mem_cons, List.mem_cons, List.mem_singleton] at hk
    obtain rfl | rfl | rfl := hk
    · exact ⟨_, by decide, rfl⟩
    · exact ⟨_, by decide, rfl⟩
    · exact ⟨_, by decide, rfl⟩
  · exact fun h ↦ absurd ((String.append_left_inj _).1 h) (by decide)

theorem brackets_route (uid : String) : Brackets uid [online_key uid, device_set_key uid] := by
  refine ⟨?_, _, List.mem_cons_self, _, List.mem_cons_of_mem _ List.mem_cons_self, ?_⟩
  · intro k hk
    rw [List.mem_cons, List.mem_singleton] at hk
    obtain rfl | rfl := hk
    · exact ⟨_, by decide, rfl⟩
    · exact ⟨_, by decide, rfl⟩
  · exact fun h ↦ absurd ((String.append_left_inj _).1 h) (by decide)

/-- `Brackets` does not see the order of the keys. -/
theorem Brackets.perm {keys' : List String} (h : Brackets id keys) (hperm : keys.Perm keys') :
    Brackets id keys' := by
  obtain ⟨hkeys, k, hk, k', hk', hne⟩ := h
  exact ⟨fun k hk ↦ hkeys k (hperm.mem_iff.2 hk), k, hperm.mem_iff.1 hk, k', hperm.mem_iff.1 hk',
    hne⟩

end OneSlot

namespace UnackedPush

variable (uid device_id : String)

theorem key_for_eq : key_for uid device_id =
    "im:unack:" ++ Presence.hash_tag (uid ++ ":" ++ device_id) := by
  simp only [key_for, Presence.hash_tag, String.append_assoc]

theorem idx_key_for_eq : idx_key_for uid device_id =
    "im:unack:idx:" ++ Presence.hash_tag (uid ++ ":" ++ device_id) := by
  rw [show "im:unack:idx:" = "im:unack:" ++ "idx:" from rfl]
  simp only [idx_key_for, Presence.hash_tag, String.append_assoc]
  rw [show "idx:\x7b" = "idx:" ++ "\x7b" from rfl, String.append_assoc]

theorem repair_key_for_eq : repair_key_for uid device_id =
    "im:unack:repair:" ++ Presence.hash_tag (uid ++ ":" ++ device_id) := by
  rw [show "im:unack:repair:" = "im:unack:" ++ "repair:" from rfl]
  simp only [repair_key_for, Presence.hash_tag, String.append_assoc]
  rw [show "repair:\x7b" = "repair:" ++ "\x7b" from rfl, String.append_assoc]

theorem brackets_keys : Brackets (uid ++ ":" ++ device_id) (keys uid device_id) := by
  rw [keys, key_for_eq, idx_key_for_eq, repair_key_for_eq]
  refine ⟨?_, _, List.mem_cons_self, _, List.mem_cons_of_mem _ List.mem_cons_self, ?_⟩
  · intro k hk
    rw [List.mem_cons, List.mem_cons, List.mem_singleton] at hk
    obtain rfl | rfl | rfl := hk
    · exact ⟨_, by decide, rfl⟩
    · exact ⟨_, by decide, rfl⟩
    · exact ⟨_, by decide, rfl⟩
  · exact fun h ↦ absurd ((String.append_left_inj _).1 h) (by decide)

/-- The colon is something before a closing bracket. -/
theorem taggable_ledger :
    Taggable (uid ++ ":" ++ device_id) ↔ uid.toList.head? ≠ some '\x7d' := by
  have hlist : (uid ++ ":" ++ device_id).toList = uid.toList ++ ':' :: device_id.toList := by
    rw [String.toList_append, String.toList_append, List.append_assoc]
    rfl
  rw [Taggable, hlist]
  constructor
  · rintro ⟨-, h⟩ huid
    exact h (by rw [List.head?_append, huid]; rfl)
  · intro h
    refine ⟨fun hempty ↦ ?_, fun hhead ↦ ?_⟩
    · rw [hempty] at hlist
      exact absurd hlist.symm (by simp)
    · cases huid : uid.toList with
      | nil =>
        rw [huid, List.nil_append, List.head?_cons] at hhead
        exact absurd hhead (by decide)
      | cons c l =>
        rw [huid] at hhead h
        exact h hhead

theorem sameSlot_keys : SameSlot (keys uid device_id) ↔ uid.toList.head? ≠ some '\x7d' :=
  (brackets_keys uid device_id).sameSlot_iff.trans (taggable_ledger uid device_id)

end UnackedPush

/-- The text of a bucket, bracketed, stands in both keys of a user. -/
theorem toList_user_info_key (uid : String) : (user_info_key uid).toList =
    "im:user:".toList ++ '\x7b' :: ((bucket_text uid).toList ++ '\x7d' :: ':' :: uid.toList) := by
  simp only [user_info_key, String.toList_append, List.append_assoc]
  rfl

theorem toList_user_info_generation_key (uid : String) : (user_info_generation_key uid).toList =
    "im:user-gen:".toList ++
      '\x7b' :: ((bucket_text uid).toList ++ '\x7d' :: ':' :: uid.toList) := by
  simp only [user_info_generation_key, String.toList_append, List.append_assoc]
  rfl

/-- The keys of users of one bucket. -/
theorem sameSlot_bucket {keys : List String} {b : UInt32}
    (hkeys : ∀ k ∈ keys, ∃ uid, user_info_bucket uid = b ∧
      (k = user_info_key uid ∨ k = user_info_generation_key uid)) : SameSlot keys := by
  cases keys with
  | nil => exact fun hash k hk ↦ absurd hk List.not_mem_nil
  | cons key keys =>
    obtain ⟨uid₀, hbucket₀, -⟩ := hkeys key List.mem_cons_self
    have htext : ∀ uid, user_info_bucket uid = b → bucket_text uid = bucket_text uid₀ := by
      intro uid huid
      rw [bucket_text, bucket_text, huid, hbucket₀]
    have hne : Delimited.before '\x7d' (bucket_text uid₀).toList ≠ [] := by
      rw [Delimited.before_of_notMem (brace_notMem_bucket_text uid₀), Ne,
        String.toList_eq_nil_iff, bucket_text, Nat.toString_eq_repr]
      exact Nat.repr_ne_empty
    rw [sameSlot_iff]
    refine HashSlot.oneSlot_of_bracketed ?_ hne
    intro text hmem
    obtain ⟨k, hk, rfl⟩ := List.mem_map.1 hmem
    obtain ⟨uid, huid, rfl | rfl⟩ := hkeys k hk
    · refine ⟨_, ':' :: uid.toList, ?_, by rw [toList_user_info_key, htext uid huid]⟩
      decide
    · refine ⟨_, ':' :: uid.toList, ?_, by rw [toList_user_info_generation_key, htext uid huid]⟩
      decide

theorem sameSlot_user (uid : String) :
    SameSlot [user_info_key uid, user_info_generation_key uid] := by
  refine sameSlot_bucket (b := user_info_bucket uid) fun k hk ↦ ⟨uid, rfl, ?_⟩
  rwa [List.mem_cons, List.mem_singleton] at hk

/-- A group of a batch is of one bucket. -/
theorem sameSlot_group {order : List UInt32} {values group : List (String × FencedValue)}
    (h : group ∈ bucket_groups Prod.fst order values) : SameSlot (script_keys group) := by
  obtain ⟨b, -, rfl⟩ := List.mem_map.1 (List.mem_of_mem_filter h)
  refine sameSlot_bucket (b := b) fun k hk ↦ ?_
  obtain ⟨e, he, hk⟩ := List.mem_flatMap.1 hk
  refine ⟨e.1, of_decide_eq_true (List.mem_filter.1 he).2, ?_⟩
  rwa [keys_of, List.mem_cons, List.mem_singleton] at hk

/-- **The calls whose keys are in one slot.** -/
theorem ScriptCall.sameSlot_iff (call : ScriptCall) : SameSlot call.keys ↔ call.Taggable := by
  cases call with
  | warm_if_version ssid => exact (brackets_members ssid).sameSlot_iff
  | add_member ssid => exact (brackets_members ssid).sameSlot_iff
  | remove_member ssid => exact (brackets_members ssid).sameSlot_iff
  | invalidate_members ssid =>
    exact ((brackets_members ssid).perm (.cons _ (.swap _ _ _))).sameSlot_iff
  | set_sentinel_if_version ssid =>
    have hperm := List.reverse_perm [members_key ssid, members_version_key ssid,
      members_sentinel_key ssid]
    exact ((brackets_members ssid).perm hperm.symm).sameSlot_iff
  | bind uid => exact (brackets_route uid).sameSlot_iff
  | touch uid => exact (brackets_route uid).sameSlot_iff
  | unbind uid => exact (brackets_route uid).sameSlot_iff
  | push uid device_id => exact UnackedPush.sameSlot_keys uid device_id
  | ack uid device_id => exact UnackedPush.sameSlot_keys uid device_id
  | peek_due uid device_id => exact UnackedPush.sameSlot_keys uid device_id
  | bump_score uid device_id => exact UnackedPush.sameSlot_keys uid device_id
  | set_if_generation uid => exact iff_true_intro (sameSlot_user uid)
  | invalidate_user uid => exact iff_true_intro (sameSlot_user uid)
  | batch_set order values group hgroup => exact iff_true_intro (sameSlot_group hgroup)

/-! ### One user -/

section Inj

variable {pre pre' id id' uid uid' : String}

/-- A bracketed key tells its prefix and its id. -/
theorem bracketed_inj (hpre : '\x7b' ∉ pre.toList) (hpre' : '\x7b' ∉ pre'.toList) :
    pre ++ Presence.hash_tag id = pre' ++ Presence.hash_tag id' ↔ pre = pre' ∧ id = id' := by
  constructor
  · intro h
    have hlist := congrArg String.toList h
    simp only [Presence.hash_tag, String.toList_append, List.append_assoc] at hlist
    obtain ⟨heq, hrest⟩ := (Delimited.append_cons_inj hpre hpre').1 hlist
    exact ⟨String.toList_inj.1 heq, String.toList_inj.1 (List.append_cancel_right hrest)⟩
  · rintro ⟨rfl, rfl⟩
    rfl

/-- A colon behind a user id tells the id and what follows. -/
theorem colon_inj {x x' : String} (huid : IsUuid uid) (huid' : IsUuid uid') :
    uid ++ ":" ++ x = uid' ++ ":" ++ x' ↔ uid = uid' ∧ x = x' := by
  constructor
  · intro h
    have hlist := congrArg String.toList h
    simp only [String.toList_append, List.append_assoc] at hlist
    obtain ⟨heq, hrest⟩ := (Delimited.append_cons_inj (notMem_uuid huid (by decide))
      (notMem_uuid huid' (by decide))).1 hlist
    exact ⟨String.toList_inj.1 heq, String.toList_inj.1 hrest⟩
  · rintro ⟨rfl, rfl⟩
    rfl

/-- Ledgers with a key in common are of one user and one device. -/
theorem UnackedPush.disjoint_keys {device_id device_id' : String} (huid : IsUuid uid)
    (huid' : IsUuid uid') (hne : (uid, device_id) ≠ (uid', device_id')) :
    (keys uid device_id).Disjoint (keys uid' device_id') := by
  have hmem : ∀ {uid device_id key : String}, key ∈ keys uid device_id → ∃ pre : String,
      '\x7b' ∉ pre.toList ∧ key = pre ++ Presence.hash_tag (uid ++ ":" ++ device_id) := by
    intro uid device_id key hkey
    exact (brackets_keys uid device_id).1 key hkey
  intro key hkey hkey'
  obtain ⟨pre, hpre, rfl⟩ := hmem hkey
  obtain ⟨pre', hpre', heq⟩ := hmem hkey'
  obtain ⟨rfl, rfl⟩ := (colon_inj huid huid').1 ((bracketed_inj hpre hpre').1 heq).2
  exact hne rfl

theorem idempotency_key_for_inj {client_msg_id client_msg_id' : String} (huid : IsUuid uid)
    (huid' : IsUuid uid') :
    idempotency_key_for uid client_msg_id = idempotency_key_for uid' client_msg_id' ↔
      uid = uid' ∧ client_msg_id = client_msg_id' := by
  rw [idempotency_key_for, idempotency_key_for, String.append_assoc, String.append_assoc,
    String.append_assoc, String.append_assoc, String.append_right_inj, ← String.append_assoc,
    ← String.append_assoc, colon_inj huid huid']

end Inj

/-! ### The law -/

/-- **Slots and owners of the keys.** The keys of a call are in one slot by their tags exactly when
the id of the conversation or of the route is not empty and does not begin with a closing bracket;
for a ledger, when the user id does not begin with one. No two ledgers of users share a key, and no
two messages of users an idempotency key. -/
theorem script_keys_slots (call : ScriptCall) (uid uid' : String) :
    ((∀ hash, ∀ k ∈ call.keys, ∀ k' ∈ call.keys, key_slot hash k = key_slot hash k') ↔
      call.Taggable) ∧
    (IsUuid uid → IsUuid uid' →
      (∀ device_id device_id' : String, (uid, device_id) ≠ (uid', device_id') →
        (UnackedPush.keys uid device_id).Disjoint (UnackedPush.keys uid' device_id')) ∧
      ∀ client_msg_id client_msg_id' : String, (uid, client_msg_id) ≠ (uid', client_msg_id') →
        idempotency_key_for uid client_msg_id ≠ idempotency_key_for uid' client_msg_id') := by
  refine ⟨ScriptCall.sameSlot_iff call, fun huid huid' ↦
    ⟨fun _ _ ↦ UnackedPush.disjoint_keys huid huid', ?_⟩⟩
  intro client_msg_id client_msg_id' hne heq
  obtain ⟨rfl, rfl⟩ := (idempotency_key_for_inj huid huid').1 heq
  exact hne rfl

/-- At one user with two devices. -/
theorem script_keys_slots_devices :
    (UnackedPush.keys (utils.uuid (fun _ ↦ 7) 1) "phone\x7d").Disjoint
      (UnackedPush.keys (utils.uuid (fun _ ↦ 7) 1) "\x7b:") ∧
    idempotency_key_for (utils.uuid (fun _ ↦ 7) 1) "m:1" ≠
      idempotency_key_for (utils.uuid (fun _ ↦ 7) 1) "m" := by
  have huid : IsUuid (utils.uuid (fun _ ↦ 7) 1) := ⟨_, _, rfl⟩
  have h := (script_keys_slots (.set_sentinel_if_version "c") _ _).2 huid huid
  exact ⟨h.1 _ _ fun heq ↦ absurd (congrArg Prod.snd heq) (by decide),
    h.2 _ _ fun heq ↦ absurd (congrArg Prod.snd heq) (by decide)⟩

/-- The sentinel of the conversation without an id, by the hash of Redis. -/
theorem untagged_sentinel :
    ¬ ∀ call : ScriptCall, ∀ k ∈ call.keys, ∀ k' ∈ call.keys,
      key_slot crc16 k = key_slot crc16 k' := by
  intro h
  have heq := h (.set_sentinel_if_version "") (members_sentinel_key "") List.mem_cons_self
    (members_version_key "") (List.mem_cons_of_mem _ List.mem_cons_self)
  exact absurd heq (by decide +kernel)

end ChatNow
