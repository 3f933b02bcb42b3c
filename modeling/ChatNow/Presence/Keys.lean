import Mathlib.Data.List.Infix

/-!
# Keys of presence

The key builders of `common/utils/redis_keys.hpp` that the presence service and the push service
agree through, and what both get from Redis when they look for keys by a pattern.

* `presence_sub_key`, `presence_device_key`, `presence_device_scan_pattern`: the builders.
* `Glob`: the pattern matching of Redis, with the one rule that is used of it.
* `Scanned`: what the batches of a whole `SCAN` hold while no key comes or goes.
-/

namespace ChatNow.Presence

def kPresenceSub : String := "im:presence:sub:"

def hash_tag (id : String) : String := "\x7b" ++ id ++ "\x7d"

def presence_sub_key (uid : String) : String := kPresenceSub ++ hash_tag uid

def presence_device_key (uid device_id : String) : String :=
  "im:presence:device:" ++ hash_tag uid ++ ":" ++ device_id

def presence_device_scan_pattern (uid : String) : String :=
  "im:presence:device:" ++ hash_tag uid ++ ":*"

theorem length_hash_tag (id : String) : (hash_tag id).length = id.length + 2 := by
  rw [hash_tag, String.length_append, String.length_append, Nat.add_comm "\x7b".length]
  rfl

/-! ### Looking for keys -/

/-- The characters that mean more than themselves in a pattern. -/
def special (c : Char) : Bool := c = '*' || c = '?' || c = '[' || c = ']' || c = '\\'

/-- The pattern matching of Redis. -/
structure Glob where
  accepts : String → String → Bool
  /-- A text that means itself, with a star after it, matches what begins with the text. -/
  accepts_star (text : String) : text.toList.any special = false →
    ∀ key, accepts (text ++ "*") key = text.toList.isPrefixOf key.toList

/-- A matching that knows the star at the end and nothing else. -/
def Glob.trailing : Glob where
  accepts pattern key :=
    if pattern.toList.getLast? = some '*' then pattern.toList.dropLast.isPrefixOf key.toList
    else pattern = key
  accepts_star _ _ key := by
    rw [String.toList_append, show "*".toList = ['*'] from rfl, List.getLast?_concat, if_pos rfl,
      List.dropLast_concat]

/-- The batches of a whole `SCAN`, while no key comes or goes: every key that matches, in any order
and any number of times. -/
def Scanned (exist : String → Prop) (G : Glob) (pattern : String) (batches : List (List String)) :
    Prop :=
  ∀ key, key ∈ batches.flatten ↔ exist key ∧ G.accepts pattern key = true

end ChatNow.Presence
