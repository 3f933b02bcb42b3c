import ChatNow.Common.OnlineRoute
import ChatNow.Lib.Blocks
import ChatNow.Lib.Exec
import ChatNow.UserInfo.Keys
import Mathlib.Logic.Function.Basic

/-!
# Filling the user-info cache in batches

`UserInfoCache::batch_set` of `common/dao/data_redis.hpp` against `set_if_generation`, down to the
keys and arguments of their scripts. The entries of a batch are regrouped by bucket, and the script
for a bucket gets all of them in two flat arrays: two keys and three arguments for each entry. It
goes through them twice, once to check and once to write.

What a script makes of a text where it needs a number is Lua's business (`Lua`). All scripts of a
batch are taken to run at one time, at which the keys that Redis knows are there; the time to live
of a key is part of what it holds. It is drawn at random, for each entry.

## Main results

* `batch_set_eq_single_sets`: a batch does what the single calls do.
* `eval_batch_set_groups_keeps`: a bucket with an entry that cannot be written is left alone.
-/

namespace ChatNow

/-! ### Redis -/

/-- What a key holds, of the types that the scripts tell apart. -/
inductive RedisData
  | string (text : String)
  | other
  deriving DecidableEq

/-- A key that there is. -/
structure RedisEntry where
  data : RedisData
  /-- The seconds that it has left, if it is to expire. -/
  ttl : Option ℕ := none
  deriving DecidableEq

/-- The keys. -/
abbrev RedisStore := String → Option RedisEntry

namespace RedisStore

variable (s : RedisStore)

/-- What the keys hold, without their times. -/
def contents (key : String) : Option RedisData := (s key).map (·.data)

/-- `GET`. -/
def get (key : String) : Except String (Option String) :=
  match s.contents key with
  | none => .ok none
  | some (.string text) => .ok (some text)
  | some .other => .error "WRONGTYPE"

/-- The number in an argument of a command. -/
def integer_arg (text : String) : Option ℕ :=
  if text ≠ "" ∧ text.toList.all Char.isDigit then some (Nat.ofDigitChars 10 text.toList 0)
  else none

/-- `SET` with `EX`. -/
def set_ex (key text ex : String) : Except String RedisStore :=
  match integer_arg ex with
  | none => .error "ERR value is not an integer or out of range"
  | some 0 => .error "ERR invalid expire time in set"
  | some ttl => .ok (Function.update s key (some ⟨.string text, some ttl⟩))

/-- `EXPIRE`. -/
def expire (key : String) (ttl : ℕ) : RedisStore :=
  Function.update s key ((s key).map fun entry ↦ { entry with ttl := some ttl })

/-- The key is not there or holds a string. -/
def NoneOrString (key : String) : Prop := s.contents key ≠ some .other

instance (key : String) : Decidable (s.NoneOrString key) := inferInstanceAs (Decidable (_ ≠ _))

end RedisStore

/-! ### Lua -/

/-- What the scripts use of numbers. -/
structure Lua where
  Num : Type
  /-- Nothing stands for `nil`. -/
  tonumber : String → Option Num
  eq : Num → Num → Bool
  /-- `x < 0`. -/
  negative : Num → Bool
  /-- `x <= 0`. -/
  nonpositive : Num → Bool
  /-- `x == math.floor(x)`. -/
  whole : Num → Bool

namespace Lua

variable (lua : Lua)

/-- `==`, where `nil` may stand on either side. -/
def same : Option lua.Num → Option lua.Num → Bool
  | none, none => true
  | some a, some b => lua.eq a b
  | _, _ => false

/-- The text is a number that is whole and not below zero. -/
def natural (text : String) : Bool :=
  (lua.tonumber text).any fun x ↦ !lua.negative x && lua.whole x

/-- The text is a number that is whole and above zero. -/
def positive (text : String) : Bool :=
  (lua.tonumber text).any fun x ↦ !lua.nonpositive x && lua.whole x

/-- `tonumber` reads the texts of natural numbers. -/
structure ReadsDecimals : Prop where
  natural (n : ℕ) : lua.natural (toString n) = true
  positive (n : ℕ) : 0 < n → lua.positive (toString n) = true

end Lua

/-! ### The scripts -/

/-- What a script looks up for one entry. -/
structure ScriptEntry where
  value_key : String
  generation_key : String
  expected : String
  serialized : String
  ttl : String
  deriving DecidableEq

/-- The entry whose keys begin at `KEYS[i]`. Lua counts from one. -/
def entry_at (KEYS ARGV : List String) (i : ℕ) : Option ScriptEntry := do
  let arg := (i - 1) / 2 * 3 + 1
  return {
    value_key := ← KEYS[i - 1]?
    generation_key := ← KEYS[i]?
    expected := ← ARGV[arg - 1]?
    serialized := ← ARGV[arg]?
    ttl := ← ARGV[arg + 1]? }

section Scripts

variable (lua : Lua)

/-- The lines that write an entry. The answer says whether it has been written. -/
def write_entry (e : ScriptEntry) (s : RedisStore) : Except String (Bool × RedisStore) := do
  let generation := lua.tonumber ((← s.get e.generation_key).getD "0")
  if lua.same generation (lua.tonumber e.expected) then
    let s ← s.set_ex e.value_key e.serialized e.ttl
    return (true, s.expire e.generation_key 604800)
  else return (false, s)

/-- `kSetIfGenerationLua`. -/
def kSetIfGenerationLua (KEYS ARGV : List String) (s : RedisStore) :
    Except String ℕ × RedisStore :=
  match entry_at KEYS ARGV 1 with
  | none => (.error "ERR wrong arguments", s)
  | some e =>
    match write_entry lua e s with
    | .error what => (.error what, s)
    | .ok (written, s) => (.ok written.toNat, s)

/-- The generation that a key holds is a number. -/
def numeric (s : RedisStore) (generation_key : String) : Bool :=
  match s.contents generation_key with
  | none => true
  | some (.string raw) => (lua.tonumber raw).isSome
  | some .other => false

/-- What the first loop of `kBatchSetIfGenerationLua` asks of an entry. -/
def valid (e : ScriptEntry) (s : RedisStore) : Bool :=
  s.NoneOrString e.value_key && numeric lua s e.generation_key && lua.natural e.expected &&
    lua.positive e.ttl

/-- The second loop of `kBatchSetIfGenerationLua`. What has been written stays when a later entry
fails. -/
def write_loop (KEYS ARGV : List String) : List ℕ → ℕ → RedisStore → Except String ℕ × RedisStore
  | [], written, s => (.ok written, s)
  | i :: is, written, s =>
    match entry_at KEYS ARGV i with
    | none => (.error "ERR wrong arguments", s)
    | some e =>
      match write_entry lua e s with
      | .error what => (.error what, s)
      | .ok (done, s) => write_loop KEYS ARGV is (written + done.toNat) s

/-- `kBatchSetIfGenerationLua`. -/
def kBatchSetIfGenerationLua (KEYS ARGV : List String) (s : RedisStore) :
    Except String ℕ × RedisStore :=
  if KEYS.length % 2 ≠ 0 ∨ ARGV.length ≠ KEYS.length / 2 * 3 then
    (.error "invalid batch cache arguments", s)
  else
    let is := List.range' 1 (KEYS.length / 2) 2
    if is.all fun i ↦ (entry_at KEYS ARGV i).any fun e ↦ valid lua e s then
      write_loop lua KEYS ARGV is 0 s
    else (.error "invalid batch cache entry", s)

end Scripts

/-! ### The calls -/

def kUserInfoTtl : ℤ := 3600

/-- The time to live of a copy, with the jitter that is drawn for it. -/
def FencedValue.ttl (value : FencedValue) (jitter : ℤ) : ℤ :=
  if value.serialized = "" then randomized_ttl 5 jitter else randomized_ttl kUserInfoTtl jitter

/-- The keys of an entry. -/
def keys_of (e : String × FencedValue) : List String :=
  [user_info_key e.1, user_info_generation_key e.1]

/-- The arguments of an entry. -/
def args_of (jitter : String → ℤ) (e : String × FencedValue) : List String :=
  [toString e.2.observed_generation, e.2.serialized, toString (e.2.ttl (jitter e.1))]

/-- The keys that are handed to a script. -/
def script_keys (entries : List (String × FencedValue)) : List String := entries.flatMap keys_of

/-- The arguments that are handed to a script. -/
def script_args (jitter : String → ℤ) (entries : List (String × FencedValue)) : List String :=
  entries.flatMap (args_of jitter)

/-- What the client makes of the reply to a script. -/
def script_reply : Except String ℕ × RedisStore → Reply ℕ × RedisStore
  | (.ok n, s) => (.ok n, s)
  | (.error _, s) => (.thrown, s)

/-- The two scripts, on keys that are in one Redis. -/
def redisScripts (lua : Lua) (jitter : String → ℤ) :
    (o : UserOp) → RedisStore → Option (o.Res × RedisStore)
  | .evalSetIfGeneration uid value, s =>
    some (script_reply (kSetIfGenerationLua lua (script_keys [(uid, value)])
      (script_args jitter [(uid, value)]) s))
  | .evalBatchSetIfGeneration entries, s =>
    some (script_reply (kBatchSetIfGenerationLua lua (script_keys entries)
      (script_args jitter entries) s))
  | _, _ => none

namespace UserInfoCache

/-- `set_if_generation` for each entry; the result is the number of those that were committed. -/
def set_each : List (String × FencedValue) → ℕ → UserM ℕ
  | [], committed => return committed
  | (uid, value) :: entries, committed => do
    let result ← set_if_generation uid value.serialized value.observed_generation
    set_each entries (if result = .Committed then committed + 1 else committed)

end UserInfoCache

/-! ### The arrays -/

/-- What the script finds for an entry. -/
def entry_of (jitter : String → ℤ) (e : String × FencedValue) : ScriptEntry where
  value_key := user_info_key e.1
  generation_key := user_info_generation_key e.1
  expected := toString e.2.observed_generation
  serialized := e.2.serialized
  ttl := toString (e.2.ttl (jitter e.1))

variable {lua : Lua} {jitter : String → ℤ} {entries : List (String × FencedValue)}
  {e : String × FencedValue} {s s' : RedisStore}

theorem length_script_keys : (script_keys entries).length = entries.length * 2 :=
  List.length_flatMap_block (f := keys_of) (fun _ ↦ rfl) entries

theorem length_script_args : (script_args jitter entries).length = entries.length * 3 :=
  List.length_flatMap_block (f := args_of jitter) (fun _ ↦ rfl) entries

/-- The index arithmetic of the scripts. -/
theorem entry_at_script {k : ℕ} :
    entry_at (script_keys entries) (script_args jitter entries) (2 * k + 1) =
      entries[k]?.map (entry_of jitter) := by
  have hkeys : ∀ r < 2, (script_keys entries)[k * 2 + r]? =
      entries[k]?.bind fun e ↦ (keys_of e)[r]? := fun r hr ↦
    List.getElem?_flatMap_block (f := keys_of) (fun _ ↦ rfl) entries hr
  have hargs : ∀ r < 3, (script_args jitter entries)[k * 3 + r]? =
      entries[k]?.bind fun e ↦ (args_of jitter e)[r]? := fun r hr ↦
    List.getElem?_flatMap_block (f := args_of jitter) (fun _ ↦ rfl) entries hr
  have harg : (2 * k + 1 - 1) / 2 * 3 + 1 = k * 3 + 1 := by omega
  unfold entry_at
  dsimp only
  rw [harg, show 2 * k + 1 - 1 = k * 2 + 0 by omega, show 2 * k + 1 = k * 2 + 1 by omega,
    Nat.add_sub_cancel, hkeys 0 (by decide), hkeys 1 (by decide), hargs 1 (by decide),
    hargs 2 (by decide), ← Nat.add_zero (k * 3), hargs 0 (by decide)]
  cases entries[k]? with
  | none => rfl
  | some e => rfl

/-! ### One entry -/

/-- The text of the generation of a user. -/
def generation_text (uid : String) (s : RedisStore) : String :=
  match s.contents (user_info_generation_key uid) with
  | some (.string text) => text
  | _ => "0"

/-- The generation of the entry is the one that the key holds. -/
def matches_generation (lua : Lua) (e : String × FencedValue) (s : RedisStore) : Bool :=
  lua.same (lua.tonumber (generation_text e.1 s))
    (lua.tonumber (toString e.2.observed_generation))

/-- What an entry is to leave. -/
def fill (lua : Lua) (jitter : String → ℤ) (e : String × FencedValue) (s : RedisStore) :
    RedisStore :=
  if matches_generation lua e s then
    RedisStore.expire (Function.update s (user_info_key e.1)
      (some ⟨.string e.2.serialized, some (e.2.ttl (jitter e.1)).toNat⟩))
        (user_info_generation_key e.1) 604800
  else s

/-- A step of filling, with the number of the entries that have been written. -/
def fill_step (lua : Lua) (jitter : String → ℤ) (x : ℕ × RedisStore) (e : String × FencedValue) :
    ℕ × RedisStore :=
  (x.1 + (matches_generation lua e x.2).toNat, fill lua jitter e x.2)

namespace RedisStore

theorem integer_arg_toString (n : ℕ) : integer_arg (toString n) = some n := by
  have hdigits : ∀ c ∈ Nat.toDigits 10 n, c.isDigit = true := fun c hc ↦
    Nat.isDigit_of_mem_toDigits (by decide) (by decide) hc
  have hvalue : Nat.ofDigitChars 10 (Nat.toDigits 10 n) 0 = n := Nat.ofDigitChars_ten_toDigits
  rw [integer_arg, Nat.toString_eq_repr, Nat.toList_repr, hvalue,
    if_pos ⟨Nat.repr_ne_empty, List.all_eq_true.2 hdigits⟩]

theorem set_ex_toString {n : ℕ} (hn : 0 < n) (key text : String) :
    s.set_ex key text (toString n) = .ok (Function.update s key (some ⟨.string text, some n⟩)) := by
  obtain ⟨n, rfl⟩ := Nat.exists_eq_succ_of_ne_zero hn.ne'
  rw [set_ex, integer_arg_toString]
  rfl

theorem contents_expire (key key' : String) (ttl : ℕ) :
    (s.expire key ttl).contents key' = s.contents key' := by
  unfold expire contents
  by_cases h : key' = key
  · rw [h, Function.update_self, Option.map_map]
    rfl
  · rw [Function.update_of_ne h]

theorem contents_update_of_ne {key key' : String} (h : key' ≠ key) (entry : Option RedisEntry) :
    contents (Function.update s key entry) key' = s.contents key' := by
  rw [contents, contents, Function.update_of_ne h]

theorem contents_update_self {key : String} {entry : RedisEntry} :
    contents (Function.update s key (some entry)) key = some entry.data := by
  rw [contents, Function.update_self, Option.map_some]

end RedisStore

theorem ttl_pos (value : FencedValue) (jitter : ℤ) : 0 < value.ttl jitter := by
  unfold FencedValue.ttl
  split
  · exact randomized_ttl_pos _ _
  · exact randomized_ttl_pos _ _

/-- The text of the time to live is that of a positive number. -/
theorem toString_ttl (value : FencedValue) (jitter : ℤ) :
    toString (value.ttl jitter) = toString (value.ttl jitter).toNat := by
  obtain ⟨n, hn⟩ := Int.eq_ofNat_of_zero_le (ttl_pos value jitter).le
  rw [hn]
  rfl

/-- The lines of the scripts do what they are to do. -/
theorem write_entry_eq (h : s.NoneOrString (user_info_generation_key e.1)) :
    write_entry lua (entry_of jitter e) s =
      .ok (matches_generation lua e s, fill lua jitter e s) := by
  have hpos : 0 < (e.2.ttl (jitter e.1)).toNat := by
    have := ttl_pos e.2 (jitter e.1)
    omega
  have hset := RedisStore.set_ex_toString (s := s) hpos (user_info_key e.1) e.2.serialized
  rw [← toString_ttl] at hset
  have hget : ∃ raw : Option String,
      s.get (user_info_generation_key e.1) = .ok raw ∧ raw.getD "0" = generation_text e.1 s := by
    unfold RedisStore.get generation_text
    cases hc : s.contents (user_info_generation_key e.1) with
    | none => exact ⟨none, rfl, rfl⟩
    | some data =>
      cases data with
      | string text => exact ⟨some text, rfl, rfl⟩
      | other => exact absurd hc h
  obtain ⟨raw, hget, hraw⟩ := hget
  unfold write_entry fill
  dsimp only [entry_of]
  rw [hget, hset]
  show (if lua.same (lua.tonumber (raw.getD "0")) _ = true then _ else _) = _
  rw [hraw]
  show (if matches_generation lua e s = true then _ else _) = _
  cases matches_generation lua e s
  · rfl
  · rfl

/-! ### What an entry leaves alone -/

theorem fill_of_ne {key : String} (hv : key ≠ user_info_key e.1)
    (hg : key ≠ user_info_generation_key e.1) : fill lua jitter e s key = s key := by
  unfold fill
  split
  · rw [RedisStore.expire, Function.update_of_ne hg, Function.update_of_ne hv]
  · rfl

/-- No generation changes. -/
theorem contents_fill_generation (uid : String) :
    (fill lua jitter e s).contents (user_info_generation_key uid) =
      s.contents (user_info_generation_key uid) := by
  unfold fill
  split
  · rw [RedisStore.contents_expire,
      RedisStore.contents_update_of_ne (user_info_key_ne_generation_key _ _).symm]
  · rfl

/-- What is written is a string. -/
theorem noneOrString_fill {uid : String} (h : s.NoneOrString (user_info_key uid)) :
    (fill lua jitter e s).NoneOrString (user_info_key uid) := by
  unfold fill
  split
  · rw [RedisStore.NoneOrString, RedisStore.contents_expire]
    by_cases huid : uid = e.1
    · rw [huid, RedisStore.contents_update_self]
      exact nofun
    · rw [RedisStore.contents_update_of_ne (mt user_info_key_inj.1 huid)]
      exact h
  · exact h

theorem matches_generation_fill (e' : String × FencedValue) :
    matches_generation lua e' (fill lua jitter e s) = matches_generation lua e' s := by
  rw [matches_generation, matches_generation, generation_text, contents_fill_generation]
  rfl

theorem fill_of_not (h : ¬ matches_generation lua e s = true) : fill lua jitter e s = s := if_neg h

/-- Filling, as the two assignments that it makes. -/
theorem fill_eq (h : matches_generation lua e s = true) :
    fill lua jitter e s = Function.update (Function.update s (user_info_key e.1)
      (some ⟨.string e.2.serialized, some (e.2.ttl (jitter e.1)).toNat⟩))
        (user_info_generation_key e.1)
        ((s (user_info_generation_key e.1)).map fun entry ↦ { entry with ttl := some 604800 }) := by
  rw [fill, if_pos h, RedisStore.expire,
    Function.update_of_ne (user_info_key_ne_generation_key _ _).symm]

/-- Entries of different users may change places. -/
theorem fill_comm {x y : String × FencedValue} (hne : x.1 ≠ y.1) :
    fill lua jitter y (fill lua jitter x s) = fill lua jitter x (fill lua jitter y s) := by
  by_cases hx : matches_generation lua x s = true
  · by_cases hy : matches_generation lua y s = true
    · have hx' : matches_generation lua x (fill lua jitter y s) = true := by
        rw [matches_generation_fill, hx]
      have hy' : matches_generation lua y (fill lua jitter x s) = true := by
        rw [matches_generation_fill, hy]
      have hvg (u v : String) : user_info_key u ≠ user_info_generation_key v :=
        user_info_key_ne_generation_key u v
      have hvv : user_info_key x.1 ≠ user_info_key y.1 := mt user_info_key_inj.1 hne
      have hgg : user_info_generation_key x.1 ≠ user_info_generation_key y.1 :=
        mt user_info_generation_key_inj.1 hne
      rw [fill_eq hy', fill_of_ne (hvg _ _).symm hgg.symm, fill_eq hx',
        fill_of_ne (hvg _ _).symm hgg, fill_eq hx, fill_eq hy]
      rw [Function.update_comm (hvg _ _).symm, Function.update_comm hvv, Function.update_comm hgg,
        Function.update_comm (hvg x.1 y.1)]
    · have hy' : ¬ matches_generation lua y (fill lua jitter x s) = true := by
        rw [matches_generation_fill]
        exact hy
      rw [fill_of_not hy', fill_of_not hy]
  · have hx' : ¬ matches_generation lua x (fill lua jitter y s) = true := by
      rw [matches_generation_fill]
      exact hx
    rw [fill_of_not hx', fill_of_not hx]

/-! ### Many entries -/

/-- The keys hold strings, and the generations are numbers. -/
def Fillable (lua : Lua) (entries : List (String × FencedValue)) (s : RedisStore) : Prop :=
  ∀ e ∈ entries, s.NoneOrString (user_info_key e.1) ∧
    numeric lua s (user_info_generation_key e.1) = true

/-- What filling all entries leaves, and how many have been written. -/
def fill_all (lua : Lua) (jitter : String → ℤ) (entries : List (String × FencedValue))
    (x : ℕ × RedisStore) : ℕ × RedisStore := entries.foldl (fill_step lua jitter) x

theorem noneOrString_of_numeric {key : String} (h : numeric lua s key = true) :
    s.NoneOrString key := by
  intro hc
  rw [numeric, hc] at h
  cases h

theorem Fillable.fill (h : Fillable lua entries s) :
    Fillable lua entries (fill lua jitter e s) := by
  intro e' he'
  obtain ⟨hv, hg⟩ := h e' he'
  refine ⟨noneOrString_fill hv, ?_⟩
  rw [numeric, contents_fill_generation]
  exact hg

theorem Fillable.mono {l : List (String × FencedValue)} (h : Fillable lua entries s)
    (hl : l ⊆ entries) : Fillable lua l s := fun e he ↦ h e (hl he)

theorem fill_all_sound {n : ℕ} {l : List (String × FencedValue)} (h : Fillable lua entries s) :
    Fillable lua entries (fill_all lua jitter l (n, s)).2 := by
  induction l generalizing n s with
  | nil => exact h
  | cons e l ih => exact ih h.fill

theorem fill_all_append {l : List (String × FencedValue)} {x : ℕ × RedisStore} :
    fill_all lua jitter (entries ++ l) x = fill_all lua jitter l (fill_all lua jitter entries x) :=
  List.foldl_append

theorem fill_all_count (n : ℕ) :
    fill_all lua jitter entries (n, s) =
      (n + (fill_all lua jitter entries (0, s)).1, (fill_all lua jitter entries (0, s)).2) := by
  induction entries generalizing n s with
  | nil => rfl
  | cons e l ih =>
    show fill_all lua jitter l (_, _) = (n + (fill_all lua jitter l (_, _)).1,
      (fill_all lua jitter l (_, _)).2)
    rw [ih, ih (0 + _)]
    dsimp only
    rw [Nat.zero_add, Nat.add_assoc]

/-- **The order does not matter**, if every user comes once. -/
theorem fill_all_perm {l : List (String × FencedValue)} (hperm : entries.Perm l)
    (hnodup : (entries.map Prod.fst).Nodup) (x : ℕ × RedisStore) :
    fill_all lua jitter entries x = fill_all lua jitter l x := by
  refine hperm.foldl_eq' (fun e he e' he' x ↦ ?_) x
  by_cases heq : e = e'
  · rw [heq]
  · have hne : e.1 ≠ e'.1 := fun h ↦ heq (List.inj_on_of_nodup_map hnodup he he' h)
    unfold fill_step
    dsimp only
    rw [matches_generation_fill, matches_generation_fill, fill_comm hne, Nat.add_right_comm]

/-- Filling depends on the draws in the times to live only. -/
theorem contents_fill_all {jitter' : String → ℤ} {n : ℕ} (h : s.contents = s'.contents) :
    (fill_all lua jitter entries (n, s)).1 = (fill_all lua jitter' entries (n, s')).1 ∧
      (fill_all lua jitter entries (n, s)).2.contents =
        (fill_all lua jitter' entries (n, s')).2.contents := by
  induction entries generalizing n s s' with
  | nil => exact ⟨rfl, h⟩
  | cons e l ih =>
    have hm : matches_generation lua e s = matches_generation lua e s' := by
      rw [matches_generation, matches_generation, generation_text, generation_text, h]
    have hfill : (fill lua jitter e s).contents = (fill lua jitter' e s').contents := by
      unfold fill
      rw [hm]
      split
      · funext key
        rw [RedisStore.contents_expire, RedisStore.contents_expire]
        by_cases hkey : key = user_info_key e.1
        · rw [hkey, RedisStore.contents_update_self, RedisStore.contents_update_self]
        · rw [RedisStore.contents_update_of_ne hkey, RedisStore.contents_update_of_ne hkey, h]
      · exact h
    show (fill_all lua jitter l (n + (matches_generation lua e s).toNat, fill lua jitter e s)).1 =
        (fill_all lua jitter' l
          (n + (matches_generation lua e s').toNat, fill lua jitter' e s')).1 ∧
      (fill_all lua jitter l
          (n + (matches_generation lua e s).toNat, fill lua jitter e s)).2.contents =
        (fill_all lua jitter' l
          (n + (matches_generation lua e s').toNat, fill lua jitter' e s')).2.contents
    rw [hm]
    exact ih hfill

/-! ### The single calls -/

theorem kSetIfGenerationLua_eq (h : s.NoneOrString (user_info_generation_key e.1)) :
    kSetIfGenerationLua lua (script_keys [e]) (script_args jitter [e]) s =
      (.ok (matches_generation lua e s).toNat, fill lua jitter e s) := by
  have hentry : entry_at (script_keys [e]) (script_args jitter [e]) (2 * 0 + 1) =
      some (entry_of jitter e) := entry_at_script
  rw [kSetIfGenerationLua, hentry]
  dsimp only
  rw [write_entry_eq h]

theorem eval_set_each {n : ℕ} (h : Fillable lua entries s) :
    (UserInfoCache.set_each entries n).eval (redisScripts lua jitter) s =
      some (fill_all lua jitter entries (n, s)) := by
  induction entries generalizing n s with
  | nil => rfl
  | cons e l ih =>
    have hgeneration := noneOrString_of_numeric (h e List.mem_cons_self).2
    have hexec : redisScripts lua jitter (.evalSetIfGeneration e.1 e.2) s =
        some (.ok (matches_generation lua e s).toNat, fill lua jitter e s) := by
      rw [redisScripts, kSetIfGenerationLua_eq hgeneration]
      rfl
    refine (Prog.eval_call hexec).trans ?_
    refine (ih (h.fill.mono (List.subset_cons_self e l))).trans ?_
    show some (fill_all lua jitter l (_, _)) = some (fill_all lua jitter l (_, _))
    cases hm : matches_generation lua e s
    · rfl
    · rfl

/-! ### The script for a bucket -/

/-- The second loop, from the `k`-th entry on. -/
theorem write_loop_eq {k n : ℕ} {l : List (String × FencedValue)} (hl : entries.drop k = l)
    (h : Fillable lua l s) :
    write_loop lua (script_keys entries) (script_args jitter entries)
        (List.range' (2 * k + 1) l.length 2) n s =
      (.ok (fill_all lua jitter l (n, s)).1, (fill_all lua jitter l (n, s)).2) := by
  induction l generalizing k n s with
  | nil => rfl
  | cons e l ih =>
    have hentry : entry_at (script_keys entries) (script_args jitter entries) (2 * k + 1) =
        some (entry_of jitter e) := by
      rw [entry_at_script, ← List.head?_drop, hl]
      rfl
    have hdrop : entries.drop (k + 1) = l := by
      rw [← List.tail_drop, hl, List.tail_cons]
    rw [List.length_cons, List.range'_succ, write_loop, hentry]
    dsimp only
    rw [write_entry_eq (noneOrString_of_numeric (h e List.mem_cons_self).2)]
    exact ih hdrop (h.fill.mono (List.subset_cons_self e l))

theorem valid_entry_of (hlua : lua.ReadsDecimals) :
    valid lua (entry_of jitter e) s = true ↔ s.NoneOrString (user_info_key e.1) ∧
      numeric lua s (user_info_generation_key e.1) = true := by
  have hpos : 0 < (e.2.ttl (jitter e.1)).toNat := by
    have := ttl_pos e.2 (jitter e.1)
    omega
  have hexpected := hlua.natural e.2.observed_generation
  have httl := hlua.positive _ hpos
  rw [← toString_ttl] at httl
  simp only [valid, entry_of, Bool.and_eq_true, hexpected, httl, and_true]
  exact and_congr_left fun _ ↦ decide_eq_true_iff

/-- The first loop lets all entries through, or there is one that cannot be written. -/
theorem all_valid_iff (hlua : lua.ReadsDecimals) :
    ((List.range' 1 entries.length 2).all fun i ↦
      (entry_at (script_keys entries) (script_args jitter entries) i).any fun e ↦
        valid lua e s) = true ↔ Fillable lua entries s := by
  rw [List.all_eq_true]
  constructor
  · intro h e he
    obtain ⟨k, hk, rfl⟩ := List.getElem_of_mem he
    have hentry := h (2 * k + 1) (List.mem_range'.2 ⟨k, hk, by omega⟩)
    rw [entry_at_script, List.getElem?_eq_getElem hk] at hentry
    exact (valid_entry_of hlua).1 hentry
  · intro h i hi
    obtain ⟨k, hk, rfl⟩ := List.mem_range'.1 hi
    rw [Nat.add_comm 1, entry_at_script, List.getElem?_eq_getElem hk]
    exact (valid_entry_of hlua).2 (h _ (List.getElem_mem hk))

/-- **The script for a bucket** fills all entries, or none. -/
theorem kBatchSetIfGenerationLua_eq (hlua : lua.ReadsDecimals) (jitter : String → ℤ)
    (entries : List (String × FencedValue)) (s : RedisStore) :
    (Fillable lua entries s ∧
      kBatchSetIfGenerationLua lua (script_keys entries) (script_args jitter entries) s =
        (.ok (fill_all lua jitter entries (0, s)).1, (fill_all lua jitter entries (0, s)).2)) ∨
    (¬ Fillable lua entries s ∧
      kBatchSetIfGenerationLua lua (script_keys entries) (script_args jitter entries) s =
        (.error "invalid batch cache entry", s)) := by
  have hlength : ¬ ((script_keys entries).length % 2 ≠ 0 ∨
      (script_args jitter entries).length ≠ (script_keys entries).length / 2 * 3) := by
    rw [length_script_keys, length_script_args]
    omega
  have hcount : (script_keys entries).length / 2 = entries.length := by
    rw [length_script_keys]
    omega
  rw [kBatchSetIfGenerationLua, if_neg hlength, hcount]
  dsimp only
  by_cases h : Fillable lua entries s
  · refine .inl ⟨h, ?_⟩
    rw [if_pos ((all_valid_iff hlua).2 h)]
    exact write_loop_eq (k := 0) List.drop_zero h
  · exact .inr ⟨h, if_neg fun hall ↦ h ((all_valid_iff hlua).1 hall)⟩

/-! ### Whole batches -/

theorem eval_batch_set_groups {groups : List (List (String × FencedValue))} {n : ℕ}
    (hlua : lua.ReadsDecimals) (h : Fillable lua groups.flatten s) :
    (UserInfoCache.batch_set_groups groups n).eval (redisScripts lua jitter) s =
      some (fill_all lua jitter groups.flatten (n, s)) := by
  induction groups generalizing n s with
  | nil => rfl
  | cons g groups ih =>
    rw [List.flatten_cons] at h ⊢
    have hg : Fillable lua g s := h.mono (List.subset_append_left _ _)
    obtain ⟨-, hscript⟩ | ⟨hnot, -⟩ := kBatchSetIfGenerationLua_eq hlua jitter g s
    · have hexec : redisScripts lua jitter (.evalBatchSetIfGeneration g) s =
          some (.ok (fill_all lua jitter g (0, s)).1, (fill_all lua jitter g (0, s)).2) := by
        rw [redisScripts, hscript]
        rfl
      refine (Prog.eval_call hexec).trans ?_
      refine (ih ((fill_all_sound h).mono (List.subset_append_right _ _))).trans ?_
      rw [fill_all_append]
      exact congrArg (fun x ↦ some (fill_all lua jitter groups.flatten x)) (fill_all_count n).symm
    · exact absurd hg hnot

/-! ### Buckets that cannot be filled -/

/-- The keys of the users of a bucket are as they were. -/
def BucketKept (b : UInt32) (s s' : RedisStore) : Prop :=
  ∀ uid, user_info_bucket uid = b → s' (user_info_key uid) = s (user_info_key uid) ∧
    s' (user_info_generation_key uid) = s (user_info_generation_key uid)

theorem fill_all_of_ne {key : String} {x : ℕ × RedisStore}
    (h : ∀ e ∈ entries, key ≠ user_info_key e.1 ∧ key ≠ user_info_generation_key e.1) :
    (fill_all lua jitter entries x).2 key = x.2 key := by
  induction entries generalizing x with
  | nil => rfl
  | cons e l ih =>
    obtain ⟨hv, hg⟩ := h e List.mem_cons_self
    exact (ih fun e' he' ↦ h e' (List.mem_cons_of_mem e he')).trans (fill_of_ne hv hg)

theorem BucketKept.fill_all {b : UInt32} (h : ∀ e ∈ entries, user_info_bucket e.1 ≠ b) (n : ℕ) :
    BucketKept b s (fill_all lua jitter entries (n, s)).2 := by
  intro uid huid
  have hne : ∀ e ∈ entries, uid ≠ e.1 := by
    rintro e he rfl
    exact h e he huid
  refine ⟨fill_all_of_ne fun e he ↦ ⟨mt user_info_key_inj.1 (hne e he),
    user_info_key_ne_generation_key _ _⟩, fill_all_of_ne fun e he ↦
    ⟨(user_info_key_ne_generation_key _ _).symm, mt user_info_generation_key_inj.1 (hne e he)⟩⟩

theorem BucketKept.trans {b : UInt32} {s'' : RedisStore} (h : BucketKept b s s')
    (h' : BucketKept b s' s'') : BucketKept b s s'' := fun uid huid ↦
  ⟨(h' uid huid).1.trans (h uid huid).1, (h' uid huid).2.trans (h uid huid).2⟩

/-- An entry that cannot be written is still so when only other buckets have been written. -/
theorem BucketKept.sound (h : BucketKept (user_info_bucket e.1) s s') (he : Fillable lua [e] s') :
    Fillable lua [e] s := by
  intro e' he'
  obtain rfl := List.mem_singleton.1 he'
  obtain ⟨hv, hg⟩ := h _ rfl
  have hsound := he e' he'
  simp only [RedisStore.NoneOrString, numeric, RedisStore.contents, hv, hg] at hsound ⊢
  exact hsound

/-- The bucket of an entry that cannot be written is left alone by every group. -/
theorem eval_batch_set_groups_keeps (hlua : lua.ReadsDecimals)
    {groups : List (List (String × FencedValue))} {n : ℕ} (he : ¬ Fillable lua [e] s)
    (hgroups : ∀ g ∈ groups, e ∈ g ∨ ∀ e' ∈ g, user_info_bucket e'.1 ≠ user_info_bucket e.1) :
    ∃ n' s', (UserInfoCache.batch_set_groups groups n).eval (redisScripts lua jitter) s =
      some (n', s') ∧ BucketKept (user_info_bucket e.1) s s' := by
  induction groups generalizing n s with
  | nil => exact ⟨n, s, rfl, fun _ _ ↦ ⟨rfl, rfl⟩⟩
  | cons g groups ih =>
    have hrest := fun g' hg' ↦ hgroups g' (List.mem_cons_of_mem g hg')
    obtain ⟨hsound, hscript⟩ | ⟨-, hscript⟩ :=
      kBatchSetIfGenerationLua_eq hlua jitter g s
    · have hexec : redisScripts lua jitter (.evalBatchSetIfGeneration g) s =
          some (.ok (fill_all lua jitter g (0, s)).1, (fill_all lua jitter g (0, s)).2) := by
        rw [redisScripts, hscript]
        rfl
      rcases hgroups g List.mem_cons_self with hmem | hother
      · exact absurd (hsound.mono (List.cons_subset.2 ⟨hmem, List.nil_subset g⟩)) he
      · have hkept : BucketKept (user_info_bucket e.1) s (fill_all lua jitter g (0, s)).2 :=
          .fill_all hother 0
        obtain ⟨n', s', heval, hkept'⟩ := ih (n := n + (fill_all lua jitter g (0, s)).1)
          (fun hs ↦ he (hkept.sound hs)) hrest
        exact ⟨n', s', (Prog.eval_call hexec).trans heval, hkept.trans hkept'⟩
    · have hexec : redisScripts lua jitter (.evalBatchSetIfGeneration g) s = some (.thrown, s) := by
        rw [redisScripts, hscript]
        rfl
      obtain ⟨n', s', heval, hkept⟩ := ih (n := n) he hrest
      exact ⟨n', s', (Prog.eval_call hexec).trans heval, hkept⟩

/-! ### The batch and the single calls -/

/-- An entry is in its own group only. -/
theorem mem_or_of_mem_bucket_groups {order : List UInt32} {values g : List (String × FencedValue)}
    (he : e ∈ values) (hg : g ∈ bucket_groups Prod.fst order values) :
    e ∈ g ∨ ∀ e' ∈ g, user_info_bucket e'.1 ≠ user_info_bucket e.1 := by
  obtain ⟨b, -, rfl⟩ := List.mem_map.1 (List.mem_of_mem_filter hg)
  by_cases hb : user_info_bucket e.1 = b
  · exact .inl (List.mem_filter.2 ⟨he, decide_eq_true hb⟩)
  · refine .inr fun e' he' heq ↦ hb ?_
    rw [← heq]
    exact of_decide_eq_true (List.mem_filter.1 he').2

/-- **A batch does what the single calls do.** The entries of a map, in the order in which it is
gone through, are sorted into buckets, in the order in which the map of these is gone through. The
single calls may come in any order; the draws for the times to live may be others, since they decide
nothing else. A bucket with an entry that cannot be written is left alone. -/
theorem batch_set_eq_single_sets (hlua : lua.ReadsDecimals) (jitter : String → ℤ)
    (order : List UInt32) (values : List (String × FencedValue)) (s : RedisStore)
    (horder : order.Nodup) (hbuckets : ∀ e ∈ values, user_info_bucket e.1 ∈ order)
    (hmap : (values.map Prod.fst).Nodup) (hcount : values.length ≤ 2000) :
    (Fillable lua values s → ∀ values' jitter', values.Perm values' → ∃ n s₁ s₂,
      (UserInfoCache.batch_set order values).eval (redisScripts lua jitter) s = some (n, s₁) ∧
      (UserInfoCache.set_each values' 0).eval (redisScripts lua jitter') s = some (n, s₂) ∧
      s₁.contents = s₂.contents ∧ (jitter = jitter' → s₁ = s₂)) ∧
    ∀ e ∈ values, ¬ Fillable lua [e] s → ∃ n s',
      (UserInfoCache.batch_set order values).eval (redisScripts lua jitter) s = some (n, s') ∧
      BucketKept (user_info_bucket e.1) s s' := by
  have htake : UserInfoCache.batch_set order values =
      UserInfoCache.batch_set_groups (bucket_groups Prod.fst order values) 0 := by
    rw [UserInfoCache.batch_set, List.take_of_length_le hcount]
  rw [htake]
  constructor
  · intro hsound values' jitter' hperm
    have hgroups : (bucket_groups Prod.fst order values).flatten.Perm values := by
      rw [bucket_groups, List.flatten_filter_ne_nil, ← List.flatMap_def]
      exact List.flatMap_filter_perm horder hbuckets
    have hbatch : (UserInfoCache.batch_set_groups (bucket_groups Prod.fst order values) 0).eval
        (redisScripts lua jitter) s = some (fill_all lua jitter values (0, s)) := by
      rw [eval_batch_set_groups hlua (hsound.mono hgroups.subset)]
      exact congrArg some (fill_all_perm hgroups ((hgroups.map Prod.fst).nodup_iff.2 hmap) _)
    have hsingle : (UserInfoCache.set_each values' 0).eval (redisScripts lua jitter') s =
        some (fill_all lua jitter' values (0, s)) := by
      rw [eval_set_each (hsound.mono hperm.symm.subset)]
      exact congrArg some (fill_all_perm hperm hmap _).symm
    obtain ⟨hn, hcontents⟩ : (fill_all lua jitter values (0, s)).1 =
        (fill_all lua jitter' values (0, s)).1 ∧ (fill_all lua jitter values (0, s)).2.contents =
        (fill_all lua jitter' values (0, s)).2.contents := contents_fill_all rfl
    refine ⟨_, _, (fill_all lua jitter' values (0, s)).2, hbatch, ?_, hcontents, ?_⟩
    · show _ = some ((fill_all lua jitter values (0, s)).1, _)
      rw [hsingle, hn]
    · rintro rfl
      rfl
  · intro e he hinvalid
    exact eval_batch_set_groups_keeps hlua hinvalid fun g hg ↦ mem_or_of_mem_bucket_groups he hg

/-- Numbers, where every one is a natural number. -/
def naturalLua : Lua where
  Num := ℕ
  tonumber := RedisStore.integer_arg
  eq a b := a == b
  negative _ := false
  nonpositive n := n == 0
  whole _ := true

theorem naturalLua_readsDecimals : naturalLua.ReadsDecimals := by
  constructor
  · intro n
    show (RedisStore.integer_arg (toString n)).any _ = true
    rw [RedisStore.integer_arg_toString]
    rfl
  · intro n hn
    show (RedisStore.integer_arg (toString n)).any (fun x ↦ !(x == 0) && true) = true
    rw [RedisStore.integer_arg_toString]
    simpa using hn.ne'

/-- alice has been invalidated three times, bob has a copy. -/
def batchStore : RedisStore := fun key ↦
  if key = user_info_generation_key "alice" then some ⟨.string "3", none⟩
  else if key = user_info_key "bob" then some ⟨.string "B", some 60⟩
  else none

/-- One entry has the generation that there is, the other has not. -/
def batchEntries : List (String × FencedValue) := [("alice", ⟨"A", 3⟩), ("bob", ⟨"", 1⟩)]

theorem batch_set_eq_single_sets_two : ∃ n s₁ s₂,
    (UserInfoCache.batch_set [user_info_bucket "alice", user_info_bucket "bob"]
      batchEntries).eval (redisScripts naturalLua fun _ ↦ 0) batchStore = some (n, s₁) ∧
    (UserInfoCache.set_each batchEntries.reverse 0).eval (redisScripts naturalLua fun _ ↦ 1)
      batchStore = some (n, s₂) ∧
    s₁.contents = s₂.contents ∧ ((fun _ : String ↦ (0 : ℤ)) = (fun _ ↦ 1) → s₁ = s₂) := by
  refine (batch_set_eq_single_sets naturalLua_readsDecimals (fun _ ↦ 0) _ _ batchStore ?_ ?_ ?_
    ?_).1 ?_ _ _ ?_
  · decide +kernel
  · simp [batchEntries]
  · decide
  · decide
  · intro e he
    simp only [batchEntries, List.mem_cons, List.not_mem_nil, or_false] at he
    obtain rfl | rfl := he
    · decide +kernel
    · decide +kernel
  · exact (List.reverse_perm _).symm

end ChatNow
