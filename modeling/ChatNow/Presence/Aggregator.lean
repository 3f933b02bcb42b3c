import ChatNow.Presence.Keys
import Mathlib.Data.Int.Notation
import Mathlib.Data.List.Basic
import Mathlib.Logic.Function.Basic

/-!
# The presence of a user, from its devices

The push service keeps one hash a device, `presence_device_key`, with the state of the device and
the time it was written; `PresenceAggregator::aggregate` of the presence service finds the hashes of
a user by a pattern and makes one answer of them.

* `write_presence_online_`, `write_presence_offline_`: the writers.
* `aggregate`: the reader, with the batches of its `SCAN`.
* `stored`, `written`: the hashes after a sequence of writes and expirations, and what these say
  about each device, apart from any key or text.
* `aggregates_iff`: the reader answers what has been written only where it finds nothing and there
  is nothing to find.

The writers put the name of the state into the hash, the reader parses a number; `std::stoi` of
`ONLINE` throws, and so does the RPC (`aggregate_throws`).
-/

namespace ChatNow

namespace presence

/-- `PresenceState`; an enumeration of proto3 can hold a number that it does not name. -/
inductive PresenceState
  | PRESENCE_UNSPECIFIED
  | ONLINE
  | AWAY
  | BUSY
  | OFFLINE
  | INVISIBLE
  | unrecognized (n : ℤ)
  deriving DecidableEq

/-- `static_cast<PresenceState>`. -/
def PresenceState.ofInt : ℤ → PresenceState
  | 0 => PRESENCE_UNSPECIFIED
  | 1 => ONLINE
  | 2 => AWAY
  | 3 => BUSY
  | 4 => OFFLINE
  | 5 => INVISIBLE
  | n => unrecognized n

/-- The rank of a state among the devices; the least one wins. -/
def PresenceState.rank : PresenceState → ℤ
  | ONLINE => 0
  | BUSY => 1
  | AWAY => 2
  | _ => 3

/-- `DevicePresence`; `platform` is the number that is cast to `DevicePlatform`. -/
structure DevicePresence where
  device_id : String := ""
  platform : ℤ := 0
  state : PresenceState := .PRESENCE_UNSPECIFIED
  last_active_at_ms : ℤ := 0

/-- `Presence`. -/
structure Presence where
  user_id : String := ""
  aggregated_state : PresenceState := .PRESENCE_UNSPECIFIED
  last_active_at_ms : ℤ := 0
  devices : List DevicePresence := []

end presence

namespace Presence

open presence

/-! ### The hashes of devices -/

/-- The fields of a hash. -/
structure DeviceHash where
  state : Option String := none
  platform : Option String := none
  last_active_at_ms : Option String := none

/-- The hashes in Redis, by key. -/
abbrev Hashes : Type := String → Option DeviceHash

/-- The two `HSET`s of a writer. -/
def writePresence (state uid did : String) (now_ms : ℤ) (db : Hashes) : Hashes :=
  let k := presence_device_key uid did
  Function.update db k <| some
    { (db k).getD {} with state := some state, last_active_at_ms := some (toString now_ms) }

def write_presence_online_ : String → String → ℤ → Hashes → Hashes := writePresence "ONLINE"

def write_presence_offline_ : String → String → ℤ → Hashes → Hashes := writePresence "OFFLINE"

/-! ### The reader -/

/-- What `std::stoi` and `std::stoll` throw. -/
inductive StdError
  | invalid_argument
  | out_of_range

/-- A decimal number at the head of a text, after blanks and a sign, within bounds. -/
def parseInt (lo hi : ℤ) (text : String) : Except StdError ℤ :=
  let number (sign : ℤ) (cs : List Char) : Except StdError ℤ :=
    let digits := cs.takeWhile Char.isDigit
    let n := sign * Nat.ofDigitChars 10 digits 0
    if digits = [] then .error .invalid_argument
    else if lo ≤ n ∧ n ≤ hi then .ok n
    else .error .out_of_range
  match text.toList.dropWhile fun c ↦ c = ' ' ∨ '\t' ≤ c ∧ c ≤ '\r' with
  | '-' :: cs => number (-1) cs
  | '+' :: cs => number 1 cs
  | cs => number 1 cs

def stoi : String → Except StdError ℤ := parseInt (-2147483648) 2147483647

def stoll : String → Except StdError ℤ := parseInt (-9223372036854775808) 9223372036854775807

/-- The part of a key after its last colon; the whole of it if there is none. -/
def device_id_of (key : String) : String :=
  if ':' ∈ key.toList then
    String.ofList (key.toList.reverse.takeWhile (· ≠ ':')).reverse
  else
    key

/-- What the loop of `aggregate` carries. -/
structure Best where
  devices : List DevicePresence := []
  best_rank : ℤ := 999
  best_active_ms : ℤ := 0

/-- One turn of the loop. -/
def Best.visit (db : Hashes) (now_ms : ℤ) (acc : Best) (key : String) : Except StdError Best := do
  let hash := (db key).getD {}
  match hash.state with
  | none => return acc
  | some state =>
    let state_val ← stoi state
    let dev_state := PresenceState.ofInt state_val
    let last_ms ← hash.last_active_at_ms.mapM stoll
    if last_ms.any fun ms ↦ decide (now_ms - ms > 125000) then
      return acc
    let platform ← hash.platform.mapM stoi
    let dp : DevicePresence :=
      { device_id := device_id_of key, platform := platform.getD 0, state := dev_state
        last_active_at_ms := last_ms.getD 0 }
    let rank := dev_state.rank
    return {
      devices := acc.devices ++ [dp]
      best_rank :=
        if rank < acc.best_rank ∨ rank = acc.best_rank ∧ dev_state = .ONLINE then rank
        else acc.best_rank
      best_active_ms := max acc.best_active_ms (last_ms.getD 0) }

/-- The aggregated state for the best rank. -/
def stateOfRank (best_rank : ℤ) : PresenceState :=
  if best_rank ≥ 3 then .OFFLINE
  else if best_rank = 0 then .ONLINE
  else if best_rank = 1 then .BUSY
  else if best_rank = 2 then .AWAY
  else .OFFLINE

/-- `PresenceAggregator::aggregate`, with the batches of its `SCAN`. -/
def aggregate (uid : String) (batches : List (List String)) (db : Hashes) (now_ms : ℤ) :
    Except StdError Presence := do
  let device_keys := batches.flatten
  if device_keys = [] then
    return { user_id := uid, aggregated_state := .OFFLINE, last_active_at_ms := 0 }
  let best ← device_keys.foldlM (Best.visit db now_ms) {}
  return {
    user_id := uid, aggregated_state := stateOfRank best.best_rank
    last_active_at_ms := best.best_active_ms, devices := best.devices }

/-! ### What has been written -/

inductive DeviceStep
  | online (uid did : String) (now_ms : ℤ)
  | offline (uid did : String) (now_ms : ℤ)
  /-- The time to live of a key runs out. -/
  | expire (key : String)

def DeviceStep.store : DeviceStep → Hashes → Hashes
  | online uid did now_ms => write_presence_online_ uid did now_ms
  | offline uid did now_ms => write_presence_offline_ uid did now_ms
  | expire key => fun db ↦ Function.update db key none

/-- The hashes after a sequence of steps. -/
def stored (steps : List DeviceStep) : Hashes := steps.foldl (fun db i ↦ i.store db) fun _ ↦ none

/-- What is known of each device, by user and device. -/
abbrev Entries : Type := String × String → Option (PresenceState × ℤ)

def DeviceStep.write : DeviceStep → Entries → Entries
  | online uid did now_ms, e => Function.update e (uid, did) (some (.ONLINE, now_ms))
  | offline uid did now_ms, e => Function.update e (uid, did) (some (.OFFLINE, now_ms))
  | expire key, e => fun d ↦ if presence_device_key d.1 d.2 = key then none else e d

/-- The entries that have been written and have not expired. -/
def written (steps : List DeviceStep) : Entries := steps.foldl (fun e i ↦ i.write e) fun _ ↦ none

/-- A device of `uid` has an entry with the state that is at most 125 s old. -/
def Fresh (steps : List DeviceStep) (uid : String) (now_ms : ℤ) (did : String)
    (state : PresenceState) : Prop :=
  ∃ ms, written steps (uid, did) = some (state, ms) ∧ now_ms - ms ≤ 125000

/-- The highest of some states; OFFLINE where there is none. -/
def Highest (P : PresenceState → Prop) (s : PresenceState) : Prop :=
  (P s ∧ ∀ s', P s' → s.rank ≤ s'.rank) ∨ (∀ s', ¬P s') ∧ s = .OFFLINE

/-- The presence that the entries make. -/
structure Aggregates (steps : List DeviceStep) (uid : String) (now_ms : ℤ) (p : Presence) :
    Prop where
  listed : ∀ did state, (∃ dp ∈ p.devices, dp.device_id = did ∧ dp.state = state) ↔
    Fresh steps uid now_ms did state
  once : (p.devices.map (·.device_id)).Nodup
  highest : Highest (fun state ↦ ∃ did, Fresh steps uid now_ms did state) p.aggregated_state

/-! ### What the reader finds -/

section Found

variable {steps : List DeviceStep} {uid : String} {now_ms : ℤ} {k : String} {hash : DeviceHash}

theorem stored_concat (i : DeviceStep) : stored (steps ++ [i]) = i.store (stored steps) := by
  rw [stored, List.foldl_append]
  rfl

/-- A hash that is there has the name of a state in it. -/
theorem state_of_stored (h : stored steps k = some hash) :
    hash.state = some "ONLINE" ∨ hash.state = some "OFFLINE" := by
  induction steps using List.reverseRecOn generalizing hash with
  | nil => cases h
  | append_singleton steps i ih =>
    rw [stored_concat] at h
    cases i with
    | online uid did now_ms =>
      rw [DeviceStep.store, write_presence_online_, writePresence, Function.update_apply] at h
      split at h
      · obtain rfl := Option.some.inj h
        exact .inl rfl
      · exact ih h
    | offline uid did now_ms =>
      rw [DeviceStep.store, write_presence_offline_, writePresence, Function.update_apply] at h
      split at h
      · obtain rfl := Option.some.inj h
        exact .inr rfl
      · exact ih h
    | expire key =>
      simp only [DeviceStep.store, Function.update_apply] at h
      split at h
      · cases h
      · exact ih h

/-- There are finitely many hashes. -/
theorem exists_keys (steps : List DeviceStep) : ∃ keys : List String,
    ∀ k, (stored steps k).isSome → k ∈ keys := by
  induction steps using List.reverseRecOn with
  | nil => exact ⟨[], fun k h ↦ by cases h⟩
  | append_singleton steps i ih =>
    obtain ⟨keys, hkeys⟩ := ih
    have hother : ∀ key hash k, (Function.update (stored steps) key hash k).isSome →
        k ∈ key :: keys := by
      intro key hash k h
      rw [Function.update_apply] at h
      split at h
      · next heq => exact List.mem_cons.2 (.inl heq)
      · exact List.mem_cons_of_mem _ (hkeys k h)
    rw [stored_concat]
    cases i with
    | online uid did now_ms => exact ⟨_, hother _ _⟩
    | offline uid did now_ms => exact ⟨_, hother _ _⟩
    | expire key => exact ⟨_, hother _ _⟩

/-- A scan can return what it finds in one batch. -/
theorem exists_scanned (steps : List DeviceStep) (G : Glob) (pattern : String) :
    ∃ batches, Scanned (fun k ↦ (stored steps k).isSome) G pattern batches := by
  obtain ⟨keys, hkeys⟩ := exists_keys steps
  refine ⟨[keys.filter fun k ↦ (stored steps k).isSome && G.accepts pattern k], fun k ↦ ?_⟩
  rw [List.flatten_singleton, List.mem_filter, Bool.and_eq_true]
  exact and_iff_right_of_imp fun h ↦ hkeys k h.1

/-- The reader throws at the first hash that it finds. -/
theorem visit_throws (h : stored steps k = some hash) (acc : Best) :
    Best.visit (stored steps) now_ms acc k = .error .invalid_argument := by
  have honline : stoi "ONLINE" = .error .invalid_argument := by rfl
  have hoffline : stoi "OFFLINE" = .error .invalid_argument := by rfl
  rw [Best.visit, h]
  rcases state_of_stored h with hstate | hstate
  · simp only [Option.getD_some, hstate, honline]
    rfl
  · simp only [Option.getD_some, hstate, hoffline]
    rfl

/-- **Where the scan finds a key, the answer is an exception.** -/
theorem aggregate_throws {G : Glob} {batches : List (List String)}
    (hscan : Scanned (fun k ↦ (stored steps k).isSome) G (presence_device_scan_pattern uid) batches)
    (hk : (stored steps k).isSome) (hacc : G.accepts (presence_device_scan_pattern uid) k = true) :
    aggregate uid batches (stored steps) now_ms = .error .invalid_argument := by
  have hmem : k ∈ batches.flatten := (hscan k).2 ⟨hk, hacc⟩
  rw [aggregate]
  cases hkeys : batches.flatten with
  | nil =>
    rw [hkeys] at hmem
    cases hmem
  | cons k' rest =>
    have hk' : (stored steps k').isSome := ((hscan k').1 (hkeys ▸ List.mem_cons_self)).1
    obtain ⟨hash, hhash⟩ := Option.isSome_iff_exists.1 hk'
    rw [if_neg (List.cons_ne_nil k' rest), List.foldlM_cons, visit_throws hhash]
    rfl

/-- Where it finds none, the answer has no device. -/
theorem aggregate_nil {G : Glob} {batches : List (List String)}
    (hscan : Scanned (fun k ↦ (stored steps k).isSome) G (presence_device_scan_pattern uid) batches)
    (hnone : ∀ k, (stored steps k).isSome →
      G.accepts (presence_device_scan_pattern uid) k = false) :
    aggregate uid batches (stored steps) now_ms =
      .ok { user_id := uid, aggregated_state := .OFFLINE, last_active_at_ms := 0 } := by
  have hnil : batches.flatten = [] := by
    refine List.eq_nil_iff_forall_not_mem.2 fun k hmem ↦ ?_
    obtain ⟨hk, hacc⟩ := (hscan k).1 hmem
    rw [hnone k hk] at hacc
    cases hacc
  rw [aggregate, if_pos hnil]
  rfl

end Found

/-- **The reader answers what has been written exactly where it finds no hash and no device of the
user has an entry of the last 125 s.** -/
theorem aggregates_iff (G : Glob) (steps : List DeviceStep) (uid : String) (now_ms : ℤ) :
    (∀ batches, Scanned (fun k ↦ (stored steps k).isSome) G (presence_device_scan_pattern uid)
        batches → ∃ p, aggregate uid batches (stored steps) now_ms = .ok p ∧
          Aggregates steps uid now_ms p) ↔
      (∀ k, (stored steps k).isSome → G.accepts (presence_device_scan_pattern uid) k = false) ∧
        ∀ did state, ¬Fresh steps uid now_ms did state := by
  constructor
  · intro h
    obtain ⟨batches, hscan⟩ := exists_scanned steps G (presence_device_scan_pattern uid)
    obtain ⟨p, hp, hagg⟩ := h batches hscan
    have hnone : ∀ k, (stored steps k).isSome →
        G.accepts (presence_device_scan_pattern uid) k = false := by
      intro k hk
      by_contra hacc
      rw [aggregate_throws hscan hk (by simpa using hacc)] at hp
      cases hp
    refine ⟨hnone, fun did state hfresh ↦ ?_⟩
    rw [aggregate_nil hscan hnone] at hp
    obtain rfl := Except.ok.inj hp
    obtain ⟨dp, hdp, -⟩ := (hagg.listed did state).2 hfresh
    cases hdp
  · rintro ⟨hnone, hstale⟩ batches hscan
    refine ⟨_, aggregate_nil hscan hnone, fun did state ↦ ?_, List.nodup_nil, .inr ⟨?_, rfl⟩⟩
    · exact iff_of_false (by rintro ⟨dp, hdp, -⟩; cases hdp) (hstale did state)
    · rintro state ⟨did, hfresh⟩
      exact hstale did state hfresh

/-- A device that has just come online. -/
theorem not_aggregates :
    ¬∀ batches, Scanned (fun k ↦ (stored [.online "u" "d" 1000] k).isSome) .trailing
      (presence_device_scan_pattern "u") batches →
        ∃ p, aggregate "u" batches (stored [.online "u" "d" 1000]) 1000 = .ok p ∧
          Aggregates [.online "u" "d" 1000] "u" 1000 p := by
  intro h
  obtain ⟨batches, hscan⟩ :=
    exists_scanned [.online "u" "d" 1000] .trailing (presence_device_scan_pattern "u")
  obtain ⟨p, hp, -⟩ := h batches hscan
  rw [aggregate_throws (k := "im:presence:device:\x7bu\x7d:d") hscan (by decide +kernel)
    (by decide +kernel)] at hp
  cases hp

end Presence

end ChatNow
