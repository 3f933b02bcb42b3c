import Mathlib.Data.List.AList
import Mathlib.Data.List.Induction
import Mathlib.Data.List.Sort
import Mathlib.Data.String.Basic

/-!
# The ledger of unacknowledged pushes

`UnackedPush` of `common/dao/data_redis.hpp`. For one user and device Redis holds three keys: a
sorted set of sequence numbers by the time of their next retry, a hash of their payloads, and the
continuation of an `HSCAN` over that hash. Four scripts work on them, each atomically: `push`,
`ack`, `bump_score` and `peek_due`.

The scripts are translated command by command. A Lua error stops a script where it stands and Redis
does **not** undo what it did before, so a script is a function to a result *and* a ledger: `push`
with a time to live that `EXPIRE` refuses has written its entry all the same.

* A key has any Redis type or none; a sorted set or hash that loses its last element is gone.
* A score is an element of an arbitrary linear order: what `tonumber` yields is a double, and only
  its order is looked at. An argument that `tonumber` refuses is `none`.
* `HSCAN` is a parameter (`HScan`), and so is what `PTTL` answers: expiry is left out.

`run_agrees` is the invariant over every sequence of scripts, and `peek_safe` what `peek_due` keeps
from **any** pair of sorted set and hash.
-/

namespace ChatNow

/-- A Redis hash. -/
abbrev RHash := AList fun _ : String ↦ String

/-- A Redis sorted set, by member. -/
abbrev RZset (S : Type) := AList fun _ : String ↦ S

/-- What a Redis key holds. -/
inductive RedisValue (S : Type)
  | none
  | string (v : String)
  | zset (m : RZset S)
  | hash (h : RHash)
  /-- A list, a set, a stream. -/
  | other

/-- The keys of one user and device: `KEYS[1]`, `KEYS[2]` and `KEYS[3]` of every script. -/
structure Ledger (S : Type) where
  /-- `key_for`. -/
  due : RedisValue S := .none
  /-- `idx_key_for`. -/
  idx : RedisValue S := .none
  /-- `repair_key_for`. -/
  repair : RedisValue S := .none

/-- `HSCAN`: the next cursor and the fields of a batch, or an error for a cursor it cannot read.
It returns fields of the hash. -/
structure HScan where
  scan : RHash → String → ℤ → Option (String × List String)
  mem_of_scan : ∀ {h cursor count next fields},
    scan h cursor count = some (next, fields) → ∀ f ∈ fields, f ∈ h

namespace UnackedPush

variable {S : Type}

/-! ### Redis commands -/

/-- The sorted set under the first key, empty when there is none. -/
def zmembers (L : Ledger S) : RZset S :=
  match L.due with
  | .zset m => m
  | _ => ∅

/-- The hash under the second key, empty when there is none. -/
def hfields (L : Ledger S) : RHash :=
  match L.idx with
  | .hash h => h
  | _ => ∅

/-- The key of a sorted set; an empty one does not exist. -/
def ofZset (m : RZset S) : RedisValue S := if m.entries.isEmpty then .none else .zset m

/-- The key of a hash; an empty one does not exist. -/
def ofHash (h : RHash) : RedisValue S := if h.entries.isEmpty then .none else .hash h

def zadd (L : Ledger S) (score : S) (seq : String) : Ledger S :=
  { L with due := .zset ((zmembers L).insert seq score) }

def zrem (L : Ledger S) (seq : String) : Ledger S :=
  { L with due := ofZset ((zmembers L).erase seq) }

def zscore (L : Ledger S) (seq : String) : Option S := (zmembers L).lookup seq

def hset (L : Ledger S) (seq payload : String) : Ledger S :=
  { L with idx := .hash ((hfields L).insert seq payload) }

def hdel (L : Ledger S) (seq : String) : Ledger S :=
  { L with idx := ofHash ((hfields L).erase seq) }

def hget (L : Ledger S) (seq : String) : Option String := (hfields L).lookup seq

/-- `ZRANGEBYSCORE key -inf cutoff LIMIT 0 limit`: by score, and by member among equal scores. -/
def zrangebyscore [LinearOrder S] (L : Ledger S) (cutoff : S) (limit : ℤ) : List String :=
  ((((zmembers L).entries.filter fun e ↦ e.2 ≤ cutoff).insertionSort fun a b ↦
    a.2 < b.2 ∨ a.2 = b.2 ∧ a.1 ≤ b.1).map (·.1)).take limit.toNat

/-! ### The scripts -/

/-- The two type checks that every script starts with. -/
def check_types (L : Ledger S) : Except String Unit :=
  match L.due, L.idx with
  | .none, .none => .ok ()
  | .none, .hash _ => .ok ()
  | .zset _, .none => .ok ()
  | .zset _, .hash _ => .ok ()
  | .none, _ => .error "unacked index wrong type"
  | .zset _, _ => .error "unacked index wrong type"
  | _, _ => .error "unacked key wrong type"

/-- `kPushLua`; `expirable` tells which times `EXPIRE` takes. -/
def push (expirable : ℤ → Bool) (L : Ledger S) (score : Option S) (seq payload : String)
    (ttl : Option ℤ) : Except String ℤ × Ledger S :=
  match score, ttl with
  | some score, some ttl =>
    if ttl ≤ 0 then (.error "invalid arguments", L)
    else
      match check_types L with
      | .error e => (.error e, L)
      | .ok () =>
        let L := hset (zadd L score seq) seq payload
        -- an error of `EXPIRE` keeps the entry and the old continuation
        if expirable ttl then (.ok 1, { L with repair := .none })
        else (.error "invalid expire time", L)
  | _, _ => (.error "invalid arguments", L)

/-- `kAckLua`. -/
def ack (L : Ledger S) (seq : String) : Except String ℤ × Ledger S :=
  match check_types L with
  | .error e => (.error e, L)
  | .ok () =>
    let removed : ℤ := (if (zscore L seq).isSome then 1 else 0) +
      if (hget L seq).isSome then 1 else 0
    (.ok removed, { hdel (zrem L seq) seq with repair := .none })

/-- The loop of `kBumpScoreLua`, with the number of scores moved so far. -/
def bump_loop (score : S) : List String → ℤ → Ledger S → ℤ × Ledger S
  | [], updated, L => (updated, L)
  | seq :: seqs, updated, L =>
    match hget L seq with
    | some _ =>
      -- `ZADD XX` moves the score of a member that is there
      if (zscore L seq).isSome then bump_loop score seqs (updated + 1) (zadd L score seq)
      else bump_loop score seqs updated L
    | none => bump_loop score seqs updated (zrem L seq)

/-- `kBumpScoreLua`. -/
def bump_score (expirable : ℤ → Bool) (L : Ledger S) (ttl : Option ℤ) (score : Option S)
    (seqs : List String) : Except String ℤ × Ledger S :=
  match ttl, score with
  | some ttl, some score =>
    if ttl ≤ 0 then (.error "invalid arguments", L)
    else
      match check_types L with
      | .error e => (.error e, L)
      | .ok () =>
        let (updated, L) := bump_loop score seqs 0 L
        if expirable ttl then (.ok updated, L) else (.error "invalid expire time", L)
  | _, _ => (.error "invalid arguments", L)

/-- The cursor to continue from, and the ledger without a continuation that cannot be one. -/
def read_cursor (L : Ledger S) : String × Ledger S :=
  match L.repair with
  | .none => ("0", L)
  | .string cursor =>
    if cursor ≠ "" ∧ cursor.toList.all Char.isDigit then (cursor, L)
    else ("0", { L with repair := .none })
  | _ => ("0", { L with repair := .none })

/-- The loop over the due members: those with a payload are returned, the others dropped. -/
def due_loop : List String → Ledger S → List (String × String) × Ledger S
  | [], L => ([], L)
  | seq :: seqs, L =>
    match hget L seq with
    | some payload =>
      let (result, L) := due_loop seqs L
      ((seq, payload) :: result, L)
    | none => due_loop seqs (zrem L seq)

/-- The loop over the scanned fields: those without a score are dropped. -/
def repair_loop : List String → Ledger S → Ledger S
  | [], L => L
  | seq :: seqs, L =>
    if (zscore L seq).isSome then repair_loop seqs L else repair_loop seqs (hdel L seq)

/-- The continuation for the next call. -/
def write_cursor (next : String) (pttl : ℤ) (L : Ledger S) : Ledger S :=
  if next = "0" then { L with repair := .none }
  else if 0 < pttl ∨ pttl = -1 then { L with repair := .string next }
  else { L with repair := .none }

/-- The rest of `kPeekDueLua`, once there is a batch of the scan. -/
def peek_batch [LinearOrder S] (cutoff : S) (limit pttl : ℤ) (next : String) (fields : List String)
    (L : Ledger S) : Except String (List (String × String)) × Ledger S :=
  let (result, L) := due_loop (zrangebyscore L cutoff limit) L
  (.ok result, write_cursor next pttl (repair_loop fields L))

/-- `kPeekDueLua`; `pttl` is what `PTTL` answers. -/
def peek_due [LinearOrder S] (H : HScan) (pttl : ℤ) (L : Ledger S) (cutoff : Option S)
    (limit : Option ℤ) : Except String (List (String × String)) × Ledger S :=
  match cutoff, limit with
  | some cutoff, some limit =>
    if limit ≤ 0 then (.error "invalid arguments", L)
    else
      match check_types L with
      | .error e => (.error e, L)
      | .ok () =>
        let (cursor, L) := read_cursor L
        match H.scan (hfields L) cursor limit with
        | some (next, fields) => peek_batch cutoff limit pttl next fields L
        | none =>
          let L := { L with repair := .none }
          match H.scan (hfields L) "0" limit with
          | some (next, fields) => peek_batch cutoff limit pttl next fields L
          | none => (.error "invalid cursor", L)
  | _, _ => (.error "invalid arguments", L)

/-! ### What the commands do -/

theorem zscore_zadd (L : Ledger S) (score : S) (seq q : String) :
    zscore (zadd L score seq) q = if q = seq then some score else zscore L q := by
  by_cases hq : q = seq
  · rw [if_pos hq, hq]
    exact AList.lookup_insert _
  · rw [if_neg hq]
    exact AList.lookup_insert_ne hq

theorem zscore_zrem (L : Ledger S) (seq q : String) :
    zscore (zrem L seq) q = if q = seq then none else zscore L q := by
  have hz : zscore (zrem L seq) q = ((zmembers L).erase seq).lookup q := by
    rw [zscore, zrem, ofZset]
    split
    · next he =>
      have hnone : (zmembers L).erase seq = ∅ := AList.ext (List.isEmpty_iff.1 he)
      rw [hnone, AList.lookup_empty]
      rfl
    · rfl
  rw [hz]
  by_cases hq : q = seq
  · rw [if_pos hq, hq, AList.lookup_erase]
  · rw [if_neg hq, AList.lookup_erase_ne hq]
    rfl

theorem hget_hset (L : Ledger S) (seq payload q : String) :
    hget (hset L seq payload) q = if q = seq then some payload else hget L q := by
  by_cases hq : q = seq
  · rw [if_pos hq, hq]
    exact AList.lookup_insert _
  · rw [if_neg hq]
    exact AList.lookup_insert_ne hq

theorem hget_hdel (L : Ledger S) (seq q : String) :
    hget (hdel L seq) q = if q = seq then none else hget L q := by
  have hh : hget (hdel L seq) q = ((hfields L).erase seq).lookup q := by
    rw [hget, hdel, ofHash]
    split
    · next he =>
      have hnone : (hfields L).erase seq = ∅ := AList.ext (List.isEmpty_iff.1 he)
      rw [hnone, AList.lookup_empty]
      rfl
    · rfl
  rw [hh]
  by_cases hq : q = seq
  · rw [if_pos hq, hq, AList.lookup_erase]
  · rw [if_neg hq, AList.lookup_erase_ne hq]
    rfl

@[simp] theorem hget_zadd (L : Ledger S) (score : S) (seq q : String) :
    hget (zadd L score seq) q = hget L q := rfl

@[simp] theorem hget_zrem (L : Ledger S) (seq q : String) : hget (zrem L seq) q = hget L q := rfl

@[simp] theorem zscore_hset (L : Ledger S) (seq payload q : String) :
    zscore (hset L seq payload) q = zscore L q := rfl

@[simp] theorem zscore_hdel (L : Ledger S) (seq q : String) : zscore (hdel L seq) q = zscore L q :=
  rfl

/-- Two ledgers with the same sorted set and the same hash. -/
def SameEntries (L L' : Ledger S) : Prop := L'.due = L.due ∧ L'.idx = L.idx

theorem SameEntries.zscore_eq {L L' : Ledger S} (h : SameEntries L L') (q : String) :
    zscore L' q = zscore L q := by
  unfold zscore zmembers
  rw [h.1]

theorem SameEntries.hget_eq {L L' : Ledger S} (h : SameEntries L L') (q : String) :
    hget L' q = hget L q := by
  unfold hget hfields
  rw [h.2]

/-! ### Types -/

/-- The first key is a sorted set or nothing, the second a hash or nothing. -/
def WellTyped (L : Ledger S) : Prop :=
  (L.due = .none ∨ ∃ m, L.due = .zset m) ∧ (L.idx = .none ∨ ∃ h, L.idx = .hash h)

theorem WellTyped.check_types {L : Ledger S} (h : WellTyped L) : check_types L = .ok () := by
  obtain ⟨hd | ⟨m, hd⟩, hi | ⟨i, hi⟩⟩ := h <;> simp [UnackedPush.check_types, hd, hi]

theorem ofZset_typed (m : RZset S) : ofZset m = .none ∨ ∃ m', ofZset m = .zset m' := by
  rw [ofZset]
  split
  · exact .inl rfl
  · exact .inr ⟨m, rfl⟩

theorem ofHash_typed (h : RHash) :
    (ofHash h : RedisValue S) = .none ∨ ∃ h', (ofHash h : RedisValue S) = .hash h' := by
  rw [ofHash]
  split
  · exact .inl rfl
  · exact .inr ⟨h, rfl⟩

theorem WellTyped.zadd {L : Ledger S} (h : WellTyped L) (score : S) (seq : String) :
    WellTyped (zadd L score seq) :=
  ⟨.inr ⟨_, rfl⟩, h.2⟩

theorem WellTyped.zrem {L : Ledger S} (h : WellTyped L) (seq : String) : WellTyped (zrem L seq) :=
  ⟨ofZset_typed _, h.2⟩

theorem WellTyped.hset {L : Ledger S} (h : WellTyped L) (seq payload : String) :
    WellTyped (hset L seq payload) :=
  ⟨h.1, .inr ⟨_, rfl⟩⟩

theorem WellTyped.hdel {L : Ledger S} (h : WellTyped L) (seq : String) : WellTyped (hdel L seq) :=
  ⟨h.1, ofHash_typed _⟩

theorem SameEntries.wellTyped {L L' : Ledger S} (h : SameEntries L L') (hL : WellTyped L) :
    WellTyped L' := by
  rw [WellTyped]
  rw [h.1, h.2]
  exact hL

/-! ### What the loops of `peek_due` do, from any ledger -/

theorem due_loop_some {L : Ledger S} {seq payload : String} (h : hget L seq = some payload)
    (seqs : List String) :
    due_loop (seq :: seqs) L = ((seq, payload) :: (due_loop seqs L).1, (due_loop seqs L).2) := by
  rw [due_loop, h]

theorem due_loop_none {L : Ledger S} {seq : String} (h : hget L seq = none) (seqs : List String) :
    due_loop (seq :: seqs) L = due_loop seqs (zrem L seq) := by
  rw [due_loop, h]

theorem repair_loop_cons (L : Ledger S) (seq : String) (seqs : List String) :
    repair_loop (seq :: seqs) L =
      if (zscore L seq).isSome then repair_loop seqs L else repair_loop seqs (hdel L seq) := rfl

theorem due_loop_hget (seqs : List String) (L : Ledger S) (q : String) :
    hget (due_loop seqs L).2 q = hget L q := by
  induction seqs generalizing L with
  | nil => rfl
  | cons seq seqs ih =>
    cases hp : hget L seq with
    | some payload =>
      rw [due_loop_some hp]
      exact ih L
    | none =>
      rw [due_loop_none hp]
      exact ih (zrem L seq)

/-- The first loop takes out of the sorted set only what has no payload. -/
theorem due_loop_zscore (seqs : List String) (L : Ledger S) (q : String) :
    zscore (due_loop seqs L).2 q = zscore L q ∨
      hget L q = none ∧ zscore (due_loop seqs L).2 q = none := by
  induction seqs generalizing L with
  | nil => exact .inl rfl
  | cons seq seqs ih =>
    cases hp : hget L seq with
    | some payload =>
      rw [due_loop_some hp]
      exact ih L
    | none =>
      rw [due_loop_none hp]
      rcases ih (zrem L seq) with heq | ⟨hq, hz⟩
      · rw [zscore_zrem] at heq
        split at heq
        · next hq =>
          rw [hq]
          exact .inr ⟨hp, hq ▸ heq⟩
        · exact .inl heq
      · exact .inr ⟨hq, hz⟩

theorem due_loop_wellTyped {seqs : List String} {L : Ledger S} (h : WellTyped L) :
    WellTyped (due_loop seqs L).2 := by
  induction seqs generalizing L with
  | nil => exact h
  | cons seq seqs ih =>
    cases hp : hget L seq with
    | some payload =>
      rw [due_loop_some hp]
      exact ih h
    | none =>
      rw [due_loop_none hp]
      exact ih (h.zrem seq)

/-- What is returned was due and had that payload. -/
theorem due_loop_result (seqs : List String) (L : Ledger S) :
    (due_loop seqs L).1.length ≤ seqs.length ∧
      ∀ e ∈ (due_loop seqs L).1, e.1 ∈ seqs ∧ hget L e.1 = some e.2 := by
  induction seqs generalizing L with
  | nil => exact ⟨le_rfl, fun e he ↦ absurd he List.not_mem_nil⟩
  | cons seq seqs ih =>
    cases hp : hget L seq with
    | some payload =>
      obtain ⟨hlen, hmem⟩ := ih L
      rw [due_loop_some hp]
      refine ⟨Nat.succ_le_succ hlen, fun e he ↦ ?_⟩
      rcases List.mem_cons.1 he with rfl | he
      · exact ⟨List.mem_cons_self, hp⟩
      · exact ⟨List.mem_cons_of_mem _ (hmem e he).1, (hmem e he).2⟩
    | none =>
      obtain ⟨hlen, hmem⟩ := ih (zrem L seq)
      rw [due_loop_none hp]
      refine ⟨Nat.le_succ_of_le hlen, fun e he ↦ ?_⟩
      exact ⟨List.mem_cons_of_mem _ (hmem e he).1, (hmem e he).2⟩

theorem repair_loop_zscore (fields : List String) (L : Ledger S) (q : String) :
    zscore (repair_loop fields L) q = zscore L q := by
  induction fields generalizing L with
  | nil => rfl
  | cons seq fields ih =>
    rw [repair_loop_cons]
    split
    · exact ih L
    · exact ih (hdel L seq)

/-- The second loop takes out of the hash only what has no score. -/
theorem repair_loop_hget (fields : List String) (L : Ledger S) (q : String) :
    hget (repair_loop fields L) q = hget L q ∨
      zscore L q = none ∧ hget (repair_loop fields L) q = none := by
  induction fields generalizing L with
  | nil => exact .inl rfl
  | cons seq fields ih =>
    rw [repair_loop_cons]
    split
    · exact ih L
    · next hnone =>
      rcases ih (hdel L seq) with heq | ⟨hq, hz⟩
      · rw [hget_hdel] at heq
        split at heq
        · next hq =>
          rw [hq]
          exact .inr ⟨by simpa using hnone, hq ▸ heq⟩
        · exact .inl heq
      · exact .inr ⟨hq, hz⟩

theorem repair_loop_wellTyped {fields : List String} {L : Ledger S} (h : WellTyped L) :
    WellTyped (repair_loop fields L) := by
  induction fields generalizing L with
  | nil => exact h
  | cons seq fields ih =>
    rw [repair_loop_cons]
    split
    · exact ih h
    · exact ih (h.hdel seq)

theorem write_cursor_same (next : String) (pttl : ℤ) (L : Ledger S) :
    SameEntries L (write_cursor next pttl L) := by
  rw [write_cursor]
  split
  · exact ⟨rfl, rfl⟩
  · split <;> exact ⟨rfl, rfl⟩

theorem read_cursor_same (L : Ledger S) : SameEntries L (read_cursor L).2 := by
  rw [read_cursor]
  split
  · exact ⟨rfl, rfl⟩
  · split <;> exact ⟨rfl, rfl⟩
  · exact ⟨rfl, rfl⟩

section Peek

variable [LinearOrder S]

/-- A due member has a score up to the cutoff. -/
theorem mem_zrangebyscore {L : Ledger S} {cutoff : S} {limit : ℤ} {q : String}
    (h : q ∈ zrangebyscore L cutoff limit) : ∃ score, zscore L q = some score ∧ score ≤ cutoff := by
  obtain ⟨⟨q', score⟩, he, rfl⟩ := List.mem_map.1 (List.mem_of_mem_take h)
  have hmem := (List.perm_insertionSort _ _).mem_iff.1 he
  obtain ⟨hin, hle⟩ := List.mem_filter.1 hmem
  exact ⟨score, AList.mem_lookup_iff.2 hin, of_decide_eq_true hle⟩

theorem length_zrangebyscore (L : Ledger S) (cutoff : S) (limit : ℤ) :
    (zrangebyscore L cutoff limit).length ≤ limit.toNat := by
  rw [zrangebyscore]
  rw [List.length_take]
  exact min_le_left _ _

/-- `peek_due` gives up without touching an entry, or processes one batch of the scan. -/
theorem peek_due_cases (H : HScan) (pttl : ℤ) (L : Ledger S) (cutoff : Option S)
    (limit : Option ℤ) :
    ((∃ e, (peek_due H pttl L cutoff limit).1 = .error e) ∧
        SameEntries L (peek_due H pttl L cutoff limit).2) ∨
      ∃ L₀ c n next fields, SameEntries L L₀ ∧ cutoff = some c ∧ limit = some n ∧ 0 < n ∧
        peek_due H pttl L cutoff limit = peek_batch c n pttl next fields L₀ := by
  unfold peek_due
  split
  · next c n =>
    split
    · exact .inl ⟨⟨_, rfl⟩, rfl, rfl⟩
    · next hn =>
      split
      · exact .inl ⟨⟨_, rfl⟩, rfl, rfl⟩
      · have hsame := read_cursor_same L
        dsimp only
        split
        · next next fields _ =>
          exact .inr ⟨_, c, n, next, fields, hsame, rfl, rfl, not_le.1 hn, rfl⟩
        · split
          · next next fields _ =>
            refine .inr ⟨{ (read_cursor L).2 with repair := .none }, c, n, next, fields, ?_, rfl,
              rfl, not_le.1 hn, rfl⟩
            exact hsame
          · exact .inl ⟨⟨_, rfl⟩, hsame⟩
  · exact .inl ⟨⟨_, rfl⟩, rfl, rfl⟩

theorem peek_batch_zscore (c : S) (n pttl : ℤ) (next : String) (fields : List String) (L : Ledger S)
    (q : String) :
    zscore (peek_batch c n pttl next fields L).2 q = zscore L q ∨
      hget L q = none ∧ zscore (peek_batch c n pttl next fields L).2 q = none := by
  rw [peek_batch]
  dsimp only
  rw [(write_cursor_same _ _ _).zscore_eq, repair_loop_zscore]
  exact due_loop_zscore _ L q

theorem peek_batch_hget (c : S) (n pttl : ℤ) (next : String) (fields : List String) (L : Ledger S)
    (q : String) :
    hget (peek_batch c n pttl next fields L).2 q = hget L q ∨
      zscore (peek_batch c n pttl next fields L).2 q = none ∧
        hget (peek_batch c n pttl next fields L).2 q = none := by
  rw [peek_batch]
  dsimp only
  rw [(write_cursor_same _ _ _).zscore_eq, (write_cursor_same _ _ _).hget_eq, repair_loop_zscore,
    ← due_loop_hget (zrangebyscore L c n) L q]
  exact repair_loop_hget fields _ q

/-- What may be asked of `peek_due` from any ledger: an entry that is in both keys stays, with its
score and its payload, and what is returned is in both keys, is due, carries its payload and is
within the limit. -/
structure PeekSafe (H : HScan) (pttl : ℤ) (L : Ledger S) (cutoff : Option S) (limit : Option ℤ) :
    Prop where
  keeps : ∀ q score payload, zscore L q = some score → hget L q = some payload →
    zscore (peek_due H pttl L cutoff limit).2 q = some score ∧
      hget (peek_due H pttl L cutoff limit).2 q = some payload
  returns : ∀ result, (peek_due H pttl L cutoff limit).1 = .ok result →
    ∃ c n, cutoff = some c ∧ limit = some n ∧ (result.length : ℤ) ≤ n ∧
      ∀ e ∈ result, hget L e.1 = some e.2 ∧ ∃ score, zscore L e.1 = some score ∧ score ≤ c

theorem peek_safe (H : HScan) (pttl : ℤ) (L : Ledger S) (cutoff : Option S) (limit : Option ℤ) :
    PeekSafe H pttl L cutoff limit := by
  rcases peek_due_cases H pttl L cutoff limit with ⟨⟨e, he⟩, hsame⟩ |
    ⟨L₀, c, n, next, fields, hsame, rfl, rfl, hn, heq⟩
  · refine ⟨fun q score payload hz hh ↦ ?_, fun result hr ↦ ?_⟩
    · rw [hsame.zscore_eq, hsame.hget_eq]
      exact ⟨hz, hh⟩
    · rw [he] at hr
      cases hr
  · refine ⟨fun q score payload hz hh ↦ ?_, fun result hr ↦ ?_⟩
    · rw [heq]
      rw [← hsame.zscore_eq] at hz
      rw [← hsame.hget_eq] at hh
      -- the payload protects the score, and the score that is kept protects the payload
      have hz' : zscore (peek_batch c n pttl next fields L₀).2 q = some score := by
        rcases peek_batch_zscore c n pttl next fields L₀ q with h | ⟨h, -⟩
        · rw [h, hz]
        · rw [hh] at h
          cases h
      refine ⟨hz', ?_⟩
      rcases peek_batch_hget c n pttl next fields L₀ q with h | ⟨h, -⟩
      · rw [h, hh]
      · rw [hz'] at h
        cases h
    · rw [heq] at hr
      obtain rfl : (due_loop (zrangebyscore L₀ c n) L₀).1 = result := Except.ok.inj hr
      obtain ⟨hlen, hmem⟩ := due_loop_result (zrangebyscore L₀ c n) L₀
      refine ⟨c, n, rfl, rfl, ?_, fun e he ↦ ?_⟩
      · have hle := hlen.trans (length_zrangebyscore L₀ c n)
        omega
      · obtain ⟨hdue, hp⟩ := hmem e he
        obtain ⟨score, hz, hle⟩ := mem_zrangebyscore hdue
        rw [hsame.hget_eq] at hp
        rw [hsame.zscore_eq] at hz
        exact ⟨hp, score, hz, hle⟩

end Peek

/-! ### Runs -/

/-- A call of a script, with what the environment supplies to it. -/
inductive Op (S : Type)
  | push (score : Option S) (seq payload : String) (ttl : Option ℤ)
  | ack (seq : String)
  | bump_score (ttl : Option ℤ) (score : Option S) (seqs : List String)
  | peek_due (H : HScan) (pttl : ℤ) (cutoff : Option S) (limit : Option ℤ)

/-- The push passes the argument check of its script. -/
def Valid (score : Option S) (ttl : Option ℤ) : Prop := score.isSome ∧ ∃ t, ttl = some t ∧ 0 < t

instance (score : Option S) (ttl : Option ℤ) : Decidable (Valid score ttl) :=
  match ttl with
  | none => .isFalse fun h ↦ by obtain ⟨-, t, ht, -⟩ := h; cases ht
  | some t => decidable_of_iff (score.isSome ∧ 0 < t) (by simp [Valid])

/-- The payload that should be stored for each sequence number: that of the last push since the
last ack. -/
def expected : List (Op S) → String → Option String
  | [], _ => none
  | .push score seq payload ttl :: earlier, q =>
    if q = seq ∧ Valid score ttl then some payload else expected earlier q
  | .ack seq :: earlier, q => if q = seq then none else expected earlier q
  | .bump_score _ _ _ :: earlier, q => expected earlier q
  | .peek_due _ _ _ _ :: earlier, q => expected earlier q

/-- The ledger holds the payloads of `exp`, and the sorted set has the same members. -/
structure Agrees (L : Ledger S) (exp : String → Option String) : Prop where
  typed : WellTyped L
  payload : ∀ q, hget L q = exp q
  member : ∀ q, (zscore L q).isSome ↔ (exp q).isSome

section Agreement

variable {expirable : ℤ → Bool} {L : Ledger S} {exp : String → Option String}

theorem SameEntries.agrees {L' : Ledger S} (h : SameEntries L L') (hL : Agrees L exp) :
    Agrees L' exp where
  typed := h.wellTyped hL.typed
  payload q := by rw [h.hget_eq, hL.payload]
  member q := by rw [h.zscore_eq, hL.member]

theorem push_agrees (hL : Agrees L exp) (score : Option S) (seq payload : String)
    (ttl : Option ℤ) :
    Agrees (push expirable L score seq payload ttl).2
      fun q ↦ if q = seq ∧ Valid score ttl then some payload else exp q := by
  unfold push
  split
  · next score t =>
    split
    · next ht =>
      have hv : ¬ Valid (some score) (some t) := by
        rintro ⟨-, t', ⟨⟩, hpos⟩
        omega
      simpa only [hv, and_false, if_false] using hL
    · next ht =>
      have hv : Valid (some score) (some t) := ⟨rfl, t, rfl, by omega⟩
      rw [hL.typed.check_types]
      simp only [hv, and_true]
      have hwritten : Agrees (hset (zadd L score seq) seq payload)
          fun q ↦ if q = seq then some payload else exp q := by
        refine ⟨(hL.typed.zadd score seq).hset seq payload, fun q ↦ ?_, fun q ↦ ?_⟩
        · rw [hget_hset, hget_zadd, hL.payload]
        · rw [zscore_hset, zscore_zadd]
          split
          · simp
          · exact hL.member q
      have hsame : SameEntries (hset (zadd L score seq) seq payload)
          { hset (zadd L score seq) seq payload with repair := .none } := ⟨rfl, rfl⟩
      split
      · exact hsame.agrees hwritten
      · exact hwritten
  · next hno =>
    have hv : ¬ Valid score ttl := by
      rintro ⟨hs, t, rfl, -⟩
      obtain ⟨score, rfl⟩ := Option.isSome_iff_exists.1 hs
      exact hno score t rfl rfl
    simpa only [hv, and_false, if_false] using hL

theorem ack_agrees (hL : Agrees L exp) (seq : String) :
    Agrees (ack L seq).2 fun q ↦ if q = seq then none else exp q := by
  rw [ack]
  rw [hL.typed.check_types]
  have hgone : Agrees (hdel (zrem L seq) seq) fun q ↦ if q = seq then none else exp q := by
    refine ⟨(hL.typed.zrem seq).hdel seq, fun q ↦ ?_, fun q ↦ ?_⟩
    · rw [hget_hdel, hget_zrem, hL.payload]
    · rw [zscore_hdel, zscore_zrem]
      split
      · simp
      · exact hL.member q
  have hsame : SameEntries (hdel (zrem L seq) seq)
      { hdel (zrem L seq) seq with repair := .none } := ⟨rfl, rfl⟩
  exact hsame.agrees hgone

theorem bump_loop_agrees (score : S) (seqs : List String) (updated : ℤ) (hL : Agrees L exp) :
    Agrees (bump_loop score seqs updated L).2 exp := by
  induction seqs generalizing L updated with
  | nil => exact hL
  | cons seq seqs ih =>
    rw [bump_loop]
    split
    · split
      · next hz =>
        refine ih _ ⟨hL.typed.zadd score seq, hL.payload, fun q ↦ ?_⟩
        rw [zscore_zadd]
        split
        · next hq => simpa [hq] using (hL.member seq).1 hz
        · exact hL.member q
      · exact ih _ hL
    · next hnone =>
      refine ih _ ⟨hL.typed.zrem seq, hL.payload, fun q ↦ ?_⟩
      rw [zscore_zrem]
      split
      · next hq => simp [hq, ← hL.payload, hnone]
      · exact hL.member q

theorem bump_score_agrees (hL : Agrees L exp) (ttl : Option ℤ) (score : Option S)
    (seqs : List String) : Agrees (bump_score expirable L ttl score seqs).2 exp := by
  unfold bump_score
  split
  · split
    · exact hL
    · rw [hL.typed.check_types]
      dsimp only
      split <;> exact bump_loop_agrees _ seqs 0 hL
  · exact hL

end Agreement

section Runs

variable [LinearOrder S] (expirable : ℤ → Bool)

/-- The ledger after a call. -/
def step (L : Ledger S) : Op S → Ledger S
  | .push score seq payload ttl => (push expirable L score seq payload ttl).2
  | .ack seq => (ack L seq).2
  | .bump_score ttl score seqs => (bump_score expirable L ttl score seqs).2
  | .peek_due H pttl cutoff limit => (peek_due H pttl L cutoff limit).2

/-- The ledger after a sequence of calls, the last one first, from empty keys. -/
def run : List (Op S) → Ledger S
  | [] => {}
  | o :: earlier => step expirable (run earlier) o

variable {expirable} {L : Ledger S} {exp : String → Option String}

theorem peek_batch_wellTyped (c : S) (n pttl : ℤ) (next : String) (fields : List String)
    (hL : WellTyped L) : WellTyped (peek_batch c n pttl next fields L).2 :=
  (write_cursor_same _ _ _).wellTyped (repair_loop_wellTyped (due_loop_wellTyped hL))

/-- In a ledger whose keys agree there is nothing to repair. -/
theorem peek_due_agrees (hL : Agrees L exp) (H : HScan) (pttl : ℤ) (cutoff : Option S)
    (limit : Option ℤ) : Agrees (peek_due H pttl L cutoff limit).2 exp := by
  rcases peek_due_cases H pttl L cutoff limit with ⟨-, hsame⟩ |
    ⟨L₀, c, n, next, fields, hsame, rfl, rfl, -, heq⟩
  · exact hsame.agrees hL
  · rw [heq]
    have hL₀ := hsame.agrees hL
    have hz : ∀ q, zscore (peek_batch c n pttl next fields L₀).2 q = zscore L₀ q := by
      intro q
      rcases peek_batch_zscore c n pttl next fields L₀ q with h | ⟨hnone, h⟩
      · exact h
      · have hz := hL₀.member q
        rw [← hL₀.payload, hnone] at hz
        have hz' : zscore L₀ q = none := by simpa using hz
        rw [h, hz']
    refine ⟨peek_batch_wellTyped c n pttl next fields hL₀.typed, fun q ↦ ?_, fun q ↦ ?_⟩
    · rcases peek_batch_hget c n pttl next fields L₀ q with h | ⟨hnone, h⟩
      · rw [h, hL₀.payload]
      · have hm := hL₀.member q
        rw [← hz, hnone] at hm
        have he : exp q = none := by simpa using hm
        rw [h, he]
    · rw [hz]
      exact hL₀.member q

/-- **The invariant over every sequence of scripts.** -/
theorem run_agrees (expirable : ℤ → Bool) (ops : List (Op S)) :
    Agrees (run expirable ops) (expected ops) := by
  induction ops with
  | nil =>
    refine ⟨⟨.inl rfl, .inl rfl⟩, fun _ ↦ rfl, fun _ ↦ ?_⟩
    simp [run, zscore, zmembers, expected]
  | cons o ops ih =>
    cases o with
    | push score seq payload ttl => exact push_agrees ih score seq payload ttl
    | ack seq => exact ack_agrees ih seq
    | bump_score ttl score seqs => exact bump_score_agrees ih ttl score seqs
    | peek_due H pttl cutoff limit => exact peek_due_agrees ih H pttl cutoff limit

/-- The call pushes `q`. -/
def Op.Pushes (q : String) : Op S → Prop
  | .push score seq _ ttl => seq = q ∧ Valid score ttl
  | _ => False

/-- The call acks `q`. -/
def Op.Acks (q : String) : Op S → Prop
  | .ack seq => seq = q
  | _ => False

omit [LinearOrder S] in
/-- What is expected of `q` changes only with a push or an ack of `q`. -/
theorem expected_cons (o : Op S) (ops : List (Op S)) {q : String} (hp : ¬ o.Pushes q)
    (ha : ¬ o.Acks q) : expected (o :: ops) q = expected ops q := by
  cases o with
  | push score seq payload ttl => exact if_neg fun h ↦ hp ⟨h.1.symm, h.2⟩
  | ack seq => exact if_neg fun h ↦ ha h.symm
  | bump_score => rfl
  | peek_due => rfl

omit [LinearOrder S] in
theorem expected_append {later ops : List (Op S)} {q : String}
    (h : ∀ o ∈ later, ¬ o.Pushes q ∧ ¬ o.Acks q) :
    expected (later ++ ops) q = expected ops q := by
  induction later with
  | nil => rfl
  | cons o later ih =>
    obtain ⟨hp, ha⟩ := h o List.mem_cons_self
    rw [List.cons_append, expected_cons o _ hp ha]
    exact ih fun o' ho' ↦ h o' (List.mem_cons_of_mem _ ho')

omit [LinearOrder S] in
/-- Nothing but a push makes an absent entry expected. -/
theorem expected_append_none {later ops : List (Op S)} {q : String}
    (h : ∀ o ∈ later, ¬ o.Pushes q) (hops : expected ops q = none) :
    expected (later ++ ops) q = none := by
  induction later with
  | nil => exact hops
  | cons o later ih =>
    have hrest := ih fun o' ho' ↦ h o' (List.mem_cons_of_mem _ ho')
    by_cases ha : o.Acks q
    · cases o with
      | ack seq => exact if_pos ha.symm
      | push => exact ha.elim
      | bump_score => exact ha.elim
      | peek_due => exact ha.elim
    · rw [List.cons_append, expected_cons o _ (h o List.mem_cons_self) ha]
      exact hrest

/-- What the ledger promises after the calls `ops`, the last one first: the sorted set and the hash
have the same elements; a push since which its number was neither pushed nor acked is there with its
payload; a number acked and not pushed since is in neither key. -/
structure LedgerOk (expirable : ℤ → Bool) (ops : List (Op S)) : Prop where
  same_members : ∀ q,
    (zscore (run expirable ops) q).isSome ↔ (hget (run expirable ops) q).isSome
  pushed : ∀ later earlier score seq payload ttl,
    ops = later ++ .push score seq payload ttl :: earlier → Valid score ttl →
    (∀ o ∈ later, ¬ o.Pushes seq ∧ ¬ o.Acks seq) →
    hget (run expirable ops) seq = some payload ∧ (zscore (run expirable ops) seq).isSome
  acked : ∀ later earlier seq, ops = later ++ .ack seq :: earlier →
    (∀ o ∈ later, ¬ o.Pushes seq) →
    hget (run expirable ops) seq = none ∧ zscore (run expirable ops) seq = none

theorem ledgerOk (expirable : ℤ → Bool) (ops : List (Op S)) : LedgerOk expirable ops := by
  have h := run_agrees expirable ops
  refine ⟨fun q ↦ ?_, ?_, ?_⟩
  · rw [h.member, h.payload]
  · rintro later earlier score seq payload ttl rfl hv hlater
    have he : expected (later ++ .push score seq payload ttl :: earlier) seq = some payload := by
      rw [expected_append hlater]
      exact if_pos ⟨rfl, hv⟩
    rw [h.member, h.payload, he]
    exact ⟨rfl, rfl⟩
  · rintro later earlier seq rfl hlater
    have he : expected (later ++ .ack seq :: earlier) seq = none :=
      expected_append_none hlater (if_pos rfl)
    refine ⟨by rw [h.payload, he], ?_⟩
    have hm := h.member seq
    rw [he] at hm
    simpa using hm

/-- **The unacked ledger.** Every sequence of the four scripts from empty keys keeps the promises of
`LedgerOk`, and `peek_due` is safe from every ledger, reachable or not. -/
theorem unacked_ledger (expirable : ℤ → Bool) :
    (∀ ops : List (Op S), LedgerOk expirable ops) ∧
      ∀ (H : HScan) (pttl : ℤ) (L : Ledger S) (cutoff : Option S) (limit : Option ℤ),
        PeekSafe H pttl L cutoff limit :=
  ⟨ledgerOk expirable, peek_safe⟩

end Runs

end UnackedPush

end ChatNow
