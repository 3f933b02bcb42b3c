import ChatNow.Lib.Labelled
import ChatNow.Lib.Recency
import Mathlib.Data.List.Perm.Lattice

/-!
# The local cache

`LocalCache` of `common/utils/local_cache.hpp`: a map with a time to live, a bound on its size, and
a list of its keys that says which was used last. Every method holds the lock from its first look at
the map to its last write, so that a method is one step with one reading of the clock.

The map is a list of its elements in the order of an iteration and the nodes of `_lru` have an
identity, which is what the iterators in the map refer to. Times are in nanoseconds and exact: what
C++ leaves undefined, a sum beyond the clock, is not a case here. The callbacks for metrics run
after the lock is gone and cannot fail, and are left out.

An element of a well-formed cache stands at its own node, which makes it the same to select
elements, nodes or keys. What takes entries away is thus said by the keys that it keeps (`Keeps`),
in whatever order the entries go; to use an entry moves its node to the front and leaves the map as
it is.
-/

namespace ChatNow.LocalCache

variable {V : Type}

/-! ### The cache -/

/-- `Entry`. -/
structure Entry (V : Type) where
  value : V
  expires_at : ℤ
  lru_it : ℕ

/-- A node of `_lru`. -/
structure Node where
  it : ℕ
  key : String
  deriving DecidableEq

structure Stats where
  hits : ℕ := 0
  misses : ℕ := 0
  evictions : ℕ := 0
  expired : ℕ := 0

/-- The members of `LocalCache` but `_max_entries`. -/
structure Cache (V : Type) where
  map : List (String × Entry V) := []
  lru : List Node := []
  /-- No node has this identity or one above it. -/
  nodes : ℕ := 0
  stats : Stats := {}

/-- `std::chrono::seconds` in the unit of the clock. -/
def seconds (ttl : ℤ) : ℤ := ttl * 1000000000

/-- `_lru.splice(_lru.begin(), _lru, it)`. -/
def splice (it : ℕ) (lru : List Node) : List Node :=
  lru.filter (·.it = it) ++ lru.filter (·.it ≠ it)

namespace Cache

variable (c : Cache V) (key : String) (e : Entry V) (now : ℤ) (max_entries : ℕ)

/-- `_map.find`. -/
def find : Option (Entry V) := (c.map.find? (·.1 = key)).map (·.2)

/-- An element of the map is written to. -/
def modify (f : Entry V → Entry V) : Cache V :=
  { c with map := c.map.map fun p ↦ if p.1 = key then (p.1, f p.2) else p }

/-- `touch_`, of an iterator to the key and its entry. -/
def touch_ : Cache V :=
  let lru := splice e.lru_it c.lru
  match lru with
  | [] => c
  | front :: _ => { c with lru := lru }.modify key fun e ↦ { e with lru_it := front.it }

/-- `erase_entry_`. -/
def erase_entry_ : Cache V :=
  { c with lru := c.lru.filter (·.it ≠ e.lru_it), map := c.map.filter (·.1 ≠ key) }

/-- The loop of `erase_expired_`, over the elements still to be visited. -/
def erase_loop : List (String × Entry V) → Cache V × ℕ → Cache V × ℕ
  | [], x => x
  | (key, e) :: rest, (c, removed) =>
    if now > e.expires_at then erase_loop rest (c.erase_entry_ key e, removed + 1)
    else erase_loop rest (c, removed)

/-- `erase_expired_`. -/
def erase_expired_ : Cache V × ℕ :=
  let (c', removed) := erase_loop now c.map (c, 0)
  ({ c' with stats := { c'.stats with expired := c'.stats.expired + removed } }, removed)

/-- The loop of `evict_over_capacity_`, for at most so many turns. -/
def evict_loop : ℕ → Cache V × ℕ → Cache V × ℕ
  | 0, x => x
  | fuel + 1, (c, evictions) =>
    match c.lru.getLast? with
    | none => (c, evictions)
    | some victim =>
      if c.map.length ≤ max_entries then (c, evictions)
      else match c.find victim.key with
        | some e =>
          let c := c.erase_entry_ victim.key e
          evict_loop fuel
            ({ c with stats := { c.stats with evictions := c.stats.evictions + 1 } }, evictions + 1)
        | none => evict_loop fuel ({ c with lru := c.lru.dropLast }, evictions)

/-- `evict_over_capacity_`. Every turn takes an element of the map or a node away. -/
def evict_over_capacity_ : Cache V × ℕ :=
  evict_loop max_entries (c.map.length + c.lru.length) (c, 0)

/-- `_lru.push_front(key); _map.emplace(key, Entry{value, expires_at, _lru.begin()})`. -/
def emplace (value : V) (expires_at : ℤ) : Cache V :=
  { c with
    lru := ⟨c.nodes, key⟩ :: c.lru
    nodes := c.nodes + 1
    map := if (c.find key).isSome then c.map else c.map ++ [(key, ⟨value, expires_at, c.nodes⟩)] }

/-- `get`. -/
def get : Cache V × Option V :=
  match c.find key with
  | none => ({ c with stats := { c.stats with misses := c.stats.misses + 1 } }, none)
  | some e =>
    if now > e.expires_at then
      ({ c.erase_entry_ key e with
        stats := { c.stats with misses := c.stats.misses + 1, expired := c.stats.expired + 1 } },
        none)
    else
      ({ c.touch_ key e with stats := { c.stats with hits := c.stats.hits + 1 } }, some e.value)

/-- `invalidate`. -/
def invalidate : Cache V :=
  match c.find key with
  | none => c
  | some e => c.erase_entry_ key e

/-- The end of `set` and of `set_if_absent`, after an expired entry of the key is gone. -/
def store (value : V) (expires_at : ℤ) : Cache V :=
  ((c.erase_expired_ now).1.emplace key value expires_at).evict_over_capacity_ max_entries |>.1

/-- `erase_entry_(it); ++_stats.expired`. -/
def drop_expired : Cache V :=
  { c.erase_entry_ key e with stats := { c.stats with expired := c.stats.expired + 1 } }

/-- `set`. -/
def set (value : V) (ttl : ℤ) : Cache V :=
  if ttl ≤ 0 then c.invalidate key
  else if max_entries = 0 then c
  else
    let expires_at := now + seconds ttl
    match c.find key with
    | none => c.store key now max_entries value expires_at
    | some e =>
      if now > e.expires_at then (c.drop_expired key e).store key now max_entries value expires_at
      else (c.modify key fun e ↦ { e with value := value, expires_at := expires_at }).touch_ key e

/-- `set_if_absent`. -/
def set_if_absent (value : V) (ttl : ℤ) : Cache V × Bool :=
  if ttl ≤ 0 then (c, false)
  else if max_entries = 0 then (c, false)
  else match c.find key with
    | none => (c.store key now max_entries value (now + seconds ttl), true)
    | some e =>
      if now ≤ e.expires_at then (c.touch_ key e, false)
      else ((c.drop_expired key e).store key now max_entries value (now + seconds ttl), true)

/-- `evict_expired`. -/
def evict_expired : Cache V × ℕ := c.erase_expired_ now

end Cache

/-! ### Well-formed caches -/

/-- The node that an element of the map stands at. -/
def node (p : String × Entry V) : Node := ⟨p.2.lru_it, p.1⟩

/-- The keys of the list, the one used last in front. -/
def Cache.recency (c : Cache V) : List String := c.lru.map (·.key)

/-- The elements of the map and the nodes of the list are the same, each once. -/
structure Cache.WellFormed (c : Cache V) : Prop where
  /-- The nodes of the list are those that the iterators stand at, each with the key of its entry.
  -/
  nodes : (c.map.map node).Perm c.lru
  keys : (c.map.map (·.1)).Nodup
  its : (c.lru.map (·.it)).Nodup
  fresh : ∀ n ∈ c.lru, n.it < c.nodes

section WellFormed

variable {c c' c'' : Cache V} {key : String} {e : Entry V} {n : Node} {now : ℤ} {max_entries : ℕ}
  {P Q : String → Bool}

theorem wellFormed_empty : ({} : Cache V).WellFormed :=
  ⟨.refl _, List.nodup_nil, List.nodup_nil, fun _ hn ↦ absurd hn List.not_mem_nil⟩

namespace Cache.WellFormed

variable (h : c.WellFormed)
include h

theorem recency_perm : (c.map.map (·.1)).Perm c.recency := by
  have hp := h.nodes.map Node.key
  rwa [List.map_map] at hp

theorem recency_nodup : c.recency.Nodup := h.recency_perm.nodup_iff.1 h.keys

theorem length_eq : c.map.length = c.lru.length := by
  rw [← h.nodes.length_eq, List.length_map]

theorem mem_lru (he : (key, e) ∈ c.map) : ⟨e.lru_it, key⟩ ∈ c.lru :=
  h.nodes.mem_iff.1 (List.mem_map_of_mem (f := node) he)

theorem exists_mem (hkey : key ∈ c.recency) : ∃ e, (key, e) ∈ c.map := by
  obtain ⟨⟨k, e⟩, he, rfl⟩ := List.mem_map.1 (h.recency_perm.mem_iff.2 hkey)
  exact ⟨e, he⟩

theorem mem_recency (he : (key, e) ∈ c.map) : key ∈ c.recency :=
  List.mem_map_of_mem (f := Node.key) (h.mem_lru he)

/-- A key has one entry. -/
theorem entry_eq {e' : Entry V} (he : (key, e) ∈ c.map) (he' : (key, e') ∈ c.map) : e = e' :=
  congrArg Prod.snd (List.inj_on_of_nodup_map h.keys he he' rfl)

theorem find_eq_some : c.find key = some e ↔ (key, e) ∈ c.map := by
  rw [Cache.find, Option.map_eq_some_iff]
  constructor
  · rintro ⟨⟨k, e⟩, hfind, rfl⟩
    have hdec := List.find?_some hfind
    obtain rfl : k = key := of_decide_eq_true hdec
    exact List.mem_of_find?_eq_some hfind
  · intro he
    cases hfind : c.map.find? (·.1 = key) with
    | none => exact absurd (decide_eq_true rfl) (List.find?_eq_none.1 hfind _ he)
    | some p =>
      obtain ⟨k, e'⟩ := p
      have hdec := List.find?_some hfind
      obtain rfl : k = key := of_decide_eq_true hdec
      exact ⟨_, rfl, h.entry_eq (List.mem_of_find?_eq_some hfind) he⟩

/-- A node with the iterator of an entry is the node with its key. -/
theorem it_eq_iff (he : (key, e) ∈ c.map) (hn : n ∈ c.lru) : n.it = e.lru_it ↔ n.key = key := by
  constructor
  · intro hit
    rw [List.inj_on_of_nodup_map h.its hn (h.mem_lru he) hit]
  · intro hkey
    rw [List.inj_on_of_nodup_map (f := Node.key) h.recency_nodup hn (h.mem_lru he) hkey]

end Cache.WellFormed

theorem Cache.WellFormed.withStats (h : c.WellFormed) (stats : Stats) :
    { c with stats }.WellFormed :=
  ⟨h.nodes, h.keys, h.its, h.fresh⟩

/-! ### Entries that go -/

/-- What is left of a cache are the entries with these keys. -/
structure Cache.Keeps (c c' : Cache V) (P : String → Bool) : Prop where
  map : c'.map = c.map.filter fun p ↦ P p.1
  lru : c'.lru = c.lru.filter fun n ↦ P n.key
  nodes : c'.nodes = c.nodes

namespace Cache.Keeps

theorem refl (hP : ∀ k ∈ c.recency, P k = true) (h : c.WellFormed) : c.Keeps c P where
  map := (List.filter_eq_self.2 fun _ hp ↦ hP _ (h.mem_recency hp)).symm
  lru := (List.filter_eq_self.2 fun _ hn ↦ hP _ (List.mem_map_of_mem hn)).symm
  nodes := rfl

theorem trans (h : c.Keeps c' P) (h' : c'.Keeps c'' Q) :
    c.Keeps c'' fun k ↦ Q k && P k where
  map := by rw [h'.map, h.map, List.filter_filter]
  lru := by rw [h'.lru, h.lru, List.filter_filter]
  nodes := h'.nodes.trans h.nodes

/-- The counters play no part. -/
theorem withStats (h : c.Keeps c' P) (stats : Stats) : c.Keeps { c' with stats } P :=
  ⟨h.map, h.lru, h.nodes⟩

theorem mem_iff (h : c.Keeps c' P) : (key, e) ∈ c'.map ↔ (key, e) ∈ c.map ∧ P key = true := by
  rw [h.map, List.mem_filter]

theorem recency (h : c.Keeps c' P) : c'.recency = c.recency.filter P := by
  rw [Cache.recency, h.lru, Cache.recency, List.filter_map]
  rfl

theorem wellFormed (h : c.Keeps c' P) (hc : c.WellFormed) : c'.WellFormed where
  nodes := by
    rw [h.map, h.lru]
    have hp := hc.nodes.filter fun n ↦ P n.key
    rwa [List.filter_map] at hp
  keys := by
    rw [h.map]
    exact hc.keys.sublist (List.filter_sublist.map _)
  its := by
    rw [h.lru]
    exact hc.its.sublist (List.filter_sublist.map _)
  fresh n hn := by
    rw [h.lru] at hn
    rw [h.nodes]
    exact hc.fresh n (List.mem_filter.1 hn).1

end Cache.Keeps

/-- A key without an entry takes none with it. -/
theorem Cache.WellFormed.keeps_of_find_none (h : c.WellFormed) (hfind : c.find key = none) :
    c.Keeps c (· ≠ key) := by
  refine .refl (fun k hk ↦ decide_eq_true ?_) h
  rintro rfl
  obtain ⟨e, he⟩ := h.exists_mem hk
  rw [h.find_eq_some.2 he] at hfind
  cases hfind

/-- `erase_entry_` of an element of the map. -/
theorem keeps_erase_entry_ (h : c.WellFormed) (he : (key, e) ∈ c.map) :
    c.Keeps (c.erase_entry_ key e) (· ≠ key) where
  map := rfl
  lru := List.filter_congr fun _ hn ↦ decide_eq_decide.2 (not_congr (h.it_eq_iff he hn))
  nodes := rfl

/-- **The loop of `erase_expired_`** keeps what is not among the elements to be visited or not
expired. -/
theorem keeps_erase_loop (h : c.WellFormed) {rest : List (String × Entry V)} (removed : ℕ)
    (hrest : ∀ p ∈ rest, p ∈ c.map) (hkeys : (rest.map (·.1)).Nodup) :
    c.Keeps (Cache.erase_loop now rest (c, removed)).1
      fun k ↦ rest.all fun p ↦ p.1 ≠ k || now ≤ p.2.expires_at := by
  induction rest generalizing c removed with
  | nil => exact .refl (fun _ _ ↦ rfl) h
  | cons p rest ih =>
    obtain ⟨key, e⟩ := p
    obtain ⟨hkey, hkeys⟩ := List.nodup_cons.1 hkeys
    have he := hrest _ List.mem_cons_self
    have hrest' := fun p hp ↦ hrest p (List.mem_cons_of_mem _ hp)
    rw [Cache.erase_loop]
    split
    · next hexpired =>
      have herase := keeps_erase_entry_ h he
      have hloop := ih (herase.wellFormed h) (removed + 1) (fun p hp ↦
        herase.mem_iff.2 ⟨hrest' p hp, decide_eq_true fun heq ↦
          hkey (List.mem_map.2 ⟨p, hp, heq⟩)⟩) hkeys
      refine cast (congrArg _ (funext fun k ↦ ?_)) (herase.trans hloop)
      rw [List.all_cons, Bool.and_comm, decide_eq_false (not_le.2 hexpired), Bool.or_false]
      exact congrArg (· && _) (decide_eq_decide.2 ne_comm)
    · next hlive =>
      refine cast (congrArg _ (funext fun k ↦ ?_)) (ih h removed hrest' hkeys)
      rw [List.all_cons, decide_eq_true (not_lt.1 hlive), Bool.or_true, Bool.true_and]

/-- **`erase_expired_`** keeps the entries that have not expired. -/
theorem keeps_erase_expired_ (h : c.WellFormed) (now : ℤ) :
    ∃ P, c.Keeps (c.erase_expired_ now).1 P ∧
      ∀ key e, (key, e) ∈ c.map → (P key = true ↔ now ≤ e.expires_at) := by
  refine ⟨_, (keeps_erase_loop h 0 (fun _ hp ↦ hp) h.keys).withStats _, fun key e he ↦ ?_⟩
  rw [List.all_eq_true]
  constructor
  · intro hall
    simpa using hall _ he
  · rintro hnow ⟨k, e'⟩ he'
    rcases eq_or_ne k key with rfl | hne
    · simpa [h.entry_eq he' he] using hnow
    · simp [hne]

/-- **The loop of `evict_over_capacity_`** keeps the nodes in front, as many as there is room
for. -/
theorem keeps_evict_loop (h : c.WellFormed) {fuel : ℕ} (hfuel : c.lru.length ≤ fuel)
    (evictions : ℕ) :
    c.Keeps (Cache.evict_loop max_entries fuel (c, evictions)).1
      fun k ↦ k ∈ c.recency.take max_entries := by
  induction fuel generalizing c evictions with
  | zero =>
    refine .refl (fun k hk ↦ ?_) h
    rw [Cache.recency, List.length_eq_zero_iff.1 (Nat.le_zero.1 hfuel)] at hk
    exact absurd hk List.not_mem_nil
  | succ fuel ih =>
    have hall : c.map.length ≤ max_entries → c.Keeps c fun k ↦ k ∈ c.recency.take max_entries := by
      intro hle
      refine .refl (fun k hk ↦ decide_eq_true ?_) h
      rwa [List.take_of_length_le
        (by rw [Cache.recency, List.length_map, ← h.length_eq]; exact hle)]
    rw [Cache.evict_loop]
    cases hlast : c.lru.getLast? with
    | none =>
      refine hall ?_
      rw [h.length_eq, List.getLast?_eq_none_iff.1 hlast]
      exact Nat.zero_le _
    | some victim =>
      have hsplit : c.recency = c.lru.dropLast.map (·.key) ++ [victim.key] := by
        rw [Cache.recency, ← List.dropLast_append_getLast? victim hlast, List.map_append,
          List.dropLast_concat]
        rfl
      have hvictim : victim.key ∈ c.recency := by
        rw [hsplit]
        simp
      obtain ⟨e, he⟩ := h.exists_mem hvictim
      show c.Keeps (if c.map.length ≤ max_entries then _ else _ : Cache V × ℕ).1 _
      split
      · next hle => exact hall hle
      next hover =>
      rw [h.find_eq_some.2 he]
      have herase := (keeps_erase_entry_ h he).withStats
        { (c.erase_entry_ victim.key e).stats with evictions := c.stats.evictions + 1 }
      have hnodup := h.recency_nodup
      rw [hsplit] at hnodup
      have hnew : victim.key ∉ c.lru.dropLast.map (·.key) := fun hin ↦
        (List.nodup_append.1 hnodup).2.2 _ hin _ (List.mem_singleton_self _) rfl
      have hinit : c.recency.filter (· ≠ victim.key) = c.lru.dropLast.map (·.key) := by
        rw [hsplit, List.filter_append, List.filter_eq_self.2 fun k hk ↦ decide_eq_true
          (ne_of_mem_of_not_mem hk hnew)]
        simp
      have hlen : c.lru.length = c.lru.dropLast.length + 1 := by
        rw [← List.dropLast_append_getLast? victim hlast, List.length_append, List.dropLast_concat]
        rfl
      have hrecency := herase.recency.trans hinit
      have hloop := ih (herase.wellFormed h) (by
        have hlen' := congrArg List.length hrecency
        rw [Cache.recency, List.length_map, List.length_map] at hlen'
        omega) (evictions + 1)
      refine cast (congrArg _ (funext fun k ↦ ?_)) (herase.trans hloop)
      rw [hrecency, hsplit, List.take_append_of_le_length (by
        rw [List.length_map]
        have := h.length_eq
        omega)]
      rw [← Bool.decide_and, decide_eq_decide, and_iff_left_iff_imp]
      exact fun hk ↦ ne_of_mem_of_not_mem (List.mem_of_mem_take hk) hnew

theorem keeps_evict_over_capacity_ (h : c.WellFormed) (max_entries : ℕ) :
    c.Keeps (c.evict_over_capacity_ max_entries).1 fun k ↦ k ∈ c.recency.take max_entries :=
  keeps_evict_loop h (Nat.le_add_left _ _) 0

/-! ### Entries that are used and entries that come -/

/-- **`touch_`** moves the key to the front and changes no entry. -/
theorem touch_spec (h : c.WellFormed) (he : (key, e) ∈ c.map) :
    (c.touch_ key e).map = c.map ∧ (c.touch_ key e).recency = Recency.touch key c.recency ∧
      (c.touch_ key e).WellFormed := by
  have hfront : c.lru.filter (·.it = e.lru_it) = [⟨e.lru_it, key⟩] := by
    have hown : ∀ n ∈ c.lru, n.it = e.lru_it ↔ n = ⟨e.lru_it, key⟩ := fun n hn ↦
      ⟨fun hit ↦ List.inj_on_of_nodup_map h.its hn (h.mem_lru he) hit, fun heq ↦ heq ▸ rfl⟩
    rw [List.filter_congr fun n hn ↦ decide_eq_decide.2 (hown n hn), List.filter_eq,
      List.count_eq_one_of_mem (.of_map _ h.its) (h.mem_lru he)]
    rfl
  have hrest : c.lru.filter (·.it ≠ e.lru_it) = c.lru.filter (·.key ≠ key) :=
    List.filter_congr fun _ hn ↦ decide_eq_decide.2 (not_congr (h.it_eq_iff he hn))
  have hsplice : splice e.lru_it c.lru = ⟨e.lru_it, key⟩ :: c.lru.filter (·.key ≠ key) := by
    rw [splice, hfront, hrest]
    rfl
  have hmap : (c.touch_ key e).map = c.map := by
    simp only [Cache.touch_, hsplice]
    refine (List.map_congr_left fun p hp ↦ ?_).trans (List.map_id _)
    obtain ⟨k, e'⟩ := p
    split
    · next heq =>
      obtain rfl : k = key := heq
      rw [h.entry_eq he hp]
      rfl
    · rfl
  have hlru : (c.touch_ key e).lru = ⟨e.lru_it, key⟩ :: c.lru.filter (·.key ≠ key) := by
    simp only [Cache.touch_, hsplice]
    rfl
  have hnodes : (c.touch_ key e).nodes = c.nodes := by
    simp only [Cache.touch_, hsplice]
    rfl
  have hperm : (c.touch_ key e).lru.Perm c.lru := by
    rw [hlru, ← hsplice, splice]
    simpa only [decide_not] using List.filter_append_perm (fun n ↦ decide (n.it = e.lru_it)) c.lru
  refine ⟨hmap, ?_, ?_, ?_, ?_, ?_⟩
  · rw [Cache.recency, hlru, Recency.touch, Recency.erase_eq_filter h.recency_nodup,
      Cache.recency, List.filter_map, List.map_cons]
    rfl
  · rw [hmap]
    exact h.nodes.trans hperm.symm
  · rw [hmap]
    exact h.keys
  · exact (hperm.map _).nodup_iff.2 h.its
  · intro n hn
    rw [hnodes]
    exact h.fresh n (hperm.mem_iff.1 hn)

/-- **`push_front` and `emplace`** of a key that is not there. -/
theorem emplace_spec (h : c.WellFormed) (hkey : ∀ e, (key, e) ∉ c.map) (value : V)
    (expires_at : ℤ) :
    (c.emplace key value expires_at).map = c.map ++ [(key, ⟨value, expires_at, c.nodes⟩)] ∧
      (c.emplace key value expires_at).recency = key :: c.recency ∧
      (c.emplace key value expires_at).WellFormed := by
  have hfind : (c.find key).isSome = false := by
    rw [Option.isSome_eq_false_iff, Option.isNone_iff_eq_none, Option.eq_none_iff_forall_ne_some]
    exact fun e he ↦ hkey e (h.find_eq_some.1 he)
  have hmap : (c.emplace key value expires_at).map =
      c.map ++ [(key, ⟨value, expires_at, c.nodes⟩)] := by
    rw [Cache.emplace, hfind]
    rfl
  refine ⟨hmap, rfl, ?_, ?_, ?_, ?_⟩
  · rw [hmap, List.map_append]
    exact (List.perm_append_singleton _ _).trans (h.nodes.cons _)
  · rw [hmap, List.map_append]
    refine (List.perm_append_singleton _ _).nodup_iff.2 (List.nodup_cons.2 ⟨fun hin ↦ ?_, h.keys⟩)
    obtain ⟨⟨k, e⟩, he, rfl⟩ := List.mem_map.1 hin
    exact hkey e he
  · refine List.nodup_cons.2 ⟨fun hin ↦ ?_, h.its⟩
    obtain ⟨n, hn, hit⟩ := List.mem_map.1 hin
    exact absurd (h.fresh n hn) (not_lt.2 hit.ge)
  · intro n hn
    rcases List.mem_cons.1 hn with rfl | hn
    · exact Nat.lt_succ_self _
    · exact Nat.lt_succ_of_lt (h.fresh n hn)

/-- **A new value** is written to an entry, whose node stays. -/
theorem modify_spec (h : c.WellFormed) (he : (key, e) ∈ c.map) (value : V) (expires_at : ℤ) :
    let c' := c.modify key fun e ↦ { e with value := value, expires_at := expires_at }
    (∀ k e', (k, e') ∈ c'.map ↔ (k = key ∧ e' = ⟨value, expires_at, e.lru_it⟩) ∨
      (k ≠ key ∧ (k, e') ∈ c.map)) ∧ c'.recency = c.recency ∧ c'.WellFormed := by
  intro c'
  have hnode : c'.map.map node = c.map.map node := by
    refine List.map_map.trans (List.map_congr_left fun p _ ↦ ?_)
    show node (if p.1 = key then _ else p) = node p
    split <;> rfl
  have hkeys : c'.map.map (·.1) = c.map.map (·.1) := by
    have hk := congrArg (List.map Node.key) hnode
    rwa [List.map_map, List.map_map] at hk
  refine ⟨fun k e' ↦ ?_, rfl, hnode ▸ h.nodes, hkeys ▸ h.keys, h.its, h.fresh⟩
  refine Iff.trans List.mem_map ⟨?_, ?_⟩
  · rintro ⟨p, hp, heq⟩
    split at heq
    · next hkey =>
      obtain ⟨rfl, rfl⟩ := Prod.mk.inj heq
      obtain ⟨k, e₀⟩ := p
      obtain rfl : k = key := hkey
      rw [h.entry_eq hp he]
      exact .inl ⟨rfl, rfl⟩
    · next hkey =>
      subst heq
      exact .inr ⟨hkey, hp⟩
  · rintro (⟨rfl, rfl⟩ | ⟨hkey, hp⟩)
    · exact ⟨_, he, if_pos rfl⟩
    · exact ⟨_, hp, if_neg hkey⟩

end WellFormed

end ChatNow.LocalCache
