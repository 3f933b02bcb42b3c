import ChatNow.Members.Machine
import ChatNow.Members.ResolveContract

/-!
# Freshness of the members cache

A `resolve_members` call that begins after a change has been committed and invalidated should not
return a membership from before that change. Every layer is read in a round trip of its own, so the
question is whether each copy is kept under a version that was read before the copy was made.

It is, with one exception. After a hit on the sentinel the code reads the version **after** the
sentinel and keeps the empty answer in L1 under it. If a change is committed and invalidated between
the two, L1 says of the new version that the conversation is empty, and says so for as long as the
entry lives (`stale_sentinel_is_served`).

Nothing else goes wrong: `membersFresh_of_unmoved` shows that all results are fresh in every run, on
any number of instances with and without the registry, in which no version moves between those two
reads. The proof is that of `Versioned`: every pair in every layer and in the hands of every reader
is `FreshAt` (`MemInv`).
-/

namespace ChatNow

open Prog MemOp

/-! ### The assumptions and the property -/

/-- No store fails. -/
def noFault : MemGuard where
  onOp _ _ c _ := c.fault = false
  onEv _ _ := True

/-- The conversation whose version is read. -/
def MemOp.versionRead : MemOp → Option String
  | getVersion ssid => some ssid
  | _ => none

/-- No store fails, and when a `resolve_members` call reads the version after a hit on the sentinel,
it finds the version at which it hit it. -/
def unmovedSinceSentinel : MemGuard where
  onOp i o c s := c.fault = false ∧ ∀ ssid ∈ o.versionRead, i ∈ s.calls →
    ∀ v ∈ s.confirming i, v = (s.convs ssid).db.version
  onEv _ _ := True

/-- Every result that is not empty, or confirmed to be empty, is the membership at a moment not
earlier than any change that was completed before the call began. -/
def MembersFresh (s : MemState) : Prop :=
  ∀ q ∈ s.results, q.2.2.members ≠ [] ∨ q.2.2.confirmed_empty = true →
    ∀ k ∈ q.2.1, (s.convs q.1).db.FreshSince k q.2.2.members.toFinset

/-- Every answer of GetMemberIds is. -/
def ServedFresh (s : MemState) : Prop :=
  ∀ q ∈ s.served, ∀ k ∈ q.2.1, (s.convs q.1).db.FreshSince k q.2.2.toFinset

/-! ### The keys of a conversation -/

namespace Conv

variable {c c' : Conv}

theorem version_of_key (c : Conv) : Members.version_of (.ok c.version_key) = c.db.version := by
  have hlt : c.db.version < kUnknownCacheVersion := by
    have h := c.version_lt
    simp only [kUnknownCacheVersion]
    omega
  rw [version_key]
  split
  · next h => exact h.symm
  · show (parse_cache_version (toString c.db.version)).getD _ = _
    rw [parse_cache_version_toString hlt]
    rfl

/-- The scripts compare texts, and so the versions. -/
theorem key_eq_iff (c : Conv) {v : ℕ} : c.version_key.getD "0" = toString v ↔ c.db.version = v := by
  have hkey : c.version_key.getD "0" = toString c.db.version := by
    rw [version_key]
    split
    · next h =>
      rw [h]
      rfl
    · rfl
  rw [hkey, toString_inj]

/-- What the two other keys say is as new as all that is settled. -/
structure Good (c : Conv) : Prop where
  members : c.members ≠ ∅ → c.db.Fresh c.members
  sentinel : c.sentinel = true → c.db.Fresh ∅

theorem good_init : ({} : Conv).Good := ⟨fun h ↦ absurd rfl h, fun h ↦ nomatch h⟩

theorem Good.commit (h : c.Good) (members : Finset String) : (c.commit members).Good :=
  ⟨fun hne ↦ (h.members hne).change members, fun hs ↦ (h.sentinel hs).change members⟩

@[simp] theorem db_warmIfVersion (c : Conv) (observed : String) (uids : List String) :
    (c.warmIfVersion observed uids).2.db = c.db := by
  rw [warmIfVersion]
  split <;> rfl

@[simp] theorem db_sentinelIfVersion (c : Conv) (observed : String) :
    (c.sentinelIfVersion observed).2.db = c.db := by
  rw [sentinelIfVersion]
  split <;> rfl

/-- A pair is written only while its version is the current one. -/
theorem Good.warmIfVersion (h : c.Good) {v : ℕ} {uids : List String}
    (hp : c.db.FreshAt v uids.toFinset) : (c.warmIfVersion (toString v) uids).2.Good := by
  rw [Conv.warmIfVersion]
  split
  · next hv =>
    obtain rfl := (key_eq_iff c).1 hv
    exact ⟨fun _ ↦ hp.fresh, fun hs ↦ nomatch hs⟩
  · exact h

theorem Good.sentinelIfVersion (h : c.Good) {v : ℕ} (hp : c.db.FreshAt v ∅) :
    (c.sentinelIfVersion (toString v)).2.Good := by
  rw [Conv.sentinelIfVersion]
  split
  · next hv =>
    obtain rfl := (key_eq_iff c).1 hv
    exact ⟨fun hne ↦ absurd rfl hne, fun _ ↦ hp.fresh⟩
  · exact h

theorem invalidate_eq_some {m : ℕ} (h : c.invalidate m = some c') :
    c'.Good ∧ c'.db = c.db.raise m := by
  unfold invalidate at h
  split at h
  · obtain rfl := Option.some.inj h
    exact ⟨⟨fun hne ↦ absurd rfl hne, fun hs ↦ nomatch hs⟩, rfl⟩
  · cases h

end Conv

/-! ### What a reader knows -/

/-- The pair in hand may be kept, the answer may be given. -/
structure ReadPhase.Known (own : Bool) (db : Versioned (Finset String)) (since : List ℕ)
    (confirming : Option ℕ) (ph : ReadPhase) : Prop where
  pair : ∀ v members, ph.pair = some (v, members) → db.FreshAt v members.toFinset
  answer : ∀ members, ph.answer = some members → ∀ k ∈ since, db.FreshSince k members.toFinset
  read : ∀ v, ph = .read v → v ≤ db.version
  sentinel : ph = .sentinel → own = true → ∃ v, confirming = some v ∧ db.FreshAt v ∅

namespace ReadPhase

variable {own : Bool} {db db' : Versioned (Finset String)} {since : List ℕ}
  {confirming confirming' : Option ℕ} {ph : ReadPhase}

theorem Known.of_le (h : ph.Known own db since confirming) (hle : db ≤ db') :
    ph.Known own db' since confirming := by
  refine ⟨fun v members hp ↦ (h.pair v members hp).of_le hle,
    fun members ha k hk ↦ (h.answer members ha k hk).of_le hle,
    fun v hv ↦ (h.read v hv).trans hle.2.1, fun hs ho ↦ ?_⟩
  obtain ⟨v, hv, hfresh⟩ := h.sentinel hs ho
  exact ⟨v, hv, hfresh.of_le hle⟩

theorem known_idle : idle.Known own db since confirming :=
  ⟨nofun, nofun, nofun, nofun⟩

theorem known_found {e : MembersCacheEntry} (h : db.FreshAt e.version e.content.toFinset) :
    (found e).Known own db since confirming := by
  refine ⟨fun v members hp ↦ ?_, nofun, nofun, nofun⟩
  obtain ⟨rfl, rfl⟩ := Prod.ext_iff.1 (Option.some.inj hp)
  exact h

theorem known_read {v : ℕ} (h : v ≤ db.version) : (read v).Known own db since confirming := by
  refine ⟨nofun, nofun, fun w hw ↦ ?_, nofun⟩
  obtain rfl := ReadPhase.read.inj hw
  exact h

/-- A fresh value may be given to every call that has begun. -/
theorem freshSince_of_fresh {a : Finset String} (hsince : ∀ k ∈ since, k ≤ db.settled)
    (h : db.Fresh a) : ∀ k ∈ since, db.FreshSince k a :=
  fun k hk ↦ Versioned.FreshSince.mono h (hsince k hk)

variable (hsince : ∀ k ∈ since, k ≤ db.settled)

include hsince

/-- The version is read. -/
theorem Known.reread (h : ph.Known own db since confirming)
    (hconf : own = true → ∀ v, confirming = some v → v = db.version) :
    (ph.reread own db.version).Known own db since confirming' := by
  have hread : (ReadPhase.read db.version).Known own db since confirming' := known_read (le_refl _)
  cases ph with
  | found e =>
    show ReadPhase.Known _ _ _ _ (if _ then _ else _)
    split
    · next hv =>
      have hfresh := h.pair e.version e.content rfl
      refine ⟨fun v members hp ↦ h.pair v members hp, fun members ha ↦ ?_, nofun, nofun⟩
      obtain rfl := Option.some.inj ha
      rw [eq_of_accepts_warm hv] at hfresh
      exact freshSince_of_fresh hsince hfresh.fresh
    · exact hread
  | listed w members =>
    show ReadPhase.Known _ _ _ _ (if _ then _ else _)
    split
    · next hv =>
      obtain rfl := eq_of_accepts_warm hv
      exact ⟨fun v ms hp ↦ h.pair v ms hp, fun ms ha ↦ h.answer ms ha, nofun, nofun⟩
    · exact hread
  | sentinel =>
    show ReadPhase.Known _ _ _ _ (if _ then _ else _)
    split
    · next hown =>
      -- the only pair that is made of a copy and a later reading
      obtain ⟨v, hv, hfresh⟩ := h.sentinel rfl hown
      obtain rfl := hconf hown v hv
      refine ⟨fun w ms hp ↦ ?_, fun ms ha ↦ h.answer ms ha, nofun, nofun⟩
      obtain ⟨rfl, rfl⟩ := Prod.ext_iff.1 (Option.some.inj hp)
      exact hfresh
    · exact hread
  | _ => exact hread

/-- The members key is listed. -/
theorem Known.list {c : Conv} (hgood : c.Good) (hdb : c.db = db)
    (h : ph.Known own db since confirming) {order : List String} (hl : Lists order c.members) :
    (ph.list order).Known own db since confirming := by
  cases ph with
  | read v =>
    have hfresh : order ≠ [] → db.Fresh order.toFinset := by
      intro hne
      rw [← hdb, hl.2]
      refine hgood.members fun hempty ↦ hne ?_
      rw [← hl.2] at hempty
      exact (List.toFinset_eq_empty_iff _).1 hempty
    refine ⟨fun w ms hp ↦ ?_, fun ms ha ↦ ?_, nofun, nofun⟩
    · obtain ⟨hne, hms⟩ := (Option.ite_none_left_eq_some).1 hp
      obtain ⟨rfl, rfl⟩ := Prod.ext_iff.1 (Option.some.inj hms)
      exact (hfresh hne).freshAt (h.read v rfl)
    · obtain ⟨hne, hms⟩ := (Option.ite_none_left_eq_some).1 ha
      obtain rfl := Option.some.inj hms
      exact freshSince_of_fresh hsince (hfresh hne)
  | _ => exact known_idle

/-- The sentinel is found. -/
theorem known_sentinel (hfresh : db.Fresh ∅) :
    sentinel.Known own db since (some db.version) := by
  refine ⟨nofun, fun ms ha ↦ ?_, nofun, fun _ _ ↦ ⟨_, rfl, hfresh.freshAt (le_refl _)⟩⟩
  obtain rfl := Option.some.inj ha
  exact freshSince_of_fresh hsince hfresh

/-- The database answers. -/
theorem Known.fetch (h : ph.Known own db since confirming) {order : List String}
    (hl : Lists order db.current) : (ph.fetch order).Known own db since confirming := by
  cases ph with
  | read v =>
    have hfresh : db.Fresh order.toFinset := by
      rw [hl.2]
      exact db.fresh_current
    refine ⟨fun w ms hp ↦ ?_, fun ms ha ↦ ?_, nofun, nofun⟩
    · obtain ⟨rfl, rfl⟩ := Prod.ext_iff.1 (Option.some.inj hp)
      exact hfresh.freshAt (h.read v rfl)
    · obtain rfl := Option.some.inj ha
      exact freshSince_of_fresh hsince hfresh
  | _ => exact known_idle

end ReadPhase

/-! ### The invariant -/

/-- What a thread of the pool is, and where it stands. -/
inductive MemThread
  /-- A `resolve_members` call, or (`own = false`) a GetMemberIds call. -/
  | read (own : Bool) (ssid : String) (since : List ℕ) (ph : ReadPhase)
  | write (ssid : String) (ph : WritePhase)

/-- The contract of the threads of the pool, each by its own. -/
def memContract : Contract MemOp MemOp.Res MemThread where
  allowed
    | .read own ssid since ph, o => (readContract own ssid since).allowed ph o
    | .write ssid ph, o => (writeContract ssid).allowed ph o
  admits _ _ _ := True
  next
    | .read own ssid since ph, o, r =>
      .read own ssid since ((readContract own ssid since).next ph o r)
    | .write ssid ph, o, r => .write ssid ((writeContract ssid).next ph o r)

/-- What thread `i` knows. -/
def MemThread.Knows (i : ℕ) (s : MemState) : MemThread → Prop
  | read own ssid since ph => (own = true → i ∈ s.calls) ∧
    (∀ k ∈ since, k ≤ (s.convs ssid).db.settled) ∧
    ph.Known own (s.convs ssid).db since (s.confirming i)
  | write ssid ph => ph = .committed → s.changed i < (s.convs ssid).db.history.length

/-- What the members cache keeps: every copy is as fresh as the version it is kept under, and as all
that is settled where it is kept under none. -/
structure MemInv (ts : List MemThread) (s : MemState) : Prop where
  l2 : ∀ ssid, (s.convs ssid).Good
  l1 : ∀ inst ssid e, s.l1 inst ssid = some e →
    (s.convs ssid).db.FreshAt e.version e.content.toFinset
  completed : ∀ ssid, ∀ k ∈ s.completed ssid, k ≤ (s.convs ssid).db.settled
  threads : ∀ (i : ℕ) (t : MemThread), ts[i]? = some t → t.Knows i s
  results : MembersFresh s
  served : ServedFresh s

/-- A step of thread `i`, as the rest sees it. -/
structure MemState.Next (i : ℕ) (s s' : MemState) : Prop where
  db : ∀ ssid, (s.convs ssid).db ≤ (s'.convs ssid).db
  l2 : ∀ ssid, (s.convs ssid).Good → (s'.convs ssid).Good
  l1 : ∀ inst ssid e, s'.l1 inst ssid = some e → s.l1 inst ssid = some e ∨
    (s.convs ssid).db.FreshAt e.version e.content.toFinset
  completed : ∀ ssid, ∀ k ∈ s'.completed ssid, k ∈ s.completed ssid ∨
    k ≤ (s'.convs ssid).db.settled
  calls : s.calls ⊆ s'.calls
  confirming : ∀ j, j ≠ i → s'.confirming j = s.confirming j
  changed : ∀ j, j ≠ i → s'.changed j = s.changed j
  results : ∀ q ∈ s'.results, q ∈ s.results ∨
    (q.2.2.members ≠ [] ∨ q.2.2.confirmed_empty = true →
      ∀ k ∈ q.2.1, (s.convs q.1).db.FreshSince k q.2.2.members.toFinset)
  served : ∀ q ∈ s'.served, q ∈ s.served ∨
    ∀ k ∈ q.2.1, (s.convs q.1).db.FreshSince k q.2.2.toFinset

namespace MemState

theorem Next.refl (i : ℕ) (s : MemState) : s.Next i s where
  db _ := le_refl _
  l2 _ h := h
  l1 _ _ _ h := .inl h
  completed _ _ h := .inl h
  calls _ h := h
  confirming _ _ := rfl
  changed _ _ := rfl
  results _ h := .inl h
  served _ h := .inl h

variable {s : MemState} {i : ℕ}

theorem next_evict (inst : ℕ) (ssid : String) : s.Next i (s.setLocal inst ssid none) :=
  { Next.refl i s with
    l1 := fun inst' ssid' e he ↦ by
      rw [l1_setLocal] at he
      split at he
      · cases he
      · exact .inl he }

theorem next_setLocal {inst : ℕ} {ssid : String} {e : MembersCacheEntry}
    (h : (s.convs ssid).db.FreshAt e.version e.content.toFinset) :
    s.Next i (s.setLocal inst ssid (some e)) :=
  { Next.refl i s with
    l1 := fun inst' ssid' e' he ↦ by
      rw [l1_setLocal] at he
      split at he
      · next hkey =>
        obtain rfl := Option.some.inj he
        rw [hkey.2]
        exact .inr h
      · exact .inl he }

/-- An answer of `resolve` is recorded. -/
theorem next_resolved {q : String × List ℕ × MembersResult}
    (hq : q.2.2.members ≠ [] ∨ q.2.2.confirmed_empty = true →
      ∀ k ∈ q.2.1, (s.convs q.1).db.FreshSince k q.2.2.members.toFinset) :
    s.Next i { s with results := s.results ++ [q] } :=
  { Next.refl i s with
    results := fun q' hq' ↦ by
      rcases List.mem_append.1 hq' with hq' | hq'
      · exact .inl hq'
      · obtain rfl := List.mem_singleton.1 hq'
        exact .inr hq }

/-- An answer of GetMemberIds is recorded. -/
theorem next_served {q : String × List ℕ × List String}
    (hq : ∀ k ∈ q.2.1, (s.convs q.1).db.FreshSince k q.2.2.toFinset) :
    s.Next i { s with served := s.served ++ [q] } :=
  { Next.refl i s with
    served := fun q' hq' ↦ by
      rcases List.mem_append.1 hq' with hq' | hq'
      · exact .inl hq'
      · obtain rfl := List.mem_singleton.1 hq'
        exact .inr hq }

theorem next_setConfirming (v : Option ℕ) : s.Next i (s.setConfirming i v) :=
  { Next.refl i s with
    confirming := fun _ hj ↦ Function.update_of_ne hj _ _ }

theorem next_setInflight (inst : ℕ) (ssid : String) (held : Bool) :
    s.Next i (s.setInflight inst ssid held) :=
  { Next.refl i s with }

theorem next_setConv {ssid : String} {c : Conv} (hdb : (s.convs ssid).db ≤ c.db)
    (hgood : (s.convs ssid).Good → c.Good) : s.Next i (s.setConv ssid c) :=
  { Next.refl i s with
    db := fun ssid' ↦ by
      rw [convs_setConv]
      split
      · next hs => exact hs ▸ hdb
      · exact le_refl _
    l2 := fun ssid' h ↦ by
      rw [convs_setConv]
      split
      · next hs => exact hgood (hs ▸ h)
      · exact h
    completed := fun _ _ hk ↦ .inl hk }

/-- A change that is committed has a moment of its own. -/
theorem changed_lt_commit (s : MemState) (i : ℕ) (ssid : String) (members : Finset String) :
    Function.update s.changed i (s.convs ssid).db.history.length i <
      ((s.setConv ssid ((s.convs ssid).commit members)).convs ssid).db.history.length := by
  rw [convs_setConv, if_pos rfl, Function.update_self]
  simp [Conv.commit]

/-- A write that completes has settled what it committed. -/
theorem completed_invalidate {ssid ssid' : String} {conv : Conv} {k : ℕ}
    (hconv : (s.convs ssid).invalidate (s.changed i) = some conv)
    (hlt : s.changed i < (s.convs ssid).db.history.length)
    (hk : k ∈ Function.update s.completed ssid (s.completed ssid ++ [s.changed i]) ssid') :
    k ∈ s.completed ssid' ∨ k ≤ ((s.setConv ssid conv).convs ssid').db.settled := by
  rcases Versioned.mem_update_append hk with hk | ⟨rfl, rfl⟩
  · exact .inl hk
  · rw [convs_setConv, if_pos rfl, (Conv.invalidate_eq_some hconv).2]
    exact .inr (Versioned.le_settled_raise hlt)

end MemState

/-- What a thread knows it does not lose. -/
theorem MemThread.Knows.mono {i j : ℕ} {s s' : MemState} {t : MemThread} (h : t.Knows j s)
    (hs : s.Next i s') (hconf : s'.confirming j = s.confirming j)
    (hchanged : s'.changed j = s.changed j) : t.Knows j s' := by
  cases t with
  | read own ssid since ph =>
    obtain ⟨hown, hsince, hknown⟩ := h
    refine ⟨fun ho ↦ hs.calls (hown ho), fun k hk ↦ (hsince k hk).trans (hs.db ssid).2.2.1, ?_⟩
    rw [hconf]
    exact hknown.of_le (hs.db ssid)
  | write ssid ph =>
    intro hph
    rw [hchanged]
    exact (h hph).trans_le (hs.db ssid).1.length_le

namespace MemInv

variable {ts ts' : List MemThread} {s s' : MemState} {i : ℕ}

/-- **One step.** It is enough to look at what the step writes, and at the thread that makes it. -/
theorem next (h : MemInv ts s) (hs : s.Next i s')
    (ht : ∀ (j : ℕ) (t : MemThread), ts'[j]? = some t →
      j ≠ i ∧ ts[j]? = some t ∨ t.Knows j s') : MemInv ts' s' where
  l2 ssid := hs.l2 ssid (h.l2 ssid)
  l1 inst ssid e he := by
    rcases hs.l1 inst ssid e he with he | he
    · exact (h.l1 inst ssid e he).of_le (hs.db ssid)
    · exact he.of_le (hs.db ssid)
  completed ssid k hk := by
    rcases hs.completed ssid k hk with hk | hk
    · exact (h.completed ssid k hk).trans (hs.db ssid).2.2.1
    · exact hk
  threads j t hj := by
    rcases ht j t hj with ⟨hne, hj⟩ | hknows
    · exact (h.threads j t hj).mono hs (hs.confirming j hne) (hs.changed j hne)
    · exact hknows
  results q hq hne k hk := by
    rcases hs.results q hq with hq | hq
    · exact (h.results q hq hne k hk).of_le (hs.db q.1)
    · exact (hq hne k hk).of_le (hs.db q.1)
  served q hq k hk := by
    rcases hs.served q hq with hq | hq
    · exact (h.served q hq k hk).of_le (hs.db q.1)
    · exact (hq k hk).of_le (hs.db q.1)

/-- A call of thread `i`. -/
theorem set (h : MemInv ts s) (hs : s.Next i s') {t : MemThread} (ht : t.Knows i s') :
    MemInv (ts.set i t) s' := by
  refine h.next hs fun j u hj ↦ ?_
  rcases Pool.getElem?_set_cases hj with ⟨rfl, rfl⟩ | hj
  · exact .inr ht
  · exact .inl hj

/-- A thread joins. -/
theorem append (h : MemInv ts s) (hs : s.Next ts.length s') {t : MemThread}
    (ht : t.Knows ts.length s') : MemInv (ts ++ [t]) s' := by
  refine h.next hs fun j u hj ↦ ?_
  rcases Pool.getElem?_append_cases hj with ⟨rfl, rfl⟩ | ⟨hlt, hj⟩
  · exact .inr ht
  · exact .inl ⟨hlt.ne, hj⟩

end MemInv

section Calls

variable {ts : List MemThread} {s s' : MemState} {i : ℕ} {o : MemOp} {c : MemChoice} {r : o.Res}

/-- **What a reader's call does**: it writes only what may be kept, and may use what it learns. -/
theorem read_call {own : Bool} {ssid : String} {since : List ℕ} {ph : ReadPhase} (h : MemInv ts s)
    (hk : (MemThread.read own ssid since ph).Knows i s)
    (ha : (readContract own ssid since).allowed ph o) (hG : unmovedSinceSentinel.onOp i o c s)
    (hx : MemState.exec i o c s = some (r, s')) :
    s.Next i s' ∧
      (MemThread.read own ssid since ((readContract own ssid since).next ph o r)).Knows i s' := by
  have ⟨hown, hsince, hknown⟩ := hk
  obtain ⟨hfault, hG⟩ := hG
  cases o with
  | l1Get inst ssid' =>
    obtain rfl : ssid' = ssid := ha
    obtain ⟨rfl, rfl⟩ := Prod.ext_iff.1 (Option.some.inj hx)
    refine ⟨.refl i s, hown, hsince, ?_⟩
    show ReadPhase.Known _ _ _ _ ((readContract own ssid' since).next ph (l1Get inst ssid') _)
    cases he : s.l1 inst ssid' with
    | none => exact ReadPhase.known_idle
    | some e => exact ReadPhase.known_found (h.l1 inst ssid' e he)
  | l1Set inst ssid' e =>
    obtain ⟨rfl, hpair⟩ := ha
    obtain ⟨-, rfl⟩ := Prod.ext_iff.1 (Option.some.inj hx)
    exact ⟨MemState.next_setLocal (hknown.pair _ _ hpair), hown, hsince, hknown⟩
  | l1Invalidate inst ssid' =>
    obtain ⟨-, rfl⟩ := Prod.ext_iff.1 (Option.some.inj hx)
    exact ⟨MemState.next_evict inst ssid', hown, hsince, ReadPhase.known_idle⟩
  | getVersion ssid' =>
    obtain rfl : ssid' = ssid := ha
    simp only [MemState.exec, hfault] at hx
    obtain ⟨rfl, rfl⟩ := Prod.ext_iff.1 (Option.some.inj hx)
    refine ⟨MemState.next_setConfirming none, hown, hsince, ?_⟩
    show ReadPhase.Known _ _ _ _ (ph.reread own (Members.version_of _))
    rw [Conv.version_of_key]
    exact hknown.reread hsince fun ho v hv ↦ hG ssid' rfl (hown ho) v hv
  | smembers ssid' =>
    obtain rfl : ssid' = ssid := ha
    simp only [MemState.exec, hfault, Bool.false_eq_true, if_false] at hx
    split at hx
    · next hl =>
      obtain ⟨rfl, rfl⟩ := Prod.ext_iff.1 (Option.some.inj hx)
      exact ⟨.refl i s, hown, hsince, hknown.list hsince (h.l2 ssid') rfl hl⟩
    · cases hx
  | getSentinel ssid' =>
    obtain rfl : ssid' = ssid := ha
    simp only [MemState.exec, hfault, Bool.false_eq_true, if_false] at hx
    split at hx
    · next hs =>
      obtain ⟨rfl, rfl⟩ := Prod.ext_iff.1 (Option.some.inj hx)
      refine ⟨MemState.next_setConfirming _, hown, hsince, ?_⟩
      show ReadPhase.Known _ _ _ (Function.update s.confirming i _ i) .sentinel
      rw [Function.update_self]
      exact ReadPhase.known_sentinel hsince ((h.l2 ssid').sentinel hs)
    · obtain ⟨rfl, rfl⟩ := Prod.ext_iff.1 (Option.some.inj hx)
      exact ⟨.refl i s, hown, hsince, ReadPhase.known_idle⟩
  | evalWarmIfVersion ssid' observed uids =>
    obtain ⟨rfl, v, rfl, hpair⟩ := ha
    simp only [MemState.exec, hfault, Bool.false_eq_true, if_false] at hx
    obtain ⟨-, rfl⟩ := Prod.ext_iff.1 (Option.some.inj hx)
    have hs : s.Next i (s.setConv ssid' ((s.convs ssid').warmIfVersion (toString v) uids).2) :=
      MemState.next_setConv (by rw [Conv.db_warmIfVersion])
        fun hg ↦ hg.warmIfVersion (hknown.pair v uids hpair)
    exact ⟨hs, hk.mono hs rfl rfl⟩
  | evalSentinelIfVersion ssid' observed =>
    obtain ⟨rfl, v, rfl, hpair⟩ := ha
    simp only [MemState.exec, hfault, Bool.false_eq_true, if_false] at hx
    obtain ⟨-, rfl⟩ := Prod.ext_iff.1 (Option.some.inj hx)
    have hs : s.Next i (s.setConv ssid' ((s.convs ssid').sentinelIfVersion (toString v)).2) :=
      MemState.next_setConv (by rw [Conv.db_sentinelIfVersion])
        fun hg ↦ hg.sentinelIfVersion (hknown.pair v [] hpair)
    exact ⟨hs, hk.mono hs rfl rfl⟩
  | callGetMemberIds ssid' =>
    obtain rfl : ssid' = ssid := ha
    simp only [MemState.exec] at hx
    split at hx
    · obtain ⟨rfl, rfl⟩ := Prod.ext_iff.1 (Option.some.inj hx)
      exact ⟨.refl i s, hown, hsince, ReadPhase.known_idle⟩
    · split at hx
      · next hl =>
        obtain ⟨rfl, rfl⟩ := Prod.ext_iff.1 (Option.some.inj hx)
        exact ⟨.refl i s, hown, hsince, hknown.fetch hsince hl⟩
      · cases hx
  | selectMembers ssid' =>
    obtain rfl : ssid' = ssid := ha
    simp only [MemState.exec, hfault, Bool.false_eq_true, if_false] at hx
    split at hx
    · next hl =>
      obtain ⟨rfl, rfl⟩ := Prod.ext_iff.1 (Option.some.inj hx)
      exact ⟨.refl i s, hown, hsince, hknown.fetch hsince hl⟩
    · cases hx
  | resolved ssid' n result =>
    obtain ⟨rfl, rfl, hres⟩ := ha
    obtain ⟨-, rfl⟩ := Prod.ext_iff.1 (Option.some.inj hx)
    have hs : s.Next i { s with results := s.results ++ [(ssid', n, result)] } :=
      MemState.next_resolved fun hne ↦ hknown.answer _ (hres hne)
    exact ⟨hs, hk.mono hs rfl rfl⟩
  | served ssid' n uids =>
    obtain ⟨rfl, rfl, hans⟩ := ha
    obtain ⟨-, rfl⟩ := Prod.ext_iff.1 (Option.some.inj hx)
    have hs : s.Next i { s with served := s.served ++ [(ssid', n, uids)] } :=
      MemState.next_served (hknown.answer _ hans)
    exact ⟨hs, hk.mono hs rfl rfl⟩
  | acquire inst ssid' =>
    simp only [MemState.exec] at hx
    split at hx
    · cases hx
    · obtain ⟨-, rfl⟩ := Prod.ext_iff.1 (Option.some.inj hx)
      exact ⟨MemState.next_setInflight inst ssid' true, hk⟩
  | release inst ssid' =>
    obtain ⟨-, rfl⟩ := Prod.ext_iff.1 (Option.some.inj hx)
    exact ⟨MemState.next_setInflight inst ssid' false, hk⟩
  | tryLock ssid' =>
    simp only [MemState.exec, hfault, Bool.false_eq_true, if_false] at hx
    obtain ⟨-, rfl⟩ := Prod.ext_iff.1 (Option.some.inj hx)
    exact ⟨.refl i s, hk⟩
  | unlock ssid' =>
    obtain ⟨-, rfl⟩ := Prod.ext_iff.1 (Option.some.inj hx)
    exact ⟨.refl i s, hk⟩
  | commitMembers ssid' members => exact False.elim ha
  | evalInvalidate ssid' => exact False.elim ha

/-- What a write's call does: it settles the change that it has committed. -/
theorem write_call {ssid : String} {ph : WritePhase} (hk : (MemThread.write ssid ph).Knows i s)
    (ha : (writeContract ssid).allowed ph o) (hfault : c.fault = false)
    (hx : MemState.exec i o c s = some (r, s')) :
    s.Next i s' ∧ (MemThread.write ssid ((writeContract ssid).next ph o r)).Knows i s' := by
  cases ph with
  | pending =>
    cases o with
    | commitMembers ssid' members =>
      obtain rfl : ssid' = ssid := ha
      obtain ⟨-, rfl⟩ := Prod.ext_iff.1 (Option.some.inj hx)
      have hs : s.Next i (s.setConv ssid' ((s.convs ssid').commit members)) :=
        MemState.next_setConv (Versioned.le_change _ members) fun hg ↦ hg.commit members
      refine ⟨{ hs with changed := fun j hj ↦ Function.update_of_ne hj _ _ }, fun _ ↦ ?_⟩
      exact s.changed_lt_commit i ssid' members
    | _ => exact False.elim ha
  | committed =>
    cases o with
    | evalInvalidate ssid' =>
      obtain rfl : ssid' = ssid := ha
      simp only [MemState.exec, hfault, Bool.false_eq_true, if_false] at hx
      split at hx
      · next conv hconv =>
        obtain ⟨rfl, rfl⟩ := Prod.ext_iff.1 (Option.some.inj hx)
        obtain ⟨hgood, hdb⟩ := Conv.invalidate_eq_some hconv
        have hs : s.Next i (s.setConv ssid' conv) :=
          MemState.next_setConv (hdb ▸ Versioned.le_raise _ _) fun _ ↦ hgood
        refine ⟨{ hs with completed := fun ssid k hmem ↦ ?_ }, nofun⟩
        exact MemState.completed_invalidate hconv (hk rfl) hmem
      · obtain ⟨rfl, rfl⟩ := Prod.ext_iff.1 (Option.some.inj hx)
        exact ⟨.refl i s, nofun⟩
    | _ => exact False.elim ha
  | done => cases o <;> exact False.elim ha

end Calls

/-! ### The result -/

theorem memInv_init : MemInv [] {} where
  l2 _ := Conv.good_init
  l1 := nofun
  completed := nofun
  threads := nofun
  results := nofun
  served := nofun

/-- A reader of the pool follows its contract. -/
theorem read_meets {own : Bool} {ssid : String} {since : List ℕ} {q : MemM Unit}
    (h : q.Meets (readContract own ssid since) .idle fun _ _ ↦ True) :
    q.Meets memContract (.read own ssid since .idle) fun _ _ ↦ True :=
  (h.map (D := memContract) (.read own ssid since) (fun _ _ ha ↦ ha) (fun _ _ _ _ ↦ trivial)
    fun _ _ _ ↦ rfl).mono fun _ _ _ ↦ trivial

theorem write_meets (ssid : String) (members : Finset String) :
    (write_members ssid members).Meets memContract (.write ssid .pending) fun _ _ ↦ True :=
  ((write_members_meets ssid members).map (D := memContract) (.write ssid) (fun _ _ ha ↦ ha)
    (fun _ _ _ _ ↦ trivial) fun _ _ _ ↦ rfl).mono fun _ _ _ ↦ trivial

/-- An event keeps the invariant, and every thread it starts meets its contract. -/
theorem memInv_event {cfg : ℕ → MembersConfig} {e : MemEv} {ts : List MemThread} {p p' : MemPool}
    (h : MemInv ts p.shared) (hm : p.Meets memContract (fun _ ↦ True) ts)
    (hx : MemState.env cfg e p = some p') :
    ∃ ts', MemInv ts' p'.shared ∧ p'.Meets memContract (fun _ ↦ True) ts' := by
  -- the threads stay as they are when a key or an entry is dropped
  have hdrop {s' : MemState} (hs : p.shared.Next ts.length s') : MemInv ts s' :=
    h.next hs fun j t hj ↦ .inl ⟨(List.getElem?_eq_some_iff.1 hj).1.ne, hj⟩
  cases e with
  | resolve inst ssid =>
    obtain rfl := Option.some.inj hx
    refine ⟨_, h.append (t := .read true ssid (p.shared.completed ssid) .idle) ?_
      ⟨fun _ ↦ ?_, h.completed ssid, ReadPhase.known_idle⟩,
      hm.spawn (read_meets (resolve_call_meets (cfg inst) inst)) _⟩
    · exact { MemState.Next.refl _ _ with calls := fun j hj ↦ List.mem_append_left _ hj }
    · show ts.length ∈ p.shared.calls ++ [p.threads.length]
      rw [hm.length_eq]
      exact List.mem_append_right _ (List.mem_singleton_self _)
  | getMemberIds auth_user ssid =>
    obtain rfl := Option.some.inj hx
    exact ⟨_, h.append (t := .read false ssid (p.shared.completed ssid) .idle) (.refl _ _)
      ⟨nofun, h.completed ssid, ReadPhase.known_idle⟩,
      hm.spawn (read_meets (getMemberIds_meets auth_user)) _⟩
  | write ssid members =>
    obtain rfl := Option.some.inj hx
    exact ⟨_, h.append (t := .write ssid .pending) (.refl _ _) nofun,
      hm.spawn (write_meets ssid members) _⟩
  | expireMembers ssid =>
    obtain rfl := Option.some.inj hx
    refine ⟨ts, hdrop (MemState.next_setConv (le_refl _) fun hg ↦ ?_), hm⟩
    exact ⟨fun hne ↦ absurd rfl hne, hg.sentinel⟩
  | expireSentinel ssid =>
    obtain rfl := Option.some.inj hx
    refine ⟨ts, hdrop (MemState.next_setConv (le_refl _) fun hg ↦ ?_), hm⟩
    exact ⟨hg.members, nofun⟩
  | evict inst ssid =>
    obtain rfl := Option.some.inj hx
    exact ⟨ts, hdrop (MemState.next_evict inst ssid), hm⟩

/-- The invariant holds in every reachable state. -/
theorem memInv_of_reach {cfg : ℕ → MembersConfig} {p : MemPool}
    (hr : (membersCache cfg).Reach unmovedSinceSentinel MemState.init p) :
    ∃ ts, MemInv ts p.shared ∧ p.Meets memContract (fun _ ↦ True) ts := by
  refine Machine.invariant hr ⟨[], memInv_init, .nil⟩ ?_ ?_
  · intro ts s i t o c r s' hinv hi ha hG hx
    refine ⟨trivial, ?_⟩
    cases t with
    | read own ssid since ph =>
      obtain ⟨hs, hk⟩ := read_call hinv (hinv.threads i _ hi) ha hG hx
      exact hinv.set hs hk
    | write ssid ph =>
      obtain ⟨hs, hk⟩ := write_call (hinv.threads i _ hi) ha hG.1 hx
      exact hinv.set hs hk
  · intro ts p e p' hinv hm _ hx
    exact memInv_event hinv hm hx

/-- **Freshness of the members cache**, on any number of instances, in every run in which no store
fails and no version moves between a hit on the sentinel and the reading of the version after it. -/
theorem membersFresh_of_unmoved (cfg : ℕ → MembersConfig) (p : MemPool)
    (hr : (membersCache cfg).Reach unmovedSinceSentinel MemState.init p) :
    MembersFresh p.shared := by
  obtain ⟨ts, h, -⟩ := memInv_of_reach hr
  exact h.results

/-- GetMemberIds does not keep what it reads, and is fresh alike. -/
theorem servedFresh_of_unmoved (cfg : ℕ → MembersConfig) (p : MemPool)
    (hr : (membersCache cfg).Reach unmovedSinceSentinel MemState.init p) :
    ServedFresh p.shared := by
  obtain ⟨ts, h, -⟩ := memInv_of_reach hr
  exact h.served

/-! ### Runs -/

instance (i : ℕ) (o : MemOp) (c : MemChoice) (s : MemState) : Decidable (noFault.onOp i o c s) :=
  inferInstanceAs (Decidable (c.fault = false))

instance (e : MemEv) (p : MemPool) : Decidable (noFault.onEv e p) := .isTrue trivial

instance (i : ℕ) (o : MemOp) (c : MemChoice) (s : MemState) :
    Decidable (unmovedSinceSentinel.onOp i o c s) :=
  inferInstanceAs (Decidable (_ ∧ ∀ ssid ∈ o.versionRead, _ → ∀ v ∈ s.confirming i, _))

instance (e : MemEv) (p : MemPool) : Decidable (unmovedSinceSentinel.onEv e p) := .isTrue trivial

instance (s : MemState) : Decidable (MembersFresh s) :=
  inferInstanceAs (Decidable (∀ q ∈ s.results, _ → ∀ k ∈ q.2.1, _))

/-- Thread `i` makes its next `n` calls. -/
def steps (i n : ℕ) : List MemLabel := List.replicate n (.call i {})

/-- Somebody asks for the members of a conversation that does not exist, and GetMemberIds leaves a
sentinel; then a call of `resolve_members` finds it, and has not read the version yet. -/
def sentinelFound : List MemLabel :=
  .event (.getMemberIds "alice" "c1") :: steps 0 7 ++ .event (.resolve 0 "c1") :: steps 1 7

/-- The conversation is created, by thread `i`. -/
def created (i : ℕ) : List MemLabel :=
  .event (.write "c1" {"alice", "bob"}) :: steps i 2

/-- The call of thread 1 ends, and keeps the sentinel in L1. -/
def sentinelKept : List MemLabel := steps 1 4

/-- A call that finds the L1 entry. -/
def foundInL1 (i : ℕ) : List MemLabel := .event (.resolve 0 "c1") :: steps i 3

/-- A call that finds the L1 entry outdated and asks the conversation service. -/
def warmed (i : ℕ) : List MemLabel :=
  .event (.resolve 0 "c1") :: steps i 11 ++
    .call i { order := ["bob", "alice"] } :: steps i 5

/-- Kept under the version at which it was found, the sentinel is given up when the conversation is
created; the calls after that get the members, from the service and then from L1. -/
theorem membersFresh_after_creation :
    ∃ p, (membersCache fun _ ↦ {}).Reach unmovedSinceSentinel MemState.init p ∧
      p.shared.results.map (fun q ↦ (q.2.1, q.2.2.members, q.2.2.confirmed_empty)) =
        [([], [], true), ([1], ["bob", "alice"], false), ([1], ["bob", "alice"], false)] ∧
      MembersFresh p.shared := by
  obtain ⟨p, hp, hres⟩ := Machine.exists_of_run (membersCache fun _ ↦ {}) unmovedSinceSentinel
    MemState.init (sentinelFound ++ sentinelKept ++ created 2 ++ warmed 3 ++ foundInL1 4)
    (fun p ↦ p.shared.results.map (fun q ↦ (q.2.1, q.2.2.members, q.2.2.confirmed_empty)) =
      [([], [], true), ([1], ["bob", "alice"], false), ([1], ["bob", "alice"], false)]) (by decide)
  exact ⟨p, hp, hres, membersFresh_of_unmoved _ p hp⟩

/-- The conversation is created between the hit on the sentinel and the reading of the version: the
next call is told that it does not exist. -/
theorem stale_sentinel_is_served :
    ∃ p, (membersCache fun _ ↦ {}).Reach noFault MemState.init p ∧ ¬ MembersFresh p.shared :=
  Machine.exists_of_run (membersCache fun _ ↦ {}) noFault MemState.init
    (sentinelFound ++ created 2 ++ sentinelKept ++ foundInL1 3)
    (fun p ↦ ¬ MembersFresh p.shared) (by decide)

end ChatNow
