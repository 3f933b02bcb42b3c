import ChatNow.Members.Fence

/-!
# The members key, kept by single changes

`Members::add` and `Members::remove` of `common/dao/data_redis.hpp` bring one change of the
membership to the members key, which at other times is written as a whole: by warms that are fenced
by the version. `Members::list_snapshot` takes whatever it finds for the whole membership, unless it
finds nothing.

The machine is one conversation. A change is a thread that commits it and then runs one of the two
scripts; readers that warm the key, invalidations and snapshots are threads as well, and the key may
expire at any time. Beside the keys stands the moment that the members key shows (`shown`), which
Redis does not know.

## Main results

* `mirrored_snapshots`: what the snapshots show while every change finds the key in step.
-/

namespace ChatNow

open Prog

/-! ### Changes -/

/-- A change of the membership. -/
inductive MemberChange
  | join (uid : String)
  | leave (uid : String)
  deriving DecidableEq

namespace MemberChange

/-- Whom it is about. -/
def uid : MemberChange → String
  | join uid => uid
  | leave uid => uid

/-- The members after it. -/
def apply : MemberChange → Finset String → Finset String
  | join uid, members => insert uid members
  | leave uid, members => members.erase uid

end MemberChange

/-- Beside the operations of the members cache. -/
inductive MirrorOp
  | cache (o : MemOp)
  /-- The transaction of a change. -/
  | commitChange (change : MemberChange)
  /-- `kAddMemberLua`. -/
  | evalAdd (uid : String)
  /-- `kRemoveMemberLua`. -/
  | evalRemove (uid : String)
  /-- A snapshot has been taken. -/
  | listed (snap : Members.Snapshot)

/-- What each operation answers. -/
@[reducible]
def MirrorOp.Res : MirrorOp → Type
  | cache o => o.Res
  | commitChange _ => Unit
  | evalAdd _ => Reply Unit
  | evalRemove _ => Reply Unit
  | listed _ => Unit

abbrev MirrorM := Prog MirrorOp MirrorOp.Res

open MirrorOp

namespace Members

/-- `Members::add`, which swallows what it catches. -/
def add (uid : String) : MirrorM Unit := do
  let _ ← op (evalAdd uid)
  return ()

/-- `Members::remove`. -/
def remove (uid : String) : MirrorM Unit := do
  let _ ← op (evalRemove uid)
  return ()

end Members

/-- A change is committed and brought to the members key. -/
def mirrored_change : MemberChange → MirrorM Unit
  | .join uid => do
    op (commitChange (.join uid))
    Members.add uid
  | .leave uid => do
    op (commitChange (.leave uid))
    Members.remove uid

/-- A snapshot. -/
def snapshot_call (ssid : String) : MirrorM Unit := do
  let snap ← (Members.list_snapshot ssid).lift cache
  op (listed snap)

/-! ### The machine -/

namespace Conv

variable (c : Conv)

/-- `INCR` of the version key after the change at moment `m`; an error past the last number. -/
def incr (m : ℕ) : Conv :=
  if h : c.db.version + 1 < 2 ^ 63 then { c with db := c.db.raise m, version_lt := h } else c

/-- What the two scripts for one member share: the set is written, the sentinel goes, and then comes
the `INCR`, whose error does not take the writes back. -/
def mirror (m : ℕ) (members : Finset String) : Conv :=
  { c.incr m with members := members, sentinel := false }

theorem le_incr (m : ℕ) : c.db ≤ (c.incr m).db := by
  rw [incr]
  split
  · exact c.db.le_raise m
  · exact le_refl _

theorem history_incr (m : ℕ) : (c.incr m).db.history = c.db.history := by
  rw [incr]
  split <;> rfl

theorem settled_incr_le (m : ℕ) : (c.incr m).db.settled ≤ max c.db.settled m := by
  rw [incr]
  split
  · show (if _ then _ else _) ≤ _
    split
    · exact le_refl _
    · exact le_max_left _ _
  · exact le_max_left _ _

end Conv

theorem start_version_lt : (Versioned.start (∅ : Finset String)).version < 2 ^ 63 := by decide

/-- The conversation, and what has happened. -/
structure MirrorState where
  conv : Conv := { version_lt := start_version_lt }
  /-- The changes; the `j`-th one leads from moment `j` to the next. -/
  changes : List MemberChange := []
  /-- The moment whose members the members key shows. -/
  shown : ℕ := 0
  /-- The moment of the change that a thread has committed. -/
  changed : ℕ → ℕ := fun _ ↦ 0
  /-- The moment at which a thread has read the members from the database. -/
  read_at : ℕ → ℕ := fun _ ↦ 0
  /-- The last change that had been mirrored when a thread last read the version. -/
  since : ℕ → ℕ := fun _ ↦ 0
  /-- The snapshots, each with the last change that had been mirrored when it was complete. -/
  listings : List (ℕ × Members.Snapshot) := []

namespace MirrorState

variable (s : MirrorState)

/-- The script of thread `i` for one member. -/
def mirror (i : ℕ) (members : Finset String) : Reply Unit × MirrorState :=
  let m := s.changed i
  (if s.conv.db.version + 1 < 2 ^ 63 then .ok () else .thrown,
    { s with
      conv := s.conv.mirror m members
      shown := if s.conv.members = ∅ then m else max s.shown m })

/-- The effect of a call by thread `i`. -/
def exec (i : ℕ) : (o : MirrorOp) → MemChoice → MirrorState → Option (o.Res × MirrorState)
  | cache (.getVersion _), c, s =>
    if c.fault then some (.thrown, s)
    else some (.ok s.conv.version_key,
      { s with since := Function.update s.since i s.conv.db.settled })
  | cache (.smembers _), c, s =>
    if c.fault then some (.thrown, s)
    else if Lists c.order s.conv.members then some (.ok c.order, s)
    else none
  | cache (.selectMembers _), c, s =>
    if c.fault then some ([], s)
    else if Lists c.order s.conv.db.current then
      some (c.order, { s with read_at := Function.update s.read_at i s.conv.db.now })
    else none
  | cache (.evalWarmIfVersion _ observed uids), c, s =>
    if c.fault then some (.thrown, s)
    else
      let r := s.conv.warmIfVersion observed uids
      some (.ok r.1, { s with conv := r.2, shown := if r.1 = 1 then s.read_at i else s.shown })
  | cache (.evalInvalidate _), c, s =>
    if c.fault then some (.thrown, s)
    else
      match s.conv.invalidate 0 with
      | some conv => some (.ok (), { s with conv := conv })
      | none => some (.thrown, s)
  | cache _, _, _ => none
  | commitChange change, _, s =>
    some ((), { s with
      conv := s.conv.commit (change.apply s.conv.db.current)
      changes := s.changes ++ [change]
      changed := Function.update s.changed i s.conv.db.history.length })
  | evalAdd uid, c, s =>
    if c.fault then some (.thrown, s) else some (s.mirror i (insert uid s.conv.members))
  | evalRemove uid, c, s =>
    if c.fault then some (.thrown, s) else some (s.mirror i (s.conv.members.erase uid))
  | listed snap, _, s => some ((), { s with listings := s.listings ++ [(s.since i, snap)] })

end MirrorState

/-- What can happen beside the calls. -/
inductive MirrorEv
  /-- A change of the membership begins. -/
  | change (change : MemberChange)
  /-- A reader begins that is to warm the members key. -/
  | warm (ssid : String)
  /-- `Members::invalidate` begins. -/
  | invalidate (ssid : String)
  /-- A snapshot begins. -/
  | snapshot (ssid : String)
  /-- The members key expires. -/
  | expire

abbrev MirrorPool := Pool MirrorOp MirrorOp.Res MirrorState

/-- The effect of an event. -/
def MirrorState.env : MirrorEv → MirrorPool → Option MirrorPool
  | .change change, p => some ⟨p.threads ++ [mirrored_change change], p.shared⟩
  | .warm ssid, p => some ⟨p.threads ++ [(fenced_reader ssid false).lift cache], p.shared⟩
  | .invalidate ssid, p => some ⟨p.threads ++ [(Members.invalidate ssid).lift cache], p.shared⟩
  | .snapshot ssid, p => some ⟨p.threads ++ [snapshot_call ssid], p.shared⟩
  | .expire, p =>
    some ⟨p.threads, { p.shared with conv := { p.shared.conv with members := ∅ } }⟩

/-- The members key of one conversation. -/
def mirroredMembers : Machine MirrorOp MirrorOp.Res MirrorState MemChoice MirrorEv :=
  ⟨MirrorState.exec, MirrorState.env⟩

def MirrorState.init : MirrorPool := ⟨[], {}⟩

/-! ### The condition -/

abbrev MirrorGuard := Machine.Guard MirrorOp MirrorOp.Res MirrorState MemChoice MirrorEv

/-- The script for a member finds the members key as it has to: it shows the members right before
the change, or those at a later moment up to which nothing else has happened to that member. Or the
key is not there, and nobody is to be added to it but a member who is then the only one. -/
def MirrorState.InStep (s : MirrorState) (i : ℕ) (change : MemberChange) : Prop :=
  if s.conv.members = ∅ then
    change = .join change.uid → s.conv.db.history[s.changed i]? = some {change.uid} ∧
      s.conv.db.settled ≤ s.changed i
  else
    s.changed i ≤ s.shown + 1 ∧
      ∀ j < s.shown, s.changed i ≤ j → s.changes[j]?.all (·.uid ≠ change.uid) = true

instance (s : MirrorState) (i : ℕ) (change : MemberChange) : Decidable (s.InStep i change) :=
  inferInstanceAs (Decidable (ite _ _ _))

/-- Every change finds the members key in step. -/
def changesInStep : MirrorGuard where
  onOp i o c s :=
    match o with
    | evalAdd uid => c.fault = false → s.InStep i (.join uid)
    | evalRemove uid => c.fault = false → s.InStep i (.leave uid)
    | _ => True
  onEv _ _ := True

/-- Every snapshot that is stable and not empty shows the members at the moment of the last change
that had been mirrored, or a later one. -/
def MirrorState.SnapshotsComplete (s : MirrorState) : Prop :=
  ∀ x ∈ s.listings, x.2.stable = true → x.2.members ≠ [] →
    s.conv.db.FreshSince x.1 x.2.members.toFinset

/-! ### What the threads know -/

/-- How far a thread has come. -/
inductive MirrorPhase
  | idle
  /-- It has read the version. -/
  | observed (version : ℕ)
  /-- Then the members from the database. -/
  | fetched (version : ℕ) (uids : List String)
  /-- Or the members key. -/
  | listed (version : ℕ) (uids : List String)
  /-- And the version once more. -/
  | checked (version : ℕ) (uids : List String) (version' : ℕ)
  /-- It has committed a change. -/
  | committed (change : MemberChange)

namespace MirrorPhase

/-- After a reading of the version. -/
def reread : MirrorPhase → ℕ → MirrorPhase
  | listed v uids, v' => checked v uids v'
  | _, v => observed v

/-- After an answer of the database. -/
def fetch : MirrorPhase → List String → MirrorPhase
  | observed v, uids => fetched v uids
  | _, _ => idle

/-- After an answer to `SMEMBERS`. -/
def list : MirrorPhase → Reply (List String) → MirrorPhase
  | observed v, .ok uids => listed v uids
  | _, _ => idle

end MirrorPhase

/-- The contract of the threads: what is written as a whole has been read under the version that is
named, a snapshot that counts has been read between two equal versions, and a script for one member
follows the commit of its change. -/
def mirrorContract : Contract MirrorOp MirrorOp.Res MirrorPhase where
  allowed ph o :=
    match o with
    | cache (.evalWarmIfVersion _ observed uids) =>
      ∃ v, observed = toString v ∧ cache_version_is_known v = true ∧ uids ≠ [] ∧
        ph = .fetched v uids
    | cache _ => True
    | commitChange _ => True
    | evalAdd uid => ph = .committed (.join uid)
    | evalRemove uid => ph = .committed (.leave uid)
    | listed snap => snap.stable = true → snap.members ≠ [] →
      ∃ v, cache_version_is_known v = true ∧ ph = .checked v snap.members v
  admits _ _ _ := True
  next ph o r :=
    match o, r with
    | cache (.getVersion _), r => ph.reread (Members.version_of r)
    | cache (.smembers _), r => ph.list r
    | cache (.selectMembers _), uids => ph.fetch uids
    | commitChange change, _ => .committed change
    | _, _ => .idle

section Meets

variable {ssid : String} {ph : MirrorPhase}

theorem version_mirror : (Members.version ssid).Meets (mirrorContract.comap cache) ph
    fun ph' v ↦ ph' = ph.reread v :=
  ⟨trivial, fun _ _ ↦ rfl⟩

theorem list_snapshot_mirror : (Members.list_snapshot ssid).Meets (mirrorContract.comap cache) .idle
    fun ph snap ↦ mirrorContract.allowed ph (.listed snap) := by
  refine version_mirror.bind ?_
  rintro _ before rfl
  refine meets_op_bind.2 ⟨trivial, fun r _ ↦ ?_⟩
  cases r with
  | thrown => exact fun h ↦ absurd h Bool.false_ne_true
  | ok members =>
    refine version_mirror.bind ?_
    rintro _ after rfl hstable -
    obtain rfl : before = after := eq_of_accepts_warm hstable
    exact ⟨before, known_of_accepts_warm hstable, rfl⟩

theorem snapshot_call_mirror : (snapshot_call ssid).Meets mirrorContract .idle fun _ _ ↦ True :=
  (list_snapshot_mirror.lift).bind fun _ _ h ↦ ⟨h, fun _ _ ↦ trivial⟩

theorem fenced_reader_mirror : ((fenced_reader ssid false).lift cache).Meets mirrorContract .idle
    fun _ _ ↦ True := by
  refine Meets.lift (C := mirrorContract) (f := cache) (version_mirror.bind ?_)
  rintro _ v rfl
  refine meets_op_bind.2 ⟨trivial, fun uids _ ↦ ?_⟩
  refine Meets.bind (Q := fun _ _ ↦ True) ?_ fun _ _ _ ↦ trivial
  rw [Members.warm_if_version]
  split
  · exact trivial
  · next hne =>
    split
    · exact trivial
    · next hknown =>
      refine meets_op_bind.2 ⟨⟨v, rfl, by simpa using hknown, by simpa using hne, rfl⟩,
        fun r _ ↦ ?_⟩
      cases r with
      | ok n => exact trivial
      | thrown => exact trivial

theorem invalidate_mirror : ((Members.invalidate ssid).lift cache).Meets mirrorContract .idle
    fun _ _ ↦ True :=
  ⟨trivial, fun _ _ ↦ trivial⟩

theorem mirrored_change_mirror (change : MemberChange) :
    (mirrored_change change).Meets mirrorContract .idle fun _ _ ↦ True := by
  cases change with
  | join uid => exact ⟨trivial, fun _ _ ↦ ⟨rfl, fun _ _ ↦ trivial⟩⟩
  | leave uid => exact ⟨trivial, fun _ _ ↦ ⟨rfl, fun _ _ ↦ trivial⟩⟩

end Meets

/-! ### What the members key shows -/

namespace MemberChange

variable {change : MemberChange} {members : Finset String} {uid : String}

theorem mem_apply_of_ne (h : change.uid ≠ uid) : uid ∈ change.apply members ↔ uid ∈ members := by
  cases change with
  | join uid' => exact Finset.mem_insert.trans (or_iff_right fun heq ↦ h heq.symm)
  | leave uid' => exact Finset.mem_erase.trans (and_iff_right fun heq ↦ h heq.symm)

/-- A change that agrees with what is there leaves it. -/
theorem apply_of_mem_iff {members' : Finset String}
    (h : change.uid ∈ members' ↔ change.uid ∈ change.apply members) :
    change.apply members' = members' := by
  cases change with
  | join uid => exact Finset.insert_eq_of_mem (h.2 (Finset.mem_insert_self _ _))
  | leave uid => exact Finset.erase_eq_of_notMem fun hmem ↦ Finset.notMem_erase _ _ (h.1 hmem)

end MemberChange

namespace MirrorState

/-- The changes lead from one membership to the next. -/
structure Follows (s : MirrorState) : Prop where
  length : s.changes.length + 1 = s.conv.db.history.length
  step : ∀ {j change members}, s.changes[j]? = some change →
    s.conv.db.history[j]? = some members → s.conv.db.history[j + 1]? = some (change.apply members)

/-- The members key shows the members at the moment that it stands for, and that is as late as the
last change that has been mirrored. -/
def Shows (s : MirrorState) : Prop :=
  s.conv.members ≠ ∅ →
    s.conv.db.history[s.shown]? = some s.conv.members ∧ s.conv.db.settled ≤ s.shown

variable {s : MirrorState} {i m k : ℕ} {change : MemberChange}

theorem Follows.exists_members (h : s.Follows) (hm : s.changes[m]? = some change) :
    ∃ members, s.conv.db.history[m]? = some members := by
  have hlt := (List.getElem?_eq_some_iff.1 hm).1
  have hlen := h.length
  exact ⟨_, List.getElem?_eq_getElem (by omega)⟩

/-- A member to whom nothing happens stays what it is. -/
theorem Follows.mem_iff (h : s.Follows) {uid : String} {members members' : Finset String}
    (hmk : m ≤ k) (hm : s.conv.db.history[m]? = some members)
    (hk : s.conv.db.history[k]? = some members')
    (hother : ∀ j < k, m ≤ j → s.changes[j]?.all (·.uid ≠ uid) = true) :
    uid ∈ members' ↔ uid ∈ members := by
  induction k, hmk using Nat.le_induction generalizing members' with
  | base =>
    obtain rfl := Option.some.inj (hm.symm.trans hk)
    exact Iff.rfl
  | succ k hmk ih =>
    have hlt := (List.getElem?_eq_some_iff.1 hk).1
    have hlen := h.length
    obtain ⟨change, hchange⟩ : ∃ change, s.changes[k]? = some change :=
      ⟨_, List.getElem?_eq_getElem (by omega)⟩
    obtain ⟨before, hbefore⟩ := h.exists_members hchange
    obtain rfl := Option.some.inj (hk.symm.trans (h.step hchange hbefore))
    have hne := hother k (Nat.lt_succ_self k) hmk
    rw [hchange, Option.all_some] at hne
    rw [MemberChange.mem_apply_of_ne (of_decide_eq_true hne)]
    exact ih hbefore fun j hj ↦ hother j (Nat.lt_succ_of_lt hj)

/-- **The script for one member**, if it finds the key in step, leaves it showing a membership. -/
theorem Follows.shows_mirror (h : s.Follows) (hs : s.Shows) (hchange : s.changes[m]? = some change)
    (hm : s.changed i = m + 1) (hstep : s.InStep i change) :
    (s.mirror i (change.apply s.conv.members)).2.Shows := by
  intro hne
  have hsettled := s.conv.settled_incr_le (m + 1)
  obtain ⟨members, hmembers⟩ := h.exists_members hchange
  have hafter := h.step hchange hmembers
  simp only [mirror, Conv.mirror, hm, Conv.history_incr] at hne ⊢
  unfold InStep at hstep
  by_cases hempty : s.conv.members = ∅
  · rw [if_pos hempty] at hstep ⊢
    rw [hempty] at hne ⊢
    cases change with
    | leave uid => exact absurd (Finset.erase_empty uid) hne
    | join uid =>
      obtain ⟨honly, hle⟩ := hstep rfl
      rw [hm] at honly hle
      refine ⟨honly, hsettled.trans (max_le hle le_rfl)⟩
  · rw [if_neg hempty] at hstep ⊢
    obtain ⟨hshown, hle⟩ := hs hempty
    obtain ⟨hnext, hother⟩ := hstep
    rw [hm] at hnext hother
    rcases Nat.lt_or_ge s.shown (m + 1) with hlt | hge
    · -- the key shows the members right before the change
      obtain rfl : s.shown = m := by omega
      obtain rfl := Option.some.inj (hmembers.symm.trans hshown)
      rw [max_eq_right hlt.le]
      exact ⟨hafter, hsettled.trans (max_le (by omega) le_rfl)⟩
    · -- the change has been shown before
      have hmem := h.mem_iff hge hafter hshown hother
      rw [max_eq_left hge, MemberChange.apply_of_mem_iff hmem]
      exact ⟨hshown, hsettled.trans (max_le hle hge)⟩

end MirrorState

/-! ### The invariant -/

/-- What thread `i` knows. -/
def MirrorPhase.Known (i : ℕ) (s : MirrorState) : MirrorPhase → Prop
  | idle => True
  | observed v => cache_version_is_known v = true → v ≤ s.conv.db.version
  | fetched v uids => cache_version_is_known v = true → uids ≠ [] →
    s.conv.db.ReadAt v (s.read_at i) ∧ s.conv.db.history[s.read_at i]? = some uids.toFinset
  | listed v uids => cache_version_is_known v = true → uids ≠ [] →
    s.conv.db.FreshAt v uids.toFinset
  | checked v uids v' => cache_version_is_known v = true → uids ≠ [] → v = v' →
    s.conv.db.FreshSince (s.since i) uids.toFinset
  | committed change => ∃ m, s.changed i = m + 1 ∧ s.changes[m]? = some change

/-- A step of thread `i`, as the others see it. -/
structure MirrorState.Next (i : ℕ) (s s' : MirrorState) : Prop where
  db : s.conv.db ≤ s'.conv.db
  changes : s.changes <+: s'.changes
  read_at : ∀ j, j ≠ i → s'.read_at j = s.read_at j
  since : ∀ j, j ≠ i → s'.since j = s.since j
  changed : ∀ j, j ≠ i → s'.changed j = s.changed j

section Known

variable {s s' : MirrorState} {i j : ℕ} {ph : MirrorPhase}

theorem getElem?_of_prefix {α : Type} {l l' : List α} (h : l <+: l') {k : ℕ} {a : α}
    (hk : l[k]? = some a) : l'[k]? = some a := by
  obtain ⟨t, rfl⟩ := h
  rw [List.getElem?_append_left (List.getElem?_eq_some_iff.1 hk).1]
  exact hk

/-- What is known stays known when the thread's own readings are what they were. -/
theorem MirrorPhase.Known.of_le (h : ph.Known j s) (hdb : s.conv.db ≤ s'.conv.db)
    (hchanges : s.changes <+: s'.changes) (hread : s'.read_at j = s.read_at j)
    (hsince : s'.since j = s.since j) (hchanged : s'.changed j = s.changed j) :
    ph.Known j s' := by
  cases ph with
  | idle => exact trivial
  | observed v => exact fun hv ↦ (h hv).trans hdb.2.1
  | fetched v uids =>
    intro hv hne
    obtain ⟨hat, hget⟩ := h hv hne
    rw [hread]
    exact ⟨hat.of_le hdb, getElem?_of_prefix hdb.1 hget⟩
  | listed v uids => exact fun hv hne ↦ (h hv hne).of_le hdb
  | checked v uids v' =>
    intro hv hne heq
    rw [hsince]
    exact (h hv hne heq).of_le hdb
  | committed change =>
    obtain ⟨m, hm, hget⟩ := h
    exact ⟨m, hchanged.trans hm, getElem?_of_prefix hchanges hget⟩

end Known

/-- What holds in every state. -/
structure MirrorInv (ts : List MirrorPhase) (s : MirrorState) : Prop where
  follows : s.Follows
  shows : s.Shows
  complete : s.SnapshotsComplete
  threads : ∀ (i : ℕ) (ph : MirrorPhase), ts[i]? = some ph → ph.Known i s

namespace MirrorInv

variable {ts : List MirrorPhase} {s s' : MirrorState} {i : ℕ} {ph : MirrorPhase}

/-- A call of thread `i`. -/
theorem set (h : MirrorInv ts s) (hs : s.Next i s') (hfollows : s'.Follows) (hshows : s'.Shows)
    (hcomplete : s'.SnapshotsComplete) (hph : ph.Known i s') : MirrorInv (ts.set i ph) s' where
  follows := hfollows
  shows := hshows
  complete := hcomplete
  threads j ph' hj := by
    rcases Pool.getElem?_set_cases hj with ⟨rfl, rfl⟩ | ⟨hne, hj⟩
    · exact hph
    · exact (h.threads j ph' hj).of_le hs.db hs.changes (hs.read_at j hne) (hs.since j hne)
        (hs.changed j hne)

/-- A thread joins. -/
theorem append (h : MirrorInv ts s) : MirrorInv (ts ++ [.idle]) s where
  follows := h.follows
  shows := h.shows
  complete := h.complete
  threads j ph hj := by
    rcases Pool.getElem?_append_cases hj with ⟨rfl, rfl⟩ | ⟨-, hj⟩
    · exact trivial
    · exact h.threads j ph hj

/-- The members key expires. -/
theorem expire (h : MirrorInv ts s) :
    MirrorInv ts { s with conv := { s.conv with members := ∅ } } where
  follows := ⟨h.follows.length, h.follows.step⟩
  shows hne := absurd rfl hne
  complete := h.complete
  threads j ph hj := (h.threads j ph hj).of_le (le_refl _) (List.prefix_refl _) rfl rfl rfl

end MirrorInv

namespace MirrorState

variable {s : MirrorState} {i : ℕ}

theorem SnapshotsComplete.of_le {s' : MirrorState} (h : s.SnapshotsComplete)
    (hdb : s.conv.db ≤ s'.conv.db) (hl : s'.listings = s.listings) : s'.SnapshotsComplete := by
  intro x hx hstable hne
  rw [hl] at hx
  exact (h x hx hstable hne).of_le hdb

theorem Next.refl (i : ℕ) (s : MirrorState) : s.Next i s :=
  ⟨le_refl _, List.prefix_refl _, fun _ _ ↦ rfl, fun _ _ ↦ rfl, fun _ _ ↦ rfl⟩

theorem Follows.commit (h : s.Follows) (change : MemberChange) {changed : ℕ → ℕ} :
    Follows { s with
      conv := s.conv.commit (change.apply s.conv.db.current)
      changes := s.changes ++ [change]
      changed := changed } where
  length := by
    show (s.changes ++ [change]).length + 1 = (s.conv.db.history ++ [_]).length
    rw [List.length_append, List.length_append, ← h.length]
    rfl
  step {j change' members} hj hmembers := by
    have hlen := h.length
    show (s.conv.db.history ++ [change.apply s.conv.db.current])[j + 1]? = _
    rcases Pool.getElem?_append_cases hj with ⟨rfl, rfl⟩ | ⟨hlt, hj⟩
    · have hlast : s.conv.db.history[s.changes.length]? = some s.conv.db.current := by
        rw [show s.changes.length = s.conv.db.history.length - 1 by omega,
          ← List.getLast?_eq_getElem?, List.getLast?_eq_some_getLast s.conv.db.history_ne_nil]
        rfl
      obtain rfl := Option.some.inj ((Pool.getElem?_append_of_some hlast).symm.trans hmembers)
      rw [hlen, List.getElem?_concat_length]
    · have hmembers' : s.conv.db.history[j]? = some members := by
        rw [← hmembers]
        exact (List.getElem?_append_left (by omega)).symm
      exact Pool.getElem?_append_of_some (h.step hj hmembers')

end MirrorState

/-! ### Every call keeps it -/

section Calls

variable {ts : List MirrorPhase} {s s' : MirrorState} {i : ℕ} {ph : MirrorPhase} {c : MemChoice}

/-- A call without an effect. -/
theorem MirrorInv.same (h : MirrorInv ts s) (hph : ph.Known i s) : MirrorInv (ts.set i ph) s :=
  h.set (.refl i s) h.follows h.shows h.complete hph

theorem Members.not_known_thrown : cache_version_is_known (Members.version_of .thrown) ≠ true := by
  decide

/-- The version is read, for the first time or once more. -/
theorem MirrorPhase.Known.reread (h : ph.Known i s) :
    (ph.reread s.conv.db.version).Known i
      { s with since := Function.update s.since i s.conv.db.settled } := by
  cases ph with
  | listed v uids =>
    rintro hv hne rfl
    show s.conv.db.FreshSince (Function.update s.since i s.conv.db.settled i) _
    rw [Function.update_self]
    exact (h hv hne).fresh
  | _ => exact fun _ ↦ le_refl _

theorem MirrorPhase.Known.reread_thrown : (ph.reread (Members.version_of .thrown)).Known i s := by
  cases ph with
  | listed v uids =>
    rintro hv - rfl
    exact absurd hv Members.not_known_thrown
  | _ => exact fun hv ↦ absurd hv Members.not_known_thrown

theorem MirrorInv.getVersion {ssid : String} {r : Reply (Option String)} (h : MirrorInv ts s)
    (hi : ts[i]? = some ph)
    (hx : MirrorState.exec i (cache (.getVersion ssid)) c s = some (r, s')) :
    MirrorInv (ts.set i (ph.reread (Members.version_of r))) s' := by
  have hk := h.threads i ph hi
  change (if c.fault then some (Reply.thrown, s) else _) = _ at hx
  split at hx
  · obtain ⟨rfl, rfl⟩ := Prod.mk.inj (Option.some.inj hx)
    exact h.same MirrorPhase.Known.reread_thrown
  · obtain ⟨rfl, rfl⟩ := Prod.mk.inj (Option.some.inj hx)
    rw [Conv.version_of_key]
    exact h.set ⟨le_refl _, List.prefix_refl _, fun _ _ ↦ rfl,
      fun j hj ↦ Function.update_of_ne hj _ _, fun _ _ ↦ rfl⟩ ⟨h.follows.length, h.follows.step⟩
      h.shows h.complete hk.reread

theorem MirrorInv.smembers {ssid : String} {r : Reply (List String)} (h : MirrorInv ts s)
    (hi : ts[i]? = some ph)
    (hx : MirrorState.exec i (cache (.smembers ssid)) c s = some (r, s')) :
    MirrorInv (ts.set i (ph.list r)) s' := by
  have hk := h.threads i ph hi
  change (if c.fault then some (Reply.thrown, s) else _) = _ at hx
  split at hx
  · obtain ⟨rfl, rfl⟩ := Prod.mk.inj (Option.some.inj hx)
    refine h.same ?_
    cases ph <;> exact trivial
  · split at hx
    · next hlists =>
      obtain ⟨rfl, rfl⟩ := Prod.mk.inj (Option.some.inj hx)
      refine h.same ?_
      cases ph with
      | observed v =>
        intro hv hne
        have hmembers : s.conv.members ≠ ∅ := by
          rw [← hlists.2]
          exact (List.toFinset_nonempty_iff _).2 hne |>.ne_empty
        obtain ⟨hshown, hle⟩ := h.shows hmembers
        rw [hlists.2]
        exact Versioned.Fresh.freshAt (Versioned.freshSince_iff.2 ⟨s.shown, hle, hshown⟩) (hk hv)
      | _ => exact trivial
    · cases hx

theorem MirrorInv.selectMembers {ssid : String} {uids : List String} (h : MirrorInv ts s)
    (hi : ts[i]? = some ph)
    (hx : MirrorState.exec i (cache (.selectMembers ssid)) c s = some (uids, s')) :
    MirrorInv (ts.set i (ph.fetch uids)) s' := by
  have hk := h.threads i ph hi
  change (if c.fault then some ([], s) else _) = _ at hx
  split at hx
  · obtain ⟨rfl, rfl⟩ := Prod.mk.inj (Option.some.inj hx)
    refine h.same ?_
    cases ph with
    | observed v => exact fun _ hne ↦ absurd rfl hne
    | _ => exact trivial
  · split at hx
    · next hlists =>
      obtain ⟨rfl, rfl⟩ := Prod.mk.inj (Option.some.inj hx)
      refine h.set ⟨le_refl _, List.prefix_refl _, fun j hj ↦ Function.update_of_ne hj _ _,
        fun _ _ ↦ rfl, fun _ _ ↦ rfl⟩ ⟨h.follows.length, h.follows.step⟩ h.shows h.complete ?_
      cases ph with
      | observed v =>
        intro hv _
        show s.conv.db.ReadAt v (Function.update s.read_at i s.conv.db.now i) ∧
          s.conv.db.history[Function.update s.read_at i s.conv.db.now i]? = _
        rw [Function.update_self, hlists.2]
        refine ⟨Versioned.readAt_now (hk hv), ?_⟩
        rw [Versioned.now, ← List.getLast?_eq_getElem?,
          List.getLast?_eq_some_getLast s.conv.db.history_ne_nil]
        rfl
      | _ => exact trivial
    · cases hx

/-- What is written as a whole shows the moment at which it was read. -/
theorem MirrorInv.warm {ssid : String} {v : ℕ} {uids : List String} {r : Reply ℕ}
    (h : MirrorInv ts s) (hi : ts[i]? = some (.fetched v uids))
    (hknown : cache_version_is_known v = true) (hne : uids ≠ [])
    (hx : MirrorState.exec i (cache (.evalWarmIfVersion ssid (toString v) uids)) c s =
      some (r, s')) : MirrorInv (ts.set i .idle) s' := by
  obtain ⟨hat, hget⟩ := h.threads i _ hi hknown hne
  change (if c.fault then some (Reply.thrown, s) else _) = _ at hx
  split at hx
  · obtain ⟨rfl, rfl⟩ := Prod.mk.inj (Option.some.inj hx)
    exact h.same trivial
  · obtain ⟨rfl, rfl⟩ := Prod.mk.inj (Option.some.inj hx)
    by_cases hv : s.conv.version_key.getD "0" = toString v
    · obtain rfl := s.conv.key_eq_iff.1 hv
      rw [Conv.warmIfVersion, if_pos hv, if_pos rfl]
      refine h.set ⟨le_refl _, List.prefix_refl _, fun _ _ ↦ rfl, fun _ _ ↦ rfl, fun _ _ ↦ rfl⟩
        ⟨h.follows.length, h.follows.step⟩ (fun _ ↦ ⟨hget, hat.settled_le⟩) h.complete trivial
    · rw [Conv.warmIfVersion, if_neg hv, if_neg Nat.zero_ne_one]
      exact h.same trivial

theorem MirrorInv.invalidate {ssid : String} {r : Reply Unit} (h : MirrorInv ts s)
    (hx : MirrorState.exec i (cache (.evalInvalidate ssid)) c s = some (r, s')) :
    MirrorInv (ts.set i .idle) s' := by
  change (if c.fault then some (Reply.thrown, s) else _) = _ at hx
  split at hx
  · obtain ⟨rfl, rfl⟩ := Prod.mk.inj (Option.some.inj hx)
    exact h.same trivial
  · split at hx
    · next conv hconv =>
      obtain ⟨rfl, rfl⟩ := Prod.mk.inj (Option.some.inj hx)
      obtain ⟨hgood, hdb⟩ := Conv.invalidate_eq_some hconv
      have hle : s.conv.db ≤ conv.db := hdb ▸ Versioned.le_raise _ _
      have hhistory : conv.db.history = s.conv.db.history := by rw [hdb]; rfl
      have hempty : conv.members = ∅ := by
        unfold Conv.invalidate at hconv
        split at hconv
        · rw [← Option.some.inj hconv]
        · cases hconv
      refine h.set ⟨hle, List.prefix_refl _, fun _ _ ↦ rfl, fun _ _ ↦ rfl, fun _ _ ↦ rfl⟩
        ⟨hhistory ▸ h.follows.length, fun hj hm ↦ ?_⟩ (fun hne ↦ absurd hempty hne)
        (h.complete.of_le hle rfl) trivial
      rw [hhistory] at hm ⊢
      exact h.follows.step hj hm
    · obtain ⟨rfl, rfl⟩ := Prod.mk.inj (Option.some.inj hx)
      exact h.same trivial

theorem MirrorInv.commitChange {change : MemberChange} {r : Unit} (h : MirrorInv ts s)
    (hx : MirrorState.exec i (.commitChange change) c s = some (r, s')) :
    MirrorInv (ts.set i (.committed change)) s' := by
  obtain ⟨-, rfl⟩ := Prod.mk.inj (Option.some.inj hx)
  have hle := s.conv.db.le_change (change.apply s.conv.db.current)
  refine h.set ⟨hle, List.prefix_append _ _, fun _ _ ↦ rfl, fun _ _ ↦ rfl,
    fun j hj ↦ Function.update_of_ne hj _ _⟩ (h.follows.commit change) (fun hne ↦ ?_)
    (h.complete.of_le hle rfl) ⟨s.changes.length, ?_, List.getElem?_concat_length⟩
  · obtain ⟨hshown, hsettled⟩ := h.shows hne
    exact ⟨ getElem?_of_prefix hle.1 hshown, hsettled⟩
  · show Function.update s.changed i s.conv.db.history.length i = _
    rw [Function.update_self, h.follows.length]

/-- The script for one member. -/
theorem MirrorInv.mirror {change : MemberChange} (h : MirrorInv ts s)
    (hi : ts[i]? = some (.committed change)) (hstep : s.InStep i change) :
    MirrorInv (ts.set i .idle) (s.mirror i (change.apply s.conv.members)).2 := by
  obtain ⟨m, hm, hchange⟩ := h.threads i _ hi
  have hle := s.conv.le_incr (s.changed i)
  have hhistory := s.conv.history_incr (s.changed i)
  refine h.set ⟨hle, List.prefix_refl _, fun _ _ ↦ rfl, fun _ _ ↦ rfl, fun _ _ ↦ rfl⟩
    ⟨hhistory.symm ▸ h.follows.length, fun hj hmem ↦ ?_⟩
    (h.follows.shows_mirror h.shows hchange hm hstep) (h.complete.of_le hle rfl) trivial
  have hmem' : s.conv.db.history[_]? = _ := hhistory ▸ hmem
  exact hhistory.symm ▸ h.follows.step hj hmem'

theorem MirrorInv.listed {snap : Members.Snapshot} {r : Unit} (h : MirrorInv ts s)
    (hi : ts[i]? = some ph) (ha : mirrorContract.allowed ph (.listed snap))
    (hx : MirrorState.exec i (.listed snap) c s = some (r, s')) :
    MirrorInv (ts.set i .idle) s' := by
  obtain ⟨-, rfl⟩ := Prod.mk.inj (Option.some.inj hx)
  refine h.set ⟨le_refl _, List.prefix_refl _, fun _ _ ↦ rfl, fun _ _ ↦ rfl, fun _ _ ↦ rfl⟩
    ⟨h.follows.length, h.follows.step⟩ h.shows (fun x hx hstable hne ↦ ?_) trivial
  rcases List.mem_append.1 hx with hx | hx
  · exact h.complete x hx hstable hne
  · obtain rfl := List.mem_singleton.1 hx
    obtain ⟨v, hknown, rfl⟩ := ha hstable hne
    exact h.threads i _ hi hknown hne rfl

end Calls

/-! ### The result -/

theorem mirrorInv_init : MirrorInv [] {} where
  follows := ⟨rfl, fun h ↦ by cases h⟩
  shows hne := absurd rfl hne
  complete := nofun
  threads := nofun

theorem mirrorInv_of_reach {p : MirrorPool}
    (hr : mirroredMembers.Reach changesInStep MirrorState.init p) :
    ∃ ts, MirrorInv ts p.shared ∧ p.Meets mirrorContract (fun _ ↦ True) ts := by
  refine Machine.invariant hr ⟨[], mirrorInv_init, .nil⟩ ?_ ?_
  · intro ts s i ph o c r s' h hi ha hG hx
    refine ⟨trivial, ?_⟩
    cases o with
    | cache o =>
      cases o with
      | getVersion ssid => exact h.getVersion hi hx
      | smembers ssid => exact h.smembers hi hx
      | selectMembers ssid => exact h.selectMembers hi hx
      | evalWarmIfVersion ssid observed uids =>
        obtain ⟨v, rfl, hknown, hne, rfl⟩ := ha
        exact h.warm hi hknown hne hx
      | evalInvalidate ssid => exact h.invalidate hx
      | _ => cases hx
    | commitChange change => exact h.commitChange (c := c) hx
    | evalAdd uid =>
      obtain rfl : ph = .committed (.join uid) := ha
      change (if c.fault then some (Reply.thrown, _) else _) = _ at hx
      split at hx
      · obtain ⟨-, rfl⟩ := Prod.mk.inj (Option.some.inj hx)
        exact h.same trivial
      · next hfault =>
        obtain ⟨-, rfl⟩ := Prod.mk.inj (Option.some.inj hx)
        exact h.mirror hi (hG (Bool.eq_false_iff.2 hfault))
    | evalRemove uid =>
      obtain rfl : ph = .committed (.leave uid) := ha
      change (if c.fault then some (Reply.thrown, _) else _) = _ at hx
      split at hx
      · obtain ⟨-, rfl⟩ := Prod.mk.inj (Option.some.inj hx)
        exact h.same trivial
      · next hfault =>
        obtain ⟨-, rfl⟩ := Prod.mk.inj (Option.some.inj hx)
        exact h.mirror hi (hG (Bool.eq_false_iff.2 hfault))
    | listed snap => exact h.listed (c := c) hi ha hx
  · intro ts p e p' h hm _ hx
    cases e with
    | change change =>
      obtain rfl := Option.some.inj hx
      exact ⟨_, h.append, hm.spawn (mirrored_change_mirror change) _⟩
    | warm ssid =>
      obtain rfl := Option.some.inj hx
      exact ⟨_, h.append, hm.spawn fenced_reader_mirror _⟩
    | invalidate ssid =>
      obtain rfl := Option.some.inj hx
      exact ⟨_, h.append, hm.spawn invalidate_mirror _⟩
    | snapshot ssid =>
      obtain rfl := Option.some.inj hx
      exact ⟨_, h.append, hm.spawn snapshot_call_mirror _⟩
    | expire =>
      obtain rfl := Option.some.inj hx
      exact ⟨ts, h.expire, hm⟩

/-- **What snapshots show.** In every run in which each script for one member finds the members key
in step, a snapshot that is stable and not empty shows the whole membership at some moment, which is
no earlier than that of any change whose script had run. -/
theorem mirrored_snapshots (p : MirrorPool)
    (hr : mirroredMembers.Reach changesInStep MirrorState.init p) : p.shared.SnapshotsComplete := by
  obtain ⟨ts, h, -⟩ := mirrorInv_of_reach hr
  exact h.complete

instance (i : ℕ) (o : MirrorOp) (c : MemChoice) (s : MirrorState) :
    Decidable (changesInStep.onOp i o c s) :=
  match o with
  | evalAdd _ | evalRemove _ => inferInstanceAs (Decidable (_ → _))
  | cache _ | commitChange _ | listed _ => .isTrue trivial

instance (e : MirrorEv) (p : MirrorPool) : Decidable (changesInStep.onEv e p) := .isTrue trivial

/-- A whole snapshot by thread `i`, with what the members key answers. -/
def takesSnapshot (i : ℕ) (order : List String) : List (Machine.Label MemChoice MirrorEv) :=
  [.event (.snapshot "c1"), .call i {}, .call i { order := order }, .call i {}, .call i {}]

/-- alice and bob join; the key expires and is warmed; carol joins and alice leaves. -/
def mirroredRun : List (Machine.Label MemChoice MirrorEv) :=
  [.event (.change (.join "alice")), .call 0 {}, .call 0 {}, .event (.change (.join "bob")),
    .call 1 {}, .call 1 {}, .event .expire, .event (.warm "c1"), .call 2 {},
    .call 2 { order := ["alice", "bob"] }, .call 2 {}, .event (.change (.join "carol")),
    .call 3 {}, .call 3 {}, .event (.change (.leave "alice")), .call 4 {}, .call 4 {}] ++
    takesSnapshot 5 ["bob", "carol"]

theorem mirrored_snapshots_run :
    ∃ p, mirroredMembers.Reach changesInStep MirrorState.init p ∧
      p.shared.listings.map (fun x ↦ (x.1, x.2.members)) = [(4, ["bob", "carol"])] ∧
      p.shared.SnapshotsComplete := by
  obtain ⟨p, hp, hlistings⟩ := Machine.exists_of_run mirroredMembers changesInStep MirrorState.init
    mirroredRun (fun p ↦ p.shared.listings.map (fun x ↦ (x.1, x.2.members)) =
      [(4, ["bob", "carol"])]) (by decide +kernel)
  exact ⟨p, hp, hlistings, mirrored_snapshots p hp⟩

/-- alice joins, and then bob; the key expires before the script that adds bob. -/
def partialRun : List (Machine.Label MemChoice MirrorEv) :=
  [.event (.change (.join "alice")), .call 0 {}, .call 0 {}, .event (.change (.join "bob")),
    .call 1 {}, .event .expire, .call 1 {}] ++ takesSnapshot 2 ["bob"]

/-- The snapshot shows bob alone, as the members never were. -/
theorem partial_snapshot :
    ¬ ∀ p, mirroredMembers.Reach .any MirrorState.init p → p.shared.SnapshotsComplete := by
  intro h
  obtain ⟨p, hp, x, hx, hstable, hne, hmissing⟩ := Machine.exists_of_run mirroredMembers .any
    MirrorState.init partialRun (fun p ↦ ∃ x ∈ p.shared.listings, x.2.stable = true ∧
      x.2.members ≠ [] ∧ ¬ p.shared.conv.db.FreshSince 0 x.2.members.toFinset) (by decide +kernel)
  exact hmissing ((h p hp x hx hstable hne).mono (Nat.zero_le _))

end ChatNow
