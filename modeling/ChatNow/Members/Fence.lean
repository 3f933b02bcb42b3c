import ChatNow.Members.Freshness

/-!
# The version fence of L2

What `Members` promises by itself: a copy that was read from the database before a change was
committed does not come to stand in Redis once the change has been invalidated, however late it is
written. The writes are fenced by a version that was read before the copy.

The machine is that of the members cache, with three more kinds of event: a reader that reads the
version and the members and writes one of the two keys, whatever it has read, and the two scripts
that add and remove one member. Beside the keys stand two stamps (`FenceState`): the moments at
which the data under the members key and under the sentinel were read from the database. Redis does
not know them.

Where `Freshness` speaks of what is returned, and has to exclude one interleaving, this is about
what is kept in L2, and holds in all of them (`members_fenced`): the copies that come from L1 or
from L2 itself are never written there.
-/

namespace ChatNow

open Prog MemOp

/-! ### The scripts for one member -/

namespace Conv

variable (c : Conv)

/-- INCR of the version key, for no change in particular; an error past the last number. -/
def bump : Conv :=
  if h : c.db.version + 1 < 2 ^ 63 then
    { c with db := c.db.raise c.db.history.length, version_lt := h }
  else c

/-- `kAddMemberLua`. The INCR comes after the writes, and an error does not take them back. -/
def addMember (uid : String) : Conv :=
  { c.bump with members := insert uid c.members, sentinel := false }

/-- `kRemoveMemberLua`. -/
def removeMember (uid : String) : Conv :=
  { c.bump with members := c.members.erase uid, sentinel := false }

theorem le_bump : c.db ≤ c.bump.db := by
  rw [bump]
  split
  · exact c.db.le_raise _
  · exact le_refl _

theorem settled_bump : c.bump.db.settled = c.db.settled := by
  rw [bump]
  split
  · exact if_neg (lt_irrefl _)
  · rfl

end Conv

/-! ### The machine -/

/-- A reader that has its own use for what it has read. -/
def fenced_reader (ssid : String) (sentinel : Bool) : MemM Unit := do
  let observed_version ← Members.version ssid
  let uids ← op (selectMembers ssid)
  if sentinel then
    let _ ← Members.set_sentinel_if_version ssid observed_version
  else
    let _ ← Members.warm_if_version ssid uids observed_version

/-- The members cache, and when the data in it were read. -/
structure FenceState where
  mem : MemState := {}
  /-- The moment at which a thread last read the members from the database. -/
  read_at : ℕ → ℕ := fun _ ↦ 0
  /-- The moment at which the data under the members key were read, if they were. -/
  members_from : String → Option ℕ := fun _ ↦ none
  /-- The moment at which somebody read that there are no members. -/
  sentinel_from : String → Option ℕ := fun _ ↦ none

namespace FenceState

variable (s : FenceState)

/-- Thread `i` has read the members of a conversation. -/
def reads (i : ℕ) (ssid : String) : FenceState :=
  { s with read_at := Function.update s.read_at i (s.mem.convs ssid).db.now }

/-- The stamps of the two keys of a conversation. -/
def stamp (ssid : String) (members sentinel : Option ℕ) : FenceState :=
  { s with members_from := Function.update s.members_from ssid members
           sentinel_from := Function.update s.sentinel_from ssid sentinel }

/-- What a call of thread `i` does to the stamps. -/
def record (i : ℕ) : (o : MemOp) → o.Res → FenceState
  | callGetMemberIds ssid, some _ => s.reads i ssid
  | selectMembers ssid, _ => s.reads i ssid
  | evalWarmIfVersion ssid _ _, .ok 1 => s.stamp ssid (some (s.read_at i)) none
  | evalSentinelIfVersion ssid _, .ok 1 => s.stamp ssid none (some (s.read_at i))
  | evalInvalidate ssid, .ok () => s.stamp ssid none none
  | _, _ => s

/-- The effect of a call by thread `i`. -/
def exec (i : ℕ) (o : MemOp) (c : MemChoice) (s : FenceState) : Option (o.Res × FenceState) :=
  (s.mem.exec i o c).map fun x ↦ (x.1, { s.record i o x.1 with mem := x.2 })

end FenceState

/-- What can happen beside the calls. -/
inductive FenceEv
  | cache (e : MemEv)
  /-- A reader begins. -/
  | reader (ssid : String) (sentinel : Bool)
  /-- `Members::add`. -/
  | add (ssid uid : String)
  /-- `Members::remove`. -/
  | remove (ssid uid : String)

abbrev FencePool := Pool MemOp MemOp.Res FenceState

/-- The effect of an event. A member that is added to a key that is not there was not read. -/
def FenceState.env (cfg : ℕ → MembersConfig) : FenceEv → FencePool → Option FencePool
  | .cache e, p => (MemState.env cfg e ⟨p.threads, p.shared.mem⟩).map fun q ↦
      ⟨q.threads, { p.shared with mem := q.shared }⟩
  | .reader ssid sentinel, p => some ⟨p.threads ++ [fenced_reader ssid sentinel], p.shared⟩
  | .add ssid uid, p =>
    let c := p.shared.mem.convs ssid
    some ⟨p.threads, { p.shared.stamp ssid
        (if c.members = ∅ then none else p.shared.members_from ssid) none with
      mem := p.shared.mem.setConv ssid (c.addMember uid) }⟩
  | .remove ssid uid, p =>
    some ⟨p.threads, { p.shared.stamp ssid (p.shared.members_from ssid) none with
      mem := p.shared.mem.setConv ssid ((p.shared.mem.convs ssid).removeMember uid) }⟩

/-- The members cache with the stamps. -/
def fencedCache (cfg : ℕ → MembersConfig) :
    Machine MemOp MemOp.Res FenceState MemChoice FenceEv :=
  ⟨FenceState.exec, FenceState.env cfg⟩

def FenceState.init : FencePool := ⟨[], { mem := MemState.init.shared }⟩

abbrev FenceGuard := Machine.Guard MemOp MemOp.Res FenceState MemChoice FenceEv

/-- No store fails. -/
def fenceNoFault : FenceGuard where
  onOp _ _ c _ := c.fault = false
  onEv _ _ := True

/-! ### What a reader may write to L2 -/

/-- The last version that was read, and the members that were read from the database after it. -/
inductive FencePhase
  | idle
  | read (version : ℕ)
  | fetched (version : ℕ) (members : List String)

namespace FencePhase

/-- After an answer of the database. -/
def fetch : FencePhase → List String → FencePhase
  | read v, members => fetched v members
  | _, _ => idle

end FencePhase

/-- The contract of a reader of `ssid`: it writes to L2 what it has read from the database, under
the version it has read before. -/
def fenceContract (ssid : String) : Contract MemOp MemOp.Res FencePhase where
  allowed ph o :=
    match o with
    | getVersion c => c = ssid
    | callGetMemberIds c => c = ssid
    | selectMembers c => c = ssid
    | evalWarmIfVersion c observed uids =>
      c = ssid ∧ ∃ v, observed = toString v ∧ ph = .fetched v uids
    | evalSentinelIfVersion c observed =>
      c = ssid ∧ ∃ v uids, observed = toString v ∧ ph = .fetched v uids
    | commitMembers _ _ => False
    | evalInvalidate _ => False
    | _ => True
  admits _ _ _ := True
  next ph o r :=
    match o, r with
    | getVersion _, r => .read (Members.version_of r)
    | callGetMemberIds _, some members => ph.fetch members
    | selectMembers _, members => ph.fetch members
    | _, _ => ph

section Readers

variable {ssid : String} {ph : FencePhase}

namespace Members

theorem version_fence : (version ssid).Meets (fenceContract ssid) ph
    fun ph' v ↦ ph' = .read v :=
  ⟨rfl, fun _ _ ↦ rfl⟩

theorem list_snapshot_fence : (list_snapshot ssid).Meets (fenceContract ssid) ph
    fun _ _ ↦ True := by
  refine version_fence.bind fun _ _ _ ↦ meets_op_bind.2 ⟨trivial, fun r _ ↦ ?_⟩
  cases r with
  | thrown => exact trivial
  | ok members => exact version_fence.bind fun _ _ _ ↦ trivial

theorem is_sentinel_fence : (is_sentinel ssid).Meets (fenceContract ssid) ph fun _ _ ↦ True := by
  refine meets_op_bind.2 ⟨trivial, fun r _ ↦ ?_⟩
  cases r with
  | thrown => exact trivial
  | ok found => exact trivial

theorem warm_if_version_fence {uids : List String} {v : ℕ} (h : ph = .fetched v uids) :
    (warm_if_version ssid uids v).Meets (fenceContract ssid) ph fun _ _ ↦ True := by
  rw [warm_if_version]
  split
  · exact trivial
  · split
    · exact trivial
    · refine meets_op_bind.2 ⟨⟨rfl, v, rfl, h⟩, fun r _ ↦ ?_⟩
      cases r with
      | ok n => exact trivial
      | thrown => exact trivial

theorem set_sentinel_if_version_fence {uids : List String} {v : ℕ} (h : ph = .fetched v uids) :
    (set_sentinel_if_version ssid v).Meets (fenceContract ssid) ph fun _ _ ↦ True := by
  rw [set_sentinel_if_version]
  split
  · exact trivial
  · refine meets_op_bind.2 ⟨⟨rfl, v, uids, rfl, h⟩, fun r _ ↦ ?_⟩
    cases r with
    | ok n => exact trivial
    | thrown => exact trivial

theorem write_back_fence {uids : List String} {v : ℕ} (h : ph = .fetched v uids) :
    (write_back ssid uids v).Meets (fenceContract ssid) ph fun _ _ ↦ True := by
  rw [write_back]
  split
  · exact set_sentinel_if_version_fence h
  · exact warm_if_version_fence h

end Members

variable {cfg : MembersConfig} {inst : ℕ}

theorem try_local_fence : (try_local cfg inst ssid).Meets (fenceContract ssid) ph
    fun _ _ ↦ True := by
  rw [try_local]
  split
  · exact trivial
  · refine meets_op_bind.2 ⟨trivial, fun r _ ↦ ?_⟩
    cases r with
    | none => exact trivial
    | some entry =>
      refine Members.version_fence.bind fun _ v _ ↦ ?_
      split
      · exact ⟨trivial, fun _ _ ↦ trivial⟩
      · exact trivial

/-- L1 is not fenced. -/
theorem set_local_fence {entry : MembersCacheEntry} :
    (set_local cfg inst ssid entry).Meets (fenceContract ssid) ph fun _ _ ↦ True := by
  rw [set_local]
  split
  · exact trivial
  · split
    · exact ⟨trivial, fun _ _ ↦ trivial⟩
    · exact trivial

theorem set_local_fetched_fence {members : List String} {v : ℕ} :
    (set_local_fetched cfg inst ssid members v).Meets (fenceContract ssid) ph
      fun _ _ ↦ True := by
  rw [set_local_fetched]
  split
  · exact set_local_fence
  · exact set_local_fence

theorem release_guard_fence : (release_guard cfg inst ssid).Meets (fenceContract ssid) ph
    fun _ _ ↦ True := by
  rw [release_guard]
  split
  · exact ⟨trivial, fun _ _ ↦ trivial⟩
  · exact trivial

theorem warm_from_service_fence : (warm_from_service cfg inst ssid).Meets (fenceContract ssid) ph
    fun _ _ ↦ True := by
  refine meets_op_bind.2 ⟨trivial, fun r _ ↦ ?_⟩
  match r with
  | .thrown => exact release_guard_fence.bind fun _ _ _ ↦ trivial
  | .ok false => exact release_guard_fence.bind fun _ _ _ ↦ trivial
  | .ok true =>
    refine Members.version_fence.bind fun ph observed_version hph ↦ ?_
    subst hph
    refine meets_op_bind.2 ⟨rfl, fun answer _ ↦ ?_⟩
    cases answer with
    | none =>
      refine meets_op_bind.2 ⟨trivial, fun _ _ ↦ ?_⟩
      exact release_guard_fence.bind fun _ _ _ ↦ trivial
    | some members =>
      refine (Members.write_back_fence rfl).bind fun _ written _ ↦ ?_
      split
      · refine meets_op_bind.2 ⟨trivial, fun _ _ ↦ ?_⟩
        exact release_guard_fence.bind fun _ _ _ ↦ trivial
      · refine set_local_fetched_fence.bind fun _ _ _ ↦ ?_
        refine meets_op_bind.2 ⟨trivial, fun _ _ ↦ ?_⟩
        exact release_guard_fence.bind fun _ _ _ ↦ trivial

theorem resolve_shared_fence : (resolve_shared cfg inst ssid).Meets (fenceContract ssid) ph
    fun _ _ ↦ True := by
  refine Members.list_snapshot_fence.bind fun _ snap _ ↦ ?_
  split
  · exact release_guard_fence.bind fun _ _ _ ↦ trivial
  · split
    · refine release_guard_fence.bind fun _ _ _ ↦ ?_
      exact set_local_fence.bind fun _ _ _ ↦ trivial
    · refine Members.is_sentinel_fence.bind fun _ found _ ↦ ?_
      split
      · refine Members.version_fence.bind fun _ observed _ ↦ ?_
        refine release_guard_fence.bind fun _ _ _ ↦ ?_
        exact set_local_fence.bind fun _ _ _ ↦ trivial
      · dsimp only
        split
        · refine try_local_fence.bind fun _ r _ ↦ ?_
          cases r with
          | none => exact warm_from_service_fence
          | some result => exact trivial
        · exact warm_from_service_fence

theorem resolve_members_fence : (resolve_members cfg inst ssid).Meets (fenceContract ssid) ph
    fun _ _ ↦ True := by
  refine try_local_fence.bind fun _ r _ ↦ ?_
  cases r with
  | some result => exact trivial
  | none =>
    show Meets _ (if _ then _ else _) _ _
    split
    · refine meets_op_bind.2 ⟨trivial, fun _ _ ↦ ?_⟩
      refine try_local_fence.bind fun _ r _ ↦ ?_
      cases r with
      | none => exact resolve_shared_fence
      | some result => exact release_guard_fence.bind fun _ _ _ ↦ trivial
    · exact resolve_shared_fence

theorem resolve_call_fence (since : List ℕ) :
    (resolve_call cfg inst ssid since).Meets (fenceContract ssid) ph fun _ _ ↦ True := by
  refine resolve_members_fence.bind fun _ r _ ↦ ?_
  cases r with
  | thrown => exact trivial
  | ok result => exact ⟨trivial, fun _ _ ↦ trivial⟩

theorem getMemberIds_fence (auth_user : String) (since : List ℕ) :
    (GetMemberIds auth_user ssid since).Meets (fenceContract ssid) ph fun _ _ ↦ True := by
  have hanswer {ph : FencePhase} {uids : List String} :
      (if auth_user ≠ "__system__" ∧ auth_user ∉ uids then return ()
        else op (MemOp.served ssid since uids) : MemM Unit).Meets (fenceContract ssid) ph
        fun _ _ ↦ True := by
    split
    · exact trivial
    · exact ⟨trivial, fun _ _ ↦ trivial⟩
  refine Members.list_snapshot_fence.bind fun _ snap _ ↦ ?_
  split
  · exact hanswer
  · refine Members.is_sentinel_fence.bind fun _ found _ ↦ ?_
    split
    · exact hanswer
    · refine Members.version_fence.bind fun ph observed hph ↦ ?_
      subst hph
      refine meets_op_bind.2 ⟨rfl, fun uids _ ↦ ?_⟩
      exact (Members.write_back_fence rfl).bind fun _ _ _ ↦ hanswer

theorem fenced_reader_fence (sentinel : Bool) :
    (fenced_reader ssid sentinel).Meets (fenceContract ssid) ph fun _ _ ↦ True := by
  refine Members.version_fence.bind fun ph v hph ↦ ?_
  subst hph
  refine meets_op_bind.2 ⟨rfl, fun uids _ ↦ ?_⟩
  cases sentinel with
  | true => exact (Members.set_sentinel_if_version_fence rfl).bind fun _ _ _ ↦ trivial
  | false => exact (Members.warm_if_version_fence rfl).bind fun _ _ _ ↦ trivial

end Readers

/-! ### Fenced keys -/

/-- Nothing that is settled is newer than what the two keys hold, read at the moments given. -/
structure Conv.Fenced (c : Conv) (members_from sentinel_from : Option ℕ) : Prop where
  members : c.members ≠ ∅ → ∀ m ∈ members_from, c.db.settled ≤ m
  sentinel : c.sentinel = true → ∀ m ∈ sentinel_from, c.db.settled ≤ m
  one : c.members = ∅ ∨ c.sentinel = false

namespace Conv.Fenced

variable {c c' : Conv} {mf sf : Option ℕ} {v m : ℕ}

/-- A key that is not there was read at no moment. -/
theorem of_none (k : ℕ) : ∀ m ∈ (none : Option ℕ), k ≤ m :=
  fun m hm ↦ absurd hm (Option.not_mem_none m)

theorem commit (h : c.Fenced mf sf) (members : Finset String) : (c.commit members).Fenced mf sf :=
  ⟨h.members, h.sentinel, h.one⟩

/-- A members key is written only while no change has been settled since the version was read. -/
theorem of_warm (h : c.db.ReadAt v m) {uids : List String}
    (hv : c.version_key.getD "0" = toString v) :
    (c.warmIfVersion (toString v) uids).2.Fenced (some m) none := by
  rw [warmIfVersion, if_pos hv]
  obtain rfl := c.key_eq_iff.1 hv
  refine ⟨fun _ k hk ↦ ?_, fun _ ↦ of_none _, .inr rfl⟩
  obtain rfl := Option.some.inj hk
  exact h.settled_le

theorem of_sentinel (h : c.db.ReadAt v m) (hv : c.version_key.getD "0" = toString v) :
    (c.sentinelIfVersion (toString v)).2.Fenced none (some m) := by
  rw [sentinelIfVersion, if_pos hv]
  obtain rfl := c.key_eq_iff.1 hv
  refine ⟨fun _ ↦ of_none _, fun _ k hk ↦ ?_, .inl rfl⟩
  obtain rfl := Option.some.inj hk
  exact h.settled_le

theorem of_invalidate (h : c.invalidate m = some c') : c'.Fenced none none := by
  unfold invalidate at h
  split at h
  · obtain rfl := Option.some.inj h
    exact ⟨fun _ ↦ of_none _, fun _ ↦ of_none _, .inl rfl⟩
  · cases h

/-- A member is added to what is there. -/
theorem addMember (h : c.Fenced mf sf) (uid : String) :
    (c.addMember uid).Fenced (if c.members = ∅ then none else mf) none := by
  refine ⟨fun _ k hk ↦ ?_, fun _ ↦ of_none _, .inr rfl⟩
  obtain ⟨hne, hk⟩ := Option.ite_none_left_eq_some.1 hk
  show c.bump.db.settled ≤ k
  rw [settled_bump]
  exact h.members hne k hk

theorem removeMember (h : c.Fenced mf sf) (uid : String) :
    (c.removeMember uid).Fenced mf none := by
  refine ⟨fun hne k hk ↦ ?_, fun _ ↦ of_none _, .inr rfl⟩
  have hmembers : c.members ≠ ∅ := by
    intro hempty
    refine hne ?_
    show c.members.erase uid = ∅
    rw [hempty]
    rfl
  show c.bump.db.settled ≤ k
  rw [settled_bump]
  exact h.members hmembers k hk

theorem expireMembers (h : c.Fenced mf sf) : { c with members := ∅ }.Fenced mf sf :=
  ⟨fun hne ↦ absurd rfl hne, h.sentinel, .inl rfl⟩

theorem expireSentinel (h : c.Fenced mf sf) : { c with sentinel := false }.Fenced mf sf :=
  ⟨h.members, fun hs ↦ absurd hs Bool.false_ne_true, .inr rfl⟩

end Conv.Fenced

/-- The keys of a conversation are fenced. -/
def FenceState.Fenced (s : FenceState) (ssid : String) : Prop :=
  (s.mem.convs ssid).Fenced (s.members_from ssid) (s.sentinel_from ssid)

/-! ### The invariant -/

/-- What a reader knows of its readings. -/
def FencePhase.Known (db : Versioned (Finset String)) (read_at : ℕ) : FencePhase → Prop
  | idle => True
  | read v => v ≤ db.version
  | fetched v _ => db.ReadAt v read_at

namespace FencePhase

variable {db db' : Versioned (Finset String)} {read_at read_at' : ℕ} {ph : FencePhase}

theorem Known.of_le (h : ph.Known db read_at) (hle : db ≤ db') : ph.Known db' read_at := by
  cases ph with
  | idle => exact trivial
  | read v => exact le_trans h hle.2.1
  | fetched v members => exact Versioned.ReadAt.of_le h hle

/-- The database answers. -/
theorem Known.fetch (h : ph.Known db read_at) (members : List String) :
    (ph.fetch members).Known db db.now := by
  cases ph with
  | read v => exact Versioned.readAt_now h
  | idle => exact trivial
  | fetched v members => exact trivial

end FencePhase

/-- What a thread of the pool is, and where it stands. -/
inductive FenceThread
  | read (ssid : String) (ph : FencePhase)
  | write (ssid : String) (ph : WritePhase)

/-- The contract of the threads of the pool, each by its own. -/
def fencedContract : Contract MemOp MemOp.Res FenceThread where
  allowed
    | .read ssid ph, o => (fenceContract ssid).allowed ph o
    | .write ssid ph, o => (writeContract ssid).allowed ph o
  admits _ _ _ := True
  next
    | .read ssid ph, o, r => .read ssid ((fenceContract ssid).next ph o r)
    | .write ssid ph, o, r => .write ssid ((writeContract ssid).next ph o r)

/-- What thread `i` knows. -/
def FenceThread.Knows (i : ℕ) (s : FenceState) : FenceThread → Prop
  | read ssid ph => ph.Known (s.mem.convs ssid).db (s.read_at i)
  | write ssid ph => ph = .committed → s.mem.changed i < (s.mem.convs ssid).db.history.length

/-- What L2 keeps. -/
structure FenceInv (ts : List FenceThread) (s : FenceState) : Prop where
  fenced : ∀ ssid, s.Fenced ssid
  completed : ∀ ssid, ∀ k ∈ s.mem.completed ssid, k ≤ (s.mem.convs ssid).db.settled
  threads : ∀ (i : ℕ) (t : FenceThread), ts[i]? = some t → t.Knows i s

/-- A step of thread `i`, as the rest sees it. -/
structure FenceState.Next (i : ℕ) (s s' : FenceState) : Prop where
  db : ∀ ssid, (s.mem.convs ssid).db ≤ (s'.mem.convs ssid).db
  fenced : ∀ ssid, s.Fenced ssid → s'.Fenced ssid
  completed : ∀ ssid, ∀ k ∈ s'.mem.completed ssid, k ∈ s.mem.completed ssid ∨
    k ≤ (s'.mem.convs ssid).db.settled
  read_at : ∀ j, j ≠ i → s'.read_at j = s.read_at j
  changed : ∀ j, j ≠ i → s'.mem.changed j = s.mem.changed j

namespace FenceInv

variable {ts ts' : List FenceThread} {s s' : FenceState} {i : ℕ}

/-- **One step.** -/
theorem next (h : FenceInv ts s) (hs : s.Next i s')
    (ht : ∀ (j : ℕ) (t : FenceThread), ts'[j]? = some t →
      j ≠ i ∧ ts[j]? = some t ∨ t.Knows j s') : FenceInv ts' s' where
  fenced ssid := hs.fenced ssid (h.fenced ssid)
  completed ssid k hk := by
    rcases hs.completed ssid k hk with hk | hk
    · exact (h.completed ssid k hk).trans (hs.db ssid).2.2.1
    · exact hk
  threads j t hj := by
    rcases ht j t hj with ⟨hne, hj⟩ | hknows
    · have hknows := h.threads j t hj
      cases t with
      | read ssid ph =>
        show ph.Known _ _
        rw [hs.read_at j hne]
        exact FencePhase.Known.of_le hknows (hs.db ssid)
      | write ssid ph =>
        intro hph
        rw [hs.changed j hne]
        exact (hknows hph).trans_le (hs.db ssid).1.length_le
    · exact hknows

/-- A call of thread `i`. -/
theorem set (h : FenceInv ts s) (hs : s.Next i s') {t : FenceThread} (ht : t.Knows i s') :
    FenceInv (ts.set i t) s' := by
  refine h.next hs fun j u hj ↦ ?_
  rcases Pool.getElem?_set_cases hj with ⟨rfl, rfl⟩ | hj
  · exact .inr ht
  · exact .inl hj

/-- A thread joins. -/
theorem append (h : FenceInv ts s) (hs : s.Next ts.length s') {t : FenceThread}
    (ht : t.Knows ts.length s') : FenceInv (ts ++ [t]) s' := by
  refine h.next hs fun j u hj ↦ ?_
  rcases Pool.getElem?_append_cases hj with ⟨rfl, rfl⟩ | ⟨hlt, hj⟩
  · exact .inr ht
  · exact .inl ⟨hlt.ne, hj⟩

/-- No thread has moved. -/
theorem event (h : FenceInv ts s) (hs : s.Next ts.length s') : FenceInv ts s' :=
  h.next hs fun _ _ hj ↦ .inl ⟨(List.getElem?_eq_some_iff.1 hj).1.ne, hj⟩

end FenceInv

/-! ### What a call does -/

/-- The calls after which a conversation is not as before. -/
def MemOp.changesConv : MemOp → Bool
  | evalWarmIfVersion _ _ _ => true
  | evalSentinelIfVersion _ _ => true
  | evalInvalidate _ => true
  | commitMembers _ _ => true
  | _ => false

/-- What the fence is about is the same in both states. -/
structure MemState.SameConvs (s s' : MemState) : Prop where
  convs : s'.convs = s.convs
  completed : s'.completed = s.completed
  changed : s'.changed = s.changed

/-- Every other call leaves the conversations alone. -/
theorem MemState.exec_sameConvs {i : ℕ} {o : MemOp} {c : MemChoice} {s s' : MemState} {r : o.Res}
    (ho : o.changesConv = false) (hx : MemState.exec i o c s = some (r, s')) : s.SameConvs s' := by
  have hrefl : s.SameConvs s := ⟨rfl, rfl, rfl⟩
  have hsame {x y : o.Res × MemState} (h : some x = some y) (hs : s.SameConvs x.2) :
      s.SameConvs y.2 := Option.some.inj h ▸ hs
  cases o with
  | evalWarmIfVersion ssid observed uids => cases ho
  | evalSentinelIfVersion ssid observed => cases ho
  | evalInvalidate ssid => cases ho
  | commitMembers ssid members => cases ho
  | l1Get inst ssid => exact hsame hx hrefl
  | l1Set inst ssid entry => exact hsame hx ⟨rfl, rfl, rfl⟩
  | l1Invalidate inst ssid => exact hsame hx ⟨rfl, rfl, rfl⟩
  | release inst ssid => exact hsame hx ⟨rfl, rfl, rfl⟩
  | unlock ssid => exact hsame hx hrefl
  | resolved ssid since result => exact hsame hx ⟨rfl, rfl, rfl⟩
  | served ssid since uids => exact hsame hx ⟨rfl, rfl, rfl⟩
  | getVersion ssid =>
    simp only [MemState.exec] at hx
    split at hx
    · exact hsame hx hrefl
    · exact hsame hx ⟨rfl, rfl, rfl⟩
  | smembers ssid =>
    simp only [MemState.exec] at hx
    split at hx
    · exact hsame hx hrefl
    · split at hx
      · exact hsame hx hrefl
      · cases hx
  | getSentinel ssid =>
    simp only [MemState.exec] at hx
    split at hx
    · exact hsame hx hrefl
    · split at hx
      · exact hsame hx ⟨rfl, rfl, rfl⟩
      · exact hsame hx hrefl
  | acquire inst ssid =>
    simp only [MemState.exec] at hx
    split at hx
    · cases hx
    · exact hsame hx ⟨rfl, rfl, rfl⟩
  | tryLock ssid =>
    simp only [MemState.exec] at hx
    split at hx
    · exact hsame hx hrefl
    · exact hsame hx hrefl
  | callGetMemberIds ssid =>
    simp only [MemState.exec] at hx
    split at hx
    · exact hsame hx hrefl
    · split at hx
      · exact hsame hx hrefl
      · cases hx
  | selectMembers ssid =>
    simp only [MemState.exec] at hx
    split at hx
    · exact hsame hx hrefl
    · split at hx
      · exact hsame hx hrefl
      · cases hx

namespace FenceState

variable {s s' : FenceState} {m : MemState} {i : ℕ}

theorem fenced_stamp (ssid ssid' : String) (mf sf : Option ℕ) :
    ({ s.stamp ssid mf sf with mem := m } : FenceState).Fenced ssid' ↔
      (m.convs ssid').Fenced (if ssid' = ssid then mf else s.members_from ssid')
        (if ssid' = ssid then sf else s.sentinel_from ssid') := by
  simp only [Fenced, stamp, Function.update_apply]

/-- The conversations are the same, and so are the stamps. -/
theorem next_same (h : s.mem.SameConvs m) {read_at : ℕ → ℕ}
    (hread : ∀ j, j ≠ i → read_at j = s.read_at j) :
    s.Next i { s with mem := m, read_at := read_at } where
  db ssid := by rw [h.convs]
  fenced ssid hf := by
    show (m.convs ssid).Fenced _ _
    rw [h.convs]
    exact hf
  completed ssid k hk := by
    rw [h.completed] at hk
    exact .inl hk
  read_at := hread
  changed j _ := by rw [h.changed]

/-- One conversation changes, and its stamps with it. -/
theorem next_stamp {ssid : String} {c : Conv} {mf sf : Option ℕ}
    (hdb : (s.mem.convs ssid).db ≤ c.db) (hf : s.Fenced ssid → c.Fenced mf sf) :
    s.Next i { s.stamp ssid mf sf with mem := s.mem.setConv ssid c } where
  db ssid' := by
    rw [MemState.convs_setConv]
    split
    · next hs => exact hs ▸ hdb
    · exact le_refl _
  fenced ssid' h := by
    rw [fenced_stamp, MemState.convs_setConv]
    split
    · next hs => exact hf (hs ▸ h)
    · exact h
  completed _ _ hk := .inl hk
  read_at _ _ := rfl
  changed _ _ := rfl

/-- The stamps are as they were. -/
theorem next_setConv {ssid : String} {c : Conv} (hdb : (s.mem.convs ssid).db ≤ c.db)
    (hf : s.Fenced ssid → c.Fenced (s.members_from ssid) (s.sentinel_from ssid)) :
    s.Next i { s with mem := s.mem.setConv ssid c } := by
  have h := next_stamp (i := i) hdb hf
  rwa [stamp, Function.update_eq_self, Function.update_eq_self] at h

theorem exec_cases {o : MemOp} {c : MemChoice} {r : o.Res}
    (hx : FenceState.exec i o c s = some (r, s')) :
    ∃ m, s.mem.exec i o c = some (r, m) ∧ s' = { s.record i o r with mem := m } := by
  obtain ⟨⟨r', m⟩, hm, heq⟩ := Option.map_eq_some_iff.1 hx
  obtain ⟨rfl, rfl⟩ := Prod.mk.inj heq
  exact ⟨m, hm, rfl⟩

end FenceState

section Calls

variable {ts : List FenceThread} {s s' : FenceState} {i : ℕ} {o : MemOp} {c : MemChoice}
  {r : o.Res}

theorem FenceThread.Knows.of_next {ssid : String} {ph : FencePhase}
    (h : (FenceThread.read ssid ph).Knows i s) (hs : s.Next i s')
    (hread : s'.read_at i = s.read_at i) : (FenceThread.read ssid ph).Knows i s' := by
  show ph.Known _ _
  rw [hread]
  exact FencePhase.Known.of_le h (hs.db ssid)

/-- **What a reader's call does**: what it writes to L2 it has read under the version it names. -/
theorem fence_read_call {ssid : String} {ph : FencePhase}
    (hk : (FenceThread.read ssid ph).Knows i s) (ha : (fenceContract ssid).allowed ph o)
    (hfault : c.fault = false) (hx : FenceState.exec i o c s = some (r, s')) :
    s.Next i s' ∧ (FenceThread.read ssid ((fenceContract ssid).next ph o r)).Knows i s' := by
  obtain ⟨m, hm, rfl⟩ := FenceState.exec_cases hx
  -- all calls but two leave the conversations, and all but three what the reader knows
  have hsame (ho : o.changesConv = false) (hrec : s.record i o r = s)
      (hph : (fenceContract ssid).next ph o r = ph) :
      s.Next i { s.record i o r with mem := m } ∧
        (FenceThread.read ssid ((fenceContract ssid).next ph o r)).Knows i
          { s.record i o r with mem := m } := by
    have hs := MemState.exec_sameConvs ho hm
    rw [hrec, hph]
    refine ⟨FenceState.next_same hs fun _ _ ↦ rfl, ?_⟩
    show ph.Known (m.convs ssid).db _
    rw [hs.convs]
    exact hk
  have hreads (members : List String) (ho : o.changesConv = false)
      (hrec : s.record i o r = s.reads i ssid)
      (hph : (fenceContract ssid).next ph o r = ph.fetch members) :
      s.Next i { s.record i o r with mem := m } ∧
        (FenceThread.read ssid ((fenceContract ssid).next ph o r)).Knows i
          { s.record i o r with mem := m } := by
    have hs := MemState.exec_sameConvs ho hm
    rw [hrec, hph]
    refine ⟨FenceState.next_same hs fun _ hj ↦ Function.update_of_ne hj _ _, ?_⟩
    show (ph.fetch members).Known (m.convs ssid).db (Function.update s.read_at i _ i)
    rw [hs.convs, Function.update_self]
    exact FencePhase.Known.fetch hk members
  cases o with
  | getVersion ssid' =>
    obtain rfl : ssid' = ssid := ha
    have hs := MemState.exec_sameConvs rfl hm
    simp only [MemState.exec, hfault] at hm
    obtain ⟨rfl, -⟩ := Prod.mk.inj (Option.some.inj hm)
    refine ⟨FenceState.next_same hs fun _ _ ↦ rfl, ?_⟩
    show Members.version_of (.ok (s.mem.convs ssid').version_key) ≤ (m.convs ssid').db.version
    rw [hs.convs, Conv.version_of_key]
  | callGetMemberIds ssid' =>
    obtain rfl : ssid' = ssid := ha
    cases r with
    | none => exact hsame rfl rfl rfl
    | some members => exact hreads members rfl rfl rfl
  | selectMembers ssid' =>
    obtain rfl : ssid' = ssid := ha
    exact hreads r rfl rfl rfl
  | evalWarmIfVersion ssid' observed uids =>
    obtain ⟨rfl, v, rfl, rfl⟩ := ha
    simp only [MemState.exec, hfault, Bool.false_eq_true, if_false] at hm
    obtain ⟨rfl, rfl⟩ := Prod.mk.inj (Option.some.inj hm)
    have hdb := (s.mem.convs ssid').db_warmIfVersion (toString v) uids
    by_cases hv : (s.mem.convs ssid').version_key.getD "0" = toString v
    · have hs := FenceState.next_stamp (s := s) (i := i) hdb.ge
        fun _ ↦ Conv.Fenced.of_warm hk hv
      have hone : ((s.mem.convs ssid').warmIfVersion (toString v) uids).1 = 1 := by
        rw [Conv.warmIfVersion, if_pos hv]
      have hrec : s.record i (evalWarmIfVersion ssid' (toString v) uids) (.ok 1) =
          s.stamp ssid' (some (s.read_at i)) none := rfl
      rw [hone, hrec]
      exact ⟨hs, hk.of_next hs rfl⟩
    · have hconv : (s.mem.convs ssid').warmIfVersion (toString v) uids =
          (0, s.mem.convs ssid') := if_neg hv
      have hs := FenceState.next_setConv (s := s) (i := i) (le_refl (s.mem.convs ssid').db) id
      have hrec : s.record i (evalWarmIfVersion ssid' (toString v) uids) (.ok 0) = s := rfl
      rw [hconv, hrec]
      exact ⟨hs, hk.of_next hs rfl⟩
  | evalSentinelIfVersion ssid' observed =>
    obtain ⟨rfl, v, uids, rfl, rfl⟩ := ha
    simp only [MemState.exec, hfault, Bool.false_eq_true, if_false] at hm
    obtain ⟨rfl, rfl⟩ := Prod.mk.inj (Option.some.inj hm)
    have hdb := (s.mem.convs ssid').db_sentinelIfVersion (toString v)
    by_cases hv : (s.mem.convs ssid').version_key.getD "0" = toString v
    · have hs := FenceState.next_stamp (s := s) (i := i) hdb.ge
        fun _ ↦ Conv.Fenced.of_sentinel hk hv
      have hone : ((s.mem.convs ssid').sentinelIfVersion (toString v)).1 = 1 := by
        rw [Conv.sentinelIfVersion, if_pos hv]
      have hrec : s.record i (evalSentinelIfVersion ssid' (toString v)) (.ok 1) =
          s.stamp ssid' none (some (s.read_at i)) := rfl
      rw [hone, hrec]
      exact ⟨hs, hk.of_next hs rfl⟩
    · have hconv : (s.mem.convs ssid').sentinelIfVersion (toString v) =
          (0, s.mem.convs ssid') := if_neg hv
      have hs := FenceState.next_setConv (s := s) (i := i) (le_refl (s.mem.convs ssid').db) id
      have hrec : s.record i (evalSentinelIfVersion ssid' (toString v)) (.ok 0) = s := rfl
      rw [hconv, hrec]
      exact ⟨hs, hk.of_next hs rfl⟩
  | commitMembers ssid' members => exact False.elim ha
  | evalInvalidate ssid' => exact False.elim ha
  | _ => exact hsame rfl rfl rfl

/-- What a write's call does: it empties both keys, and settles the change that it has committed. -/
theorem fence_write_call {ssid : String} {ph : WritePhase}
    (hk : (FenceThread.write ssid ph).Knows i s) (ha : (writeContract ssid).allowed ph o)
    (hfault : c.fault = false) (hx : FenceState.exec i o c s = some (r, s')) :
    s.Next i s' ∧ (FenceThread.write ssid ((writeContract ssid).next ph o r)).Knows i s' := by
  obtain ⟨m, hm, rfl⟩ := FenceState.exec_cases hx
  cases ph with
  | pending =>
    cases o with
    | commitMembers ssid' members =>
      obtain rfl : ssid' = ssid := ha
      obtain ⟨-, rfl⟩ := Prod.mk.inj (Option.some.inj hm)
      have hs := FenceState.next_setConv (s := s) (i := i)
        (c := (s.mem.convs ssid').commit members) (Versioned.le_change _ members)
        fun hf ↦ hf.commit members
      refine ⟨{ hs with changed := fun j hj ↦ Function.update_of_ne hj _ _ }, fun _ ↦ ?_⟩
      exact s.mem.changed_lt_commit i ssid' members
    | _ => exact False.elim ha
  | committed =>
    cases o with
    | evalInvalidate ssid' =>
      obtain rfl : ssid' = ssid := ha
      simp only [MemState.exec, hfault, Bool.false_eq_true, if_false] at hm
      split at hm
      · next conv hconv =>
        obtain ⟨rfl, rfl⟩ := Prod.mk.inj (Option.some.inj hm)
        obtain ⟨-, hdb⟩ := Conv.invalidate_eq_some hconv
        have hs := FenceState.next_stamp (s := s) (i := i) (hdb ▸ Versioned.le_raise _ _)
          fun _ ↦ Conv.Fenced.of_invalidate hconv
        refine ⟨{ hs with completed := fun ssid k hmem ↦ ?_ }, fun hph ↦ by cases hph⟩
        exact MemState.completed_invalidate hconv (hk rfl) hmem
      · obtain ⟨rfl, rfl⟩ := Prod.mk.inj (Option.some.inj hm)
        exact ⟨FenceState.next_same ⟨rfl, rfl, rfl⟩ fun _ _ ↦ rfl, fun hph ↦ by cases hph⟩
    | _ => exact False.elim ha
  | done => cases o <;> exact False.elim ha

end Calls

/-! ### The result -/

theorem fenceInv_init : FenceInv [] {} where
  fenced _ := ⟨fun h ↦ absurd rfl h, fun _ ↦ Conv.Fenced.of_none _, .inl rfl⟩
  completed := nofun
  threads := nofun

/-- A reader of the pool follows its contract. -/
theorem fence_read_meets {ssid : String} {q : MemM Unit}
    (h : q.Meets (fenceContract ssid) .idle fun _ _ ↦ True) :
    q.Meets fencedContract (.read ssid .idle) fun _ _ ↦ True :=
  (h.map (D := fencedContract) (.read ssid) (fun _ _ ha ↦ ha) (fun _ _ _ _ ↦ trivial)
    fun _ _ _ ↦ rfl).mono fun _ _ _ ↦ trivial

theorem fence_write_meets (ssid : String) (members : Finset String) :
    (write_members ssid members).Meets fencedContract (.write ssid .pending) fun _ _ ↦ True :=
  ((write_members_meets ssid members).map (D := fencedContract) (.write ssid) (fun _ _ ha ↦ ha)
    (fun _ _ _ _ ↦ trivial) fun _ _ _ ↦ rfl).mono fun _ _ _ ↦ trivial

section Events

variable {cfg : ℕ → MembersConfig} {ts : List FenceThread} {p p' : FencePool}

/-- An event of the cache keeps the invariant, and every thread it starts meets its contract. -/
theorem fenceInv_cache {e : MemEv} (h : FenceInv ts p.shared)
    (hm : p.Meets fencedContract (fun _ ↦ True) ts)
    (hx : FenceState.env cfg (.cache e) p = some p') :
    ∃ ts', FenceInv ts' p'.shared ∧ p'.Meets fencedContract (fun _ ↦ True) ts' := by
  obtain ⟨q, hq, rfl⟩ := Option.map_eq_some_iff.1 hx
  have hsame {m : MemState} (hs : p.shared.mem.SameConvs m) :
      p.shared.Next ts.length { p.shared with mem := m } :=
    FenceState.next_same hs fun _ _ ↦ rfl
  cases e with
  | resolve inst ssid =>
    obtain rfl := Option.some.inj hq
    refine ⟨_, h.append (t := .read ssid .idle) (hsame ?_) trivial,
      hm.spawn (fence_read_meets (resolve_call_fence _)) _⟩
    exact ⟨rfl, rfl, rfl⟩
  | getMemberIds auth_user ssid =>
    obtain rfl := Option.some.inj hq
    exact ⟨_, h.append (t := .read ssid .idle) (hsame ⟨rfl, rfl, rfl⟩) trivial,
      hm.spawn (fence_read_meets (getMemberIds_fence auth_user _)) _⟩
  | write ssid members =>
    obtain rfl := Option.some.inj hq
    exact ⟨_, h.append (t := .write ssid .pending) (hsame ⟨rfl, rfl, rfl⟩) nofun,
      hm.spawn (fence_write_meets ssid members) _⟩
  | expireMembers ssid =>
    obtain rfl := Option.some.inj hq
    exact ⟨ts, h.event (FenceState.next_setConv (le_refl _) fun hf ↦ hf.expireMembers), hm⟩
  | expireSentinel ssid =>
    obtain rfl := Option.some.inj hq
    exact ⟨ts, h.event (FenceState.next_setConv (le_refl _) fun hf ↦ hf.expireSentinel), hm⟩
  | evict inst ssid =>
    obtain rfl := Option.some.inj hq
    refine ⟨ts, h.event (hsame ?_), hm⟩
    exact ⟨rfl, rfl, rfl⟩

/-- Every event does. -/
theorem fenceInv_event {e : FenceEv} (h : FenceInv ts p.shared)
    (hm : p.Meets fencedContract (fun _ ↦ True) ts) (hx : FenceState.env cfg e p = some p') :
    ∃ ts', FenceInv ts' p'.shared ∧ p'.Meets fencedContract (fun _ ↦ True) ts' := by
  cases e with
  | cache e => exact fenceInv_cache h hm hx
  | reader ssid sentinel =>
    obtain rfl := Option.some.inj hx
    exact ⟨_, h.append (t := .read ssid .idle) (FenceState.next_same ⟨rfl, rfl, rfl⟩ fun _ _ ↦ rfl)
      trivial, hm.spawn (fence_read_meets (fenced_reader_fence sentinel)) _⟩
  | add ssid uid =>
    obtain rfl := Option.some.inj hx
    exact ⟨ts, h.event (FenceState.next_stamp (Conv.le_bump _) fun hf ↦ hf.addMember uid), hm⟩
  | remove ssid uid =>
    obtain rfl := Option.some.inj hx
    exact ⟨ts, h.event (FenceState.next_stamp (Conv.le_bump _) fun hf ↦ hf.removeMember uid), hm⟩

end Events

/-- The invariant holds in every reachable state. -/
theorem fenceInv_of_reach {cfg : ℕ → MembersConfig} {p : FencePool}
    (hr : (fencedCache cfg).Reach fenceNoFault FenceState.init p) :
    ∃ ts, FenceInv ts p.shared ∧ p.Meets fencedContract (fun _ ↦ True) ts := by
  refine Machine.invariant hr ⟨[], fenceInv_init, .nil⟩ ?_ ?_
  · intro ts s i t o c r s' hinv hi ha hfault hx
    refine ⟨trivial, ?_⟩
    cases t with
    | read ssid ph =>
      obtain ⟨hs, hk⟩ := fence_read_call (hinv.threads i _ hi) ha hfault hx
      exact hinv.set hs hk
    | write ssid ph =>
      obtain ⟨hs, hk⟩ := fence_write_call (hinv.threads i _ hi) ha hfault hx
      exact hinv.set hs hk
  · intro ts p e p' hinv hm _ hx
    exact fenceInv_event hinv hm hx

/-- What the two keys of a conversation hold was not read before moment `k`. -/
structure FenceState.ReadSince (s : FenceState) (ssid : String) (k : ℕ) : Prop where
  members : (s.mem.convs ssid).members ≠ ∅ → ∀ m ∈ s.members_from ssid, k ≤ m
  sentinel : (s.mem.convs ssid).sentinel = true → ∀ m ∈ s.sentinel_from ssid, k ≤ m

/-- **The fence**: in every run in which no store fails, once a change has been committed and
invalidated neither key holds what was read before it; and there are never both. -/
theorem members_fenced (cfg : ℕ → MembersConfig) (p : FencePool)
    (hr : (fencedCache cfg).Reach fenceNoFault FenceState.init p) (ssid : String) :
    (∀ k ∈ p.shared.mem.completed ssid, p.shared.ReadSince ssid k) ∧
      ((p.shared.mem.convs ssid).members = ∅ ∨ (p.shared.mem.convs ssid).sentinel = false) := by
  obtain ⟨ts, h, -⟩ := fenceInv_of_reach hr
  have hf := h.fenced ssid
  refine ⟨fun k hk ↦ ?_, hf.one⟩
  have hsettled := h.completed ssid k hk
  exact ⟨fun hne m hm ↦ hsettled.trans (hf.members hne m hm),
    fun hs m hm ↦ hsettled.trans (hf.sentinel hs m hm)⟩

instance (i : ℕ) (o : MemOp) (c : MemChoice) (s : FenceState) :
    Decidable (fenceNoFault.onOp i o c s) :=
  inferInstanceAs (Decidable (c.fault = false))

instance (e : FenceEv) (p : FencePool) : Decidable (fenceNoFault.onEv e p) := .isTrue trivial

/-- Thread 0 commits a membership and invalidates; thread 1 reads it; thread 2 commits another one
and invalidates, before thread 1 writes what it has; thread 3 reads and writes after that. -/
def lateWarm : List (Machine.Label MemChoice FenceEv) :=
  [.event (.cache (.write "c1" {"alice", "bob"})), .call 0 {}, .call 0 {},
    .event (.reader "c1" false), .call 1 {}, .call 1 { order := ["bob", "alice"] },
    .event (.cache (.write "c1" {"alice"})), .call 2 {}, .call 2 {}, .call 1 {},
    .event (.reader "c1" false), .call 3 {}, .call 3 { order := ["alice"] }, .call 3 {}]

/-- The late copy is refused, the one that is kept was read after both changes. -/
theorem members_fenced_lateWarm :
    ∃ p, (fencedCache fun _ ↦ {}).Reach fenceNoFault FenceState.init p ∧
      (p.shared.mem.completed "c1" = [1, 2] ∧ (p.shared.mem.convs "c1").members = {"alice"} ∧
        p.shared.members_from "c1" = some 2) ∧
      (∀ k ∈ p.shared.mem.completed "c1", p.shared.ReadSince "c1" k) ∧
      ((p.shared.mem.convs "c1").members = ∅ ∨ (p.shared.mem.convs "c1").sentinel = false) := by
  obtain ⟨p, hp, hkeys⟩ := Machine.exists_of_run (fencedCache fun _ ↦ {}) fenceNoFault
    FenceState.init lateWarm
    (fun p ↦ p.shared.mem.completed "c1" = [1, 2] ∧
      (p.shared.mem.convs "c1").members = {"alice"} ∧ p.shared.members_from "c1" = some 2)
    (by decide)
  exact ⟨p, hp, hkeys, members_fenced _ p hp "c1"⟩

end ChatNow
