import ChatNow.Members.Resolve

/-!
# What a reader of the members cache has in hand

The contract of `resolve_members` and `GetMemberIds`. A reader collects pieces: an L1 entry, a
reading of the version, a listing of the set, the sentinel, an answer of the database. Its phase is
the piece it holds (`ReadPhase`), and two functions of the phase say what the piece is good for:

* `pair`: a version and a list of members that go together, so that the list may be kept under that
  version in L1, and written to L2 as long as the version has not moved;
* `answer`: a list of members that may be returned.

The contract allows a write to either layer only of the pair, and a result only of the answer.
Whether the pairs are right is a matter of what the stores answer, and of the next module; here is
only in which order the code asks.
-/

namespace ChatNow

open Prog MemOp

/-- The members that an L1 entry stands for. -/
def MembersCacheEntry.content (entry : MembersCacheEntry) : List String :=
  if entry.sentinel then [] else entry.members

/-- What a reader has in hand. -/
inductive ReadPhase
  /-- Nothing of use. -/
  | idle
  /-- An L1 entry. -/
  | found (entry : MembersCacheEntry)
  /-- An L1 entry, and its version has been read since. -/
  | valid (entry : MembersCacheEntry)
  /-- A reading of the version. -/
  | read (version : ℕ)
  /-- A reading of the version, then a listing of the members key. -/
  | listed (version : ℕ) (members : List String)
  /-- The same, and the same version has been read after it. -/
  | snapshot (version : ℕ) (members : List String)
  /-- The sentinel. -/
  | sentinel
  /-- The sentinel, then a reading of the version. -/
  | confirmed (version : ℕ)
  /-- A reading of the version, then an answer of the database. -/
  | fetched (version : ℕ) (members : List String)

namespace ReadPhase

/-- The version and the members that go together. -/
def pair : ReadPhase → Option (ℕ × List String)
  | found e => some (e.version, e.content)
  | valid e => some (e.version, e.content)
  | listed v members => if members = [] then none else some (v, members)
  | snapshot v members => if members = [] then none else some (v, members)
  | confirmed v => some (v, [])
  | fetched v members => some (v, members)
  | _ => none

/-- The members that may be returned. -/
def answer : ReadPhase → Option (List String)
  | valid e => some e.content
  | listed _ members => if members = [] then none else some members
  | snapshot _ members => if members = [] then none else some members
  | sentinel => some []
  | confirmed _ => some []
  | fetched _ members => some members
  | _ => none

/-- After a reading of the version. Only a `resolve_members` call (`own`) takes it for the version
of a sentinel that it holds. -/
def reread (own : Bool) (ph : ReadPhase) (v : ℕ) : ReadPhase :=
  match ph with
  | found e => if cache_l1_version_matches e.version v then valid e else read v
  | listed w members => if cache_snapshot_is_stable w v then snapshot v members else read v
  | sentinel => if own then confirmed v else read v
  | _ => read v

/-- After a listing of the members key. -/
def list : ReadPhase → List String → ReadPhase
  | read v, members => listed v members
  | _, _ => idle

/-- After an answer of the database. -/
def fetch : ReadPhase → List String → ReadPhase
  | read v, members => fetched v members
  | _, _ => idle

end ReadPhase

/-- The contract of a reader of `ssid`, a `resolve_members` call or (`own = false`) GetMemberIds. -/
def readContract (own : Bool) (ssid : String) (since : List ℕ) :
    Contract MemOp MemOp.Res ReadPhase where
  allowed ph o :=
    match o with
    | l1Get _ c => c = ssid
    | l1Set _ c entry => c = ssid ∧ ph.pair = some (entry.version, entry.content)
    | l1Invalidate _ _ => True
    | getVersion c => c = ssid
    | smembers c => c = ssid
    | getSentinel c => c = ssid
    | evalWarmIfVersion c observed uids =>
      c = ssid ∧ ∃ v, observed = toString v ∧ ph.pair = some (v, uids)
    | evalSentinelIfVersion c observed =>
      c = ssid ∧ ∃ v, observed = toString v ∧ ph.pair = some (v, [])
    | callGetMemberIds c => c = ssid
    | selectMembers c => c = ssid
    | resolved c n result => c = ssid ∧ n = since ∧
      (result.members ≠ [] ∨ result.confirmed_empty = true → ph.answer = some result.members)
    | served c n uids => c = ssid ∧ n = since ∧ ph.answer = some uids
    | acquire _ _ => True
    | release _ _ => True
    | tryLock _ => True
    | unlock _ => True
    | commitMembers _ _ => False
    | evalInvalidate _ => False
  admits _ _ _ := True
  next ph o r :=
    match o, r with
    | l1Get _ _, some entry => .found entry
    | l1Get _ _, none => .idle
    | l1Invalidate _ _, _ => .idle
    | getVersion _, r => ph.reread own (Members.version_of r)
    | smembers _, .ok members => ph.list members
    | smembers _, .thrown => .idle
    | getSentinel _, .ok true => .sentinel
    | getSentinel _, _ => .idle
    | callGetMemberIds _, some members => ph.fetch members
    | callGetMemberIds _, none => .idle
    | selectMembers _, members => ph.fetch members
    | _, _ => ph

/-! ### `Members` -/

section Readers

variable {own : Bool} {ssid : String} {since : List ℕ} {ph : ReadPhase}

namespace Members

theorem version_meets : (version ssid).Meets (readContract own ssid since) ph
    fun ph' v ↦ ph' = ph.reread own v :=
  ⟨rfl, fun _ _ ↦ rfl⟩

/-- A stable snapshot is what the reader holds. -/
theorem list_snapshot_meets : (list_snapshot ssid).Meets (readContract own ssid since) .idle
    fun ph' snap ↦ snap.stable = true → ph' = .snapshot snap.version snap.members := by
  refine version_meets.bind fun ph before hph ↦ ?_
  subst hph
  refine meets_op_bind.2 ⟨rfl, fun r _ ↦ ?_⟩
  cases r with
  | thrown => exact fun h ↦ nomatch h
  | ok members =>
    refine version_meets.bind fun ph after hph ↦ ?_
    intro hstable
    subst hph
    exact if_pos hstable

theorem is_sentinel_meets : (is_sentinel ssid).Meets (readContract own ssid since) ph
    fun ph' found ↦ ph' = if found then .sentinel else .idle := by
  refine meets_op_bind.2 ⟨rfl, fun r _ ↦ ?_⟩
  cases r with
  | thrown => exact rfl
  | ok found =>
    cases found with
    | true => exact rfl
    | false => exact rfl

/-- Writing a pair to L2 leaves the reader with it. -/
theorem warm_if_version_meets {uids : List String} {v : ℕ} (h : ph.pair = some (v, uids)) :
    (warm_if_version ssid uids v).Meets (readContract own ssid since) ph fun ph' _ ↦ ph' = ph := by
  rw [warm_if_version]
  split
  · exact rfl
  · split
    · exact rfl
    · refine meets_op_bind.2 ⟨⟨rfl, v, rfl, h⟩, fun r _ ↦ ?_⟩
      cases r with
      | ok n => exact rfl
      | thrown => exact rfl

theorem set_sentinel_if_version_meets {v : ℕ} (h : ph.pair = some (v, [])) :
    (set_sentinel_if_version ssid v).Meets (readContract own ssid since) ph
      fun ph' _ ↦ ph' = ph := by
  rw [set_sentinel_if_version]
  split
  · exact rfl
  · refine meets_op_bind.2 ⟨⟨rfl, v, rfl, h⟩, fun r _ ↦ ?_⟩
    cases r with
    | ok n => exact rfl
    | thrown => exact rfl

theorem write_back_meets {uids : List String} {v : ℕ} (h : ph.pair = some (v, uids)) :
    (write_back ssid uids v).Meets (readContract own ssid since) ph fun ph' _ ↦ ph' = ph := by
  cases uids with
  | nil => exact set_sentinel_if_version_meets h
  | cons uid uids => exact warm_if_version_meets h

end Members

/-! ### `resolve_members` -/

theorem MembersCacheEntry.members_result (entry : MembersCacheEntry) :
    entry.result.members = entry.content := by
  rw [result, content]
  split <;> rfl

variable (cfg : MembersConfig) (inst : ℕ)

theorem try_local_meets : (try_local cfg inst ssid).Meets (readContract own ssid since) .idle
    fun ph' r ↦ ph' = .idle ∧ r = none ∨ ∃ entry, ph' = .valid entry ∧ r = some entry.result := by
  rw [try_local]
  split
  · exact .inl ⟨rfl, rfl⟩
  · refine meets_op_bind.2 ⟨rfl, fun r _ ↦ ?_⟩
    cases r with
    | none => exact .inl ⟨rfl, rfl⟩
    | some entry =>
      refine Members.version_meets.bind fun ph v hph ↦ ?_
      subst hph
      split
      · exact ⟨trivial, fun _ _ ↦ .inl ⟨rfl, rfl⟩⟩
      · next hv => exact .inr ⟨entry, if_pos (by simpa using hv), rfl⟩

/-- The pair in hand is written to L1. -/
theorem set_local_meets {entry : MembersCacheEntry}
    (h : ph.pair = some (entry.version, entry.content)) :
    (set_local cfg inst ssid entry).Meets (readContract own ssid since) ph
      fun ph' _ ↦ ph' = ph := by
  rw [set_local]
  split
  · exact rfl
  · split
    · exact ⟨⟨rfl, h⟩, fun _ _ ↦ rfl⟩
    · exact rfl

theorem set_local_members_meets {members : List String} {v : ℕ}
    (h : ph.pair = some (v, members)) :
    (set_local_members cfg inst ssid members v).Meets (readContract own ssid since) ph
      fun ph' _ ↦ ph' = ph :=
  set_local_meets cfg inst h

theorem set_local_sentinel_meets {v : ℕ} (h : ph.pair = some (v, [])) :
    (set_local_sentinel cfg inst ssid v).Meets (readContract own ssid since) ph
      fun ph' _ ↦ ph' = ph :=
  set_local_meets cfg inst h

theorem set_local_fetched_meets {members : List String} {v : ℕ}
    (h : ph.pair = some (v, members)) :
    (set_local_fetched cfg inst ssid members v).Meets (readContract own ssid since) ph
      fun ph' _ ↦ ph' = ph := by
  cases members with
  | nil => exact set_local_sentinel_meets cfg inst h
  | cons uid uids => exact set_local_members_meets cfg inst h

theorem release_guard_meets : (release_guard cfg inst ssid).Meets (readContract own ssid since) ph
    fun ph' _ ↦ ph' = ph := by
  rw [release_guard]
  split
  · exact ⟨trivial, fun _ _ ↦ rfl⟩
  · exact rfl

/-- What a finished `resolve_members` may return: the answer in hand, or nothing. -/
def ReadPhase.Returns (ph : ReadPhase) (r : Reply MembersResult) : Prop :=
  ∀ result, r = .ok result → result.members ≠ [] ∨ result.confirmed_empty = true →
    ph.answer = some result.members

theorem ReadPhase.returns_empty : ph.Returns (.ok {}) := by
  intro result h hne
  obtain rfl := Reply.ok.inj h
  simp at hne

theorem warm_from_service_meets :
    (warm_from_service cfg inst ssid).Meets (readContract own ssid since) .idle
      fun ph' r ↦ ph'.Returns r := by
  refine meets_op_bind.2 ⟨trivial, fun r _ ↦ ?_⟩
  match r with
  | .thrown =>
    refine (release_guard_meets cfg inst).bind fun ph _ _ ↦ ?_
    intro result h
    cases h
  | .ok false =>
    refine (release_guard_meets cfg inst).bind fun ph _ _ ↦ ?_
    exact ReadPhase.returns_empty
  | .ok true =>
    refine Members.version_meets.bind fun ph observed_version hph ↦ ?_
    subst hph
    refine meets_op_bind.2 ⟨rfl, fun answer _ ↦ ?_⟩
    cases answer with
    | none =>
      refine meets_op_bind.2 ⟨trivial, fun _ _ ↦ ?_⟩
      exact (release_guard_meets cfg inst).bind fun ph _ _ ↦ ReadPhase.returns_empty
    | some members =>
      -- from here on the reader holds the version it read before it asked, with the answer
      have hpair : (ReadPhase.fetched observed_version members).pair
          = some (observed_version, members) := rfl
      refine (Members.write_back_meets hpair).bind fun ph written hph ↦ ?_
      subst hph
      split
      · refine meets_op_bind.2 ⟨trivial, fun _ _ ↦ ?_⟩
        exact (release_guard_meets cfg inst).bind fun ph _ _ ↦ ReadPhase.returns_empty
      · refine (set_local_fetched_meets cfg inst hpair).bind fun ph _ hph ↦ ?_
        subst hph
        refine meets_op_bind.2 ⟨trivial, fun _ _ ↦ ?_⟩
        refine (release_guard_meets cfg inst).bind fun ph _ hph ↦ ?_
        subst hph
        intro result h _
        obtain rfl := Reply.ok.inj h
        rfl

theorem ReadPhase.returns_valid (entry : MembersCacheEntry) :
    (ReadPhase.valid entry).Returns (.ok entry.result) := by
  intro result h _
  obtain rfl := Reply.ok.inj h
  exact congrArg some entry.members_result.symm

theorem resolve_shared_meets :
    (resolve_shared cfg inst ssid).Meets (readContract true ssid since) .idle
      fun ph' r ↦ ph'.Returns r := by
  refine Members.list_snapshot_meets.bind fun ph snap hsnap ↦ ?_
  split
  · exact (release_guard_meets cfg inst).bind fun ph _ _ ↦ ReadPhase.returns_empty
  · next hstable =>
    have hstable : snap.stable = true := by simpa using hstable
    obtain rfl := hsnap hstable
    split
    · next hne =>
      have hne : snap.members ≠ [] := by simpa using hne
      have hpair : (ReadPhase.snapshot snap.version snap.members).pair
          = some (snap.version, snap.members) := if_neg hne
      refine (release_guard_meets cfg inst).bind fun ph _ hph ↦ ?_
      subst hph
      refine (set_local_members_meets cfg inst hpair).bind fun ph _ hph ↦ ?_
      subst hph
      intro result h _
      obtain rfl := Reply.ok.inj h
      exact if_neg hne
    · next hempty =>
      have hempty : snap.members.isEmpty = true := by simpa using hempty
      refine Members.is_sentinel_meets.bind fun ph found hph ↦ ?_
      subst hph
      have hconf : cache_sentinel_confirms_empty (snap.stable && snap.members.isEmpty) found
          = found := by
        rw [hstable, hempty]
        rfl
      rw [hconf]
      cases found with
      | true =>
        -- the sentinel is in hand, and the version is read after it
        refine Members.version_meets.bind fun ph observed hph ↦ ?_
        subst hph
        refine (release_guard_meets cfg inst).bind fun ph _ hph ↦ ?_
        subst hph
        refine (set_local_sentinel_meets cfg inst rfl).bind fun ph _ hph ↦ ?_
        subst hph
        intro result h _
        obtain rfl := Reply.ok.inj h
        rfl
      | false =>
        rw [if_neg Bool.false_ne_true]
        dsimp only
        split
        · refine (try_local_meets cfg inst).bind fun ph r hr ↦ ?_
          rcases hr with ⟨rfl, rfl⟩ | ⟨entry, rfl, rfl⟩
          · exact warm_from_service_meets cfg inst
          · exact ReadPhase.returns_valid entry
        · exact warm_from_service_meets cfg inst

theorem resolve_members_meets :
    (resolve_members cfg inst ssid).Meets (readContract true ssid since) .idle
      fun ph' r ↦ ph'.Returns r := by
  refine (try_local_meets cfg inst).bind fun ph r hr ↦ ?_
  rcases hr with ⟨rfl, rfl⟩ | ⟨entry, rfl, rfl⟩
  · show Meets _ (if _ then _ else _) _ _
    split
    · refine meets_op_bind.2 ⟨trivial, fun _ _ ↦ ?_⟩
      refine (try_local_meets cfg inst).bind fun ph r hr ↦ ?_
      rcases hr with ⟨rfl, rfl⟩ | ⟨entry, rfl, rfl⟩
      · exact resolve_shared_meets cfg inst
      · refine (release_guard_meets cfg inst).bind fun ph _ hph ↦ ?_
        subst hph
        exact ReadPhase.returns_valid entry
    · exact resolve_shared_meets cfg inst
  · exact ReadPhase.returns_valid entry

/-- A call follows its contract. -/
theorem resolve_call_meets :
    (resolve_call cfg inst ssid since).Meets (readContract true ssid since) .idle
      fun _ _ ↦ True := by
  refine (resolve_members_meets cfg inst).bind fun ph r hr ↦ ?_
  cases r with
  | thrown => exact trivial
  | ok result => exact ⟨⟨rfl, rfl, hr result rfl⟩, fun _ _ ↦ trivial⟩

/-! ### `GetMemberIds` -/

theorem getMemberIds_meets (auth_user : String) :
    (GetMemberIds auth_user ssid since).Meets (readContract false ssid since) .idle
      fun _ _ ↦ True := by
  have hanswer {ph : ReadPhase} {uids : List String} (h : ph.answer = some uids) :
      (if auth_user ≠ "__system__" ∧ auth_user ∉ uids then return ()
        else op (MemOp.served ssid since uids) : MemM Unit).Meets (readContract false ssid since) ph
        fun _ _ ↦ True := by
    split
    · exact trivial
    · exact ⟨⟨rfl, rfl, h⟩, fun _ _ ↦ trivial⟩
  refine Members.list_snapshot_meets.bind fun ph snap hsnap ↦ ?_
  split
  · next hne =>
    obtain ⟨hstable, hne⟩ := Bool.and_eq_true_iff.1 hne
    obtain rfl := hsnap hstable
    have hne : snap.members ≠ [] := by simpa using hne
    exact hanswer (if_neg hne)
  · refine Members.is_sentinel_meets.bind fun ph found hph ↦ ?_
    subst hph
    split
    · next hconf =>
      obtain rfl : found = true := (Bool.and_eq_true_iff.1 hconf).2
      exact hanswer rfl
    · refine Members.version_meets.bind fun ph observed hph ↦ ?_
      -- whatever came before, the version that was read last is the one that counts
      obtain rfl : ph = .read observed := by
        rw [hph]
        cases found <;> rfl
      refine meets_op_bind.2 ⟨rfl, fun uids _ ↦ ?_⟩
      refine (Members.write_back_meets rfl).bind fun ph _ hph ↦ ?_
      subst hph
      exact hanswer rfl

end Readers

/-! ### Conversation writes -/

/-- How far a conversation write has come. -/
inductive WritePhase
  | pending
  | committed
  | done

/-- The contract of a write: it invalidates what it has committed. -/
def writeContract (ssid : String) : Contract MemOp MemOp.Res WritePhase where
  allowed
    | .pending, commitMembers c _ => c = ssid
    | .committed, evalInvalidate c => c = ssid
    | _, _ => False
  admits _ _ _ := True
  next
    | .pending, _, _ => .committed
    | _, _, _ => .done

theorem write_members_meets (ssid : String) (members : Finset String) :
    (write_members ssid members).Meets (writeContract ssid) .pending fun _ _ ↦ True :=
  ⟨rfl, fun _ _ ↦ ⟨rfl, fun _ _ ↦ trivial⟩⟩

end ChatNow
