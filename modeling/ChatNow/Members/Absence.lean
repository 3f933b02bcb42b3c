import ChatNow.Members.Machine
import ChatNow.Transmite.SendMessage

/-!
# When a conversation is taken for empty

The sentinel of a conversation says that it has no members, and `SendMessage` rejects what is sent
to it. `ConversationMemberTable::members` answers the empty list when the query throws, and
`GetMemberIds` takes the empty list for an answer: one failed query leaves a sentinel, and every
instance believes it (`failed_query_leaves_sentinel`).

Nothing else does. A conversation that keeps a member is never taken for empty in any run in which
the queries for its members succeed (`never_taken_for_empty`), whatever Redis does. The proof is
about what a reader has seen: as long as it has not seen the conversation empty, it does not say so
(`emptyContract`), and there is nowhere to see it.
-/

namespace ChatNow

open Prog MemOp SendMessage

/-! ### The machine -/

namespace MemState

/-- What the GetMemberIds calls for the conversation have answered. -/
def answered (s : MemState) (ssid : String) : List (List String) :=
  (s.served.filter (·.1 = ssid)).map (·.2.2)

/-- The effect of a call by thread `i`. The RPC of `fetch_members_from_conversation_service_` fails,
or answers what a GetMemberIds call has answered. -/
def execRpc (i : ℕ) : (o : MemOp) → MemChoice → MemState → Option (o.Res × MemState)
  | callGetMemberIds ssid, c, s =>
    if !c.ok then some (none, s)
    else if c.order ∈ s.answered ssid then some (some c.order, s)
    else none
  | o, c, s => s.exec i o c

end MemState

/-- The instances of Transmite and the conversation service. -/
def membersService (cfg : ℕ → MembersConfig) :
    Machine MemOp MemOp.Res MemState MemChoice MemEv :=
  ⟨MemState.execRpc, MemState.env cfg⟩

/-- Redis works, and the conversation keeps a member. -/
def keepsMember (ssid : String) : MemGuard where
  onOp _ o c _ :=
    match o with
    | selectMembers _ => True
    | commitMembers c' members => c' = ssid → members ≠ ∅
    | _ => c.fault = false
  onEv _ _ := True

/-- The conversation keeps a member, and the queries for its members succeed. -/
def queriesSucceed (ssid : String) : MemGuard where
  onOp _ o c _ :=
    match o with
    | selectMembers c' => c' = ssid → c.fault = false
    | commitMembers c' members => c' = ssid → members ≠ ∅
    | _ => True
  onEv _ _ := True

/-! ### The property -/

namespace MemState

/-- What `resolve_members` answers a SendMessage request. -/
def Resolves (s : MemState) : (o : PipeOp) → o.Res → Prop
  | .resolveMembers ssid, .ok result => ∃ since, (ssid, since, result) ∈ s.results
  | _, _ => True

/-- The conversation is not taken for empty. -/
structure NotTakenForEmpty (s : MemState) (ssid : String) : Prop where
  no_sentinel : (s.convs ssid).sentinel = false
  /-- No SendMessage request is told that it is, in any of its tries. -/
  not_rejected : ∀ n tr result, (resolve_members_retry ssid n).Runs s.Resolves tr (.ok result) →
    result.confirmed_empty = false

/-- The conversation has a member, and nobody has said that it has none. -/
structure Populated (s : MemState) (ssid : String) : Prop where
  current : (s.convs ssid).db.current ≠ ∅
  no_sentinel : (s.convs ssid).sentinel = false
  l1 : ∀ inst entry, s.l1 inst ssid = some entry → entry.sentinel = false
  served : ∀ q ∈ s.served, q.1 = ssid → q.2.2 ≠ []
  results : ∀ q ∈ s.results, q.1 = ssid → q.2.2.confirmed_empty = false

end MemState

/-- A request that is told nothing of the kind is not rejected for it. -/
theorem not_confirmed_of_resolves {ok : (o : PipeOp) → o.Res → Prop} {ssid : String}
    (h : ∀ result, ok (.resolveMembers ssid) (.ok result) → result.confirmed_empty = false) {n : ℕ}
    {tr : List (Σ o, PipeOp.Res o)} {result : MembersResult}
    (hr : (resolve_members_retry ssid n).Runs ok tr (.ok result)) :
    result.confirmed_empty = false := by
  induction n generalizing tr with
  | zero =>
    cases hr with
    | call hok hret =>
      obtain ⟨-, heq⟩ := runs_ret.1 hret
      exact h result (heq ▸ hok)
  | succ n ih =>
    obtain ⟨r, tr', -, hok, hrest⟩ := runs_op_bind.1 hr
    cases r with
    | thrown => cases (runs_ret.1 hrest).2
    | ok r =>
      dsimp only at hrest
      split at hrest
      · obtain ⟨-, heq⟩ := runs_ret.1 hrest
        obtain rfl := Reply.ok.inj heq
        exact h _ hok
      · exact ih hrest

theorem MemState.Populated.notTakenForEmpty {s : MemState} {ssid : String} (h : s.Populated ssid) :
    s.NotTakenForEmpty ssid where
  no_sentinel := h.no_sentinel
  not_rejected _ _ _ := not_confirmed_of_resolves fun _ hr ↦ by
    obtain ⟨since, hmem⟩ := hr
    exact h.results _ hmem rfl

/-! ### What a reader says -/

/-- Who is answered the empty list sees the conversation empty. -/
def sees (ssid c : String) (seen : Bool) (members : List String) : Bool :=
  seen || (decide (c = ssid) && members.isEmpty)

theorem sees_of_eq_nil {ssid c : String} {seen : Bool} {members : List String} (h : members = [])
    (hc : c = ssid) : sees ssid c seen members = true := by
  rw [sees, h, decide_eq_true hc]
  exact Bool.or_true _

/-- The contract of all threads, as far as one conversation is concerned: who has not seen it empty
does not say so. -/
def emptyContract (ssid : String) : Contract MemOp MemOp.Res Bool where
  allowed seen o :=
    match o with
    | l1Set _ c entry => c = ssid → entry.sentinel = true → seen = true
    | evalSentinelIfVersion c _ => c = ssid → seen = true
    | MemOp.resolved c _ result => c = ssid → result.confirmed_empty = true → seen = true
    | MemOp.served c _ uids => c = ssid → uids = [] → seen = true
    | _ => True
  admits _ _ _ := True
  next seen o r :=
    match o, r with
    | l1Get _ c, some entry => seen || (decide (c = ssid) && entry.sentinel)
    | getSentinel c, .ok true => seen || decide (c = ssid)
    | callGetMemberIds c, some members => sees ssid c seen members
    | selectMembers c, members => sees ssid c seen members
    | _, _ => seen

section Readers

variable {ssid c : String} {seen : Bool}

namespace Members

theorem version_honest : (version c).Meets (emptyContract ssid) seen fun seen' _ ↦ seen' = seen :=
  ⟨trivial, fun _ _ ↦ rfl⟩

theorem list_snapshot_honest :
    (list_snapshot c).Meets (emptyContract ssid) seen fun seen' _ ↦ seen' = seen := by
  refine version_honest.bind fun seen' before hseen ↦ ?_
  subst hseen
  refine meets_op_bind.2 ⟨trivial, fun r _ ↦ ?_⟩
  cases r with
  | thrown => exact rfl
  | ok members => exact version_honest.bind fun seen'' after hseen ↦ hseen

theorem is_sentinel_honest : (is_sentinel c).Meets (emptyContract ssid) seen
    fun seen' found ↦ found = true → c = ssid → seen' = true := by
  refine meets_op_bind.2 ⟨trivial, fun r _ ↦ ?_⟩
  cases r with
  | thrown => exact fun h ↦ absurd h Bool.false_ne_true
  | ok found =>
    cases found with
    | false => exact fun h ↦ absurd h Bool.false_ne_true
    | true =>
      intro _ hc
      show (seen || decide (c = ssid)) = true
      rw [decide_eq_true hc, Bool.or_true]

theorem write_back_honest {uids : List String} {v : ℕ} (h : uids = [] → c = ssid → seen = true) :
    (write_back c uids v).Meets (emptyContract ssid) seen fun seen' _ ↦ seen' = seen := by
  rw [write_back]
  split
  · next hempty =>
    rw [set_sentinel_if_version]
    split
    · exact rfl
    · refine meets_op_bind.2 ⟨h (List.isEmpty_iff.1 hempty), fun r _ ↦ ?_⟩
      cases r <;> exact rfl
  · rw [warm_if_version]
    split
    · exact rfl
    · split
      · exact rfl
      · refine meets_op_bind.2 ⟨trivial, fun r _ ↦ ?_⟩
        cases r <;> exact rfl

end Members

variable (cfg : MembersConfig) (inst : ℕ)

/-- The result does not say that the conversation is empty, unless it has been seen empty. -/
def Honest (ssid c : String) (seen : Bool) (result : MembersResult) : Prop :=
  result.confirmed_empty = true → c = ssid → seen = true

theorem try_local_honest : (try_local cfg inst c).Meets (emptyContract ssid) seen
    fun seen' r ↦ ∀ result, r = some result → Honest ssid c seen' result := by
  rw [try_local]
  split
  · exact fun result h ↦ by cases h
  · refine meets_op_bind.2 ⟨trivial, fun r _ ↦ ?_⟩
    cases r with
    | none => exact fun result h ↦ by cases h
    | some entry =>
      refine Members.version_honest.bind fun seen' v hseen ↦ ?_
      subst hseen
      split
      · exact ⟨trivial, fun _ _ result h ↦ by cases h⟩
      · intro result h hconf hc
        obtain rfl := Option.some.inj h
        have hsentinel : entry.sentinel = true := by
          rw [MembersCacheEntry.result] at hconf
          split at hconf
          · assumption
          · cases hconf
        show (seen || (decide (c = ssid) && entry.sentinel)) = true
        rw [decide_eq_true hc, hsentinel, Bool.true_and, Bool.or_true]

theorem set_local_honest {entry : MembersCacheEntry}
    (h : entry.sentinel = true → c = ssid → seen = true) :
    (set_local cfg inst c entry).Meets (emptyContract ssid) seen fun seen' _ ↦ seen' = seen := by
  rw [set_local]
  split
  · exact rfl
  · split
    · exact ⟨fun hc hs ↦ h hs hc, fun _ _ ↦ rfl⟩
    · exact rfl

theorem set_local_fetched_honest {members : List String} {v : ℕ}
    (h : members = [] → c = ssid → seen = true) :
    (set_local_fetched cfg inst c members v).Meets (emptyContract ssid) seen
      fun seen' _ ↦ seen' = seen := by
  rw [set_local_fetched]
  split
  · next hempty => exact set_local_honest cfg inst fun _ ↦ h (List.isEmpty_iff.1 hempty)
  · exact set_local_honest cfg inst fun hs ↦ absurd hs Bool.false_ne_true

theorem release_guard_honest : (release_guard cfg inst c).Meets (emptyContract ssid) seen
    fun seen' _ ↦ seen' = seen := by
  rw [release_guard]
  split
  · exact ⟨trivial, fun _ _ ↦ rfl⟩
  · exact rfl

/-- What a finished `resolve_members` says. -/
def Returned (ssid c : String) (seen : Bool) (r : Reply MembersResult) : Prop :=
  ∀ result, r = .ok result → Honest ssid c seen result

theorem returned_of_not_confirmed {result : MembersResult} (h : result.confirmed_empty = false) :
    Returned ssid c seen (.ok result) := by
  intro result' heq hconf
  obtain rfl := Reply.ok.inj heq
  rw [h] at hconf
  cases hconf

theorem warm_from_service_honest :
    (warm_from_service cfg inst c).Meets (emptyContract ssid) seen (Returned ssid c) := by
  refine meets_op_bind.2 ⟨trivial, fun r _ ↦ ?_⟩
  match r with
  | .thrown =>
    refine (release_guard_honest cfg inst).bind fun _ _ _ ↦ ?_
    intro result h
    cases h
  | .ok false =>
    exact (release_guard_honest cfg inst).bind fun _ _ _ ↦ returned_of_not_confirmed rfl
  | .ok true =>
    refine Members.version_honest.bind fun seen' observed_version hseen ↦ ?_
    subst hseen
    refine meets_op_bind.2 ⟨trivial, fun answer _ ↦ ?_⟩
    cases answer with
    | none =>
      refine meets_op_bind.2 ⟨trivial, fun _ _ ↦ ?_⟩
      exact (release_guard_honest cfg inst).bind fun _ _ _ ↦ returned_of_not_confirmed rfl
    | some members =>
      refine (Members.write_back_honest sees_of_eq_nil).bind fun seen₁ written hseen ↦ ?_
      subst hseen
      split
      · refine meets_op_bind.2 ⟨trivial, fun _ _ ↦ ?_⟩
        exact (release_guard_honest cfg inst).bind fun _ _ _ ↦ returned_of_not_confirmed rfl
      · refine (set_local_fetched_honest cfg inst sees_of_eq_nil).bind fun seen₁ _ hseen ↦ ?_
        subst hseen
        refine meets_op_bind.2 ⟨trivial, fun _ _ ↦ ?_⟩
        refine (release_guard_honest cfg inst).bind fun seen₁ _ hseen ↦ ?_
        subst hseen
        intro result h hconf
        obtain rfl := Reply.ok.inj h
        exact sees_of_eq_nil (List.isEmpty_iff.1 hconf)

theorem resolve_shared_honest :
    (resolve_shared cfg inst c).Meets (emptyContract ssid) seen (Returned ssid c) := by
  refine Members.list_snapshot_honest.bind fun seen' snap hseen ↦ ?_
  subst hseen
  split
  · exact (release_guard_honest cfg inst).bind fun _ _ _ ↦ returned_of_not_confirmed rfl
  · split
    · refine (release_guard_honest cfg inst).bind fun seen' _ hseen ↦ ?_
      subst hseen
      refine (set_local_honest cfg inst fun h ↦ absurd h Bool.false_ne_true).bind fun _ _ _ ↦ ?_
      exact returned_of_not_confirmed rfl
    · refine Members.is_sentinel_honest.bind fun seen' found hfound ↦ ?_
      split
      · next hconf =>
        have hempty := hfound (Bool.and_eq_true_iff.1 hconf).2
        refine Members.version_honest.bind fun seen'' observed hseen ↦ ?_
        subst hseen
        refine (release_guard_honest cfg inst).bind fun seen'' _ hseen ↦ ?_
        subst hseen
        refine (set_local_honest cfg inst fun _ ↦ hempty).bind fun seen'' _ hseen ↦ ?_
        subst hseen
        intro result h _
        exact hempty
      · dsimp only
        split
        · refine (try_local_honest cfg inst).bind fun seen'' r hr ↦ ?_
          cases r with
          | none => exact warm_from_service_honest cfg inst
          | some result =>
            intro result' h
            obtain rfl := Reply.ok.inj h
            exact hr _ rfl
        · exact warm_from_service_honest cfg inst

theorem resolve_members_honest :
    (resolve_members cfg inst c).Meets (emptyContract ssid) seen (Returned ssid c) := by
  -- what L1 answers is returned as it is
  have hreturn {seen' : Bool} {r : MembersResult}
      (hr : ∀ result, some r = some result → Honest ssid c seen' result) :
      Returned ssid c seen' (.ok r) := by
    intro result h
    obtain rfl := Reply.ok.inj h
    exact hr _ rfl
  refine (try_local_honest cfg inst).bind fun seen' r hr ↦ ?_
  cases r with
  | some result => exact hreturn hr
  | none =>
    dsimp only
    split
    · refine meets_op_bind.2 ⟨trivial, fun _ _ ↦ ?_⟩
      refine (try_local_honest cfg inst).bind fun seen'' r hr ↦ ?_
      cases r with
      | some result =>
        refine (release_guard_honest cfg inst).bind fun seen₃ _ hseen ↦ ?_
        subst hseen
        exact hreturn hr
      | none => exact resolve_shared_honest cfg inst
    · exact resolve_shared_honest cfg inst

theorem resolve_call_honest (since : List ℕ) :
    (resolve_call cfg inst c since).Meets (emptyContract ssid) seen fun _ _ ↦ True := by
  refine (resolve_members_honest cfg inst).bind fun seen' r hr ↦ ?_
  cases r with
  | thrown => exact trivial
  | ok result => exact ⟨fun hc hconf ↦ hr result rfl hconf hc, fun _ _ ↦ trivial⟩

theorem getMemberIds_honest (auth_user : String) (since : List ℕ) :
    (GetMemberIds auth_user c since).Meets (emptyContract ssid) seen fun _ _ ↦ True := by
  have hanswer {seen' : Bool} {uids : List String} (h : uids = [] → c = ssid → seen' = true) :
      (if auth_user ≠ "__system__" ∧ auth_user ∉ uids then return ()
        else op (MemOp.served c since uids) : MemM Unit).Meets (emptyContract ssid) seen'
        fun _ _ ↦ True := by
    split
    · exact trivial
    · exact ⟨fun hc hempty ↦ h hempty hc, fun _ _ ↦ trivial⟩
  refine Members.list_snapshot_honest.bind fun seen' snap hseen ↦ ?_
  subst hseen
  split
  · next hne =>
    have hne : snap.members ≠ [] := by simpa using (Bool.and_eq_true_iff.1 hne).2
    exact hanswer fun h ↦ absurd h hne
  · refine Members.is_sentinel_honest.bind fun seen' found hfound ↦ ?_
    split
    · next hconf => exact hanswer fun _ ↦ hfound (Bool.and_eq_true_iff.1 hconf).2
    · refine Members.version_honest.bind fun seen'' observed hseen ↦ ?_
      subst hseen
      refine meets_op_bind.2 ⟨trivial, fun uids _ ↦ ?_⟩
      refine (Members.write_back_honest sees_of_eq_nil).bind fun seen₁ _ hseen ↦ ?_
      subst hseen
      exact hanswer sees_of_eq_nil

theorem write_members_honest (members : Finset String) :
    (write_members c members).Meets (emptyContract ssid) seen fun _ _ ↦ True :=
  ⟨trivial, fun _ _ ↦ ⟨trivial, fun _ _ ↦ trivial⟩⟩

end Readers

/-! ### Runs -/

section Runs

variable {ssid c : String} {s s' : MemState} {i : ℕ} {seen : Bool}

namespace MemState.Populated

theorem setConv (h : s.Populated ssid) {conv : Conv}
    (hconv : ssid = c → conv.db.current ≠ ∅ ∧ conv.sentinel = false) :
    (s.setConv c conv).Populated ssid where
  current := by
    rw [convs_setConv]
    split
    · next heq => exact (hconv heq).1
    · exact h.current
  no_sentinel := by
    rw [convs_setConv]
    split
    · next heq => exact (hconv heq).2
    · exact h.no_sentinel
  l1 := h.l1
  served := h.served
  results := h.results

theorem setLocal (h : s.Populated ssid) {inst : ℕ} {e : Option MembersCacheEntry}
    (he : ssid = c → ∀ entry, e = some entry → entry.sentinel = false) :
    (s.setLocal inst c e).Populated ssid where
  current := h.current
  no_sentinel := h.no_sentinel
  l1 inst' entry hentry := by
    rw [l1_setLocal] at hentry
    split at hentry
    · next heq => exact he heq.2 entry hentry
    · exact h.l1 inst' entry hentry
  served := h.served
  results := h.results

/-- What can change without a word about the members. -/
theorem of_eq (h : s.Populated ssid) (hconvs : s'.convs = s.convs) (hl1 : s'.l1 = s.l1)
    (hserved : s'.served = s.served) (hresults : s'.results = s.results) : s'.Populated ssid where
  current := by
    rw [hconvs]
    exact h.current
  no_sentinel := by
    rw [hconvs]
    exact h.no_sentinel
  l1 := by
    rw [hl1]
    exact h.l1
  served := by
    rw [hserved]
    exact h.served
  results := by
    rw [hresults]
    exact h.results

end MemState.Populated

/-- Nobody has seen the conversation empty. -/
structure UnseenInv (ssid : String) (ts : List Bool) (s : MemState) : Prop where
  unseen : ∀ seen ∈ ts, seen = false
  populated : s.Populated ssid

/-- **A call of a thread** that has not seen the conversation empty. -/
theorem populated_call {o : MemOp} {ch : MemChoice} {r : o.Res} (h : s.Populated ssid)
    (ha : (emptyContract ssid).allowed false o) (hG : (queriesSucceed ssid).onOp i o ch s)
    (hx : s.execRpc i o ch = some (r, s')) :
    s'.Populated ssid ∧ (emptyContract ssid).next false o r = false := by
  have hstays {members : List String} {c : String} (hne : c = ssid → members ≠ []) :
      sees ssid c false members = false := by
    rw [sees, Bool.false_or, Bool.and_eq_false_iff]
    by_cases hc : c = ssid
    · exact .inr (Bool.eq_false_iff.2 fun h ↦ hne hc (List.isEmpty_iff.1 h))
    · exact .inl (decide_eq_false hc)
  cases o with
  | l1Get inst c =>
    obtain ⟨rfl, rfl⟩ := Prod.mk.inj (Option.some.inj hx)
    refine ⟨h, ?_⟩
    cases hentry : s.l1 inst c with
    | none => rfl
    | some entry =>
      show (decide (c = ssid) && entry.sentinel) = false
      by_cases hc : c = ssid
      · rw [h.l1 inst entry (hc ▸ hentry), Bool.and_false]
      · rw [decide_eq_false hc, Bool.false_and]
  | l1Set inst c entry =>
    obtain ⟨-, rfl⟩ := Prod.mk.inj (Option.some.inj hx)
    refine ⟨h.setLocal fun hc entry' heq ↦ ?_, rfl⟩
    obtain rfl := Option.some.inj heq
    exact Bool.eq_false_iff.2 fun hs ↦ Bool.false_ne_true (ha hc.symm hs)
  | l1Invalidate inst c =>
    obtain ⟨-, rfl⟩ := Prod.mk.inj (Option.some.inj hx)
    exact ⟨h.setLocal fun _ entry heq ↦ (by cases heq), rfl⟩
  | getVersion c =>
    simp only [MemState.execRpc, MemState.exec] at hx
    split at hx <;> obtain ⟨-, rfl⟩ := Prod.mk.inj (Option.some.inj hx)
    · exact ⟨h, rfl⟩
    · exact ⟨h.of_eq rfl rfl rfl rfl, rfl⟩
  | smembers c =>
    simp only [MemState.execRpc, MemState.exec] at hx
    split at hx
    · obtain ⟨-, rfl⟩ := Prod.mk.inj (Option.some.inj hx)
      exact ⟨h, rfl⟩
    · split at hx
      · obtain ⟨-, rfl⟩ := Prod.mk.inj (Option.some.inj hx)
        exact ⟨h, rfl⟩
      · cases hx
  | getSentinel c =>
    simp only [MemState.execRpc, MemState.exec] at hx
    split at hx
    · obtain ⟨rfl, rfl⟩ := Prod.mk.inj (Option.some.inj hx)
      exact ⟨h, rfl⟩
    · split at hx <;> obtain ⟨rfl, rfl⟩ := Prod.mk.inj (Option.some.inj hx)
      · next hsentinel =>
        have hc : c ≠ ssid := by
          rintro rfl
          exact Bool.false_ne_true (h.no_sentinel.symm.trans hsentinel)
        exact ⟨h.of_eq rfl rfl rfl rfl, decide_eq_false hc⟩
      · exact ⟨h, rfl⟩
  | evalWarmIfVersion c observed uids =>
    simp only [MemState.execRpc, MemState.exec] at hx
    split at hx <;> obtain ⟨-, rfl⟩ := Prod.mk.inj (Option.some.inj hx)
    · exact ⟨h, rfl⟩
    · refine ⟨h.setConv ?_, rfl⟩
      rintro rfl
      rw [Conv.warmIfVersion]
      split
      · exact ⟨h.current, rfl⟩
      · exact ⟨h.current, h.no_sentinel⟩
  | evalSentinelIfVersion c observed =>
    have hc : c ≠ ssid := fun hc ↦ Bool.false_ne_true (ha hc)
    simp only [MemState.execRpc, MemState.exec] at hx
    split at hx <;> obtain ⟨-, rfl⟩ := Prod.mk.inj (Option.some.inj hx)
    · exact ⟨h, rfl⟩
    · exact ⟨h.setConv fun heq ↦ absurd heq.symm hc, rfl⟩
  | evalInvalidate c =>
    simp only [MemState.execRpc, MemState.exec] at hx
    split at hx
    · obtain ⟨-, rfl⟩ := Prod.mk.inj (Option.some.inj hx)
      exact ⟨h, rfl⟩
    · split at hx
      · next conv hconv =>
        obtain ⟨-, rfl⟩ := Prod.mk.inj (Option.some.inj hx)
        have hset : (s.setConv c conv).Populated ssid := by
          refine h.setConv ?_
          rintro rfl
          rw [Conv.invalidate] at hconv
          split at hconv
          · obtain rfl := Option.some.inj hconv
            exact ⟨h.current, rfl⟩
          · cases hconv
        exact ⟨hset.of_eq rfl rfl rfl rfl, rfl⟩
      · obtain ⟨-, rfl⟩ := Prod.mk.inj (Option.some.inj hx)
        exact ⟨h, rfl⟩
  | acquire inst c =>
    simp only [MemState.execRpc, MemState.exec] at hx
    split at hx
    · cases hx
    · obtain ⟨-, rfl⟩ := Prod.mk.inj (Option.some.inj hx)
      exact ⟨h.of_eq rfl rfl rfl rfl, rfl⟩
  | release inst c =>
    obtain ⟨-, rfl⟩ := Prod.mk.inj (Option.some.inj hx)
    exact ⟨h.of_eq rfl rfl rfl rfl, rfl⟩
  | tryLock c =>
    simp only [MemState.execRpc, MemState.exec] at hx
    split at hx <;> obtain ⟨-, rfl⟩ := Prod.mk.inj (Option.some.inj hx) <;> exact ⟨h, rfl⟩
  | unlock c =>
    obtain ⟨-, rfl⟩ := Prod.mk.inj (Option.some.inj hx)
    exact ⟨h, rfl⟩
  | callGetMemberIds c =>
    simp only [MemState.execRpc] at hx
    split at hx
    · obtain ⟨rfl, rfl⟩ := Prod.mk.inj (Option.some.inj hx)
      exact ⟨h, rfl⟩
    · split at hx
      · next hanswered =>
        obtain ⟨rfl, rfl⟩ := Prod.mk.inj (Option.some.inj hx)
        refine ⟨h, hstays fun hc ↦ ?_⟩
        obtain ⟨q, hq, heq⟩ := List.mem_map.1 hanswered
        obtain ⟨hmem, hssid⟩ := List.mem_filter.1 hq
        rw [← heq]
        exact h.served q hmem ((of_decide_eq_true hssid).trans hc)
      · cases hx
  | selectMembers c =>
    simp only [MemState.execRpc, MemState.exec] at hx
    split at hx
    · next hfault =>
      obtain ⟨rfl, rfl⟩ := Prod.mk.inj (Option.some.inj hx)
      have hc : c ≠ ssid := fun hc ↦ Bool.false_ne_true ((hG hc).symm.trans hfault)
      exact ⟨h, hstays fun heq ↦ absurd heq hc⟩
    · split at hx
      · next hlists =>
        obtain ⟨rfl, rfl⟩ := Prod.mk.inj (Option.some.inj hx)
        refine ⟨h, hstays ?_⟩
        rintro rfl hnil
        rw [hnil] at hlists
        exact h.current hlists.2.symm
      · cases hx
  | commitMembers c members =>
    obtain ⟨-, rfl⟩ := Prod.mk.inj (Option.some.inj hx)
    have hset : (s.setConv c ((s.convs c).commit members)).Populated ssid := by
      refine h.setConv ?_
      rintro rfl
      refine ⟨?_, h.no_sentinel⟩
      show ((s.convs ssid).db.change members).current ≠ ∅
      rw [Versioned.current_change]
      exact hG rfl
    exact ⟨hset.of_eq rfl rfl rfl rfl, rfl⟩
  | resolved c since result =>
    obtain ⟨-, rfl⟩ := Prod.mk.inj (Option.some.inj hx)
    refine ⟨{ h with results := fun q hq hc ↦ ?_ }, rfl⟩
    rcases List.mem_append.1 hq with hq | hq
    · exact h.results q hq hc
    · obtain rfl := List.mem_singleton.1 hq
      exact Bool.eq_false_iff.2 fun hconf ↦ Bool.false_ne_true (ha hc hconf)
  | served c since uids =>
    obtain ⟨-, rfl⟩ := Prod.mk.inj (Option.some.inj hx)
    refine ⟨{ h with served := fun q hq hc ↦ ?_ }, rfl⟩
    rcases List.mem_append.1 hq with hq | hq
    · exact h.served q hq hc
    · obtain rfl := List.mem_singleton.1 hq
      exact fun hnil ↦ Bool.false_ne_true (ha hc hnil)

theorem UnseenInv.append {ts : List Bool} (h : UnseenInv ssid ts s) :
    UnseenInv ssid (ts ++ [false]) s where
  unseen seen hseen := by
    rcases List.mem_append.1 hseen with hseen | hseen
    · exact h.unseen seen hseen
    · exact List.mem_singleton.1 hseen
  populated := h.populated

/-- **Every event** leaves the conversation with its members, and every thread that it starts keeps
to the contract. -/
theorem unseenInv_event {cfg : ℕ → MembersConfig} {e : MemEv} {ts : List Bool} {p p' : MemPool}
    (h : UnseenInv ssid ts p.shared) (hm : p.Meets (emptyContract ssid) (fun _ ↦ True) ts)
    (hx : MemState.env cfg e p = some p') :
    ∃ ts', UnseenInv ssid ts' p'.shared ∧ p'.Meets (emptyContract ssid) (fun _ ↦ True) ts' := by
  cases e with
  | resolve inst c =>
    obtain rfl := Option.some.inj hx
    exact ⟨_, ⟨h.append.unseen, h.populated.of_eq rfl rfl rfl rfl⟩,
      hm.spawn (resolve_call_honest (cfg inst) inst _) _⟩
  | getMemberIds auth_user c =>
    obtain rfl := Option.some.inj hx
    exact ⟨_, h.append, hm.spawn (getMemberIds_honest auth_user _) _⟩
  | write c members =>
    obtain rfl := Option.some.inj hx
    exact ⟨_, h.append, hm.spawn (write_members_honest members) _⟩
  | expireMembers c =>
    obtain rfl := Option.some.inj hx
    refine ⟨ts, ⟨h.unseen, h.populated.setConv ?_⟩, hm⟩
    rintro rfl
    exact ⟨h.populated.current, h.populated.no_sentinel⟩
  | expireSentinel c =>
    obtain rfl := Option.some.inj hx
    refine ⟨ts, ⟨h.unseen, h.populated.setConv ?_⟩, hm⟩
    rintro rfl
    exact ⟨h.populated.current, rfl⟩
  | evict inst c =>
    obtain rfl := Option.some.inj hx
    exact ⟨ts, ⟨h.unseen, h.populated.setLocal fun _ entry heq ↦ by cases heq⟩, hm⟩

end Runs

/-- **A conversation with members is never taken for empty** in any run in which it keeps a member
and the queries for its members succeed. -/
theorem never_taken_for_empty (cfg : ℕ → MembersConfig) (ssid : String) (s₀ : MemState)
    (h₀ : s₀.Populated ssid) (p : MemPool)
    (hr : (membersService cfg).Reach (queriesSucceed ssid) ⟨[], s₀⟩ p) :
    p.shared.NotTakenForEmpty ssid := by
  obtain ⟨ts, h, -⟩ :
      ∃ ts, UnseenInv ssid ts p.shared ∧ p.Meets (emptyContract ssid) (fun _ ↦ True) ts := by
    refine Machine.invariant hr ⟨[], ⟨fun _ h ↦ absurd h List.not_mem_nil, h₀⟩, .nil⟩ ?_ ?_
    · intro ts s i seen o c r s' hinv hi ha hG hx
      obtain rfl := hinv.unseen seen (List.mem_of_getElem? hi)
      obtain ⟨hpop, hnext⟩ := populated_call hinv.populated ha hG hx
      refine ⟨trivial, fun seen hseen ↦ ?_, hpop⟩
      rcases List.mem_or_eq_of_mem_set hseen with hseen | rfl
      · exact hinv.unseen seen hseen
      · exact hnext
    · intro ts p e p' hinv hm _ hx
      exact unseenInv_event hinv hm hx
  exact h.populated.notTakenForEmpty

/-! ### Concrete runs -/

instance (ssid : String) (i : ℕ) (o : MemOp) (c : MemChoice) (s : MemState) :
    Decidable ((keepsMember ssid).onOp i o c s) :=
  match o with
  | .selectMembers _ => .isTrue trivial
  | .commitMembers c' members => inferInstanceAs (Decidable (c' = ssid → members ≠ ∅))
  | .l1Get _ _ | .l1Set _ _ _ | .l1Invalidate _ _ | .getVersion _ | .smembers _ | .getSentinel _
  | .evalWarmIfVersion _ _ _ | .evalSentinelIfVersion _ _ | .evalInvalidate _ | .acquire _ _
  | .release _ _ | .tryLock _ | .unlock _ | .callGetMemberIds _ | .resolved _ _ _
  | .served _ _ _ => inferInstanceAs (Decidable (c.fault = false))

instance (ssid : String) (e : MemEv) (p : MemPool) : Decidable ((keepsMember ssid).onEv e p) :=
  .isTrue trivial

instance (ssid : String) (i : ℕ) (o : MemOp) (c : MemChoice) (s : MemState) :
    Decidable ((queriesSucceed ssid).onOp i o c s) :=
  match o with
  | .selectMembers c' => inferInstanceAs (Decidable (c' = ssid → c.fault = false))
  | .commitMembers c' members => inferInstanceAs (Decidable (c' = ssid → members ≠ ∅))
  | .l1Get _ _ | .l1Set _ _ _ | .l1Invalidate _ _ | .getVersion _ | .smembers _ | .getSentinel _
  | .evalWarmIfVersion _ _ _ | .evalSentinelIfVersion _ _ | .evalInvalidate _ | .acquire _ _
  | .release _ _ | .tryLock _ | .unlock _ | .callGetMemberIds _ | .resolved _ _ _
  | .served _ _ _ => .isTrue trivial

instance (ssid : String) (e : MemEv) (p : MemPool) : Decidable ((queriesSucceed ssid).onEv e p) :=
  .isTrue trivial

/-- The team has two members, and nothing is cached. -/
def teamOfTwo : MemState :=
  MemState.init.shared.setConv "team"
    ((MemState.init.shared.convs "team").commit {"alice", "bob"})

theorem teamOfTwo_populated : teamOfTwo.Populated "team" where
  current := by decide
  no_sentinel := rfl
  l1 _ _ h := by cases h
  served _ h := absurd h List.not_mem_nil
  results _ h := absurd h List.not_mem_nil

/-- Alice asks who is in the team; the answer of the query is as given. -/
def teamAsked (answer : MemChoice) (n : ℕ) : List MemLabel :=
  .event (.getMemberIds "alice" "team") :: List.replicate 5 (.call 0 {}) ++
    .call 0 answer :: List.replicate n (.call 0 {})

/-- An instance of Transmite resolves the members of the team; the members key is listed as
given. -/
def teamResolved (listing : MemChoice) (n : ℕ) : List MemLabel :=
  .event (.resolve 0 "team") :: List.replicate 4 (.call 1 {}) ++
    .call 1 listing :: List.replicate n (.call 1 {})

/-- Where the query succeeds, the members are cached, and found by the instance. -/
theorem team_found :
    teamOfTwo.Populated "team" ∧ ∃ p, (membersService fun _ ↦ {}).Reach (queriesSucceed "team")
      ⟨[], teamOfTwo⟩ p ∧
      p.shared.results = [("team", [], ⟨["bob", "alice"], false, 0⟩)] ∧
      p.shared.NotTakenForEmpty "team" := by
  obtain ⟨p, hp, hres⟩ := Machine.exists_of_run (membersService fun _ ↦ {})
    (queriesSucceed "team") ⟨[], teamOfTwo⟩
    (teamAsked { order := ["alice", "bob"] } 2 ++
      teamResolved { order := ["bob", "alice"] } 4)
    (fun p ↦ p.shared.results = [("team", [], ⟨["bob", "alice"], false, 0⟩)]) (by decide +kernel)
  exact ⟨teamOfTwo_populated, p, hp, hres,
    never_taken_for_empty _ "team" teamOfTwo teamOfTwo_populated p hp⟩

/-- Where the query throws, GetMemberIds leaves a sentinel, the instance is told that nobody is in
the team, and a SendMessage request gives up at its first try. -/
theorem failed_query_leaves_sentinel :
    teamOfTwo.Populated "team" ∧ ∃ p, (membersService fun _ ↦ {}).Reach (keepsMember "team")
      ⟨[], teamOfTwo⟩ p ∧
      (p.shared.convs "team").db.current = {"alice", "bob"} ∧
      (∃ tr, (resolve_members_retry "team" 2).Runs p.shared.Resolves tr (.ok ⟨[], true, 0⟩)) ∧
      ¬p.shared.NotTakenForEmpty "team" := by
  obtain ⟨p, hp, hcurrent, hres, hsentinel⟩ := Machine.exists_of_run (membersService fun _ ↦ {})
    (keepsMember "team") ⟨[], teamOfTwo⟩
    (teamAsked { fault := true } 1 ++ teamResolved {} 6)
    (fun p ↦ (p.shared.convs "team").db.current = {"alice", "bob"} ∧
      ("team", [], ⟨[], true, 0⟩) ∈ p.shared.results ∧ (p.shared.convs "team").sentinel = true)
    (by decide +kernel)
  have hresolves : p.shared.Resolves (.resolveMembers "team") (.ok ⟨[], true, 0⟩) := ⟨[], hres⟩
  refine ⟨teamOfTwo_populated, p, hp, hcurrent, ⟨_, .call hresolves (.ret _)⟩, fun h ↦ ?_⟩
  exact Bool.false_ne_true (h.no_sentinel.symm.trans hsentinel)

end ChatNow
