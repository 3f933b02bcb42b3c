import ChatNow.Common.ServiceManager
import ChatNow.Lib.Labelled
import ChatNow.Lib.Pool
import ChatNow.Push.OnPushMessage

/-!
# The reaper of the cross-instance outbox

`start_cross_outbox_reaper` of `push/source/push_server.h`: one round for one member of the outbox.
The member is parsed, each user it names is looked up in the route table, one `PushBatch` goes to
every peer that is to serve some of them, and the closures of the calls, which complete in any order
and on any threads, remove the member when the count of successes has reached the number of calls.

The loop over the devices of a user stops at the first one that is not on this instance, a peer
without a channel is passed over and not counted, and the channel that is handed out for a peer may
lead to another instance of the service. So a member is removed although devices it was for have not
been served; `reaper_drops_nothing` says exactly when that does not happen.

`picojson::parse` and `EVP_DecodeBlock` are parameters (`OutboxLibs`).
-/

namespace ChatNow

open OnPushMessage

/-! ### The member -/

/-- `picojson::value`, as far as it is looked at. Of two fields with one name the first one
counts. -/
inductive JsonValue
  | string (s : String)
  | array (elems : List JsonValue)
  | object (fields : List (String × JsonValue))
  | other

namespace JsonValue

/-- `is<std::string>` and `get<std::string>`. -/
def string? : JsonValue → Option String
  | string s => some s
  | _ => none

def array? : JsonValue → Option (List JsonValue)
  | array elems => some elems
  | _ => none

end JsonValue

/-- What the reaper uses of other libraries. -/
structure OutboxLibs where
  /-- `picojson::parse`; `none` when there is an error. -/
  picojson_parse : String → Option JsonValue
  /-- `EVP_DecodeBlock`; `none` when the result is negative. -/
  EVP_DecodeBlock : String → Option (List UInt8)

/-- The fields of a member. -/
structure OutboxMember where
  b64 : String := ""
  uids : List String := []
  peer : String := ""
  deriving DecidableEq

/-- `_parse_outbox_member`. -/
def parse_outbox_member (libs : OutboxLibs) (member : String) : Option OutboxMember :=
  match libs.picojson_parse member with
  | some (.object obj) =>
    let b64 := ((obj.lookup "k").bind JsonValue.string?).getD ""
    let peer := ((obj.lookup "p").bind JsonValue.string?).getD ""
    let uids := (((obj.lookup "u").bind JsonValue.array?).getD []).filterMap JsonValue.string?
    if b64 = "" then none else some { b64, uids, peer }
  | _ => none

/-- `_utils_base64_decode`. -/
def utils_base64_decode (libs : OutboxLibs) (s : String) : List UInt8 :=
  if s = "" then []
  else match libs.EVP_DecodeBlock s with
    | none => []
    | some out =>
      let pads := s.toList.count '='
      if out.length > pads then out.take (out.length - pads) else out

/-! ### The dispatches -/

/-- `CrossDispatch`: what is sent for one peer, and to which host. -/
structure CrossDispatch where
  peer : String
  channel : String
  req : PushBatchReq
  deriving DecidableEq

/-- The instance of the first device that is not on this one. -/
def first_remote (cfg : PushConfig) (route : RouteEntry) : Option String :=
  (route.device_ids.map route.instance_of).find? (· ≠ cfg.instance_id)

/-- `peer_to_uids[inst].push_back(uid)`. -/
def push_peer (m : PeerMap) (inst uid : String) : PeerMap :=
  m.insert inst ((m.lookup inst).getD [] ++ [uid])

/-- The user joins the group of one peer, if there is a device elsewhere. -/
def group_user (cfg : PushConfig) (m : PeerMap) (uid : String) (route : RouteEntry) : PeerMap :=
  match first_remote cfg route with
  | none => m
  | some inst => push_peer m inst uid

/-- The grouping of the users by peer; `routes` is what `resolve_route` returns. -/
def group_by_peer (cfg : PushConfig) (routes : String → Reply RouteEntry) :
    List String → PeerMap → Reply PeerMap
  | [], m => .ok m
  | uid :: uids, m =>
    match routes uid with
    | .thrown => .thrown
    | .ok route => group_by_peer cfg routes uids (group_user cfg m uid route)

/-- The request for one peer. -/
def cross_request (internal_msg : InternalMessage) (uids : List String) : PushBatchReq :=
  { request_id := internal_msg.message.client_msg_id
    user_id_list := uids
    notify := notify_template internal_msg.message ""
    user_seqs := internal_msg.user_seqs.filter fun up ↦ up.user_id ∈ uids }

/-- The channel that is handed out for the peer; `mm peer` is the manager when it is asked, as the
other threads and the peers before have left it. -/
def channel_to (mm : String → ServiceManager) (peer : String) : Option String :=
  ((mm peer).choose peer).1

/-- The dispatches for the peers for which there is a channel. -/
def dispatches_of (mm : String → ServiceManager) (internal_msg : InternalMessage) (m : PeerMap) :
    List CrossDispatch :=
  m.entries.filterMap fun kv ↦
    (channel_to mm kv.1).map fun channel ↦ ⟨kv.1, channel, cross_request internal_msg kv.2⟩

/-! ### The closures -/

/-- How far a closure has come. -/
inductive ClosureStage
  | inFlight
  /-- It has counted itself, if its call succeeded. -/
  | counted
  /-- It has looked at the count. -/
  | done
  deriving DecidableEq

/-- The closure of one call. -/
structure RpcClosure where
  dispatch : CrossDispatch
  /-- `!c->Failed()`. -/
  ok : Bool
  stage : ClosureStage := .inFlight
  deriving DecidableEq

/-- A round of the reaper for one member. -/
structure Reaping where
  closures : List RpcClosure := []
  succeeded : ℕ := 0
  /-- The member has been removed from the outbox. -/
  removed : Bool := false
  deriving DecidableEq

/-- A step of a closure. -/
inductive ReapStep
  /-- `if (!c->Failed()) succeeded->fetch_add(1)`. -/
  | count (i : ℕ)
  /-- `succeeded->load()`, and the removal. -/
  | check (i : ℕ)

/-- `should_remove_cross_outbox`. -/
def should_remove_cross_outbox (rpc_started rpc_succeeded : Bool) : Bool :=
  rpc_started && rpc_succeeded

namespace Reaping

/-- The round after a step. -/
def exec : ReapStep → Reaping → Option Reaping
  | .count i, s =>
    match s.closures[i]? with
    | some ⟨d, ok, .inFlight⟩ =>
      some { s with
        closures := s.closures.set i ⟨d, ok, .counted⟩
        succeeded := if ok then s.succeeded + 1 else s.succeeded }
    | _ => none
  | .check i, s =>
    match s.closures[i]? with
    | some ⟨d, ok, .counted⟩ =>
      let total := s.closures.length
      some { s with
        closures := s.closures.set i ⟨d, ok, .done⟩
        removed := s.removed ||
          should_remove_cross_outbox (decide (0 < total)) (decide (s.succeeded = total)) }
    | _ => none

end Reaping

/-- The closures of a round, in any order. -/
def reaping : Labelled Reaping ReapStep := ⟨Reaping.exec⟩

/-- The closures of the calls, all in flight; `outcome` is what becomes of the call for each
peer. -/
def freshClosures (outcome : String → Bool) (ds : List CrossDispatch) : List RpcClosure :=
  ds.map fun d ↦ ⟨d, outcome d.peer, .inFlight⟩

/-- The round of the reaper for a member, when the last call has been made. -/
def reap_member (libs : OutboxLibs) (cfg : PushConfig) (routes : String → Reply RouteEntry)
    (mm : String → ServiceManager) (outcome : String → Bool) (member : String) : Reaping :=
  match parse_outbox_member libs member with
  | none => { removed := true }
  | some m =>
    match InternalMessage.codec.parse (utils_base64_decode libs m.b64) with
    | none => { removed := true }
    | some internal_msg =>
      match group_by_peer cfg routes m.uids ∅ with
      | .thrown => {}
      | .ok peer_to_uids =>
        if peer_to_uids.entries.isEmpty then { removed := true }
        else { closures :=
          freshClosures outcome (dispatches_of mm internal_msg peer_to_uids) }

/-! ### What the round is for -/

/-- The device has been served: a `PushBatch` for its user to its instance has come back without
failure; `host_of` says where an instance listens. -/
def Reaping.Served (s : Reaping) (host_of : String → String) (uid inst : String) : Prop :=
  inst ≠ "" ∧ ∃ c ∈ s.closures, c.dispatch.channel = host_of inst ∧
    uid ∈ c.dispatch.req.user_id_list ∧ c.ok = true ∧ c.stage ≠ .inFlight

/-- All devices of all users have been served. -/
def Reaping.Covers (s : Reaping) (host_of : String → String) (routes : String → Reply RouteEntry)
    (uids : List String) : Prop :=
  ∀ uid ∈ uids, ∀ route, routes uid = .ok route →
    ∀ did ∈ route.device_ids, s.Served host_of uid (route.instance_of did)

/-! ### The groups -/

/-- The peer that the user's message goes to. -/
def Target (cfg : PushConfig) (routes : String → Reply RouteEntry) (uid peer : String) : Prop :=
  ∃ route, routes uid = .ok route ∧ first_remote cfg route = some peer

section Groups

variable {cfg : PushConfig} {routes : String → Reply RouteEntry} {uids : List String}
  {m m' : PeerMap} {uid peer : String}

theorem Target.unique {peer' : String} (h : Target cfg routes uid peer)
    (h' : Target cfg routes uid peer') : peer = peer' := by
  obtain ⟨route, hr, hp⟩ := h
  obtain ⟨route', hr', hp'⟩ := h'
  obtain rfl : route = route' := Reply.ok.inj (hr.symm.trans hr')
  exact Option.some.inj (hp.symm.trans hp')

theorem target_iff {route : RouteEntry} (hr : routes uid = .ok route) :
    Target cfg routes uid peer ↔ first_remote cfg route = some peer := by
  simp [Target, hr]

/-- A user's route is read, or the round ends. -/
theorem group_by_peer_thrown :
    group_by_peer cfg routes uids m = .thrown ↔ ∃ uid ∈ uids, routes uid = .thrown := by
  induction uids generalizing m with
  | nil => simp [group_by_peer]
  | cons u uids ih =>
    rw [group_by_peer, List.exists_mem_cons_iff]
    cases hr : routes u with
    | thrown => simp
    | ok route => simp [ih]

theorem mem_group_user {u : String} {route : RouteEntry} :
    uid ∈ ((group_user cfg m u route).lookup peer).getD [] ↔
      uid ∈ (m.lookup peer).getD [] ∨ uid = u ∧ first_remote cfg route = some peer := by
  rw [group_user]
  cases hf : first_remote cfg route with
  | none => simp
  | some inst =>
    show uid ∈ ((push_peer m inst u).lookup peer).getD [] ↔ _
    rw [push_peer]
    by_cases h : peer = inst
    · subst h
      rw [AList.lookup_insert, Option.getD_some, List.mem_append, List.mem_singleton]
      simp
    · rw [AList.lookup_insert_ne h]
      simp [Ne.symm h]

theorem mem_keys_group_user {u : String} {route : RouteEntry} :
    peer ∈ group_user cfg m u route ↔ peer ∈ m ∨ first_remote cfg route = some peer := by
  rw [group_user]
  cases hf : first_remote cfg route with
  | none => simp
  | some inst =>
    show peer ∈ push_peer m inst u ↔ _
    rw [push_peer, AList.mem_insert, or_comm, Option.some.injEq, eq_comm]

/-- **Every user is in the group of its target**, and in no other. -/
theorem mem_group_by_peer (h : group_by_peer cfg routes uids m = .ok m') :
    uid ∈ (m'.lookup peer).getD [] ↔
      uid ∈ (m.lookup peer).getD [] ∨ uid ∈ uids ∧ Target cfg routes uid peer := by
  induction uids generalizing m with
  | nil =>
    obtain rfl : m = m' := Reply.ok.inj h
    simp
  | cons u uids ih =>
    rw [group_by_peer] at h
    cases hr : routes u with
    | thrown => simp [hr] at h
    | ok route =>
      simp only [hr] at h
      rw [ih h, mem_group_user, List.mem_cons, or_assoc, or_and_right]
      have hu : uid = u ∧ first_remote cfg route = some peer ↔
          uid = u ∧ Target cfg routes uid peer := by
        refine and_congr_right fun he ↦ ?_
        rw [he, target_iff hr]
      rw [hu]

/-- There is a group for every target, and for no other peer. -/
theorem mem_keys_group_by_peer (h : group_by_peer cfg routes uids m = .ok m') :
    peer ∈ m' ↔ peer ∈ m ∨ ∃ uid ∈ uids, Target cfg routes uid peer := by
  induction uids generalizing m with
  | nil =>
    obtain rfl : m = m' := Reply.ok.inj h
    simp
  | cons u uids ih =>
    rw [group_by_peer] at h
    cases hr : routes u with
    | thrown => simp [hr] at h
    | ok route =>
      simp only [hr] at h
      rw [ih h, mem_keys_group_user, List.exists_mem_cons_iff, target_iff hr, or_assoc]

/-- A peer and its group are an entry of the map. -/
theorem mem_dispatches_of {mm : String → ServiceManager} {internal_msg : InternalMessage}
    {d : CrossDispatch} :
    d ∈ dispatches_of mm internal_msg m ↔ channel_to mm d.peer = some d.channel ∧
      ∃ us, m.lookup d.peer = some us ∧ d.req = cross_request internal_msg us := by
  rw [dispatches_of, List.mem_filterMap]
  constructor
  · rintro ⟨⟨p, us⟩, hentry, hd⟩
    obtain ⟨channel, hchannel, rfl⟩ := Option.map_eq_some_iff.1 hd
    exact ⟨hchannel, us, AList.mem_lookup_iff.2 hentry, rfl⟩
  · rintro ⟨hchannel, us, hus, hreq⟩
    refine ⟨⟨d.peer, us⟩, AList.mem_lookup_iff.1 hus, ?_⟩
    rw [hchannel, Option.map_some, ← hreq]

end Groups

/-! ### The closures in every order -/

/-- The call has succeeded, and the closure has counted it. -/
def RpcClosure.counted (c : RpcClosure) : Bool := c.ok && decide (c.stage ≠ .inFlight)

/-- What a closure is about, whatever it has done so far. -/
def RpcClosure.call (c : RpcClosure) : CrossDispatch × Bool := (c.dispatch, c.ok)

/-- What holds of a round at every point, when it began as `s₀`. -/
structure RoundFits (s₀ s : Reaping) : Prop where
  calls : s.closures.map RpcClosure.call = s₀.closures.map RpcClosure.call
  count : s.succeeded = s.closures.countP RpcClosure.counted
  removed : s.removed = true →
    s₀.removed = true ∨ s.closures ≠ [] ∧ ∀ c ∈ s.closures, c.counted = true

section Closures

variable {s₀ s s' : Reaping} {i : ℕ} {d : CrossDispatch} {ok : Bool} {stage : ClosureStage}

theorem countP_closures (hi : s.closures[i]? = some ⟨d, ok, .inFlight⟩) :
    (s.closures.set i ⟨d, ok, .counted⟩).countP RpcClosure.counted =
      s.closures.countP RpcClosure.counted + if ok then 1 else 0 := by
  obtain ⟨hlt, heq⟩ := List.getElem?_eq_some_iff.1 hi
  rw [List.countP_set hlt, heq]
  cases ok <;> rfl

theorem RoundFits.step {l : ReapStep} (h : RoundFits s₀ s) (hx : Reaping.exec l s = some s') :
    RoundFits s₀ s' := by
  cases l with
  | count i =>
    simp only [Reaping.exec] at hx
    split at hx
    · next d ok hi =>
      obtain rfl := Option.some.inj hx
      refine ⟨?_, ?_, fun hrem ↦ ?_⟩
      · exact (Pool.map_set_eq (f := RpcClosure.call) (u := ⟨d, ok, .counted⟩) hi rfl).trans
          h.calls
      · show (if ok = true then s.succeeded + 1 else s.succeeded) = _
        rw [countP_closures hi, h.count]
        split <;> rfl
      · -- a closure that still counts is not counted yet
        refine (h.removed hrem).imp_right ?_
        rintro ⟨-, hall⟩
        have hcounted := hall _ (List.mem_of_getElem? hi)
        simp [RpcClosure.counted] at hcounted
    · cases hx
  | check i =>
    simp only [Reaping.exec] at hx
    split at hx
    · next d ok hi =>
      obtain rfl := Option.some.inj hx
      have hcount : (s.closures.set i ⟨d, ok, .done⟩).countP RpcClosure.counted =
          s.closures.countP RpcClosure.counted := by
        have hsame := Pool.map_set_eq (f := RpcClosure.counted) hi
          (u := ⟨d, ok, .done⟩) (by simp [RpcClosure.counted])
        simpa only [List.countP_map, Function.comp_def, id] using
          congrArg (List.countP id) hsame
      refine ⟨?_, ?_, fun hrem ↦ ?_⟩
      · exact (Pool.map_set_eq (f := RpcClosure.call) (u := ⟨d, ok, .done⟩) hi rfl).trans h.calls
      · exact h.count.trans hcount.symm
      · have hne : s.closures ≠ [] := List.ne_nil_of_mem (List.mem_of_getElem? hi)
        have hset : s.closures.set i ⟨d, ok, .done⟩ ≠ [] := by simpa using hne
        have hiff : (∀ c ∈ s.closures, c.counted = true) →
            ∀ c ∈ s.closures.set i ⟨d, ok, .done⟩, c.counted = true := by
          rw [← List.countP_eq_length, ← List.countP_eq_length, hcount, List.length_set]
          exact id
        rcases Bool.or_eq_true_iff.1 hrem with hrem | hrem
        · exact (h.removed hrem).imp_right fun hall ↦ ⟨hset, hiff hall.2⟩
        · refine .inr ⟨hset, hiff (List.countP_eq_length.1 ?_)⟩
          rw [← h.count]
          simp only [should_remove_cross_outbox, Bool.and_eq_true, decide_eq_true_eq] at hrem
          exact hrem.2
    · cases hx

/-- **Every run of a round.** -/
theorem RoundFits.reach {G : ReapStep → Reaping → Prop} (h : RoundFits s₀ s₀)
    (hr : reaping.Reach G s₀ s) : RoundFits s₀ s :=
  Labelled.invariant hr h fun hI _ hx ↦ hI.step hx

/-- A round begins with all calls in flight. -/
theorem RoundFits.fresh (outcome : String → Bool) (ds : List CrossDispatch) (b : Bool) :
    RoundFits { closures := freshClosures outcome ds, removed := b }
      { closures := freshClosures outcome ds, removed := b } := by
  refine ⟨rfl, ?_, .inl⟩
  rw [eq_comm, List.countP_eq_zero]
  intro c hc
  obtain ⟨d, -, rfl⟩ := List.mem_map.1 hc
  simp [RpcClosure.counted]

section Fresh

variable {outcome : String → Bool} {ds : List CrossDispatch} {b : Bool}

theorem RoundFits.calls_eq
    (h : RoundFits { closures := freshClosures outcome ds, removed := b } s) :
    s.closures.map RpcClosure.call = ds.map fun d ↦ (d, outcome d.peer) := by
  rw [h.calls, freshClosures, List.map_map]
  rfl

theorem RoundFits.outcome_of_counted
    (h : RoundFits { closures := freshClosures outcome ds, removed := b } s)
    (hall : ∀ c ∈ s.closures, c.counted = true) {d : CrossDispatch} (hd : d ∈ ds) :
    outcome d.peer = true := by
  have hmem : (d, outcome d.peer) ∈ s.closures.map RpcClosure.call :=
    h.calls_eq ▸ List.mem_map_of_mem (f := fun d ↦ (d, outcome d.peer)) hd
  obtain ⟨c, hc, heq⟩ := List.mem_map.1 hmem
  obtain ⟨rfl, hok⟩ := Prod.mk.inj heq
  have hcounted := hall c hc
  simp only [RpcClosure.counted, Bool.and_eq_true] at hcounted
  exact hok ▸ hcounted.1

/-- What a round has served in which all calls have succeeded. -/
theorem RoundFits.served_iff
    (h : RoundFits { closures := freshClosures outcome ds, removed := b } s)
    (hall : ∀ c ∈ s.closures, c.counted = true) {host_of : String → String} {uid inst : String} :
    s.Served host_of uid inst ↔ inst ≠ "" ∧ ∃ d ∈ ds, d.channel = host_of inst ∧
      uid ∈ d.req.user_id_list ∧ outcome d.peer = true := by
  have hcalls := h.calls_eq
  refine and_congr_right fun _ ↦ ?_
  constructor
  · rintro ⟨c, hc, hhost, huid, hok, -⟩
    have hmem : c.call ∈ ds.map fun d ↦ (d, outcome d.peer) := hcalls ▸ List.mem_map_of_mem hc
    obtain ⟨d, hd, heq⟩ := List.mem_map.1 hmem
    obtain ⟨rfl, hout⟩ := Prod.mk.inj heq
    exact ⟨_, hd, hhost, huid, by rw [hout, hok]⟩
  · rintro ⟨d, hd, hhost, huid, hout⟩
    have hmem : (d, outcome d.peer) ∈ s.closures.map RpcClosure.call :=
      hcalls ▸ List.mem_map_of_mem (f := fun d ↦ (d, outcome d.peer)) hd
    obtain ⟨c, hc, heq⟩ := List.mem_map.1 hmem
    obtain ⟨rfl, -⟩ := Prod.mk.inj heq
    have hcounted := hall c hc
    simp only [RpcClosure.counted, Bool.and_eq_true, decide_eq_true_eq] at hcounted
    exact ⟨c, hc, hhost, huid, hcounted.1, hcounted.2⟩

end Fresh

/-- No assumption on the steps. -/
abbrev anyStep : ReapStep → Reaping → Prop := fun _ _ ↦ True

/-- When all calls succeed, all closures may count themselves one after another. -/
theorem reach_counted {outcome : String → Bool} {ds : List CrossDispatch}
    (hok : ∀ d ∈ ds, outcome d.peer = true) (pre : List RpcClosure) (n : ℕ) :
    reaping.Reach anyStep { closures := pre ++ freshClosures outcome ds, succeeded := n }
      { closures := pre ++ ds.map fun d ↦ ⟨d, true, .counted⟩, succeeded := n + ds.length } := by
  induction ds generalizing pre n with
  | nil => exact .refl
  | cons d ds ih =>
    have hd : outcome d.peer = true := hok d List.mem_cons_self
    have hstep : Reaping.exec (.count pre.length)
        { closures := pre ++ freshClosures outcome (d :: ds), succeeded := n } =
        some { closures := (pre ++ [⟨d, true, .counted⟩]) ++ freshClosures outcome ds,
               succeeded := n + 1 } := by
      have hget : (pre ++ freshClosures outcome (d :: ds))[pre.length]? =
          some ⟨d, true, .inFlight⟩ := by
        rw [List.getElem?_append_right (Nat.le_refl _), Nat.sub_self, freshClosures,
          List.map_cons, hd, List.getElem?_cons_zero]
      simp only [Reaping.exec, hget, if_true]
      rw [List.set_append_right _ _ (Nat.le_refl _), Nat.sub_self, freshClosures, List.map_cons,
        List.set_cons_zero, List.append_assoc]
      rfl
    have hrest := ih (fun d' hd' ↦ hok d' (List.mem_cons_of_mem _ hd'))
      (pre ++ [⟨d, true, .counted⟩]) (n + 1)
    have hend :
        (pre ++ [⟨d, true, .counted⟩]) ++ ds.map (fun d ↦ (⟨d, true, .counted⟩ : RpcClosure)) =
        pre ++ (d :: ds).map fun d ↦ ⟨d, true, .counted⟩ := by
      rw [List.append_assoc, List.map_cons, List.singleton_append]
    rw [hend, Nat.add_assoc, Nat.add_comm 1] at hrest
    exact .head ⟨.count pre.length, trivial, hstep⟩ hrest

/-- **A round in which all calls succeed can remove the member.** -/
theorem exists_removed {outcome : String → Bool} {ds : List CrossDispatch} (hne : ds ≠ [])
    (hok : ∀ d ∈ ds, outcome d.peer = true) :
    ∃ s, reaping.Reach anyStep { closures := freshClosures outcome ds } s ∧ s.removed = true := by
  obtain ⟨d, ds, rfl⟩ := List.exists_cons_of_ne_nil hne
  have hreach := reach_counted hok [] 0
  refine ⟨_, hreach.tail ⟨.check 0, trivial, rfl⟩, ?_⟩
  simp [should_remove_cross_outbox]

end Closures

/-! ### What a round leaves undone -/

/-- The user has one place: all devices are on the instance to which the channel leads that is
handed out for the peer of the user's message, and the call over it succeeds. -/
def OnePlace (cfg : PushConfig) (routes : String → Reply RouteEntry)
    (mm : String → ServiceManager) (outcome : String → Bool) (host_of : String → String)
    (uid : String) : Prop :=
  ∀ route, routes uid = .ok route → ∀ did ∈ route.device_ids,
    route.instance_of did ≠ "" ∧ ∃ peer, Target cfg routes uid peer ∧
      channel_to mm peer = some (host_of (route.instance_of did)) ∧ outcome peer = true

/-- The round keeps the member: a route cannot be read, there is a channel for none of the peers, or
a call fails. -/
def KeepsMember (cfg : PushConfig) (routes : String → Reply RouteEntry)
    (mm : String → ServiceManager) (outcome : String → Bool) (uids : List String) : Prop :=
  (∃ uid ∈ uids, routes uid = .thrown) ∨
  ((∃ uid ∈ uids, ∃ peer, Target cfg routes uid peer) ∧
    ∀ uid ∈ uids, ∀ peer, Target cfg routes uid peer → channel_to mm peer = none) ∨
  ∃ uid ∈ uids, ∃ peer, Target cfg routes uid peer ∧ (channel_to mm peer).isSome ∧
    outcome peer = false

section Member

variable {libs : OutboxLibs} {cfg : PushConfig} {routes : String → Reply RouteEntry}
  {mm : String → ServiceManager} {outcome : String → Bool} {host_of : String → String}
  {member : String} {m : OutboxMember} {internal_msg : InternalMessage}

/-- How a round begins, by what becomes of the routes. -/
theorem reap_member_eq (hm : parse_outbox_member libs member = some m)
    (hmsg : InternalMessage.codec.parse (utils_base64_decode libs m.b64) = some internal_msg) :
    reap_member libs cfg routes mm outcome member =
      match group_by_peer cfg routes m.uids ∅ with
      | .thrown => {}
      | .ok peer_to_uids =>
        if peer_to_uids.entries.isEmpty then { removed := true }
        else { closures :=
          freshClosures outcome (dispatches_of mm internal_msg peer_to_uids) } := by
  rw [reap_member, hm]
  dsimp only
  rw [hmsg]

variable (internal_msg) in
/-- There is a dispatch for every target with a channel, and for no other peer. -/
theorem exists_dispatch {peers : PeerMap} (hg : group_by_peer cfg routes m.uids ∅ = .ok peers)
    {peer channel : String} :
    (∃ d ∈ dispatches_of mm internal_msg peers, d.peer = peer ∧ d.channel = channel) ↔
      channel_to mm peer = some channel ∧ ∃ uid ∈ m.uids, Target cfg routes uid peer := by
  have hkeys : peer ∈ peers ↔ peer ∈ (∅ : PeerMap) ∨ ∃ uid ∈ m.uids, Target cfg routes uid peer :=
    mem_keys_group_by_peer hg
  rw [or_iff_right (AList.notMem_empty peer)] at hkeys
  rw [← hkeys]
  constructor
  · rintro ⟨d, hd, rfl, rfl⟩
    obtain ⟨hchannel, us, hus, -⟩ := mem_dispatches_of.1 hd
    exact ⟨hchannel, AList.lookup_isSome.1 (by rw [hus]; rfl)⟩
  · rintro ⟨hchannel, hp⟩
    obtain ⟨us, hus⟩ := Option.isSome_iff_exists.1 (AList.lookup_isSome.2 hp)
    exact ⟨⟨peer, channel, cross_request internal_msg us⟩,
      mem_dispatches_of.2 ⟨hchannel, us, hus, rfl⟩, rfl, rfl⟩

/-- Whom a dispatch is for. -/
theorem mem_user_id_list {peers : PeerMap} (hg : group_by_peer cfg routes m.uids ∅ = .ok peers)
    {d : CrossDispatch} (hd : d ∈ dispatches_of mm internal_msg peers) {uid : String} :
    uid ∈ d.req.user_id_list ↔ uid ∈ m.uids ∧ Target cfg routes uid d.peer := by
  have hmem : uid ∈ (peers.lookup d.peer).getD [] ↔ uid ∈ ((∅ : PeerMap).lookup d.peer).getD [] ∨
      uid ∈ m.uids ∧ Target cfg routes uid d.peer := mem_group_by_peer hg
  rw [AList.lookup_empty, Option.getD_none, or_iff_right List.not_mem_nil] at hmem
  obtain ⟨-, us, hus, hreq⟩ := mem_dispatches_of.1 hd
  rw [← hmem, hus, hreq]
  rfl

/-- No target, no group. -/
theorem not_target_of_empty {peers : PeerMap}
    (hg : group_by_peer cfg routes m.uids ∅ = .ok peers) (he : peers.entries = [])
    {uid peer : String} (huid : uid ∈ m.uids) : ¬Target cfg routes uid peer := by
  intro ht
  have hp : peer ∈ peers := (mem_keys_group_by_peer hg).2 (.inr ⟨uid, huid, ht⟩)
  rw [AList.mem_keys, AList.keys, he] at hp
  cases hp

theorem not_thrown {peers : PeerMap} (hg : group_by_peer cfg routes m.uids ∅ = .ok peers) :
    ¬∃ uid ∈ m.uids, routes uid = .thrown := by
  intro hthrown
  cases hg.symm.trans (group_by_peer_thrown.2 hthrown)

variable (host_of) in
/-- **Every round that removes its member** is one that does not keep it, and it has served the
users where the channels for their targets lead, and nobody else. -/
theorem round_of_removed (hm : parse_outbox_member libs member = some m)
    (hmsg : InternalMessage.codec.parse (utils_base64_decode libs m.b64) = some internal_msg)
    {s : Reaping}
    (hr : reaping.Reach anyStep (reap_member libs cfg routes mm outcome member) s)
    (hrem : s.removed = true) :
    ¬KeepsMember cfg routes mm outcome m.uids ∧
      ∀ uid ∈ m.uids, ∀ inst, s.Served host_of uid inst ↔ inst ≠ "" ∧ ∃ peer,
        Target cfg routes uid peer ∧ channel_to mm peer = some (host_of inst) ∧
          outcome peer = true := by
  rw [reap_member_eq hm hmsg] at hr
  cases hg : group_by_peer cfg routes m.uids ∅ with
  | thrown =>
    rw [hg] at hr
    have hfit := (RoundFits.fresh outcome [] false).reach hr
    rcases hfit.removed hrem with hrem | ⟨hne, -⟩
    · cases hrem
    · exact absurd (List.map_eq_nil_iff.1 hfit.calls) hne
  | ok peers =>
    rw [hg] at hr
    dsimp only at hr
    by_cases he : peers.entries = []
    · rw [he, List.isEmpty_nil, if_pos rfl] at hr
      have hfit := (RoundFits.fresh outcome [] true).reach hr
      have hnone : s.closures = [] := List.map_eq_nil_iff.1 hfit.calls
      constructor
      · rintro (hthrown | ⟨⟨uid, huid, peer, ht⟩, -⟩ | ⟨uid, huid, peer, ht, -⟩)
        · exact not_thrown hg hthrown
        · exact not_target_of_empty hg he huid ht
        · exact not_target_of_empty hg he huid ht
      · intro uid huid inst
        refine iff_of_false ?_ ?_
        · rintro ⟨-, c, hc, -⟩
          rw [hnone] at hc
          cases hc
        · rintro ⟨-, peer, ht, -⟩
          exact not_target_of_empty hg he huid ht
    · rw [if_neg (by simpa using he)] at hr
      have hfit := (RoundFits.fresh outcome (dispatches_of mm internal_msg peers) false).reach
        hr
      obtain ⟨hne, hall⟩ := (hfit.removed hrem).resolve_left Bool.false_ne_true
      constructor
      · rintro (hthrown | ⟨-, hnone⟩ | ⟨uid, huid, peer, ht, hsome, hout⟩)
        · exact not_thrown hg hthrown
        · obtain ⟨c, hc⟩ := List.exists_mem_of_ne_nil _ hne
          have hmem : c.call ∈ s.closures.map RpcClosure.call := List.mem_map_of_mem hc
          rw [hfit.calls_eq] at hmem
          obtain ⟨d, hd, -⟩ := List.mem_map.1 hmem
          obtain ⟨hchannel, uid, huid, ht⟩ :=
            (exists_dispatch internal_msg hg).1 ⟨d, hd, rfl, rfl⟩
          rw [hnone uid huid _ ht] at hchannel
          cases hchannel
        · obtain ⟨channel, hchannel⟩ := Option.isSome_iff_exists.1 hsome
          obtain ⟨d, hd, rfl, -⟩ :=
            (exists_dispatch internal_msg hg).2 ⟨hchannel, uid, huid, ht⟩
          rw [hfit.outcome_of_counted hall hd] at hout
          cases hout
      · intro uid huid inst
        rw [hfit.served_iff hall]
        refine and_congr_right fun _ ↦ ?_
        constructor
        · rintro ⟨d, hd, hhost, hin, hout⟩
          have hchannel := ((exists_dispatch internal_msg hg).1 ⟨d, hd, rfl, rfl⟩).1
          exact ⟨d.peer, ((mem_user_id_list hg hd).1 hin).2, hhost ▸ hchannel, hout⟩
        · rintro ⟨peer, ht, hchannel, hout⟩
          obtain ⟨d, hd, rfl, hhost⟩ :=
            (exists_dispatch internal_msg hg).2 ⟨hchannel, uid, huid, ht⟩
          exact ⟨d, hd, hhost, (mem_user_id_list hg hd).2 ⟨huid, ht⟩, hout⟩

/-- **A round that does not keep its member removes it in some run.** -/
theorem exists_removed_of_not_keeps (hm : parse_outbox_member libs member = some m)
    (hmsg : InternalMessage.codec.parse (utils_base64_decode libs m.b64) = some internal_msg)
    (h : ¬KeepsMember cfg routes mm outcome m.uids) :
    ∃ s, reaping.Reach anyStep (reap_member libs cfg routes mm outcome member) s ∧
      s.removed = true := by
  rw [KeepsMember, not_or, not_or] at h
  obtain ⟨hread, hsome, hok⟩ := h
  rw [reap_member_eq hm hmsg]
  cases hg : group_by_peer cfg routes m.uids ∅ with
  | thrown => exact absurd (group_by_peer_thrown.1 hg) hread
  | ok peers =>
    dsimp only
    by_cases he : peers.entries = []
    · rw [he, List.isEmpty_nil, if_pos rfl]
      exact ⟨_, .refl, rfl⟩
    · rw [if_neg (by simpa using he)]
      obtain ⟨⟨p, us⟩, hp⟩ := List.exists_mem_of_ne_nil _ he
      have hkey : p ∈ peers := AList.lookup_isSome.1 (by rw [AList.mem_lookup_iff.2 hp]; rfl)
      obtain ⟨uid, huid, ht⟩ := ((mem_keys_group_by_peer hg).1 hkey).resolve_left
        (AList.notMem_empty p)
      have hchannel : ∃ uid ∈ m.uids, ∃ peer channel, Target cfg routes uid peer ∧
          channel_to mm peer = some channel := by
        by_contra hnone
        refine hsome ⟨⟨uid, huid, p, ht⟩, fun uid huid peer ht ↦ ?_⟩
        exact Option.eq_none_iff_forall_ne_some.2 fun g hg ↦ hnone ⟨uid, huid, peer, g, ht, hg⟩
      obtain ⟨uid', huid', peer, channel, ht', hchannel⟩ := hchannel
      obtain ⟨d, hd, -⟩ := (exists_dispatch internal_msg hg).2 ⟨hchannel, uid', huid', ht'⟩
      refine exists_removed (List.ne_nil_of_mem hd) fun d hd ↦ ?_
      obtain ⟨hchannel, uid, huid, ht⟩ := (exists_dispatch internal_msg hg).1 ⟨d, hd, rfl, rfl⟩
      by_contra hout
      exact hok ⟨uid, huid, _, ht, by rw [hchannel]; rfl, Bool.eq_false_iff.2 hout⟩

end Member

/-- **Exactly when nothing is dropped.** For every member that can be read, every route table,
whatever the manager hands out for the peers and every outcome of the calls: a member is removed, in
whatever order the closures run, only after every device of every user it names has been served,
exactly when the round keeps it, or all devices of each user are where the channel for its one peer
leads, and the call over it succeeds. -/
theorem reaper_drops_nothing (libs : OutboxLibs) (cfg : PushConfig)
    (routes : String → Reply RouteEntry) (mm : String → ServiceManager) (outcome : String → Bool)
    (host_of : String → String) (member : String) (m : OutboxMember)
    (internal_msg : InternalMessage) (hm : parse_outbox_member libs member = some m)
    (hmsg : InternalMessage.codec.parse (utils_base64_decode libs m.b64) = some internal_msg) :
    (∀ s, reaping.Reach anyStep (reap_member libs cfg routes mm outcome member) s →
      s.removed = true → s.Covers host_of routes m.uids) ↔
    KeepsMember cfg routes mm outcome m.uids ∨
      ∀ uid ∈ m.uids, OnePlace cfg routes mm outcome host_of uid := by
  have hcovers : ∀ {s}, reaping.Reach anyStep
      (reap_member libs cfg routes mm outcome member) s → s.removed = true →
      (s.Covers host_of routes m.uids ↔
        ∀ uid ∈ m.uids, OnePlace cfg routes mm outcome host_of uid) := by
    intro s hr hrem
    refine forall₂_congr fun uid huid ↦ forall₄_congr fun route hroute did hdid ↦ ?_
    exact (round_of_removed host_of hm hmsg hr hrem).2 uid huid _
  constructor
  · intro h
    rw [or_iff_not_imp_left]
    intro hkeep
    obtain ⟨s, hr, hrem⟩ := exists_removed_of_not_keeps hm hmsg hkeep
    exact (hcovers hr hrem).1 (h s hr hrem)
  · rintro (hkeep | hone) s hr hrem
    · exact absurd hkeep (round_of_removed host_of hm hmsg hr hrem).1
    · exact (hcovers hr hrem).2 hone

/-! ### Concrete rounds -/

/-- The libraries, on a member for bob that was written for peer `B`. -/
def bobLibs : OutboxLibs where
  picojson_parse s :=
    if s = "\x7b\"k\":\"CgA=\",\"u\":[\"bob\"],\"p\":\"B\"\x7d" then
      some (.object [("k", .string "CgA="), ("p", .string "B"), ("u", .array [.string "bob"])])
    else none
  EVP_DecodeBlock s := if s = "CgA=" then some [10, 0, 0] else none

/-- The member. -/
def bobMember : String := "\x7b\"k\":\"CgA=\",\"u\":[\"bob\"],\"p\":\"B\"\x7d"

theorem bobMember_parses :
    parse_outbox_member bobLibs bobMember = some { b64 := "CgA=", uids := ["bob"], peer := "B" } ∧
      ∃ msg, InternalMessage.codec.parse (utils_base64_decode bobLibs "CgA=") = some msg :=
  ⟨by decide +kernel, Option.isSome_iff_exists.1 (by decide +kernel)⟩

/-- Bob's devices. -/
def bobDevices (devices : List (String × String)) : RouteEntry :=
  route_of (devices.foldl (fun m d ↦ m.insert d.1 d.2) ∅)

/-- The route table, where nobody else is online. -/
def bobRoute (devices : List (String × String)) (uid : String) : Reply RouteEntry :=
  .ok (if uid = "bob" then bobDevices devices else {})

/-- Where the instances listen. -/
def bobHost (inst : String) : String :=
  if inst = "push/B" then "10.0.0.2:9007"
  else if inst = "push/C" then "10.0.0.3:9007"
  else "10.0.0.1:9007"

/-- What the reaper knows of the instances that have come online. -/
def bobManager (instances : List String) : ServiceManager :=
  instances.foldl (fun m inst ↦ m.onServiceOnline inst (bobHost inst) true)
    (({} : ServiceManager).declared "push")

/-- Bob is on one peer, no other has a channel, and the call succeeds: the member is removed, and he
is served. -/
theorem reaper_drops_nothing_one_place :
    ∃ s, reaping.Reach anyStep (reap_member bobLibs { instance_id := "push/A" }
        (bobRoute [("pad", "push/B"), ("phone", "push/B")]) (fun _ ↦ bobManager ["push/B"])
        (fun _ ↦ true) bobMember) s ∧
      s.removed = true ∧
      s.Covers bobHost (bobRoute [("pad", "push/B"), ("phone", "push/B")]) ["bob"] := by
  obtain ⟨s, hr, hrem⟩ := Labelled.exists_of_run reaping anyStep
    (reap_member bobLibs { instance_id := "push/A" }
      (bobRoute [("pad", "push/B"), ("phone", "push/B")]) (fun _ ↦ bobManager ["push/B"])
      (fun _ ↦ true) bobMember) [.count 0, .check 0]
    (fun s ↦ s.removed = true) (by decide +kernel)
  obtain ⟨hm, msg, hmsg⟩ := bobMember_parses
  refine ⟨s, hr, hrem, (reaper_drops_nothing bobLibs _ _ _ _ bobHost bobMember _ msg hm hmsg).2
    (.inr ?_) s hr hrem⟩
  intro uid huid route hroute did hdid
  obtain rfl := List.mem_singleton.1 huid
  obtain rfl : bobDevices [("pad", "push/B"), ("phone", "push/B")] = route := Reply.ok.inj hroute
  have hplace : ∀ did ∈ (bobDevices [("pad", "push/B"), ("phone", "push/B")]).device_ids,
      (bobDevices [("pad", "push/B"), ("phone", "push/B")]).instance_of did = "push/B" := by
    decide
  rw [hplace did hdid]
  exact ⟨by decide, "push/B", (target_iff rfl).2 (by decide), by decide +kernel, rfl⟩

/-- Bob's phone is on `B` and his pad on `C`, and both are up. Only `B` is sent the message, and the
member is removed. -/
theorem second_device_is_dropped :
    ∃ s, reaping.Reach anyStep (reap_member bobLibs { instance_id := "push/A" }
        (bobRoute [("pad", "push/C"), ("phone", "push/B")])
        (fun _ ↦ bobManager ["push/B", "push/C"]) (fun _ ↦ true) bobMember) s ∧
      s.removed = true ∧
      ¬s.Covers bobHost (bobRoute [("pad", "push/C"), ("phone", "push/B")]) ["bob"] := by
  obtain ⟨s, hr, hrem, hhosts⟩ := Labelled.exists_of_run reaping anyStep
    (reap_member bobLibs { instance_id := "push/A" }
      (bobRoute [("pad", "push/C"), ("phone", "push/B")])
      (fun _ ↦ bobManager ["push/B", "push/C"]) (fun _ ↦ true) bobMember) [.count 0, .check 0]
    (fun s ↦ s.removed = true ∧ s.closures.map (·.dispatch.channel) = ["10.0.0.2:9007"])
    (by decide +kernel)
  refine ⟨s, hr, hrem, fun hcov ↦ ?_⟩
  have hpad : "pad" ∈ (bobDevices [("pad", "push/C"), ("phone", "push/B")]).device_ids := by decide
  obtain ⟨-, c, hc, hhost, -⟩ := hcov "bob" List.mem_cons_self _ rfl "pad" hpad
  have hmem : c.dispatch.channel ∈ s.closures.map (·.dispatch.channel) := List.mem_map_of_mem hc
  rw [hhosts, hhost] at hmem
  revert hmem
  decide

end ChatNow
