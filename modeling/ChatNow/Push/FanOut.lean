import ChatNow.Common.ServiceManager
import ChatNow.Push.OnPushMessage

/-!
# Who is reached when a push delivery is acked

The fan-out of `onPushMessage` serves users, not devices: a member for whom one local send went out
is taken off the list for the peers, and with it the member's devices on other instances. And the
channel that is handed out for a peer may lead to another instance of the service, which then
answers the `PushBatch` in the peer's place. This module says exactly when every device is served
all the same. The route table is fixed during the call (`FixedRoutes`), the channels come from the
manager (`HandsOut`), and the sends, the ledger writes and the calls end as they like.
-/

namespace ChatNow

open Prog PushOp OnPushMessage

variable {cfg : PushConfig} {trace_id : String} {internal_msg : InternalMessage}

/-- The bindings of every user's devices. -/
abbrev RouteTable := String → AList fun _ : String ↦ String

/-- The route table stays as it is: the caches agree with it, and `HGETALL` yields it or throws. -/
def FixedRoutes (table : RouteTable) (o : PushOp) (r : o.Res) : Prop :=
  match o, r with
  | routeCacheGet uid, r => ∀ cached, r = some cached → cached = route_of (table uid)
  | deviceInstancesMap uid, r => ∀ dmap, r = .ok dmap → dmap = table uid
  | _, _ => True

/-- The route that `resolve_route` yields; without a route store every route is empty. -/
def resolved (cfg : PushConfig) (table : RouteTable) (uid : String) : RouteEntry :=
  if cfg.online_route then route_of (table uid) else {}

variable {table : RouteTable}

/-! ### What a delivery reaches -/

/-- A path of the handler. -/
abbrev PushTrace := List (Σ o : PushOp, o.Res)

/-- What a member is sent: the notification with the member's sequence number, if there is one. -/
def payload_for (internal_msg : InternalMessage) (trace_id uid : String) : NotifyMessage :=
  match find_seq internal_msg.user_seqs uid with
  | some s => per_user internal_msg.message trace_id s
  | none => notify_template internal_msg.message trace_id

/-- A local send to the device was attempted, after its ledger entry was written when the member has
a sequence number. -/
def LocalAttempt (internal_msg : InternalMessage) (trace_id : String) (tr : PushTrace)
    (uid did : String) : Prop :=
  ∃ tr₁ tr₂ n, tr = tr₁ ++ ⟨localSend uid did (payload_for internal_msg trace_id uid), n⟩ :: tr₂ ∧
    ∀ s, find_seq internal_msg.user_seqs uid = some s →
      ⟨persistUnacked uid did s (payload_for internal_msg trace_id uid), .ok ()⟩ ∈ tr₁

/-- A `PushBatch` naming the member succeeded at the instance; `host_of` says where an instance
listens. -/
def PeerServed (host_of : String → String) (tr : PushTrace) (uid inst : String) : Prop :=
  inst ≠ "" ∧ ∃ req, ⟨pushBatch (host_of inst) req, true⟩ ∈ tr ∧ uid ∈ req.user_id_list

/-- **Fan-out completeness**: every device of every member was served where it is bound. -/
def Complete (cfg : PushConfig) (trace_id : String) (host_of : String → String)
    (table : RouteTable) (internal_msg : InternalMessage) (tr : PushTrace) : Prop :=
  ∀ uid ∈ internal_msg.member_id_list, ∀ did ∈ (resolved cfg table uid).device_ids,
    ((resolved cfg table uid).instance_of did = cfg.instance_id ∧
        LocalAttempt internal_msg trace_id tr uid did) ∨
      PeerServed host_of tr uid ((resolved cfg table uid).instance_of did)

/-- The devices of a user are on this instance only, or on named peers only. -/
def Unmixed (cfg : PushConfig) (route : RouteEntry) : Prop :=
  ∀ did ∈ route.device_ids, route.instance_of did ≠ cfg.instance_id →
    route.instance_of did ≠ "" ∧
      ∀ did' ∈ route.device_ids, route.instance_of did' ≠ cfg.instance_id

theorem LocalAttempt.append {tr : PushTrace} {uid did : String}
    (h : LocalAttempt internal_msg trace_id tr uid did) (before after : PushTrace) :
    LocalAttempt internal_msg trace_id (before ++ tr ++ after) uid did := by
  obtain ⟨tr₁, tr₂, n, rfl, hs⟩ := h
  refine ⟨before ++ tr₁, tr₂ ++ after, n, by simp, fun s hf ↦ ?_⟩
  exact List.mem_append_right _ (hs s hf)

/-! ### The passes, on every path -/

theorem cached_route_runs {uid : String} {tr : PushTrace} {r : Option RouteEntry}
    (h : (cached_route cfg uid).Runs (FixedRoutes table) tr r) :
    ∀ cached, r = some cached → cached = route_of (table uid) := by
  unfold cached_route at h
  split at h
  · cases h with
    | call hr hk =>
      obtain ⟨-, rfl⟩ := runs_ret.1 hk
      exact hr
  · obtain ⟨-, rfl⟩ := runs_ret.1 h
    simp

theorem load_route_runs {uid : String} {tr : PushTrace} {r : Reply RouteEntry}
    (h : (load_route cfg uid).Runs (FixedRoutes table) tr r) :
    ∀ route, r = .ok route → route = route_of (table uid) := by
  obtain ⟨r₁, tr', rfl, hr, h⟩ := runs_op_bind.1 h
  rcases r₁ with dmap | _
  · obtain rfl := hr dmap rfl
    dsimp only at h
    split at h
    · obtain ⟨_, _, -, -, h⟩ := runs_op_bind.1 h
      obtain ⟨-, rfl⟩ := runs_ret.1 h
      rintro _ ⟨⟩
      rfl
    · obtain ⟨-, rfl⟩ := runs_ret.1 h
      rintro _ ⟨⟩
      rfl
  · obtain ⟨-, rfl⟩ := runs_ret.1 h
    rintro _ ⟨⟩

/-- A route, when it is resolved at all, is that of the table. -/
theorem resolve_route_runs {uid : String} {tr : PushTrace} {r : Reply RouteEntry}
    (h : (resolve_route cfg uid).Runs (FixedRoutes table) tr r) :
    ∀ route, r = .ok route → route = resolved cfg table uid := by
  unfold resolve_route at h
  rw [resolved]
  split at h
  · next ho =>
    obtain ⟨-, rfl⟩ := runs_ret.1 h
    rw [if_neg (by simpa using ho)]
    rintro _ ⟨⟩
    rfl
  · next ho =>
    rw [if_pos (by simpa using ho)]
    obtain ⟨tr₁, c₁, tr₂, -, h₁, h⟩ := runs_bind.1 h
    cases c₁ with
    | some c =>
      obtain ⟨-, rfl⟩ := runs_ret.1 h
      rintro _ ⟨⟩
      exact cached_route_runs h₁ _ rfl
    | none =>
      obtain ⟨tr₃, c₂, tr₄, -, h₂, h⟩ := runs_bind.1 h
      cases c₂ with
      | some c =>
        obtain ⟨-, rfl⟩ := runs_ret.1 h
        rintro _ ⟨⟩
        exact cached_route_runs h₂ _ rfl
      | none => exact load_route_runs h

/-- The device loop serves every local device, and reports a local delivery only if there is a local
device. -/
theorem device_loop_runs {uid : String} {route : RouteEntry} {dids : List String}
    {any_local any' : Bool} {tr : PushTrace}
    (h : (device_loop cfg internal_msg.message trace_id uid
      (find_seq internal_msg.user_seqs uid) route dids any_local).Runs (FixedRoutes table) tr
      (some any')) :
    (∀ did ∈ dids, route.instance_of did = cfg.instance_id →
        LocalAttempt internal_msg trace_id tr uid did) ∧
      (any' = true → any_local = true ∨
        ∃ did ∈ dids, route.instance_of did = cfg.instance_id) := by
  induction dids generalizing any_local tr with
  | nil =>
    obtain ⟨-, h⟩ := runs_ret.1 h
    obtain rfl := Option.some.inj h
    exact ⟨by simp, .inl⟩
  | cons did dids ih =>
    unfold device_loop at h
    split at h
    · next hin =>
      -- whatever was sent first, the rest of the devices follow it on the path
      have hlater : ∀ {pre tr' : PushTrace} {b : Bool},
          LocalAttempt internal_msg trace_id (pre ++ tr') uid did →
          (device_loop cfg internal_msg.message trace_id uid
            (find_seq internal_msg.user_seqs uid) route dids b).Runs (FixedRoutes table) tr'
            (some any') → ∀ d ∈ did :: dids, route.instance_of d = cfg.instance_id →
              LocalAttempt internal_msg trace_id (pre ++ tr') uid d := by
        intro pre tr' b hfirst hrest d hd hlocal
        rcases List.mem_cons.1 hd with rfl | hd
        · exact hfirst
        · have := ((ih hrest).1 d hd hlocal).append pre []
          rwa [List.append_nil] at this
      refine ⟨?_, fun _ ↦ .inr ⟨did, List.mem_cons_self, hin⟩⟩
      split at h
      · next s hs =>
        obtain ⟨r, tr', rfl, -, h⟩ := runs_op_bind.1 h
        cases r with
        | thrown =>
          -- the delivery is put back
          obtain ⟨-, h⟩ := runs_ret.1 h
          cases h
        | ok =>
          obtain ⟨n, tr', rfl, -, h⟩ := runs_op_bind.1 h
          have hpay : payload_for internal_msg trace_id uid =
              per_user internal_msg.message trace_id s := by
            rw [payload_for, hs]
          rw [← hpay]
          refine @hlater [_, _] _ _ ?_ h
          refine ⟨[_], tr', n, rfl, fun s' hs' ↦ ?_⟩
          rw [hs, Option.some.injEq] at hs'
          rw [← hs']
          exact List.mem_singleton_self _
      · next hs =>
        obtain ⟨n, tr', rfl, -, h⟩ := runs_op_bind.1 h
        have hpay : payload_for internal_msg trace_id uid =
            notify_template internal_msg.message trace_id := by
          rw [payload_for, hs]
        rw [← hpay]
        refine @hlater [_] _ _ ?_ h
        refine ⟨[], tr', n, rfl, fun s' hs' ↦ ?_⟩
        rw [hs] at hs'
        cases hs'
    · next hout =>
      obtain ⟨hserve, hany⟩ := ih h
      refine ⟨fun d hd hlocal ↦ ?_, fun ha ↦ ?_⟩
      · rcases List.mem_cons.1 hd with rfl | hd
        · exact absurd hlocal hout
        · exact hserve d hd hlocal
      · rcases hany ha with ha | ⟨d, hd, hlocal⟩
        · exact .inl ha
        · exact .inr ⟨d, List.mem_cons_of_mem _ hd, hlocal⟩

/-- A device of the user is on this instance. -/
def HasLocal (cfg : PushConfig) (route : RouteEntry) : Prop :=
  ∃ did ∈ route.device_ids, route.instance_of did = cfg.instance_id

/-- Pass 1 serves every local device, and a member without one is left for the peers. -/
theorem member_loop_runs {uids remote remote' : List String} {tr : PushTrace}
    (h : (member_loop cfg internal_msg trace_id uids remote).Runs (FixedRoutes table) tr
      (some remote')) :
    (∀ uid ∈ uids, ∀ did ∈ (resolved cfg table uid).device_ids,
        (resolved cfg table uid).instance_of did = cfg.instance_id →
        LocalAttempt internal_msg trace_id tr uid did) ∧
      remote ⊆ remote' ∧
      ∀ uid ∈ uids, ¬ HasLocal cfg (resolved cfg table uid) → uid ∈ remote' := by
  induction uids generalizing remote tr with
  | nil =>
    obtain ⟨-, h⟩ := runs_ret.1 h
    obtain rfl := Option.some.inj h
    exact ⟨by simp, List.Subset.refl _, by simp⟩
  | cons uid uids ih =>
    obtain ⟨tr₁, r, tr₂, rfl, h₁, h⟩ := runs_bind.1 h
    cases r with
    | thrown =>
      obtain ⟨-, h⟩ := runs_ret.1 h
      cases h
    | ok route =>
      obtain rfl := resolve_route_runs h₁ _ rfl
      dsimp only at h
      split at h
      · next hempty =>
        obtain ⟨hserve, hsub, hleft⟩ := ih h
        have hnil : (resolved cfg table uid).device_ids = [] := List.isEmpty_iff.1 hempty
        refine ⟨fun u hu did hd hl ↦ ?_, fun u hu ↦ hsub (List.mem_append_left _ hu), ?_⟩
        · rcases List.mem_cons.1 hu with rfl | hu
          · rw [hnil] at hd
            cases hd
          · have := (hserve u hu did hd hl).append tr₁ []
            rwa [List.append_nil] at this
        · intro u hu hno
          rcases List.mem_cons.1 hu with rfl | hu
          · exact hsub (List.mem_append_right _ (List.mem_singleton_self u))
          · exact hleft u hu hno
      · obtain ⟨tr₃, r, tr₄, rfl, h₃, h⟩ := runs_bind.1 h
        cases r with
        | none =>
          obtain ⟨-, h⟩ := runs_ret.1 h
          cases h
        | some any_local =>
          obtain ⟨hdev, hany⟩ := device_loop_runs h₃
          obtain ⟨hserve, hsub, hleft⟩ := ih h
          refine ⟨fun u hu did hd hl ↦ ?_, fun u hu ↦ hsub ?_, fun u hu hno ↦ ?_⟩
          · rcases List.mem_cons.1 hu with rfl | hu
            · have := (hdev did hd hl).append tr₁ tr₄
              rwa [List.append_assoc] at this
            · have := (hserve u hu did hd hl).append (tr₁ ++ tr₃) []
              rwa [List.append_nil, List.append_assoc] at this
          · split
            · exact hu
            · exact List.mem_append_left _ hu
          · rcases List.mem_cons.1 hu with rfl | hu
            · refine hsub ?_
              have hfalse : any_local ≠ true := by
                intro ha
                rcases hany ha with ha | ⟨d, hd, hlocal⟩
                · cases ha
                · exact hno ⟨d, hd, hlocal⟩
              rw [if_neg hfalse]
              exact List.mem_append_right _ (List.mem_singleton_self u)
            · exact hleft u hu hno

/-! ### The peers -/

/-- The peer map has the member under the peer. -/
def Serves (m : PeerMap) (peer uid : String) : Prop := uid ∈ (m.lookup peer).getD []

theorem not_serves_empty (peer uid : String) : ¬ Serves ∅ peer uid := by
  simp [Serves]

theorem serves_add_peer {m : PeerMap} {peer uid p u : String} :
    Serves (add_peer m peer uid) p u ↔ Serves m p u ∨ p = peer ∧ u = uid := by
  unfold Serves add_peer
  by_cases hp : p = peer
  · subst hp
    rw [AList.lookup_insert, Option.getD_some, List.mem_insert_iff]
    constructor
    · rintro (rfl | h)
      · exact .inr ⟨rfl, rfl⟩
      · exact .inl h
    · rintro (h | ⟨-, rfl⟩)
      · exact .inr h
      · exact .inl rfl
  · rw [AList.lookup_insert_ne hp]
    simp [hp]

/-- The member has a device on the named peer `p`. -/
def OnPeer (cfg : PushConfig) (route : RouteEntry) (p : String) : Prop :=
  ∃ did ∈ route.device_ids, route.instance_of did = p ∧ p ≠ "" ∧ p ≠ cfg.instance_id

theorem serves_group_devices {uid p u : String} {route : RouteEntry} {m : PeerMap} :
    Serves (group_devices cfg uid route m) p u ↔ Serves m p u ∨ u = uid ∧ OnPeer cfg route p := by
  rw [group_devices, OnPeer]
  induction route.device_ids generalizing m with
  | nil => simp
  | cons did dids ih =>
    rw [List.foldl_cons, ih]
    dsimp only
    split
    · next hskip =>
      constructor
      · rintro (h | ⟨rfl, d, hd, h⟩)
        · exact .inl h
        · exact .inr ⟨rfl, d, List.mem_cons_of_mem _ hd, h⟩
      · rintro (h | ⟨rfl, d, hd, rfl, hne, hni⟩)
        · exact .inl h
        · rcases List.mem_cons.1 hd with rfl | hd
          · exact absurd hskip (not_or.2 ⟨hne, hni⟩)
          · exact .inr ⟨rfl, d, hd, rfl, hne, hni⟩
    · next hkeep =>
      rw [serves_add_peer]
      constructor
      · rintro ((h | ⟨rfl, rfl⟩) | ⟨rfl, d, hd, h⟩)
        · exact .inl h
        · exact .inr ⟨rfl, did, List.mem_cons_self, rfl, not_or.1 hkeep⟩
        · exact .inr ⟨rfl, d, List.mem_cons_of_mem _ hd, h⟩
      · rintro (h | ⟨rfl, d, hd, rfl, h⟩)
        · exact .inl (.inl h)
        · rcases List.mem_cons.1 hd with rfl | hd
          · exact .inl (.inr ⟨rfl, rfl⟩)
          · exact .inr ⟨rfl, d, hd, rfl, h⟩

/-- Pass 2 lists a member under exactly the named peers that have one of its devices. -/
theorem group_loop_runs {uids : List String} {m m' : PeerMap} {tr : PushTrace} {p u : String}
    (h : (group_loop cfg uids m).Runs (FixedRoutes table) tr (some m')) :
    Serves m' p u ↔ Serves m p u ∨ u ∈ uids ∧ OnPeer cfg (resolved cfg table u) p := by
  induction uids generalizing m tr with
  | nil =>
    obtain ⟨-, h⟩ := runs_ret.1 h
    obtain rfl := Option.some.inj h
    simp
  | cons uid uids ih =>
    obtain ⟨tr₁, r, tr₂, rfl, h₁, h⟩ := runs_bind.1 h
    cases r with
    | thrown =>
      obtain ⟨-, h⟩ := runs_ret.1 h
      cases h
    | ok route =>
      obtain rfl := resolve_route_runs h₁ _ rfl
      rw [ih h, serves_group_devices]
      constructor
      · rintro ((h | ⟨rfl, h⟩) | ⟨hu, h⟩)
        · exact .inl h
        · exact .inr ⟨List.mem_cons_self, h⟩
        · exact .inr ⟨List.mem_cons_of_mem _ hu, h⟩
      · rintro (h | ⟨hu, hp⟩)
        · exact .inl (.inl h)
        · rcases List.mem_cons.1 hu with rfl | hu
          · exact .inl (.inr ⟨rfl, hp⟩)
          · exact .inr ⟨hu, hp⟩

theorem serves_of_mem_entries {m : PeerMap} {e : Σ _ : String, List String} (he : e ∈ m.entries)
    {uid : String} : Serves m e.1 uid ↔ uid ∈ e.2 := by
  have hl : m.lookup e.1 = some e.2 := AList.mem_lookup_iff.2 he
  rw [Serves, hl]
  rfl

/-- Every peer of the map has a member to serve. -/
def Listed (m : PeerMap) : Prop := ∀ p ∈ m, ∃ uid, Serves m p uid

theorem Listed.add_peer {m : PeerMap} (h : Listed m) (peer uid : String) :
    Listed (add_peer m peer uid) := by
  intro p hp
  rcases (AList.mem_insert _).1 hp with rfl | hp
  · exact ⟨uid, serves_add_peer.2 (.inr ⟨rfl, rfl⟩)⟩
  · obtain ⟨u, hs⟩ := h p hp
    exact ⟨u, serves_add_peer.2 (.inl hs)⟩

theorem Listed.group_devices {m : PeerMap} (h : Listed m) (cfg : PushConfig) (uid : String)
    (route : RouteEntry) : Listed (group_devices cfg uid route m) := by
  rw [OnPushMessage.group_devices]
  induction route.device_ids generalizing m with
  | nil => exact h
  | cons did dids ih =>
    rw [List.foldl_cons]
    dsimp only
    split
    · exact ih h
    · exact ih (h.add_peer _ uid)

/-- Pass 2 makes no entry for nobody. -/
theorem Listed.group_loop {uids : List String} {m m' : PeerMap} {tr : PushTrace} (hm : Listed m)
    (h : (group_loop cfg uids m).Runs (FixedRoutes table) tr (some m')) : Listed m' := by
  induction uids generalizing m tr with
  | nil =>
    obtain ⟨-, h⟩ := runs_ret.1 h
    obtain rfl := Option.some.inj h
    exact hm
  | cons uid uids ih =>
    obtain ⟨tr₁, r, tr₂, rfl, h₁, h⟩ := runs_bind.1 h
    cases r with
    | thrown =>
      obtain ⟨-, h⟩ := runs_ret.1 h
      cases h
    | ok route => exact ih (hm.group_devices cfg uid route) h

/-- An acked pass 3 has had a channel for each peer, and a successful call over it. -/
theorem batch_loop_runs {entries : List (Σ _ : String, List String)} {tr : PushTrace}
    (h : (batch_loop internal_msg trace_id entries).Runs (FixedRoutes table) tr .Ack) :
    ∀ e ∈ entries, ∃ host, ⟨choose e.1, some host⟩ ∈ tr ∧
      ⟨pushBatch host (batch_request internal_msg trace_id e.2), true⟩ ∈ tr := by
  induction entries generalizing tr with
  | nil => simp
  | cons e entries ih =>
    obtain ⟨peer, uids⟩ := e
    obtain ⟨channel, tr₁, rfl, -, h⟩ := runs_op_bind.1 h
    cases channel with
    | none =>
      obtain ⟨-, h⟩ := runs_ret.1 h
      cases h
    | some host =>
      obtain ⟨success, tr₂, rfl, -, h⟩ := runs_op_bind.1 h
      cases success with
      | false =>
        obtain ⟨-, h⟩ := runs_ret.1 h
        cases h
      | true =>
        intro e he
        rcases List.mem_cons.1 he with rfl | he
        · exact ⟨host, List.mem_cons_self, List.mem_cons_of_mem _ List.mem_cons_self⟩
        · obtain ⟨host', hchoose, hbatch⟩ := ih h e he
          exact ⟨host', List.mem_cons_of_mem _ (List.mem_cons_of_mem _ hchoose),
            List.mem_cons_of_mem _ (List.mem_cons_of_mem _ hbatch)⟩

theorem exists_entry_of_serves {m : PeerMap} {peer uid : String} (h : Serves m peer uid) :
    ∃ uids, ⟨peer, uids⟩ ∈ m.entries ∧ uid ∈ uids := by
  unfold Serves at h
  cases hl : m.lookup peer with
  | none =>
    rw [hl] at h
    cases h
  | some uids =>
    rw [hl, Option.getD_some] at h
    exact ⟨uids, AList.mem_lookup_iff.1 hl, h⟩

/-- **What every acked path does**: local devices are attempted, and a member without a local
device is named in a call over a channel handed out for each named peer that has one of its
devices. -/
theorem fan_out_runs {tr : PushTrace}
    (h : (fan_out cfg trace_id internal_msg).Runs (FixedRoutes table) tr .Ack) {uid : String}
    (huid : uid ∈ internal_msg.member_id_list) :
    (∀ did ∈ (resolved cfg table uid).device_ids,
        (resolved cfg table uid).instance_of did = cfg.instance_id →
        LocalAttempt internal_msg trace_id tr uid did) ∧
      (¬ HasLocal cfg (resolved cfg table uid) → ∀ p, OnPeer cfg (resolved cfg table uid) p →
        ∃ host req, ⟨choose p, some host⟩ ∈ tr ∧ ⟨pushBatch host req, true⟩ ∈ tr ∧
          uid ∈ req.user_id_list ∧ req.notify = notify_template internal_msg.message trace_id) := by
  obtain ⟨tr₁, r, tr₂, rfl, h₁, h⟩ := runs_bind.1 h
  cases r with
  | none =>
    obtain ⟨-, h⟩ := runs_ret.1 h
    cases h
  | some remote_uids =>
    obtain ⟨hserve, -, hleft⟩ := member_loop_runs h₁
    refine ⟨fun did hd hl ↦ ?_, fun hno p hp ↦ ?_⟩
    · have := (hserve uid huid did hd hl).append [] tr₂
      rwa [List.nil_append] at this
    · have hremote := hleft uid huid hno
      dsimp only at h
      split at h
      · next hempty =>
        rw [List.isEmpty_iff.1 hempty] at hremote
        cases hremote
      · obtain ⟨tr₃, r, tr₄, rfl, h₃, h⟩ := runs_bind.1 h
        cases r with
        | none =>
          obtain ⟨-, h⟩ := runs_ret.1 h
          cases h
        | some peer_to_uids =>
          have hs : Serves peer_to_uids p uid := (group_loop_runs h₃).2 (.inr ⟨hremote, hp⟩)
          obtain ⟨uids, hentry, hmem⟩ := exists_entry_of_serves hs
          obtain ⟨host, hchoose, hbatch⟩ := batch_loop_runs h ⟨p, uids⟩ hentry
          exact ⟨host, batch_request internal_msg trace_id uids,
            List.mem_append_right _ (List.mem_append_right _ hchoose),
            List.mem_append_right _ (List.mem_append_right _ hbatch), hmem, rfl⟩

/-! ### The channels -/

/-- The manager, in one of the states `mm` that it goes through, hands out the channel for the
peer. -/
def HandsOut (mm : ℕ → ServiceManager) (peer : String) (channel : Option String) : Prop :=
  ∃ k, ((mm k).choose peer).1 = channel

/-- What surrounds the call: the route table stays as it is, and the channels come from the
manager. Which state of it a peer meets is up to the other threads and the order of the peers. -/
def Surroundings (table : RouteTable) (mm : ℕ → ServiceManager) (o : PushOp) (r : o.Res) : Prop :=
  FixedRoutes table o r ∧
    match o, r with
    | choose peer, channel => HandsOut mm peer channel
    | _, _ => True

/-- Whatever channels are handed out for the member's peers, those to the peers themselves are among
them. -/
def Reached (cfg : PushConfig) (mm : ℕ → ServiceManager) (host_of : String → String)
    (route : RouteEntry) : Prop :=
  ∀ host : String → String, (∀ q, OnPeer cfg route q → HandsOut mm q (some (host q))) →
    ∀ p, OnPeer cfg route p → ∃ q, OnPeer cfg route q ∧ host q = host_of p

/-- A member without a device here has one on a named peer for which there is no channel, so that
the delivery is put back. -/
def NeverAcked (cfg : PushConfig) (table : RouteTable) (mm : ℕ → ServiceManager)
    (uids : List String) : Prop :=
  ∃ uid ∈ uids, ¬ HasLocal cfg (resolved cfg table uid) ∧
    ∃ p, OnPeer cfg (resolved cfg table uid) p ∧ ∀ host, ¬ HandsOut mm p (some host)

variable {mm : ℕ → ServiceManager} {host_of : String → String}

/-- While no other instance of its service has a channel, a peer is reached. -/
theorem reached_of_alone {route : RouteEntry}
    (h : ∀ p, OnPeer cfg route p → ∀ k service, (mm k).services.lookup p = some service →
      ∀ g ∈ ((mm k).object service).channels, g = host_of p) :
    Reached cfg mm host_of route := by
  intro host hout p hp
  refine ⟨p, hp, ?_⟩
  obtain ⟨k, hk⟩ := hout p hp
  cases hl : (mm k).services.lookup p with
  | none =>
    rw [ServiceManager.choose, hl] at hk
    cases hk
  | some service =>
    rw [ServiceManager.choose_of_lookup hl] at hk
    exact h p hp k service hl _ (ServiceChannel.mem_of_choose hk)

/-- The channels on a path come from the manager. -/
theorem handsOut_of_mem {α : Type} {p : PushM α} {tr : PushTrace} {a : α} {peer : String}
    {channel : Option String} (h : p.Runs (Surroundings table mm) tr a)
    (hmem : ⟨choose peer, channel⟩ ∈ tr) : HandsOut mm peer channel :=
  (h.ok_of_mem hmem).2

theorem not_neverAcked {tr : PushTrace}
    (h : (fan_out cfg trace_id internal_msg).Runs (Surroundings table mm) tr .Ack) :
    ¬ NeverAcked cfg table mm internal_msg.member_id_list := by
  rintro ⟨uid, huid, hno, p, hp, hnone⟩
  obtain ⟨host, -, hchoose, -⟩ := (fan_out_runs (h.mono fun _ _ ↦ And.left) huid).2 hno p hp
  exact hnone host (handsOut_of_mem h hchoose)

/-- Members whose devices are not mixed and whose peers are reached are served completely. -/
theorem complete_of_reached {tr : PushTrace}
    (h : (fan_out cfg trace_id internal_msg).Runs (Surroundings table mm) tr .Ack)
    (hun : ∀ uid ∈ internal_msg.member_id_list, Unmixed cfg (resolved cfg table uid) ∧
      Reached cfg mm host_of (resolved cfg table uid)) :
    Complete cfg trace_id host_of table internal_msg tr := by
  intro uid huid did hd
  obtain ⟨hlocal, hpeer⟩ := fan_out_runs (h.mono fun _ _ ↦ And.left) huid
  obtain ⟨hunmixed, hreached⟩ := hun uid huid
  by_cases hin : (resolved cfg table uid).instance_of did = cfg.instance_id
  · exact .inl ⟨hin, hlocal did hd hin⟩
  · obtain ⟨hne, hno⟩ := hunmixed did hd hin
    have hno' : ¬ HasLocal cfg (resolved cfg table uid) := by
      rintro ⟨did', hd', hin'⟩
      exact hno did' hd' hin'
    -- each peer of the member has had a call over a channel of its own
    choose! host req hchoose hbatch hmem using hpeer hno'
    obtain ⟨q, hq, hhost⟩ := hreached host (fun q hq ↦ handsOut_of_mem h (hchoose q hq)) _
      ⟨did, hd, rfl, hne, hin⟩
    exact .inr ⟨hne, req q, hhost ▸ hbatch q hq, (hmem q hq).1⟩

/-! ### The path on which everything works -/

/-- Caches that miss, stores and peers that are up, sockets that take what they are sent, and the
given channels. -/
def willing (table : RouteTable) (channel : String → Option String) : (o : PushOp) → o.Res
  | routeCacheGet _ => none
  | deviceInstancesMap uid => .ok (table uid)
  | routeCacheSet _ _ => ()
  | persistUnacked _ _ _ _ => .ok ()
  | localSend _ _ _ => (1 : ℕ)
  | choose peer => channel peer
  | pushBatch _ _ => true

variable {channel : String → Option String}

theorem willing_fixed (o : PushOp) : FixedRoutes table o (willing table channel o) := by
  cases o <;> simp [FixedRoutes, willing]

theorem willing_surroundings (h : ∀ peer, HandsOut mm peer (channel peer)) (o : PushOp) :
    Surroundings table mm o (willing table channel o) := by
  refine ⟨willing_fixed o, ?_⟩
  cases o with
  | choose peer => exact h peer
  | _ => trivial

/-- The path under willing answers is one among the surroundings. -/
theorem willing_runs (h : ∀ peer, HandsOut mm peer (channel peer)) {α : Type} (p : PushM α) :
    p.Runs (Surroundings table mm) (p.trace (willing table channel))
      (p.value (willing table channel)) := by
  refine (runs_trace (willing table channel) p).mono ?_
  rintro o _ rfl
  exact willing_surroundings h o

theorem resolve_route_willing (uid : String) :
    (resolve_route cfg uid).value (willing table channel) = .ok (resolved cfg table uid) := by
  rw [resolve_route, resolved, cached_route, load_route]
  by_cases ho : cfg.online_route = true
  · by_cases hc : cfg.local_route_cache = true <;> simp [ho, hc, willing, op]
  · simp [ho]

instance (cfg : PushConfig) (route : RouteEntry) : Decidable (HasLocal cfg route) :=
  inferInstanceAs (Decidable (∃ did ∈ route.device_ids, route.instance_of did = cfg.instance_id))

theorem device_loop_willing {msg_info : Message} {uid : String} {seq : Option UInt64}
    {route : RouteEntry} (dids : List String) (any_local : Bool) :
    (device_loop cfg msg_info trace_id uid seq route dids any_local).value (willing table channel) =
      some (any_local || decide (∃ did ∈ dids, route.instance_of did = cfg.instance_id)) := by
  induction dids generalizing any_local with
  | nil => simp [device_loop]
  | cons did dids ih =>
    unfold device_loop
    by_cases hin : route.instance_of did = cfg.instance_id
    · rw [if_pos hin]
      cases seq with
      | some s =>
        show (device_loop cfg msg_info trace_id uid (some s) route dids
          (any_local || decide (0 < 1))).value (willing table channel) = _
        rw [ih]
        simp [hin]
      | none =>
        show (device_loop cfg msg_info trace_id uid none route dids true).value
          (willing table channel) = _
        rw [ih]
        simp [hin]
    · rw [if_neg hin, ih]
      simp [hin]

/-- The members that have no device on this instance. -/
def withoutLocal (cfg : PushConfig) (table : RouteTable) (uids : List String) : List String :=
  uids.filter fun uid ↦ ¬ HasLocal cfg (resolved cfg table uid)

/-- When every local send works, exactly the members without a local device are left for the
peers. -/
theorem member_loop_willing (uids remote : List String) :
    (member_loop cfg internal_msg trace_id uids remote).value (willing table channel) =
      some (remote ++ withoutLocal cfg table uids) := by
  rw [withoutLocal]
  induction uids generalizing remote with
  | nil => simp [member_loop]
  | cons uid uids ih =>
    rw [member_loop, value_bind, resolve_route_willing]
    dsimp only
    split
    · next hempty =>
      have hno : ¬ HasLocal cfg (resolved cfg table uid) := by
        rintro ⟨did, hd, -⟩
        rw [List.isEmpty_iff.1 hempty] at hd
        cases hd
      rw [ih, List.filter_cons_of_pos (by simpa using hno), List.append_assoc]
      rfl
    · have hval : (device_loop cfg internal_msg.message trace_id uid
          (find_seq internal_msg.user_seqs uid) (resolved cfg table uid)
          (resolved cfg table uid).device_ids false).value (willing table channel) =
          some (decide (HasLocal cfg (resolved cfg table uid))) := device_loop_willing _ _
      rw [value_bind, hval]
      dsimp only
      rw [ih]
      by_cases hl : HasLocal cfg (resolved cfg table uid)
      · rw [if_pos (decide_eq_true hl), List.filter_cons_of_neg (by simpa using hl)]
      · rw [if_neg (by simpa using hl), List.filter_cons_of_pos (by simpa using hl),
          List.append_assoc]
        rfl

variable (channel) in
/-- Pass 2 succeeds, and its entries are the members at their peers. -/
theorem group_loop_willing (cfg : PushConfig) (table : RouteTable) (uids : List String) :
    ∃ m, (group_loop cfg uids ∅).value (willing table channel) = some m ∧ ∀ e ∈ m.entries,
      (∃ uid, uid ∈ e.2) ∧ ∀ uid ∈ e.2, uid ∈ uids ∧ OnPeer cfg (resolved cfg table uid) e.1 := by
  have hsome : ∀ m, ∃ m', (group_loop cfg uids m).value (willing table channel) = some m' := by
    induction uids with
    | nil => exact fun m ↦ ⟨m, rfl⟩
    | cons uid uids ih =>
      intro m
      rw [group_loop, value_bind, resolve_route_willing]
      exact ih _
  obtain ⟨m, hm⟩ := hsome ∅
  have hrun : (group_loop cfg uids ∅).Runs (FixedRoutes table)
      ((group_loop cfg uids ∅).trace (willing table channel)) (some m) := by
    rw [← hm]
    refine (runs_trace (willing table channel) _).mono ?_
    rintro o _ rfl
    exact willing_fixed o
  refine ⟨m, hm, fun e he ↦ ⟨?_, fun uid hu ↦ ?_⟩⟩
  · have hempty : Listed ∅ := fun p hp ↦ absurd hp (AList.notMem_empty p)
    have hkey : e.1 ∈ m := AList.lookup_isSome.1 (by rw [AList.mem_lookup_iff.2 he]; rfl)
    obtain ⟨uid, hs⟩ := hempty.group_loop hrun e.1 hkey
    exact ⟨uid, (serves_of_mem_entries he).1 hs⟩
  · refine ((group_loop_runs hrun).1 ((serves_of_mem_entries he).2 hu)).resolve_left ?_
    exact not_serves_empty _ _

theorem batch_loop_willing {entries : List (Σ _ : String, List String)}
    (h : ∀ e ∈ entries, (channel e.1).isSome) :
    (batch_loop internal_msg trace_id entries).value (willing table channel) = .Ack := by
  induction entries with
  | nil => rfl
  | cons e entries ih =>
    obtain ⟨host, hhost⟩ := Option.isSome_iff_exists.1 (h e List.mem_cons_self)
    rw [batch_loop, value_bind, show (op (choose e.1) : PushM _).value (willing table channel) =
      some host from hhost]
    exact ih fun e' he' ↦ h e' (List.mem_cons_of_mem _ he')

/-- There is a channel for every peer of a member without a device here. -/
def ChannelsFor (cfg : PushConfig) (table : RouteTable) (channel : String → Option String)
    (uids : List String) : Prop :=
  ∀ uid ∈ uids, ¬ HasLocal cfg (resolved cfg table uid) →
    ∀ p, OnPeer cfg (resolved cfg table uid) p → (channel p).isSome

/-- When everything works and there are channels, the delivery is acked. -/
theorem fan_out_willing (h : ChannelsFor cfg table channel internal_msg.member_id_list) :
    (fan_out cfg trace_id internal_msg).value (willing table channel) = .Ack := by
  rw [fan_out, value_bind, member_loop_willing, List.nil_append]
  dsimp only
  split
  · rfl
  · obtain ⟨m, hm, hentries⟩ := group_loop_willing channel cfg table
      (withoutLocal cfg table internal_msg.member_id_list)
    rw [value_bind, hm]
    refine batch_loop_willing fun e he ↦ ?_
    -- an entry of the peer map stands for a member
    obtain ⟨⟨uid, hin⟩, hall⟩ := hentries e he
    obtain ⟨hu, hp⟩ := hall uid hin
    obtain ⟨huid, hno⟩ := List.mem_filter.1 hu
    exact h uid huid (by simpa using hno) _ hp

/-- The calls that a program may make over the channels. -/
def batchContract (channel : String → Option String) (P : String → PushBatchReq → Prop) :
    Contract PushOp PushOp.Res Unit where
  allowed _ o :=
    match o with
    | pushBatch host req => P host req
    | _ => True
  admits _ o r :=
    match o, r with
    | choose peer, r => r = channel peer
    | _, _ => True
  next _ _ _ := ()

theorem willing_admitted {P : String → PushBatchReq → Prop} (t : Unit) (o : PushOp) :
    (batchContract channel P).admits t o (willing table channel o) := by
  cases o with
  | choose peer => rfl
  | _ => trivial

/-- No calls at all. -/
def noBatch (channel : String → Option String) : Contract PushOp PushOp.Res Unit :=
  batchContract channel fun _ _ ↦ False

theorem cached_route_meets (uid : String) :
    (cached_route cfg uid).Meets (noBatch channel) () fun _ _ ↦ True := by
  rw [cached_route]
  split
  · exact ⟨trivial, fun _ _ ↦ trivial⟩
  · exact trivial

theorem resolve_route_meets (uid : String) :
    (resolve_route cfg uid).Meets (noBatch channel) () fun _ _ ↦ True := by
  rw [resolve_route]
  split
  · exact trivial
  · refine (cached_route_meets uid).bind fun _ c _ ↦ ?_
    cases c with
    | some c => exact trivial
    | none =>
      refine (cached_route_meets uid).bind fun _ c _ ↦ ?_
      cases c with
      | some c => exact trivial
      | none =>
        refine meets_op_bind.2 ⟨trivial, fun r _ ↦ ?_⟩
        cases r with
        | thrown => exact trivial
        | ok dmap =>
          dsimp only
          split
          · exact ⟨trivial, fun _ _ ↦ trivial⟩
          · exact trivial

theorem device_loop_meets {msg_info : Message} {uid : String} {seq : Option UInt64}
    {route : RouteEntry} (dids : List String) (any_local : Bool) :
    (device_loop cfg msg_info trace_id uid seq route dids any_local).Meets (noBatch channel) ()
      fun _ _ ↦ True := by
  induction dids generalizing any_local with
  | nil => exact trivial
  | cons did dids ih =>
    unfold device_loop
    split
    · cases seq with
      | some s =>
        refine meets_op_bind.2 ⟨trivial, fun r _ ↦ ?_⟩
        cases r with
        | thrown => exact trivial
        | ok => exact meets_op_bind.2 ⟨trivial, fun _ _ ↦ ih _⟩
      | none => exact meets_op_bind.2 ⟨trivial, fun _ _ ↦ ih _⟩
    · exact ih _

/-- Pass 1 calls no peer. -/
theorem member_loop_meets (cfg : PushConfig) (internal_msg : InternalMessage) (trace_id : String)
    (uids remote : List String) :
    (member_loop cfg internal_msg trace_id uids remote).Meets (noBatch channel) ()
      fun _ _ ↦ True := by
  induction uids generalizing remote with
  | nil => exact trivial
  | cons uid uids ih =>
    refine (resolve_route_meets uid).bind fun _ r _ ↦ ?_
    cases r with
    | thrown => exact trivial
    | ok route =>
      dsimp only
      split
      · exact ih _
      · refine (device_loop_meets _ _).bind fun _ r _ ↦ ?_
        cases r with
        | none => exact trivial
        | some any_local => exact ih _

/-- Pass 2 calls no peer. -/
theorem group_loop_meets (cfg : PushConfig) (uids : List String) (m : PeerMap) :
    (group_loop cfg uids m).Meets (noBatch channel) () fun _ _ ↦ True := by
  induction uids generalizing m with
  | nil => exact trivial
  | cons uid uids ih =>
    refine (resolve_route_meets uid).bind fun _ r _ ↦ ?_
    cases r with
    | thrown => exact trivial
    | ok route => exact ih _

/-- Pass 3 makes a call for each peer of the map over the channel to it, with its members. -/
theorem batch_loop_meets {P : String → PushBatchReq → Prop}
    {entries : List (Σ _ : String, List String)}
    (hP : ∀ e ∈ entries, ∀ host, channel e.1 = some host →
      P host (batch_request internal_msg trace_id e.2)) :
    (batch_loop internal_msg trace_id entries).Meets (batchContract channel P) ()
      fun _ _ ↦ True := by
  induction entries with
  | nil => exact trivial
  | cons e entries ih =>
    refine meets_op_bind.2 ⟨trivial, fun r hr ↦ ?_⟩
    cases r with
    | none => exact trivial
    | some host =>
      refine meets_op_bind.2 ⟨hP e List.mem_cons_self host (Eq.symm hr), fun success _ ↦ ?_⟩
      cases success with
      | false => exact trivial
      | true => exact ih fun e' he' ↦ hP e' (List.mem_cons_of_mem _ he')

/-- On the path on which everything works, a call names only members without a local device, and
goes over the channel for a named peer that has one of their devices. -/
theorem mem_trace_willing {host : String} {req : PushBatchReq} {success : Bool}
    (h : ⟨pushBatch host req, success⟩ ∈
      (fan_out cfg trace_id internal_msg).trace (willing table channel))
    {uid : String} (hu : uid ∈ req.user_id_list) :
    ¬ HasLocal cfg (resolved cfg table uid) ∧
      ∃ p, OnPeer cfg (resolved cfg table uid) p ∧ channel p = some host := by
  rw [fan_out, trace_bind, member_loop_willing, List.nil_append] at h
  rcases List.mem_append.1 h with h | h
  · obtain ⟨_, hfalse⟩ := (member_loop_meets cfg internal_msg trace_id _ _).allowed_of_mem_trace h
      willing_admitted
    exact hfalse.elim
  · dsimp only at h
    split at h
    · cases h
    · obtain ⟨m, hm, hentries⟩ := group_loop_willing channel cfg table
        (withoutLocal cfg table internal_msg.member_id_list)
      rw [trace_bind, hm] at h
      rcases List.mem_append.1 h with h | h
      · obtain ⟨_, hfalse⟩ := (group_loop_meets cfg _ ∅).allowed_of_mem_trace h willing_admitted
        exact hfalse.elim
      · -- the call belongs to an entry of the peer map
        have hmeets : (batch_loop internal_msg trace_id m.entries).Meets
            (batchContract channel fun host req ↦ ∃ e ∈ m.entries, channel e.1 = some host ∧
              req.user_id_list = e.2) () fun _ _ ↦ True :=
          batch_loop_meets fun e he host hhost ↦ ⟨e, he, hhost, rfl⟩
        obtain ⟨_, e, he, hhost, hlist⟩ := hmeets.allowed_of_mem_trace h willing_admitted
        rw [hlist] at hu
        obtain ⟨hr, hp⟩ := (hentries e he).2 uid hu
        exact ⟨by simpa using (List.mem_filter.1 hr).2, e.1, hp, hhost⟩

/-! ### When the fan-out is complete -/

theorem onPushMessage_serialize (cfg : PushConfig) (trace_id : String)
    (internal_msg : InternalMessage) :
    onPushMessage cfg trace_id (InternalMessage.codec.serialize internal_msg) =
      fan_out cfg trace_id internal_msg := by
  rw [onPushMessage, Wire.MessageCodec.parse_serialize]

/-- A member with a device on an unnamed instance, or with devices here and on a peer, is not
served completely when everything works. -/
theorem unmixed_of_complete {uid : String} (huid : uid ∈ internal_msg.member_id_list)
    (hcomplete : Complete cfg trace_id host_of table internal_msg
      ((fan_out cfg trace_id internal_msg).trace (willing table channel))) :
    Unmixed cfg (resolved cfg table uid) := by
  intro did hd hout
  rcases hcomplete uid huid did hd with ⟨hin, -⟩ | ⟨hne, req, hreq, hu⟩
  · exact absurd hin hout
  · obtain ⟨hno, -⟩ := mem_trace_willing hreq hu
    exact ⟨hne, fun did' hd' hin' ↦ hno ⟨did', hd', hin'⟩⟩

/-- A peer of a member that is served completely when everything works has been called over one of
the channels for the member's peers. -/
theorem called_of_complete {uid p : String} (huid : uid ∈ internal_msg.member_id_list)
    (hcomplete : Complete cfg trace_id host_of table internal_msg
      ((fan_out cfg trace_id internal_msg).trace (willing table channel)))
    (hp : OnPeer cfg (resolved cfg table uid) p) :
    ∃ q, OnPeer cfg (resolved cfg table uid) q ∧ channel q = some (host_of p) := by
  obtain ⟨did, hd, rfl, -, hout⟩ := hp
  rcases hcomplete uid huid did hd with ⟨hin, -⟩ | ⟨-, req, hreq, hu⟩
  · exact absurd hin hout
  · exact (mem_trace_willing hreq hu).2

/-- The manager has an answer for every peer: the given one for some of them, and for the others a
channel when it has one at all. -/
theorem exists_channel {P : String → Prop} {host : String → String}
    (h : ∀ q, P q → HandsOut mm q (some (host q))) :
    ∃ channel : String → Option String, (∀ q, HandsOut mm q (channel q)) ∧
      (∀ q g, HandsOut mm q (some g) → (channel q).isSome) ∧
        ∀ q, P q → channel q = some (host q) := by
  have hex : ∀ q, ∃ r, HandsOut mm q r ∧ (∀ g, HandsOut mm q (some g) → r.isSome) ∧
      (P q → r = some (host q)) := by
    intro q
    by_cases hq : P q
    · exact ⟨some (host q), h q hq, fun _ _ ↦ rfl, fun _ ↦ rfl⟩
    · by_cases hsome : ∃ g, HandsOut mm q (some g)
      · obtain ⟨g, hg⟩ := hsome
        exact ⟨some g, hg, fun _ _ ↦ rfl, fun hP ↦ absurd hP hq⟩
      · exact ⟨_, ⟨0, rfl⟩, fun g hg ↦ absurd ⟨g, hg⟩ hsome, fun hP ↦ absurd hP hq⟩
  choose channel hchannel using hex
  exact ⟨channel, fun q ↦ (hchannel q).1, fun q ↦ (hchannel q).2.1, fun q ↦ (hchannel q).2.2⟩

/-- If every acked path is complete, so is the one on which everything works. -/
theorem complete_willing
    (hall : ∀ tr, (fan_out cfg trace_id internal_msg).Runs (Surroundings table mm) tr .Ack →
      Complete cfg trace_id host_of table internal_msg tr)
    (hack : ¬ NeverAcked cfg table mm internal_msg.member_id_list)
    (hout : ∀ q, HandsOut mm q (channel q))
    (hsome : ∀ q g, HandsOut mm q (some g) → (channel q).isSome) :
    Complete cfg trace_id host_of table internal_msg
      ((fan_out cfg trace_id internal_msg).trace (willing table channel)) := by
  refine hall _ ?_
  have hrun : (fan_out cfg trace_id internal_msg).Runs (Surroundings table mm) _ _ :=
    willing_runs hout _
  rwa [fan_out_willing fun uid huid hno p hp ↦ ?_] at hrun
  by_contra hnone
  exact hack ⟨uid, huid, hno, p, hp, fun g hg ↦ hnone (hsome p g hg)⟩

/-- **When the fan-out is complete.** Over a fixed route table, and whatever the manager of the
channels goes through, every acked delivery of a message has served every device of every member if
and only if it cannot be acked for want of a channel, or no member has devices both here and
elsewhere, nor a device on an instance without a name, and the channels handed out for a member's
peers always lead to all of these peers. -/
theorem fan_out_complete_iff (cfg : PushConfig) (trace_id : String) (table : RouteTable)
    (mm : ℕ → ServiceManager) (host_of : String → String) (internal_msg : InternalMessage) :
    (∀ tr, (onPushMessage cfg trace_id (InternalMessage.codec.serialize internal_msg)).Runs
        (Surroundings table mm) tr .Ack →
        Complete cfg trace_id host_of table internal_msg tr) ↔
      NeverAcked cfg table mm internal_msg.member_id_list ∨
        ∀ uid ∈ internal_msg.member_id_list, Unmixed cfg (resolved cfg table uid) ∧
          Reached cfg mm host_of (resolved cfg table uid) := by
  rw [onPushMessage_serialize]
  constructor
  · intro hall
    refine or_iff_not_imp_left.2 fun hack uid huid ↦ ⟨?_, fun host hhost p hp ↦ ?_⟩
    · obtain ⟨channel, hout, hsome, -⟩ := @exists_channel mm (fun _ ↦ False) id fun _ h ↦ h.elim
      exact unmixed_of_complete huid (complete_willing hall hack hout hsome)
    · obtain ⟨channel, hout, hsome, hon⟩ := exists_channel hhost
      obtain ⟨q, hq, hc⟩ := called_of_complete huid (complete_willing hall hack hout hsome) hp
      exact ⟨q, hq, Option.some.inj ((hon q hq).symm.trans hc)⟩
  · rintro (hnever | hun) tr h
    · exact absurd hnever (not_neverAcked h)
    · exact complete_of_reached h hun

/-- A user with a phone on the instance that consumes the message and a laptop on another. -/
def mixedTable : RouteTable := fun uid ↦
  if uid = "alice" then
    (AList.insert "phone" "/service/push_service/a" ∅).insert "laptop" "/service/push_service/b"
  else ∅

/-- A message to that user. -/
def mixedMessage : InternalMessage :=
  { message := { message_id := 7, conversation_id := "c1", sender_id := "bob", seq_id := 1 }
    member_id_list := ["alice"]
    user_seqs := [⟨"alice", 1⟩] }

/-- Where the two instances listen. -/
def mixedHost (inst : String) : String :=
  if inst = "/service/push_service/a" then "10.0.0.1:9007" else "10.0.0.2:9007"

/-- What the consumer knows of them. -/
def mixedManager : ServiceManager :=
  ((({} : ServiceManager).declared "/service/push_service").onServiceOnline
    "/service/push_service/a" "10.0.0.1:9007" true).onServiceOnline
    "/service/push_service/b" "10.0.0.2:9007" true

/-- The phone is served, the delivery acked, and the laptop hears nothing. -/
theorem mixed_user_not_served :
    ∃ tr, (onPushMessage ⟨"/service/push_service/a", true, true⟩ ""
        (InternalMessage.codec.serialize mixedMessage)).Runs
        (Surroundings mixedTable fun _ ↦ mixedManager) tr .Ack ∧
      ¬ Complete ⟨"/service/push_service/a", true, true⟩ "" mixedHost mixedTable mixedMessage
        tr := by
  rw [onPushMessage_serialize]
  have hout : ∀ q, HandsOut (fun _ ↦ mixedManager) q (mixedManager.choose q).1 :=
    fun q ↦ ⟨0, rfl⟩
  have hrun : (fan_out ⟨"/service/push_service/a", true, true⟩ "" mixedMessage).Runs
      (Surroundings mixedTable fun _ ↦ mixedManager) _ _ := willing_runs hout _
  have halice : "alice" ∈ mixedMessage.member_id_list := List.mem_cons_self
  have hlocal : HasLocal ⟨"/service/push_service/a", true, true⟩
      (resolved ⟨"/service/push_service/a", true, true⟩ mixedTable "alice") :=
    ⟨"phone", by decide, by decide⟩
  rw [fan_out_willing fun uid huid hno ↦ ?_] at hrun
  · refine ⟨_, hrun, fun hcomplete ↦ ?_⟩
    have hun := unmixed_of_complete halice hcomplete
    exact (hun "laptop" (by decide) (by decide)).2 "phone" (by decide) (by decide)
  · rw [List.mem_singleton.1 huid] at hno
    exact absurd hlocal hno

end ChatNow
