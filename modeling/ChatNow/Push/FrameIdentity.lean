import ChatNow.Lib.Delimited
import ChatNow.Push.ClientFrames
import ChatNow.Push.UnackedPush
import Mathlib.Logic.Function.Basic

/-!
# Whom a frame acts for

A socket that has been authenticated acts for one user. An acknowledgement that names another user
or device is dropped; a heartbeat is not looked at in that way, and `_on_heartbeat_resend` sends
what is due to the devices of whatever user the frame names, and moves the times of the next retry.

What is sent goes to the sockets that the table lists under the user and device, as whomever they
are authenticated: a socket that has been authenticated twice is still listed under its first user,
and receives what is resent to that one.

* `PushNode`: what the handlers of a frame see and change, in Redis, in the tables of the instance
  and behind the RPCs.
* `ownContract`: the calls that are for one user, and `own_step`: such a call leaves the data of all
  other users alone.
* `frame_isolated_iff`: a frame does so in all states exactly if it is not a heartbeat in the name
  of another user, and if it is a heartbeat of the own one, the table lists no socket of another
  user under that one.

User ids come from `uuid` and have no colon, so that the keys of a user and a device are not those
of another user and device (`ledger_tag_inj`); the ledgers are kept by user and device here.
-/

namespace ChatNow

open Prog FrameOp

/-! ### Keys -/

/-- The hash tag that the three keys of `UnackedPush` share. -/
def ledger_tag (uid device_id : String) : String := "\x7b" ++ uid ++ ":" ++ device_id ++ "\x7d"

/-- Two users without a colon in their ids share no ledger. -/
theorem ledger_tag_inj {u u' d d' : String} (hu : ':' ∉ u.toList) (hu' : ':' ∉ u'.toList)
    (h : ledger_tag u d = ledger_tag u' d') : u = u' ∧ d = d' := by
  have hlist := congrArg String.toList h
  simp only [ledger_tag, String.toList_append, List.append_assoc] at hlist
  have hcons := List.append_cancel_left hlist
  obtain ⟨hl, hr⟩ := (Delimited.append_cons_inj hu hu').1 hcons
  exact ⟨String.toList_inj.1 hl, String.toList_inj.1 (List.append_cancel_right hr)⟩

/-! ### The state -/

/-- The keys of `OnlineRoute` that carry a time to live. -/
inductive RouteKey
  | online
  | deviceSet
  | legacyDeviceSet
  deriving DecidableEq

/-- What a device has been sent, and over which sockets. -/
structure SentFrame (κ : Type) where
  uid : String
  device_id : String
  payload : String
  sockets : List κ
  deriving DecidableEq

/-- A push instance and the stores behind it. -/
structure PushNode (κ : Type) [DecidableEq κ] where
  connections : Connection κ := .empty
  /-- The ledgers of unacknowledged pushes. -/
  ledgers : String → String → Ledger ℤ := fun _ _ ↦ {}
  /-- The hashes of `OnlineRoute`, from devices to instances. -/
  online : String → AList fun _ : String ↦ String := fun _ ↦ ∅
  /-- The local route cache. -/
  route_cache : String → Option RouteEntry := fun _ ↦ none
  /-- The time to live of a key that is there. -/
  ttl : RouteKey → String → Option ℤ := fun _ _ ↦ none
  /-- The presence of a device, with the time to live. -/
  presence : String → String → Option (String × ℤ) := fun _ _ ↦ none
  /-- Those who want to know about a user. -/
  subs : String → List String := fun _ ↦ []
  /-- The tokens that can be verified. -/
  tokens : String → Option JwtClaims := fun _ ↦ none
  /-- The members of the conversations. -/
  members : String → String → Bool := fun _ _ ↦ false
  /-- `last_ack_seq`, by conversation and user. -/
  last_ack_seq : String → String → ℕ := fun _ _ ↦ 0
  sent : List (SentFrame κ) := []
  /-- What peers have been asked to send. -/
  asked : List (String × List String × String × String) := []
  closed : List (κ × String) := []

/-- An `HSCAN` that goes through nothing. -/
def HScan.done : HScan := ⟨fun _ _ _ ↦ some ("0", []), fun h _ hf ↦ by
  obtain ⟨-, rfl⟩ := Prod.mk.inj (Option.some.inj h)
  cases hf⟩

/-- What the environment decides at a call. -/
structure FrameChoice where
  /-- The call fails. -/
  fault : Bool := false
  /-- The clock. -/
  now : ℤ := 0
  /-- `randomized_ttl`. -/
  ttl : ℤ := 1
  /-- What `PTTL` answers. -/
  pttl : ℤ := -1
  scan : HScan := .done

namespace PushNode

variable {κ : Type} [DecidableEq κ] (s : PushNode κ)

def setLedger (uid did : String) (L : Ledger ℤ) : PushNode κ :=
  { s with ledgers := Function.update s.ledgers uid (Function.update (s.ledgers uid) did L) }

/-- `EXPIRE` of the keys of a user that are there. -/
def expire (uid : String) (ttl : ℤ) : PushNode κ :=
  { s with ttl := fun k ↦ Function.update (s.ttl k) uid ((s.ttl k uid).map fun _ ↦ ttl) }

def setPresence (uid did : String) (p : Option (String × ℤ)) : PushNode κ :=
  { s with presence := Function.update s.presence uid (Function.update (s.presence uid) did p) }

/-- `_local_send`. -/
def send (uid did payload : String) : PushNode κ :=
  { s with sent := s.sent ++ [⟨uid, did, payload, s.connections.connections uid did⟩] }

/-- `UpdateReadAck`, for the user that its metadata name. -/
def UpdateReadAck (auth_user conversation_id : String) (seq_id : ℕ) : PushNode κ :=
  if seq_id = 0 ∨ s.members conversation_id auth_user = false then s
  else
    { s with
      last_ack_seq := Function.update s.last_ack_seq conversation_id
        (Function.update (s.last_ack_seq conversation_id) auth_user
          (max (s.last_ack_seq conversation_id auth_user) seq_id)) }

/-- `kBindLua`. -/
def bind (uid did instance_id : String) (ttl : ℤ) : PushNode κ :=
  { s with
    online := Function.update s.online uid ((s.online uid).insert did instance_id)
    ttl := fun k ↦ if k = .legacyDeviceSet then s.ttl k
      else Function.update (s.ttl k) uid (some ttl) }

/-- The effect of an operation. No client frame makes the operations of the consumer. -/
def exec : (o : FrameOp κ) → FrameChoice → PushNode κ → Option (o.Res × PushNode κ)
  | routeOp (.routeCacheGet uid), _, s => some (s.route_cache uid, s)
  | routeOp (.deviceInstancesMap uid), c, s =>
    some (if c.fault then .thrown else .ok (s.online uid), s)
  | routeOp (.routeCacheSet uid route), _, s =>
    some ((), { s with route_cache := Function.update s.route_cache uid (some route) })
  | routeOp _, _, _ => none
  | client conn, _, s => some (s.connections.client conn, s)
  | touchConn conn, c, s => some ((), { s with connections := s.connections.touch conn c.now })
  | insertConn conn uid did jti, c, s =>
    some ((), { s with connections := s.connections.insert conn uid did jti c.now })
  | close conn reason, _, s => some ((), { s with closed := s.closed ++ [(conn, reason)] })
  | verify access_token, _, s => some (s.tokens access_token, s)
  | evalAck uid did user_seq, c, s =>
    if c.fault then some ((), s)
    else some ((), s.setLedger uid did
      (UnackedPush.ack (s.ledgers uid did) (toString user_seq)).2)
  | evalPeekDue uid did limit max_age_sec, c, s =>
    if c.fault then some (.thrown, s)
    else
      let r := UnackedPush.peek_due c.scan c.pttl (s.ledgers uid did) (some (c.now - max_age_sec))
        (some limit)
      some (match r.1 with | .ok raw => .ok raw | .error _ => .thrown, s.setLedger uid did r.2)
  | evalBumpScore uid did user_seqs, c, s =>
    if c.fault then some ((), s)
    else some ((), s.setLedger uid did (UnackedPush.bump_score (fun _ ↦ true) (s.ledgers uid did)
      (some c.ttl) (some c.now) (user_seqs.map toString)).2)
  | localSend uid did payload, _, s => some ((), s.send uid did payload)
  | updateReadAck auth_user conversation_id seq_id, c, s =>
    some ((), if c.fault then s else s.UpdateReadAck auth_user conversation_id seq_id)
  | bindRoute uid did instance_id, c, s =>
    some ((), if c.fault then s else s.bind uid did instance_id c.ttl)
  | touchRoute uid, c, s => some ((), if c.fault then s else s.expire uid c.ttl)
  | writePresence uid did state, c, s =>
    some ((), if c.fault then s else s.setPresence uid did (some (state, c.ttl)))
  | expirePresence uid did, c, s =>
    some ((), if c.fault then s else s.setPresence uid did
      ((s.presence uid did).map fun p ↦ (p.1, c.ttl)))
  | presenceSubs uid, c, s => some (if c.fault then .thrown else .ok (s.subs uid), s)
  | presenceBatch peer uids uid state, _, s =>
    some ((), { s with asked := s.asked ++ [(peer, uids, uid, state)] })

end PushNode

/-! ### Sockets and their users -/

section Owners

variable {κ : Type} [DecidableEq κ]

/-- The user that the socket is authenticated as. -/
def Connection.owner (table : Connection κ) (conn : κ) : Option String :=
  (table.client conn).map (·.uid)

/-- The socket is authenticated as the user and the device. -/
def Connection.Authenticates (table : Connection κ) (conn : κ) (u d : String) : Prop :=
  ∃ c, table.client conn = some c ∧ c.uid = u ∧ c.device_id = d

/-- No socket of another user is listed under the user. -/
def Connection.ListsOwn (table : Connection κ) (u : String) : Prop :=
  ∀ did, ∀ conn ∈ table.connections u did, ∀ v, table.owner conn = some v → v = u

/-- So it is where the two maps of the table agree. -/
theorem Connection.Consistent.listsOwn {table : Connection κ} (h : table.Consistent) (u : String) :
    table.ListsOwn u := by
  intro did conn hmem v hv
  obtain ⟨c, hc, rfl, -⟩ := (h conn u did).1 hmem
  rw [owner, hc] at hv
  exact (Option.some.inj hv).symm

theorem Connection.Authenticates.touch {table : Connection κ} {conn : κ} {u d : String}
    (h : table.Authenticates conn u d) (conn' : κ) (now : ℤ) :
    (table.touch conn' now).Authenticates conn u d := by
  obtain ⟨c, hc, hu, hd⟩ := h
  rw [Authenticates, touch_client, hc]
  split
  · exact ⟨_, rfl, hu, hd⟩
  · exact ⟨c, rfl, hu, hd⟩

end Owners

/-! ### What belongs to others -/

/-- The entry of a ledger: its score and its payload. -/
def ledger_entry (L : Ledger ℤ) (seq : String) : Option ℤ × Option String :=
  (UnackedPush.zscore L seq, UnackedPush.hget L seq)

/-- Nothing of any user but `u` has changed, and no socket has been sent anything that the table has
authenticated as another user. -/
structure Isolated {κ : Type} [DecidableEq κ] (table : Connection κ) (u : String)
    (s s' : PushNode κ) : Prop where
  ledger : ∀ v did seq, v ≠ u →
    ledger_entry (s'.ledgers v did) seq = ledger_entry (s.ledgers v did) seq
  last_ack : ∀ c v, v ≠ u → s'.last_ack_seq c v = s.last_ack_seq c v
  route_ttl : ∀ k v, v ≠ u → s'.ttl k v = s.ttl k v
  presence_ttl : ∀ v did, v ≠ u → s'.presence v did = s.presence v did
  sent : ∃ new, s'.sent = s.sent ++ new ∧
    ∀ q ∈ new, ∀ conn ∈ q.sockets, ∀ v, table.owner conn = some v → v = u
  asked : s'.asked = s.asked

/-- The instance has the sockets of the table, and this one is authenticated as the user and the
device. -/
structure PushNode.Serves {κ : Type} [DecidableEq κ] (s : PushNode κ) (table : Connection κ)
    (conn : κ) (u d : String) : Prop where
  authenticated : s.connections.Authenticates conn u d
  listed : ∀ v did, s.connections.connections v did = table.connections v did

namespace Isolated

variable {κ : Type} [DecidableEq κ] {table : Connection κ} {u : String} {s s₁ s' : PushNode κ}

theorem refl (table : Connection κ) (u : String) (s : PushNode κ) : Isolated table u s s :=
  ⟨fun _ _ _ _ ↦ rfl, fun _ _ _ ↦ rfl, fun _ _ _ ↦ rfl, fun _ _ _ ↦ rfl,
    ⟨[], (List.append_nil _).symm, fun _ hq ↦ absurd hq List.not_mem_nil⟩, rfl⟩

theorem trans (h : Isolated table u s s₁) (h' : Isolated table u s₁ s') :
    Isolated table u s s' where
  ledger v did seq hv := (h'.ledger v did seq hv).trans (h.ledger v did seq hv)
  last_ack c v hv := (h'.last_ack c v hv).trans (h.last_ack c v hv)
  route_ttl k v hv := (h'.route_ttl k v hv).trans (h.route_ttl k v hv)
  presence_ttl v did hv := (h'.presence_ttl v did hv).trans (h.presence_ttl v did hv)
  sent := by
    obtain ⟨new, hnew, hu⟩ := h.sent
    obtain ⟨new', hnew', hu'⟩ := h'.sent
    refine ⟨new ++ new', ?_, fun q hq ↦ ?_⟩
    · rw [hnew', hnew, List.append_assoc]
    · rcases List.mem_append.1 hq with hq | hq
      · exact hu q hq
      · exact hu' q hq
  asked := h'.asked.trans h.asked

theorem setLedger (s : PushNode κ) (did : String) (L : Ledger ℤ) :
    Isolated table u s (s.setLedger u did L) :=
  { refl table u s with
    ledger := fun v did' seq hv ↦ by
      show ledger_entry (Function.update s.ledgers u _ v did') seq = _
      rw [Function.update_of_ne hv] }

theorem expire (s : PushNode κ) (ttl : ℤ) : Isolated table u s (s.expire u ttl) :=
  { refl table u s with
    route_ttl := fun _ _ hv ↦ Function.update_of_ne hv _ _ }

theorem setPresence (s : PushNode κ) (did : String) (p : Option (String × ℤ)) :
    Isolated table u s (s.setPresence u did p) :=
  { refl table u s with
    presence_ttl := fun v did' hv ↦ by
      show Function.update s.presence u _ v did' = _
      rw [Function.update_of_ne hv] }

/-- What is sent to a user goes to the sockets that are listed under it. -/
theorem send (s : PushNode κ) (did payload : String)
    (hlisted : s.connections.connections u did = table.connections u did)
    (hown : table.ListsOwn u) : Isolated table u s (s.send u did payload) :=
  { refl table u s with
    sent := by
      refine ⟨[⟨u, did, payload, s.connections.connections u did⟩], rfl, fun q hq conn hconn ↦ ?_⟩
      obtain rfl := List.mem_singleton.1 hq
      rw [hlisted] at hconn
      exact hown did conn hconn }

theorem updateReadAck (s : PushNode κ) (conversation_id : String) (seq_id : ℕ) :
    Isolated table u s (s.UpdateReadAck u conversation_id seq_id) := by
  rw [PushNode.UpdateReadAck]
  split
  · exact refl table u s
  · exact
      { refl table u s with
        last_ack := fun c v hv ↦ by
          show Function.update s.last_ack_seq conversation_id _ c v = _
          rw [Function.update_apply]
          split
          · next hc => rw [Function.update_of_ne hv, hc]
          · rfl }

end Isolated

/-! ### The calls for one user -/

/-- The calls for user `u`, over a socket that is authenticated as `u` and `d`. Something is sent
only where `sends`. -/
def ownContract {κ : Type} (u d : String) (conn : κ) (sends : Prop) :
    Contract (FrameOp κ) FrameOp.Res Unit where
  allowed _ o :=
    match o with
    | routeOp (.routeCacheGet _) => True
    | routeOp (.deviceInstancesMap _) => True
    | routeOp (.routeCacheSet _ _) => True
    | client c => c = conn
    | touchConn _ => True
    | evalAck uid _ _ => uid = u
    | evalPeekDue uid _ _ _ => uid = u
    | evalBumpScore uid _ _ => uid = u
    | localSend uid _ _ => uid = u ∧ sends
    | updateReadAck auth_user _ _ => auth_user = u
    | touchRoute uid => uid = u
    | expirePresence uid _ => uid = u
    | _ => False
  admits _ o r :=
    match o, r with
    | client _, r => ∃ c, r = some c ∧ c.uid = u ∧ c.device_id = d
    | _, _ => True
  next _ _ _ := ()

section Calls

variable {κ : Type} [DecidableEq κ] {table : Connection κ} {u d : String} {conn : κ}
  {s s' : PushNode κ} {sends : Prop}

/-- **One call.** -/
theorem own_step {t : Unit} {o : FrameOp κ} {c : FrameChoice} {r : o.Res}
    (hown : sends → table.ListsOwn u) (ha : (ownContract u d conn sends).allowed t o)
    (hI : s.Serves table conn u d) (hx : PushNode.exec o c s = some (r, s')) :
    (ownContract u d conn sends).admits t o r ∧ s'.Serves table conn u d ∧
      Isolated table u s s' := by
  cases o with
  | routeOp o =>
    cases o with
    | routeCacheGet uid =>
      obtain ⟨rfl, rfl⟩ := Prod.mk.inj (Option.some.inj hx)
      exact ⟨trivial, hI, .refl table u s⟩
    | deviceInstancesMap uid =>
      obtain ⟨rfl, rfl⟩ := Prod.mk.inj (Option.some.inj hx)
      exact ⟨trivial, hI, .refl table u s⟩
    | routeCacheSet uid route =>
      obtain ⟨-, rfl⟩ := Prod.mk.inj (Option.some.inj hx)
      exact ⟨trivial, ⟨hI.authenticated, hI.listed⟩, { Isolated.refl table u s with }⟩
    | _ => exact False.elim ha
  | client c =>
    obtain rfl : c = conn := ha
    obtain ⟨rfl, rfl⟩ := Prod.mk.inj (Option.some.inj hx)
    exact ⟨hI.authenticated, hI, .refl table u s⟩
  | touchConn c' =>
    obtain ⟨-, rfl⟩ := Prod.mk.inj (Option.some.inj hx)
    refine ⟨trivial, ⟨hI.authenticated.touch c' c.now, fun v did ↦ ?_⟩,
      { Isolated.refl table u s with }⟩
    exact (Connection.touch_connections _ _ _ _ _).trans (hI.listed v did)
  | evalAck uid did user_seq =>
    obtain rfl : uid = u := ha
    simp only [PushNode.exec] at hx
    split at hx
    · obtain ⟨-, rfl⟩ := Prod.mk.inj (Option.some.inj hx)
      exact ⟨trivial, hI, .refl table uid s⟩
    · obtain ⟨-, rfl⟩ := Prod.mk.inj (Option.some.inj hx)
      exact ⟨trivial, ⟨hI.authenticated, hI.listed⟩, .setLedger s did _⟩
  | evalPeekDue uid did limit max_age_sec =>
    obtain rfl : uid = u := ha
    simp only [PushNode.exec] at hx
    split at hx
    · obtain ⟨-, rfl⟩ := Prod.mk.inj (Option.some.inj hx)
      exact ⟨trivial, hI, .refl table uid s⟩
    · obtain ⟨-, rfl⟩ := Prod.mk.inj (Option.some.inj hx)
      exact ⟨trivial, ⟨hI.authenticated, hI.listed⟩, .setLedger s did _⟩
  | evalBumpScore uid did user_seqs =>
    obtain rfl : uid = u := ha
    simp only [PushNode.exec] at hx
    split at hx
    · obtain ⟨-, rfl⟩ := Prod.mk.inj (Option.some.inj hx)
      exact ⟨trivial, hI, .refl table uid s⟩
    · obtain ⟨-, rfl⟩ := Prod.mk.inj (Option.some.inj hx)
      exact ⟨trivial, ⟨hI.authenticated, hI.listed⟩, .setLedger s did _⟩
  | localSend uid did payload =>
    obtain ⟨rfl, hsends⟩ := ha
    obtain ⟨-, rfl⟩ := Prod.mk.inj (Option.some.inj hx)
    exact ⟨trivial, ⟨hI.authenticated, hI.listed⟩,
      .send s did payload (hI.listed uid did) (hown hsends)⟩
  | updateReadAck auth_user conversation_id seq_id =>
    obtain rfl : auth_user = u := ha
    obtain ⟨-, rfl⟩ := Prod.mk.inj (Option.some.inj hx)
    split
    · exact ⟨trivial, hI, .refl table auth_user s⟩
    · refine ⟨trivial, ?_, .updateReadAck s conversation_id seq_id⟩
      rw [PushNode.UpdateReadAck]
      split <;> exact ⟨hI.authenticated, hI.listed⟩
  | touchRoute uid =>
    obtain rfl : uid = u := ha
    obtain ⟨-, rfl⟩ := Prod.mk.inj (Option.some.inj hx)
    split
    · exact ⟨trivial, hI, .refl table uid s⟩
    · exact ⟨trivial, ⟨hI.authenticated, hI.listed⟩, .expire s c.ttl⟩
  | expirePresence uid did =>
    obtain rfl : uid = u := ha
    obtain ⟨-, rfl⟩ := Prod.mk.inj (Option.some.inj hx)
    split
    · exact ⟨trivial, hI, .refl table uid s⟩
    · exact ⟨trivial, ⟨hI.authenticated, hI.listed⟩, .setPresence s did _⟩
  | _ => exact False.elim ha

end Calls

/-! ### Frames for one user -/

/-- The frame has the instance act for another user than `u`. -/
structure Impersonates (cfg : FrameConfig) (u : String) (notify : ClientNotify) : Prop where
  heartbeat : notify.notify_type = .CLIENT_HEARTBEAT
  named : notify.heartbeat.user_id ≠ ""
  other : notify.heartbeat.user_id ≠ u
  /-- The instance resends. -/
  resends : cfg.unacked = true ∧ cfg.online_route = true ∧ 0 < cfg.resend_batch

/-- The frame has the instance send `u` what is due. -/
structure SendsOwn (cfg : FrameConfig) (u : String) (notify : ClientNotify) : Prop where
  heartbeat : notify.notify_type = .CLIENT_HEARTBEAT
  named : notify.heartbeat.user_id ≠ ""
  own : notify.heartbeat.user_id = u
  resends : cfg.unacked = true ∧ cfg.online_route = true ∧ 0 < cfg.resend_batch
  /-- There are payloads. -/
  decodes : ∃ payload, cfg.base64_decode payload ≠ ""

namespace Frames

variable {κ : Type} {cfg : FrameConfig} {u d uid did : String} {conn : κ} {t : Unit} {sends : Prop}

theorem resolve_route_own :
    (resolve_route cfg uid : FrameM κ _).Meets (ownContract u d conn sends) t
      fun _ r ↦ cfg.online_route = false → r = .ok {} := by
  have hcached : (OnPushMessage.cached_route cfg.toPushConfig uid).Meets
      ((ownContract u d conn sends).comap FrameOp.routeOp) t fun _ _ ↦ True := by
    rw [OnPushMessage.cached_route]
    split
    · exact ⟨trivial, fun _ _ ↦ trivial⟩
    · exact trivial
  refine Meets.lift (f := FrameOp.routeOp) ?_
  rw [OnPushMessage.resolve_route]
  split
  · exact fun _ ↦ rfl
  · next hon =>
    have hnot {r : Reply RouteEntry} : cfg.online_route = false → r = .ok {} :=
      fun h ↦ absurd (by simpa using h) hon
    refine hcached.bind fun _ r _ ↦ ?_
    cases r with
    | some cached => exact hnot
    | none =>
      refine hcached.bind fun _ r _ ↦ ?_
      cases r with
      | some cached => exact hnot
      | none =>
        refine meets_op_bind.2 ⟨trivial, fun r _ ↦ ?_⟩
        cases r with
        | thrown => exact hnot
        | ok dmap =>
          dsimp only
          split
          · exact ⟨trivial, fun _ _ ↦ hnot⟩
          · exact hnot

/-- Nothing is read where nothing is to be resent. -/
theorem peek_due_own (h : uid = u ∨ cfg.resend_batch ≤ 0) :
    (peek_due cfg uid did : FrameM κ _).Meets (ownContract u d conn sends) t
      fun _ pending ↦ pending ≠ [] → uid = u ∧ 0 < cfg.resend_batch := by
  rw [peek_due]
  split
  · exact fun hne ↦ absurd rfl hne
  · next hpos =>
    have huid : uid = u := h.resolve_right hpos
    refine meets_op_bind.2 ⟨huid, fun r _ ↦ ?_⟩
    cases r with
    | ok raw => exact fun _ ↦ ⟨huid, not_le.1 hpos⟩
    | thrown => exact fun _ ↦ ⟨huid, not_le.1 hpos⟩

theorem send_pending_own {pending : List (ℕ × String)}
    (hsends : (∃ payload, cfg.base64_decode payload ≠ "") → sends) :
    (send_pending cfg u did pending : FrameM κ _).Meets (ownContract u d conn sends) t
      fun _ _ ↦ True := by
  induction pending with
  | nil => exact trivial
  | cons p pending ih =>
    rw [send_pending]
    dsimp only
    split
    · next hne => exact ⟨⟨rfl, hsends ⟨p.2, hne⟩⟩, fun _ _ ↦ ih⟩
    · exact ih

theorem resend_loop_own (h : uid = u ∨ cfg.resend_batch ≤ 0) {dids : List String}
    (hsends : uid = u → 0 < cfg.resend_batch → (∃ payload, cfg.base64_decode payload ≠ "") →
      sends) :
    (resend_loop cfg uid dids : FrameM κ _).Meets (ownContract u d conn sends) t
      fun _ _ ↦ True := by
  induction dids with
  | nil => exact trivial
  | cons did dids ih =>
    refine (peek_due_own h).bind fun _ pending hp ↦ ?_
    dsimp only
    split
    · next hne =>
      obtain ⟨rfl, hpos⟩ := hp (by simpa using hne)
      refine (send_pending_own (hsends rfl hpos)).bind fun _ _ _ ↦ ?_
      exact meets_op_bind.2 ⟨rfl, fun _ _ ↦ ih⟩
    · exact ih

theorem on_heartbeat_resend_own {hb : NotifyHeartbeat}
    (h : hb.user_id ≠ "" → hb.user_id ≠ u → cfg.unacked = true → cfg.online_route = true →
      cfg.resend_batch ≤ 0)
    (hsends : hb.user_id ≠ "" → hb.user_id = u →
      cfg.unacked = true ∧ cfg.online_route = true ∧ 0 < cfg.resend_batch →
      (∃ payload, cfg.base64_decode payload ≠ "") → sends) :
    (_on_heartbeat_resend cfg hb : FrameM κ _).Meets (ownContract u d conn sends) t
      fun _ _ ↦ True := by
  rw [_on_heartbeat_resend]
  split
  · exact trivial
  · next hun =>
    dsimp only
    split
    · exact trivial
    · next hne =>
      refine resolve_route_own.bind fun _ r hr ↦ ?_
      cases r with
      | thrown => exact trivial
      | ok route =>
        rcases Bool.eq_false_or_eq_true cfg.online_route with hon | hoff
        · have hloop : hb.user_id = u ∨ cfg.resend_batch ≤ 0 := by
            by_cases huid : hb.user_id = u
            · exact .inl huid
            · exact .inr (h hne huid (by simpa using hun) hon)
          refine (resend_loop_own hloop fun huid hpos ↦ ?_).bind fun _ _ _ ↦ trivial
          exact hsends hne huid ⟨by simpa using hun, hon, hpos⟩
        · obtain rfl := Reply.ok.inj (hr hoff)
          exact trivial

/-- An acknowledgement is looked at before it is taken. -/
theorem on_push_ack_own {ack : NotifyMsgPushAck} :
    (on_push_ack cfg ack conn).Meets (ownContract u d conn sends) t fun _ _ ↦ True := by
  rw [on_push_ack]
  split
  · exact trivial
  · refine meets_op_bind.2 ⟨rfl, fun r hr ↦ ?_⟩
    obtain ⟨c, rfl, rfl, rfl⟩ := hr
    dsimp only
    split
    · exact trivial
    · next hid =>
      have huid : c.uid = ack.user_id := by
        by_contra hne
        exact hid (.inl hne)
      have htail : (if 0 < ack.seq_id ∧ ack.conversation_id ≠ ""
          then op (updateReadAck c.uid ack.conversation_id ack.seq_id)
          else pure () : FrameM κ Unit).Meets
          (ownContract c.uid c.device_id conn sends) t fun _ _ ↦ True := by
        split
        · exact ⟨rfl, fun _ _ ↦ trivial⟩
        · exact trivial
      split
      · exact meets_op_bind.2 ⟨huid.symm, fun _ _ ↦ htail⟩
      · exact htail

/-- A frame of a known socket that impersonates nobody. -/
theorem on_message_own {notify : ClientNotify} (hauth : notify.notify_type ≠ .CLIENT_AUTH)
    (h : ¬ Impersonates cfg u notify) :
    (on_message cfg notify conn).Meets (ownContract u d conn (SendsOwn cfg u notify)) ()
      fun _ _ ↦ True := by
  refine meets_op_bind.2 ⟨rfl, fun r hr ↦ ?_⟩
  obtain ⟨c, rfl, rfl, rfl⟩ := hr
  have hnotify : (onClientNotify cfg notify conn).Meets
      (ownContract c.uid c.device_id conn (SendsOwn cfg c.uid notify)) () fun _ _ ↦ True := by
    rw [onClientNotify, if_neg hauth]
    split
    · exact on_push_ack_own.bind fun _ _ _ ↦ trivial
    · split
      · next hhb =>
        refine on_heartbeat_resend_own (fun hne huid hun hon ↦ ?_) fun hne huid hresends ↦ ?_
        · by_contra hpos
          exact h ⟨hhb, hne, huid, hun, hon, not_le.1 hpos⟩
        · exact fun hdecodes ↦ ⟨hhb, hne, huid, hresends, hdecodes⟩
      · exact trivial
  refine meets_op_bind.2 ⟨trivial, fun _ _ ↦ ?_⟩
  refine hnotify.bind fun _ r _ ↦ ?_
  cases r with
  | thrown => exact trivial
  | ok _ =>
    dsimp only
    split
    · exact ⟨rfl, fun _ _ ↦ ⟨rfl, fun _ _ ↦ trivial⟩⟩
    · exact trivial

/-! ### Frames for others -/

section Exec

variable [DecidableEq κ] {s s' : PushNode κ}

theorem exec_resolve_route {route : RouteEntry} (hon : cfg.online_route = true)
    (hcache : s.route_cache uid = some route)
    (hdmap : OnPushMessage.route_of (s.online uid) = route) :
    (resolve_route cfg uid).Exec PushNode.exec s (.ok route) s := by
  rw [resolve_route, OnPushMessage.resolve_route]
  cases hl : cfg.local_route_cache with
  | true =>
    simp only [hon, OnPushMessage.cached_route, hl]
    refine Exec.call (c := {}) (r := some route) ?_ (.ret _ _)
    show some (s.route_cache uid, s) = _
    rw [hcache]
  | false =>
    simp only [hon, OnPushMessage.cached_route, OnPushMessage.load_route, hl]
    refine Exec.call (c := {}) (r := .ok (s.online uid)) rfl ?_
    rw [← hdmap]
    exact .ret _ _

/-- A ledger with one entry. -/
def oneDue (payload : String) (score : ℤ) : Ledger ℤ :=
  { due := .zset ((∅ : RZset ℤ).insert "1" score)
    idx := .hash ((∅ : RHash).insert "1" payload) }

variable {payload : String}

theorem peek_oneDue (payload : String) (cutoff limit : ℤ) (h : 0 < limit) :
    UnackedPush.peek_due .done (-1) (oneDue payload cutoff) (some cutoff) (some limit) =
      (.ok [("1", payload)], oneDue payload cutoff) := by
  obtain ⟨n, rfl⟩ : ∃ n : ℕ, limit = n + 1 := ⟨(limit - 1).toNat, by omega⟩
  have hdue : UnackedPush.zrangebyscore (oneDue payload cutoff) cutoff (n + 1) = ["1"] := by
    have htake : ((n : ℤ) + 1).toNat = n + 1 := by omega
    simp [UnackedPush.zrangebyscore, UnackedPush.zmembers, oneDue, htake]
  rw [UnackedPush.peek_due]
  simp only [not_le.2 h, if_false]
  show UnackedPush.peek_batch cutoff _ _ "0" [] (oneDue payload cutoff) = _
  rw [UnackedPush.peek_batch, hdue]
  rfl

theorem bump_oneDue (payload : String) (score score' : ℤ) :
    UnackedPush.zscore (UnackedPush.bump_score (fun _ ↦ true) (oneDue payload score) (some 1)
      (some score') ["1"]).2 "1" = some score' := by
  have hbump : (UnackedPush.bump_score (fun _ ↦ true) (oneDue payload score) (some 1)
      (some score') ["1"]).2 = UnackedPush.zadd (oneDue payload score) score' "1" := rfl
  rw [hbump, UnackedPush.zscore_zadd, if_pos rfl]

theorem exec_peek_due (hpos : 0 < cfg.resend_batch)
    (hL : s.ledgers uid did = oneDue payload (-cfg.resend_max_age_sec)) :
    (peek_due cfg uid did).Exec PushNode.exec s [(1, payload)]
      (s.setLedger uid did (oneDue payload (-cfg.resend_max_age_sec))) := by
  rw [peek_due, if_neg (not_le.2 hpos)]
  refine Exec.call (c := {}) (r := .ok [("1", payload)]) ?_ (.ret _ _)
  have hpeek := peek_oneDue payload (-cfg.resend_max_age_sec) cfg.resend_batch hpos
  simp only [PushNode.exec, hL, zero_sub, hpeek]
  rfl

/-- What is sent for one payload. -/
theorem exec_send_pending (cfg : FrameConfig) (s : PushNode κ) (uid did payload : String) :
    ∃ s', (send_pending cfg uid did [(1, payload)]).Exec PushNode.exec s () s' ∧
      s'.ledgers = s.ledgers ∧ (cfg.base64_decode payload ≠ "" →
        ⟨uid, did, cfg.base64_decode payload, s.connections.connections uid did⟩ ∈ s'.sent) := by
  rw [send_pending]
  dsimp only
  split
  · refine ⟨s.send uid did (cfg.base64_decode payload), .call (c := {}) rfl (.ret _ _), rfl,
      fun _ ↦ ?_⟩
    exact List.mem_append_right _ (List.mem_singleton_self _)
  · next hempty => exact ⟨s, .ret _ _, rfl, fun hne ↦ absurd hne hempty⟩

/-- What is due is sent, and its time is moved. -/
theorem exec_resend_loop (hpos : 0 < cfg.resend_batch)
    (hL : s.ledgers uid did = oneDue payload (-cfg.resend_max_age_sec)) :
    ∃ s', (resend_loop cfg uid [did]).Exec PushNode.exec s () s' ∧
      UnackedPush.zscore (s'.ledgers uid did) "1" = some (1 - cfg.resend_max_age_sec) ∧
      (cfg.base64_decode payload ≠ "" →
        ⟨uid, did, cfg.base64_decode payload, s.connections.connections uid did⟩ ∈ s'.sent) := by
  obtain ⟨s₁, hsend, hL₁, hsent⟩ := exec_send_pending cfg
    (s.setLedger uid did (oneDue payload (-cfg.resend_max_age_sec))) uid did payload
  have hdue : s₁.ledgers uid did = oneDue payload (-cfg.resend_max_age_sec) := by
    rw [hL₁]
    simp only [PushNode.setLedger, Function.update_self]
  refine ⟨s₁.setLedger uid did (UnackedPush.bump_score (fun _ ↦ true)
    (oneDue payload (-cfg.resend_max_age_sec)) (some 1) (some (1 - cfg.resend_max_age_sec))
    ["1"]).2, (exec_peek_due hpos hL).bind (hsend.bind ?_), ?_, hsent⟩
  · refine Exec.call (r := ()) (c := { now := 1 - cfg.resend_max_age_sec }) ?_ (.ret _ _)
    rw [← hdue]
    show PushNode.exec (evalBumpScore uid did [1]) _ s₁ = _
    rfl
  · simp only [PushNode.setLedger, Function.update_self, bump_oneDue]

theorem exec_on_heartbeat_resend (did payload : String) {route : RouteEntry} {hb : NotifyHeartbeat}
    (hresends : cfg.unacked = true ∧ cfg.online_route = true ∧ 0 < cfg.resend_batch)
    (hne : hb.user_id ≠ "") (hcache : s.route_cache hb.user_id = some route)
    (hdmap : OnPushMessage.route_of (s.online hb.user_id) = route)
    (hdids : route.device_ids = [did])
    (hL : s.ledgers hb.user_id did = oneDue payload (-cfg.resend_max_age_sec)) :
    ∃ s', (_on_heartbeat_resend cfg hb).Exec PushNode.exec s (.ok ()) s' ∧
      UnackedPush.zscore (s'.ledgers hb.user_id did) "1" = some (1 - cfg.resend_max_age_sec) ∧
      (cfg.base64_decode payload ≠ "" → ⟨hb.user_id, did, cfg.base64_decode payload,
        s.connections.connections hb.user_id did⟩ ∈ s'.sent) := by
  obtain ⟨hun, hon, hpos⟩ := hresends
  obtain ⟨s', hloop, hscore, hsent⟩ := exec_resend_loop hpos hL
  refine ⟨s', ?_, hscore, hsent⟩
  rw [_on_heartbeat_resend]
  simp only [hun, Bool.not_true, Bool.false_eq_true, if_false, if_neg hne]
  refine (exec_resolve_route hon hcache hdmap).bind ?_
  dsimp only
  rw [hdids]
  exact hloop.bind (.ret _ _)

/-- The rest of the handler, with faults of what it does for the user of the socket. -/
theorem exec_on_known {notify : ClientNotify} {c : Client} {conn : κ}
    (hhb : notify.notify_type = .CLIENT_HEARTBEAT)
    (hrun : (_on_heartbeat_resend cfg notify.heartbeat).Exec PushNode.exec
      { s with connections := s.connections.touch conn 0 } (.ok ()) s') :
    (on_known cfg c notify conn).Exec PushNode.exec s () s' := by
  refine .call (r := ()) (c := {}) rfl ?_
  have hnotify : (onClientNotify cfg notify conn).Exec PushNode.exec
      { s with connections := s.connections.touch conn 0 } (.ok ()) s' := by
    rw [onClientNotify, hhb]
    exact hrun
  refine hnotify.bind ?_
  simp only [hhb, if_true]
  exact .call (r := ()) (c := { fault := true }) rfl
    (.call (r := ()) (c := { fault := true }) rfl (.ret _ _))

end Exec

end Frames

/-- The sockets of the table, a device of everybody, and an entry that is due for it. -/
def PushNode.due {κ : Type} [DecidableEq κ] (cfg : FrameConfig) (table : Connection κ)
    (did payload : String) : PushNode κ :=
  { connections := table
    ledgers := fun _ _ ↦ Frames.oneDue payload (-cfg.resend_max_age_sec)
    online := fun _ ↦ (∅ : AList fun _ : String ↦ String).insert did ""
    route_cache := fun _ ↦
      some (OnPushMessage.route_of ((∅ : AList fun _ : String ↦ String).insert did "")) }

section Others

variable {κ : Type} [DecidableEq κ] {cfg : FrameConfig} {table : Connection κ} {u d : String}
  {conn : κ} {notify : ClientNotify}

/-- A heartbeat for whom something is due: it is sent to the sockets that are listed, and the entry
is moved. -/
theorem exec_heartbeat_due (hauth : table.Authenticates conn u d)
    (hhb : notify.notify_type = .CLIENT_HEARTBEAT) (hne : notify.heartbeat.user_id ≠ "")
    (hresends : cfg.unacked = true ∧ cfg.online_route = true ∧ 0 < cfg.resend_batch)
    (did payload : String) :
    ∃ s', (Frames.on_message cfg notify conn).Exec PushNode.exec (.due cfg table did payload) ()
        s' ∧
      UnackedPush.zscore (s'.ledgers notify.heartbeat.user_id did) "1" =
        some (1 - cfg.resend_max_age_sec) ∧
      (cfg.base64_decode payload ≠ "" →
        ⟨notify.heartbeat.user_id, did, cfg.base64_decode payload,
          table.connections notify.heartbeat.user_id did⟩ ∈ s'.sent) := by
  obtain ⟨c, hc, -, -⟩ := hauth
  obtain ⟨s', hrun, hscore, hsent⟩ := Frames.exec_on_heartbeat_resend
    (s := { PushNode.due cfg table did payload with
      connections := (PushNode.due cfg table did payload).connections.touch conn 0 })
    did payload hresends hne rfl rfl rfl rfl
  refine ⟨s', ?_, hscore, fun hdecode ↦ ?_⟩
  · have hclient : PushNode.exec (client conn) {} (PushNode.due cfg table did payload) =
        some (some c, PushNode.due cfg table did payload) := by
      rw [← hc]
      rfl
    exact .call hclient (Frames.exec_on_known hhb hrun)
  · have hmem := hsent hdecode
    rw [Connection.touch_connections] at hmem
    exact hmem

/-- A heartbeat in the name of another user moves the entry of that user. -/
theorem Impersonates.not_isolated (h : Impersonates cfg u notify)
    (hauth : table.Authenticates conn u d) :
    ∃ s' : PushNode κ, (Frames.on_message cfg notify conn).Exec PushNode.exec
        (.due cfg table "phone" "") () s' ∧
      ¬Isolated table u (.due cfg table "phone" "") s' := by
  obtain ⟨s', hrun, hscore, -⟩ :=
    exec_heartbeat_due hauth h.heartbeat h.named h.resends "phone" ""
  refine ⟨s', hrun, fun hiso ↦ ?_⟩
  have hentry := congrArg Prod.fst (hiso.ledger _ "phone" "1" h.other)
  have hmoved : some (1 - cfg.resend_max_age_sec) = some (-cfg.resend_max_age_sec) :=
    hscore.symm.trans hentry
  have := Option.some.inj hmoved
  omega

/-- A heartbeat in the own name has something sent to every socket that is listed. -/
theorem SendsOwn.not_isolated (h : SendsOwn cfg u notify) (hauth : table.Authenticates conn u d)
    (hlists : ¬table.ListsOwn u) :
    ∃ s s' : PushNode κ, s.connections = table ∧
      (Frames.on_message cfg notify conn).Exec PushNode.exec s () s' ∧ ¬Isolated table u s s' := by
  obtain ⟨payload, hdecode⟩ := h.decodes
  have hstray : ∃ did, ∃ c ∈ table.connections u did, ∃ v, table.owner c = some v ∧ v ≠ u := by
    rw [Connection.ListsOwn] at hlists
    push Not at hlists
    exact hlists
  obtain ⟨did, c, hc, v, hv, hvu⟩ := hstray
  obtain ⟨s', hrun, -, hsent⟩ := exec_heartbeat_due hauth h.heartbeat h.named h.resends did payload
  refine ⟨_, s', rfl, hrun, fun hiso ↦ ?_⟩
  obtain ⟨new, hnew, hown⟩ := hiso.sent
  have hmem := hsent hdecode
  rw [hnew] at hmem
  have hmem' := (List.mem_append.1 hmem).resolve_left List.not_mem_nil
  rw [h.own] at hmem'
  exact hvu (hown _ hmem' c hc v hv)

/-- **Frames act for the user of their socket exactly if they are no heartbeats of others**, and the
heartbeats among them find no socket of another user listed under their own. -/
theorem frame_isolated_iff (cfg : FrameConfig) (u d : String) (notify : ClientNotify) (conn : κ)
    (table : Connection κ) (hauth : table.Authenticates conn u d) :
    (notify.notify_type ≠ .CLIENT_AUTH → ∀ s s' : PushNode κ, s.connections = table →
      (Frames.on_message cfg notify conn).Exec PushNode.exec s () s' → Isolated table u s s') ↔
      ¬Impersonates cfg u notify ∧ (SendsOwn cfg u notify → table.ListsOwn u) := by
  have hbeat (h : notify.notify_type = .CLIENT_HEARTBEAT) : notify.notify_type ≠ .CLIENT_AUTH := by
    rw [h]
    decide
  constructor
  · refine fun h ↦ ⟨fun himp ↦ ?_, fun hown ↦ ?_⟩
    · obtain ⟨s', hrun, hnot⟩ := himp.not_isolated hauth
      exact hnot (h (hbeat himp.heartbeat) _ s' rfl hrun)
    · by_contra hlists
      obtain ⟨s, s', hs, hrun, hnot⟩ := hown.not_isolated hauth hlists
      exact hnot (h (hbeat hown.heartbeat) s s' hs hrun)
  · rintro ⟨himp, hown⟩ hnauth s s' rfl hrun
    exact ((Frames.on_message_own hnauth himp).along hrun ⟨hauth, fun _ _ ↦ rfl⟩
      (Isolated.refl s.connections u) Isolated.trans (own_step hown)).2

/-- An instance that resends what has waited for five seconds. -/
def resendConfig : FrameConfig := ⟨⟨"push-0", true, false⟩, true, 50, 5, id, fun _ _ ↦ ""⟩

/-- A heartbeat in the name of the user. -/
def heartbeatOf (uid : String) : ClientNotify := ⟨.CLIENT_HEARTBEAT, some (.heartbeat ⟨uid, 0⟩)⟩

/-- A socket of alice and one of bob, and a push that is due for him. -/
def bobDue : PushNode ℕ :=
  { connections := (Connection.empty.insert 0 "alice" "laptop" "" 0).insert 1 "bob" "phone" "" 0
    ledgers := fun uid _ ↦ if uid = "bob" then Frames.oneDue "p" 10 else {}
    online := fun uid ↦ if uid = "bob" then (∅ : AList fun _ : String ↦ String).insert "phone" ""
      else ∅ }

theorem bobDue_consistent : bobDue.connections.Consistent := by
  have hempty : (Connection.empty : Connection ℕ).Consistent := Connection.empty_consistent
  refine Connection.insert_consistent (Connection.insert_consistent hempty ?_) ?_
  · rintro ⟨c, hc, -⟩
    cases hc
  · rintro ⟨c, hc, -⟩
    cases hc

/-- Alice's heartbeat gets her the push that is due for her, and bob's is left alone. -/
theorem frame_isolated_alice :
    ∃ s', (Frames.on_message resendConfig (heartbeatOf "alice") 0).Exec PushNode.exec
        (.due resendConfig bobDue.connections "laptop" "p") () s' ∧
      ⟨"alice", "laptop", "p", [0]⟩ ∈ s'.sent ∧
      Isolated bobDue.connections "alice" (.due resendConfig bobDue.connections "laptop" "p")
        s' := by
  have hauth : bobDue.connections.Authenticates 0 "alice" "laptop" := ⟨_, rfl, rfl, rfl⟩
  have hbeat : (heartbeatOf "alice").notify_type = .CLIENT_HEARTBEAT := rfl
  have hresends : resendConfig.unacked = true ∧ resendConfig.online_route = true ∧
      0 < resendConfig.resend_batch := ⟨rfl, rfl, by decide⟩
  obtain ⟨s', hrun, -, hsent⟩ := exec_heartbeat_due hauth hbeat (by decide) hresends "laptop" "p"
  have hown := (frame_isolated_iff resendConfig "alice" "laptop" (heartbeatOf "alice") 0
    bobDue.connections hauth).2 ⟨fun h ↦ h.other rfl, fun _ ↦ bobDue_consistent.listsOwn "alice"⟩
  exact ⟨s', hrun, hsent (by decide), hown (by decide) _ s' rfl hrun⟩

/-- A heartbeat of alice names bob: his push is sent to his phone again, and put off. -/
theorem alice_puts_off_bob :
    ∃ s', (Frames.on_message resendConfig (heartbeatOf "bob") 0).Exec PushNode.exec bobDue () s' ∧
      bobDue.connections.Authenticates 0 "alice" "laptop" ∧
      bobDue.connections.owner 1 = some "bob" ∧ s'.sent = [⟨"bob", "phone", "p", [1]⟩] ∧
      UnackedPush.zscore (bobDue.ledgers "bob" "phone") "1" = some 10 ∧
      UnackedPush.zscore (s'.ledgers "bob" "phone") "1" = some 40 ∧
      ¬Isolated bobDue.connections "alice" bobDue s' := by
  refine ⟨_, exec_of_run (show run PushNode.exec _
      [{}, {}, {}, { now := 15 }, {}, { now := 40 }, {}, {}] bobDue = some ((), _) from rfl),
    ⟨_, rfl, rfl, rfl⟩, rfl, rfl, rfl, rfl, fun hiso ↦ ?_⟩
  have hentry := congrArg Prod.fst (hiso.ledger "bob" "phone" "1" (by decide))
  cases hentry

end Others

end ChatNow
