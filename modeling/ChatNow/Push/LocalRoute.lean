import ChatNow.Common.OnlineRoute
import ChatNow.Lib.Pool
import ChatNow.Push.Connection
import ChatNow.Push.OnPushMessage

/-!
# The route cache of a push instance

What reads and writes the routes on one push instance, as threads over Redis, the local route cache
and the connection table: `resolve_route` with the lock of the in-flight registry,
`_handle_client_auth_` and the close handler of `push/source/push_server.h`.

* `_ws_server->run` is called by one thread, so the handlers of the sockets run one after another
  (`LocalState.ws`). Whatever they ask of other services is left out, and the resend of a handler
  that authenticates looks the route up like any other caller.
* Other instances bind and unbind for themselves, and touch the keys of any user.
* The shutdown, which ends all connections, is left out.
* An entry of the cache may be dropped at any time, as it expires or is evicted; keys of Redis do
  not expire, and no command fails.

A **window** is the time in which a device is connected here: it opens when `_handle_client_auth_`
returns, and ends when the socket is closed, by its peer or for a new login, or the device is bound
elsewhere (`LocalState.window`). A lookup is recorded with what it returned and the windows at that
moment (`LocalState.answers`).
-/

namespace ChatNow

open Prog OnPushMessage

/-! ### The text -/

/-- The operations on one push instance. -/
inductive LocalOp
  /-- A read of the local route cache. -/
  | l1Get (uid : String)
  /-- The mutex of the in-flight registry for the user is taken. -/
  | lock (uid : String)
  | unlock (uid : String)
  /-- `OnlineRoute::device_instances_map_strict`. -/
  | deviceInstancesMap (uid : String)
  | l1Set (uid : String) (route : RouteEntry)
  | l1Invalidate (uid : String)
  /-- `resolve_route`, called at `start`, has returned. -/
  | answer (uid : String) (start : ℕ) (route : RouteEntry)
  /-- `Connection::insert`. -/
  | insertConn (conn : ℕ) (uid did jti : String)
  /-- `OnlineRoute::bind` to this instance, for a socket. -/
  | bind (conn : ℕ) (uid did : String)
  /-- `_handle_client_auth_` returns. -/
  | authReturns (conn : ℕ) (uid did : String)
  /-- `Connection::client`. -/
  | client (conn : ℕ)
  /-- `Connection::remove`. -/
  | removeConn (conn : ℕ)
  /-- `OnlineRoute::unbind` for this instance. -/
  | unbind (uid did : String)
  /-- The close handler returns. -/
  | closeReturns

/-- What each operation answers. -/
@[reducible]
def LocalOp.Res : LocalOp → Type
  | l1Get _ => Option RouteEntry
  | lock _ => Unit
  | unlock _ => Unit
  | deviceInstancesMap _ => AList fun _ : String ↦ String
  | l1Set _ _ => Unit
  | l1Invalidate _ => Unit
  | answer _ _ _ => Unit
  | insertConn _ _ _ _ => Unit
  | bind _ _ _ => Unit
  | authReturns _ _ _ => Unit
  | client _ => Option Client
  | removeConn _ => Unit
  | unbind _ _ => Unit
  | closeReturns => Unit

/-- Programs on a push instance. -/
abbrev LocalM := Prog LocalOp LocalOp.Res

namespace LocalRoute

open LocalOp

/-- `resolve_route`, past the first look at the cache. -/
def load_route (uid : String) : LocalM RouteEntry := do
  op (lock uid)
  match ← op (l1Get uid) with
  | some cached =>
    op (unlock uid)
    return cached
  | none =>
    let dmap ← op (deviceInstancesMap uid)
    op (l1Set uid (route_of dmap))
    op (unlock uid)
    return route_of dmap

/-- `resolve_route`. -/
def resolve_route (uid : String) : LocalM RouteEntry := do
  match ← op (l1Get uid) with
  | some cached => return cached
  | none => load_route uid

/-- A call of `resolve_route`. -/
def lookup (uid : String) (start : ℕ) : LocalM Unit := do
  let route ← resolve_route uid
  op (answer uid start route)

/-- `_handle_client_auth_`, with the claims of a token that has been verified. -/
def handle_client_auth (conn : ℕ) (uid did jti : String) : LocalM Unit := do
  op (insertConn conn uid did jti)
  op (bind conn uid did)
  op (authReturns conn uid did)

/-- The close handler. -/
def close_handler (conn : ℕ) : LocalM Unit := do
  match ← op (client conn) with
  | none => op closeReturns
  | some c =>
    op (removeConn conn)
    op (unbind c.uid c.device_id)
    op (l1Invalidate c.uid)
    op closeReturns

end LocalRoute

/-! ### The machine -/

/-- A device that is connected here. -/
structure Window where
  conn : ℕ
  /-- When its handler returned; `none` while it is still running. -/
  since : Option ℕ
  deriving DecidableEq

/-- A call of `resolve_route` that has returned. -/
structure RouteAnswer where
  uid : String
  start : ℕ
  route : RouteEntry
  /-- The windows of the user when it returned. -/
  window : String → Option Window

/-- The stores of an instance. -/
structure LocalState where
  connections : Connection ℕ := .empty
  /-- The keys of Redis, by user. -/
  routes : String → OnlineRoute.Keys := fun _ ↦ {}
  /-- `_local_route_cache`. -/
  l1 : String → Option RouteEntry := fun _ ↦ none
  /-- The thread that has the user's mutex of the in-flight registry. -/
  locked : String → Option ℕ := fun _ ↦ none
  /-- What has been read from Redis and is still to go to the cache. -/
  filling : String → Option RouteEntry := fun _ ↦ none
  /-- The handler that the socket thread is running. -/
  ws : Option ℕ := none
  /-- The sockets that have been closed. -/
  closed : List ℕ := []
  window : String → String → Option Window := fun _ _ ↦ none
  /-- How many handlers have authenticated a socket. -/
  time : ℕ := 0
  answers : List RouteAnswer := []

namespace LocalState

variable (s : LocalState)

/-- The window of one device is set. -/
def setWindow (uid did : String) (w : Option Window) : LocalState :=
  { s with window := Function.update s.window uid (Function.update (s.window uid) did w) }

/-- The windows of a socket end. -/
def endWindows (conn : ℕ) : LocalState :=
  { s with window := fun u d ↦ (s.window u d).filter (·.conn ≠ conn) }

/-- A call of the route table runs its script. -/
def runScript (uid : String) (o : RouteOp) : LocalState :=
  { s with routes := Function.update s.routes uid (o.exec (s.routes uid)) }

/-- The window opens when the handler returns, unless it has ended already. -/
def opened (conn : ℕ) (uid did : String) : LocalState :=
  match s.window uid did with
  | some w =>
    if w.conn = conn then
      { s.setWindow uid did (some ⟨conn, some (s.time + 1)⟩) with time := s.time + 1 }
    else s
  | none => s

/-- The effect of an operation of thread `i` on the instance `inst`; the choices are the jitters of
the expiry times and the clock. -/
def exec (inst : String) (i : ℕ) : (o : LocalOp) → ℤ × ℤ → LocalState →
    Option (o.Res × LocalState)
  | .l1Get uid, _, s => some (s.l1 uid, s)
  | .lock uid, _, s =>
    if s.locked uid = none then
      some ((), { s with locked := Function.update s.locked uid (some i) })
    else none
  | .unlock uid, _, s => some ((), { s with locked := Function.update s.locked uid none })
  | .deviceInstancesMap uid, _, s =>
    let dmap := RouteValue.fields (s.routes uid).route
    some (dmap, { s with filling := Function.update s.filling uid (some (route_of dmap)) })
  | .l1Set uid route, _, s =>
    some ((), { s with
      l1 := Function.update s.l1 uid (some route)
      filling := Function.update s.filling uid none })
  | .l1Invalidate uid, _, s => some ((), { s with l1 := Function.update s.l1 uid none })
  | .answer uid start route, _, s =>
    some ((), { s with answers := ⟨uid, start, route, s.window uid⟩ :: s.answers })
  | .insertConn conn uid did jti, c, s =>
    some ((), { s.setWindow uid did none with
      connections := s.connections.insert conn uid did jti c.1 })
  | .bind conn uid did, c, s =>
    some ((), (s.runScript uid (.bind did inst c.1 c.2)).setWindow uid did (some ⟨conn, none⟩))
  | .authReturns conn uid did, _, s => some ((), { s.opened conn uid did with ws := none })
  | .client conn, _, s => some (s.connections.client conn, s)
  | .removeConn conn, _, s => some ((), { s with connections := s.connections.remove conn })
  | .unbind uid did, _, s => some ((), s.runScript uid (.unbind did inst))
  | .closeReturns, _, s => some ((), { s with ws := none })

end LocalState

/-- What can happen on an instance beside the operations. -/
inductive LocalEv
  /-- `resolve_route` is called. -/
  | lookup (uid : String)
  /-- A socket sends a token. No token is signed with an empty device id. -/
  | auth (conn : ℕ) (uid did jti : String)
  /-- A socket is closed. -/
  | close (conn : ℕ)
  /-- An entry leaves the cache. -/
  | expire (uid : String)
  /-- Another instance calls the route table. -/
  | remote (uid : String) (o : RouteOp)

/-- The call is made for another instance, or for nobody in particular. -/
def RouteOp.Elsewhere (inst : String) : RouteOp → Prop
  | bind _ j _ _ => j ≠ inst
  | touch _ _ => True
  | unbind _ j => j ≠ inst

instance (inst : String) : DecidablePred (RouteOp.Elsewhere inst)
  | .bind _ j _ _ => inferInstanceAs (Decidable (j ≠ inst))
  | .touch _ _ => .isTrue trivial
  | .unbind _ j => inferInstanceAs (Decidable (j ≠ inst))

/-- The window of a device that is bound elsewhere ends. -/
def LocalState.leave (s : LocalState) (uid : String) : RouteOp → LocalState
  | .bind did _ _ _ => s.setWindow uid did none
  | _ => s

abbrev LocalPool := Pool LocalOp LocalOp.Res LocalState

/-- The effect of an event. -/
def LocalState.env (inst : String) : LocalEv → LocalPool → Option LocalPool
  | .lookup uid, p => some ⟨p.threads ++ [LocalRoute.lookup uid p.shared.time], p.shared⟩
  | .auth conn uid did jti, p =>
    if p.shared.ws = none ∧ conn ∉ p.shared.closed ∧ did ≠ "" then
      some ⟨p.threads ++ [LocalRoute.handle_client_auth conn uid did jti],
        { p.shared with ws := some p.threads.length }⟩
    else none
  | .close conn, p =>
    if p.shared.ws = none ∧ conn ∉ p.shared.closed then
      some ⟨p.threads ++ [LocalRoute.close_handler conn],
        { p.shared.endWindows conn with
          ws := some p.threads.length, closed := conn :: p.shared.closed }⟩
    else none
  | .expire uid, p => some ⟨p.threads, { p.shared with l1 := Function.update p.shared.l1 uid none }⟩
  | .remote uid o, p =>
    if o.Elsewhere inst then some ⟨p.threads, (p.shared.runScript uid o).leave uid o⟩ else none

/-- The push instance. -/
def pushInstance (inst : String) : Machine LocalOp LocalOp.Res LocalState (ℤ × ℤ) LocalEv :=
  ⟨LocalState.exec inst, LocalState.env inst⟩

/-- An instance that has just started. -/
def LocalState.fresh : LocalPool := ⟨[], {}⟩

end ChatNow
