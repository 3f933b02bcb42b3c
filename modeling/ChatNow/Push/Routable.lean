import ChatNow.Push.LocalRoute

/-!
# A connected device is routable on its own instance

`_handle_client_auth_` binds the device in Redis and leaves the local route cache alone, where the
close handler drops the user's entry. So a lookup after it may be answered from an entry, or from a
read on its way to the cache, that is older than the bind. `connected_device_routable` says that
nothing else goes wrong: as long as no bind finds such a route, every lookup in the window of a
device returns a route that maps it to this instance.

The invariant has a part about the stores (`WindowsOk`) and one about each thread (`ThreadOk`); what
a step of one thread leaves to the others is a `Frame`.
-/

namespace ChatNow

open Prog LocalOp OnPushMessage OnlineRoute

/-- The route maps the device to the instance. -/
def RouteEntry.Maps (route : RouteEntry) (did inst : String) : Prop :=
  did ∈ route.device_ids ∧ route.device_to_instance.lookup did = some inst

instance (route : RouteEntry) (did inst : String) : Decidable (route.Maps did inst) :=
  inferInstanceAs (Decidable (_ ∧ _))

theorem maps_route_of {dmap : AList fun _ : String ↦ String} {did inst : String}
    (h : dmap.lookup did = some inst) : (route_of dmap).Maps did inst :=
  ⟨AList.mem_keys.1 (AList.lookup_isSome.1 (by rw [h]; rfl)), h⟩

/-! ### What the threads do -/

/-- Where a call of `resolve_route` stands. -/
inductive LookupPhase
  | looking
  | missed
  /-- With the mutex. -/
  | locked
  | checked
  | read (route : RouteEntry)
  | holds (route : RouteEntry)
  /-- Without the mutex again. -/
  | has (route : RouteEntry)

/-- Where `_handle_client_auth_` stands. -/
inductive ConnectPhase
  | entered
  | inserted
  | bound

/-- Where the close handler stands. -/
inductive ClosePhase
  | entered
  | found (c : Client)
  | removed (c : Client)
  | unbound (uid : String)
  | invalidated

/-- A thread. -/
inductive LocalThread
  | lookup (uid : String) (start : ℕ) (ph : LookupPhase)
  | auth (conn : ℕ) (uid did jti : String) (ph : ConnectPhase)
  | close (conn : ℕ) (ph : ClosePhase)
  | done

/-- The next operation of a thread. -/
def LocalThread.todo : LocalThread → Option LocalOp
  | .lookup uid _ .looking => some (l1Get uid)
  | .lookup uid _ .missed => some (lock uid)
  | .lookup uid _ .locked => some (l1Get uid)
  | .lookup uid _ .checked => some (deviceInstancesMap uid)
  | .lookup uid _ (.read route) => some (l1Set uid route)
  | .lookup uid _ (.holds _) => some (unlock uid)
  | .lookup uid start (.has route) => some (answer uid start route)
  | .auth conn uid did jti .entered => some (insertConn conn uid did jti)
  | .auth conn uid did _ .inserted => some (.bind conn uid did)
  | .auth conn uid did _ .bound => some (authReturns conn uid did)
  | .close conn .entered => some (client conn)
  | .close conn (.found _) => some (removeConn conn)
  | .close _ (.removed c) => some (unbind c.uid c.device_id)
  | .close _ (.unbound uid) => some (l1Invalidate uid)
  | .close _ .invalidated => some closeReturns
  | .done => none

/-- The contract of the threads. -/
def localContract : Contract LocalOp LocalOp.Res LocalThread where
  allowed t o := t.todo = some o
  admits _ _ _ := True
  next
    | .lookup uid start .looking, l1Get _, some route => .lookup uid start (.has route)
    | .lookup uid start .looking, l1Get _, none => .lookup uid start .missed
    | .lookup uid start .missed, lock _, _ => .lookup uid start .locked
    | .lookup uid start .locked, l1Get _, some route => .lookup uid start (.holds route)
    | .lookup uid start .locked, l1Get _, none => .lookup uid start .checked
    | .lookup uid start .checked, deviceInstancesMap _, dmap =>
      .lookup uid start (.read (route_of dmap))
    | .lookup uid start (.read route), l1Set _ _, _ => .lookup uid start (.holds route)
    | .lookup uid start (.holds route), unlock _, _ => .lookup uid start (.has route)
    | .auth conn uid did jti .entered, insertConn _ _ _ _, _ => .auth conn uid did jti .inserted
    | .auth conn uid did jti .inserted, .bind _ _ _, _ => .auth conn uid did jti .bound
    | .close conn .entered, client _, some c => .close conn (.found c)
    | .close conn .entered, client _, none => .close conn .invalidated
    | .close conn (.found c), removeConn _, _ => .close conn (.removed c)
    | .close conn (.removed c), unbind _ _, _ => .close conn (.unbound c.uid)
    | .close conn (.unbound _), l1Invalidate _, _ => .close conn .invalidated
    | _, _, _ => .done

section Meets

theorem lookup_meets (uid : String) (start : ℕ) :
    (LocalRoute.lookup uid start).Meets localContract (.lookup uid start .looking)
      fun _ _ ↦ True := by
  refine meets_op_bind.2 ⟨rfl, fun r _ ↦ ?_⟩
  cases r with
  | some route => exact ⟨rfl, fun _ _ ↦ trivial⟩
  | none =>
    refine meets_op_bind.2 ⟨rfl, fun _ _ ↦ meets_op_bind.2 ⟨rfl, fun r _ ↦ ?_⟩⟩
    cases r with
    | some route => exact ⟨rfl, fun _ _ ↦ ⟨rfl, fun _ _ ↦ trivial⟩⟩
    | none => exact ⟨rfl, fun _ _ ↦ ⟨rfl, fun _ _ ↦ ⟨rfl, fun _ _ ↦ ⟨rfl, fun _ _ ↦ trivial⟩⟩⟩⟩

theorem handle_client_auth_meets (conn : ℕ) (uid did jti : String) :
    (LocalRoute.handle_client_auth conn uid did jti).Meets localContract
      (.auth conn uid did jti .entered) fun _ _ ↦ True :=
  ⟨rfl, fun _ _ ↦ ⟨rfl, fun _ _ ↦ ⟨rfl, fun _ _ ↦ trivial⟩⟩⟩

theorem close_handler_meets (conn : ℕ) :
    (LocalRoute.close_handler conn).Meets localContract (.close conn .entered)
      fun _ _ ↦ True := by
  refine meets_op_bind.2 ⟨rfl, fun r _ ↦ ?_⟩
  cases r with
  | none => exact ⟨rfl, fun _ _ ↦ trivial⟩
  | some c => exact ⟨rfl, fun _ _ ↦ ⟨rfl, fun _ _ ↦ ⟨rfl, fun _ _ ↦ ⟨rfl, fun _ _ ↦ trivial⟩⟩⟩⟩

end Meets

/-! ### The invariant -/

/-- What holds of the stores of the instance. -/
structure WindowsOk (inst : String) (s : LocalState) : Prop where
  keys : ∀ u, Refines (s.routes u) (s.routes u).instance_of
  listed : ∀ c cl, s.connections.client c = some cl →
    c ∈ s.connections.connections cl.uid cl.device_id ∧ cl.device_id ≠ ""
  exclusive : s.connections.Exclusive
  conn : ∀ u d w, s.window u d = some w → w.conn ∈ s.connections.connections u d ∧
    w.conn ∉ s.closed
  bound : ∀ u d w, s.window u d = some w → (s.routes u).instance_of d = some inst
  cache : ∀ u d w, s.window u d = some w →
    ∀ r, s.l1 u = some r ∨ s.filling u = some r → r.Maps d inst
  since : ∀ u d c t, s.window u d = some ⟨c, some t⟩ → t ≤ s.time
  answered : ∀ a ∈ s.answers, ∀ d c t, a.window d = some ⟨c, some t⟩ → t ≤ a.start →
    a.route.Maps d inst

/-- The route will do for a lookup that was called at `start`. -/
def GoodRoute (inst : String) (s : LocalState) (uid : String) (start : ℕ) (route : RouteEntry) :
    Prop :=
  ∀ d c t, s.window uid d = some ⟨c, some t⟩ → t ≤ start → route.Maps d inst

/-- What holds of a thread. -/
def ThreadOk (inst : String) (s : LocalState) (i : ℕ) : LocalThread → Prop
  | .lookup uid start ph => start ≤ s.time ∧ match ph with
    | .looking | .missed => True
    | .locked | .checked => s.locked uid = some i
    | .read route => s.locked uid = some i ∧ s.filling uid = some route
    | .holds route => s.locked uid = some i ∧ GoodRoute inst s uid start route
    | .has route => GoodRoute inst s uid start route
  | .auth conn uid did _ ph => s.ws = some i ∧ conn ∉ s.closed ∧ did ≠ "" ∧ match ph with
    | .entered => True
    | .inserted | .bound => conn ∈ s.connections.connections uid did
  | .close conn ph => s.ws = some i ∧ match ph with
    | .entered => conn ∈ s.closed
    | .found c => conn ∈ s.closed ∧ s.window c.uid c.device_id = none ∧ c.device_id ≠ ""
    | .removed c => s.window c.uid c.device_id = none ∧ c.device_id ≠ ""
    | .unbound _ | .invalidated => True
  | .done => True

/-- What a step leaves to another thread. -/
structure Frame (j : ℕ) (s s' : LocalState) : Prop where
  lock : ∀ u, s.locked u = some j → s'.locked u = some j ∧ s'.filling u = s.filling u
  ws : s.ws = some j → s'.ws = some j ∧ s'.connections = s.connections ∧ s'.closed = s.closed ∧
    ∀ u d, s.window u d = none → s'.window u d = none
  window : ∀ u d c t, s'.window u d = some ⟨c, some t⟩ →
    s.window u d = some ⟨c, some t⟩ ∨ s.time < t
  time : s.time ≤ s'.time

section Frames

variable {inst : String} {s s' : LocalState} {i j : ℕ}

theorem GoodRoute.frame {uid : String} {start : ℕ} {route : RouteEntry}
    (h : GoodRoute inst s uid start route) (hstart : start ≤ s.time) (hf : Frame j s s') :
    GoodRoute inst s' uid start route := by
  intro d c t hw ht
  rcases hf.window uid d c t hw with hw | hlt
  · exact h d c t hw ht
  · omega

theorem ThreadOk.frame {t : LocalThread} (h : ThreadOk inst s j t) (hf : Frame j s s') :
    ThreadOk inst s' j t := by
  cases t with
  | done => trivial
  | lookup uid start ph =>
    obtain ⟨hstart, hph⟩ := h
    refine ⟨Nat.le_trans hstart hf.time, ?_⟩
    cases ph with
    | looking | missed => trivial
    | locked | checked => exact (hf.lock uid hph).1
    | read route =>
      obtain ⟨hlock, hfill⟩ := hph
      exact ⟨(hf.lock uid hlock).1, (hf.lock uid hlock).2.trans hfill⟩
    | holds route => exact ⟨(hf.lock uid hph.1).1, hph.2.frame hstart hf⟩
    | has route => exact GoodRoute.frame hph hstart hf
  | auth conn uid did jti ph =>
    obtain ⟨hws, hopen, hdid, hph⟩ := h
    obtain ⟨hws', hconn, hclosed, -⟩ := hf.ws hws
    refine ⟨hws', hclosed ▸ hopen, hdid, ?_⟩
    cases ph with
    | entered => trivial
    | inserted | bound => exact hconn ▸ hph
  | close conn ph =>
    obtain ⟨hws, hph⟩ := h
    obtain ⟨hws', -, hclosed, hwin⟩ := hf.ws hws
    refine ⟨hws', ?_⟩
    cases ph with
    | entered => exact hclosed ▸ hph
    | found c => exact ⟨hclosed ▸ hph.1, hwin _ _ hph.2.1, hph.2.2⟩
    | removed c => exact ⟨hwin _ _ hph.1, hph.2⟩
    | unbound | invalidated => trivial

/-- The invariant. -/
structure LocalInv (inst : String) (ts : List LocalThread) (s : LocalState) : Prop where
  stores : WindowsOk inst s
  threads : ∀ i t, ts[i]? = some t → ThreadOk inst s i t

/-- A thread makes a step. -/
theorem LocalInv.step {ts : List LocalThread} {t : LocalThread} (h : LocalInv inst ts s)
    (hs : WindowsOk inst s') (hf : ∀ j, j ≠ i → Frame j s s') (ht : ThreadOk inst s' i t) :
    LocalInv inst (ts.set i t) s' := by
  refine ⟨hs, fun j u hj ↦ ?_⟩
  rcases Pool.getElem?_set_cases hj with ⟨rfl, rfl⟩ | ⟨hne, hj⟩
  · exact ht
  · exact (h.threads j u hj).frame (hf j hne)

/-- A thread joins. -/
theorem LocalInv.spawn {ts : List LocalThread} {t : LocalThread} (h : LocalInv inst ts s)
    (hs : WindowsOk inst s') (hf : ∀ j, Frame j s s') (ht : ThreadOk inst s' ts.length t) :
    LocalInv inst (ts ++ [t]) s' := by
  refine ⟨hs, fun j u hj ↦ ?_⟩
  rcases Pool.getElem?_append_cases hj with ⟨rfl, rfl⟩ | ⟨-, hj⟩
  · exact ht
  · exact (h.threads j u hj).frame (hf j)

/-- An event that starts no thread. -/
theorem LocalInv.stores_step {ts : List LocalThread} (h : LocalInv inst ts s)
    (hs : WindowsOk inst s') (hf : ∀ j, Frame j s s') : LocalInv inst ts s' :=
  ⟨hs, fun j u hj ↦ (h.threads j u hj).frame (hf j)⟩

/-- A step of a lookup. -/
theorem Frame.of_lookup
    (hlock : ∀ u, s.locked u = some j → s'.locked u = some j ∧ s'.filling u = s.filling u)
    (hws : s'.ws = s.ws) (hconn : s'.connections = s.connections) (hclosed : s'.closed = s.closed)
    (hwindow : s'.window = s.window) (htime : s'.time = s.time) : Frame j s s' where
  lock := hlock
  ws h := ⟨hws.trans h, hconn, hclosed, fun _ _ hw ↦ by rw [hwindow, hw]⟩
  window _ _ _ _ hw := .inl (hwindow ▸ hw)
  time := htime.ge

/-- A step of the handler that runs on the socket thread. -/
theorem Frame.of_handler (hj : s.ws ≠ some j) (hlocked : s'.locked = s.locked)
    (hfilling : s'.filling = s.filling)
    (hwindow : ∀ u d c t, s'.window u d = some ⟨c, some t⟩ →
      s.window u d = some ⟨c, some t⟩ ∨ s.time < t) (htime : s.time ≤ s'.time) : Frame j s s' where
  lock _ hu := ⟨by rw [hlocked, hu], by rw [hfilling]⟩
  ws h := absurd h hj
  window := hwindow
  time := htime

end Frames

/-! ### What the operations leave of the stores -/

theorem window_setWindow (s : LocalState) (uid did : String) (w : Option Window) (u d : String) :
    (s.setWindow uid did w).window u d = if u = uid ∧ d = did then w else s.window u d := by
  simp only [LocalState.setWindow]
  by_cases hu : u = uid
  · subst hu
    rw [Function.update_self]
    by_cases hd : d = did
    · subst hd
      rw [Function.update_self, if_pos ⟨rfl, rfl⟩]
    · rw [Function.update_of_ne hd, if_neg fun h ↦ hd h.2]
  · rw [Function.update_of_ne hu, if_neg fun h ↦ hu h.1]

theorem refines_exec {k : Keys} (h : Refines k k.instance_of) (o : RouteOp) :
    Refines (o.exec k) (o.exec k).instance_of :=
  (h.exec o).congr fun d ↦ ((h.exec o).owner d).symm

theorem instance_of_exec {k : Keys} (h : Refines k k.instance_of) (o : RouteOp) (d : String) :
    (o.exec k).instance_of d = act k.instance_of o d :=
  (h.exec o).owner d

namespace WindowsOk

variable {inst : String} {s : LocalState} (h : WindowsOk inst s)
include h

/-- A route that is read from Redis maps the devices that are connected here. -/
theorem read (uid : String) : WindowsOk inst { s with
    filling := Function.update s.filling uid
      (some (route_of (RouteValue.fields (s.routes uid).route))) } where
  __ := h
  cache u d w hw r hr := by
    rcases hr with hr | hr
    · exact h.cache u d w hw r (.inl hr)
    · by_cases hu : u = uid
      · subst hu
        simp only [Function.update_self, Option.some.injEq] at hr
        subst hr
        exact maps_route_of (h.bound u d w hw)
      · simp only [Function.update_of_ne hu] at hr
        exact h.cache u d w hw r (.inr hr)

/-- What was read goes to the cache. -/
theorem l1Set {uid : String} {route : RouteEntry} (hroute : s.filling uid = some route) :
    WindowsOk inst { s with
      l1 := Function.update s.l1 uid (some route)
      filling := Function.update s.filling uid none } where
  __ := h
  cache u d w hw r hr := by
    by_cases hu : u = uid
    · subst hu
      rcases hr with hr | hr
      · simp only [Function.update_self, Option.some.injEq] at hr
        subst hr
        exact h.cache u d w hw _ (.inr hroute)
      · simp only [Function.update_self, reduceCtorEq] at hr
    · simp only [Function.update_of_ne hu] at hr
      exact h.cache u d w hw r hr

/-- An entry leaves the cache. -/
theorem l1Invalidate (uid : String) :
    WindowsOk inst { s with l1 := Function.update s.l1 uid none } where
  __ := h
  cache u d w hw r hr := by
    refine h.cache u d w hw r (hr.imp_left fun hr ↦ ?_)
    by_cases hu : u = uid
    · subst hu
      cases (Function.update_self ..).symm.trans hr
    · exact (Function.update_of_ne hu ..).symm.trans hr

/-- A call of `resolve_route` returns. -/
theorem answer {uid : String} {start : ℕ} {route : RouteEntry}
    (hroute : GoodRoute inst s uid start route) :
    WindowsOk inst { s with answers := ⟨uid, start, route, s.window uid⟩ :: s.answers } where
  __ := h
  answered a ha := by
    rcases List.mem_cons.1 ha with rfl | ha
    · exact hroute
    · exact h.answered a ha

/-- Windows end. -/
theorem endWindows {W : String → String → Option Window}
    (hW : ∀ u d w, W u d = some w → s.window u d = some w) :
    WindowsOk inst { s with window := W } where
  __ := h
  conn u d w hw := h.conn u d w (hW u d w hw)
  bound u d w hw := h.bound u d w (hW u d w hw)
  cache u d w hw := h.cache u d w (hW u d w hw)
  since u d c t hw := h.since u d c t (hW u d _ hw)

/-- The socket of a device that is not connected here is registered. -/
theorem insertConn {uid did : String} (conn : ℕ) (jti : String) (ts : ℤ) (hdid : did ≠ "")
    (hnone : s.window uid did = none) :
    WindowsOk inst { s with connections := s.connections.insert conn uid did jti ts } where
  __ := h
  listed c cl hcl := by
    simp only [Connection.insert_client, Connection.insert_connections] at hcl ⊢
    split at hcl
    · next hc =>
      obtain rfl := Option.some.inj hcl
      rw [if_pos ⟨rfl, rfl⟩, hc]
      exact ⟨List.mem_singleton_self conn, hdid⟩
    · split at hcl
      · cases hcl
      · next hold =>
        obtain ⟨hlisted, hne⟩ := h.listed c cl hcl
        have hother : ¬(cl.uid = uid ∧ cl.device_id = did) := by
          rintro ⟨rfl, rfl⟩
          exact hold hlisted
        rw [if_neg hother]
        exact ⟨hlisted, hne⟩
  exclusive := Connection.insert_exclusive h.exclusive
  conn u d w hw := by
    have hother : ¬(u = uid ∧ d = did) := by
      rintro ⟨rfl, rfl⟩
      cases hnone.symm.trans hw
    simp only [Connection.insert_connections, if_neg hother]
    exact h.conn u d w hw

/-- A closed socket is taken out. -/
theorem removeConn {conn : ℕ} (hconn : conn ∈ s.closed) :
    WindowsOk inst { s with connections := s.connections.remove conn } := by
  rw [Connection.remove]
  split
  · exact h
  · next c hc => exact {
      h with
      listed := fun c' cl hcl ↦ by
        simp only [Connection.drop_client, Connection.drop_connections] at hcl ⊢
        split at hcl
        · cases hcl
        · next hne =>
          obtain ⟨hlisted, hdid⟩ := h.listed c' cl hcl
          refine ⟨?_, hdid⟩
          split
          · exact List.mem_filter.2 ⟨hlisted, decide_eq_true hne⟩
          · exact hlisted
      exclusive := Connection.drop_exclusive h.exclusive
      conn := fun u d w hw ↦ by
        obtain ⟨hlisted, hopen⟩ := h.conn u d w hw
        have hne : w.conn ≠ conn := fun heq ↦ hopen (heq ▸ hconn)
        refine ⟨?_, hopen⟩
        simp only [Connection.drop_connections]
        split
        · exact List.mem_filter.2 ⟨hlisted, decide_eq_true hne⟩
        · exact hlisted }

/-- A script that leaves the devices which are connected here to the instance. -/
theorem runScript {uid : String} {o : RouteOp}
    (hkeep : ∀ d w, s.window uid d = some w → act (s.routes uid).instance_of o d = some inst) :
    WindowsOk inst (s.runScript uid o) where
  __ := h
  keys u := by
    by_cases hu : u = uid
    · subst hu
      simp only [LocalState.runScript, Function.update_self]
      exact refines_exec (h.keys u) o
    · simp only [LocalState.runScript, Function.update_of_ne hu]
      exact h.keys u
  bound u d w hw := by
    by_cases hu : u = uid
    · subst hu
      simp only [LocalState.runScript, Function.update_self]
      rw [instance_of_exec (h.keys u)]
      exact hkeep d w hw
    · simp only [LocalState.runScript, Function.update_of_ne hu]
      exact h.bound u d w hw

/-- The device is connected here. -/
theorem connected {conn : ℕ} {uid did : String}
    (hconn : conn ∈ s.connections.connections uid did ∧ conn ∉ s.closed)
    (hbound : (s.routes uid).instance_of did = some inst)
    (hcache : ∀ r, s.l1 uid = some r ∨ s.filling uid = some r → r.Maps did inst) :
    WindowsOk inst (s.setWindow uid did (some ⟨conn, none⟩)) where
  __ := h
  conn u d w hw := by
    rw [window_setWindow] at hw
    split at hw
    · next heq =>
      obtain ⟨rfl, rfl⟩ := heq
      obtain rfl := Option.some.inj hw
      exact hconn
    · exact h.conn u d w hw
  bound u d w hw := by
    rw [window_setWindow] at hw
    split at hw
    · next heq =>
      obtain ⟨rfl, rfl⟩ := heq
      exact hbound
    · exact h.bound u d w hw
  cache u d w hw := by
    rw [window_setWindow] at hw
    split at hw
    · next heq =>
      obtain ⟨rfl, rfl⟩ := heq
      exact hcache
    · exact h.cache u d w hw
  since u d c t hw := by
    rw [window_setWindow] at hw
    split at hw
    · cases hw
    · exact h.since u d c t hw

/-- The handler that has connected the device returns. -/
theorem opened (conn : ℕ) (uid did : String) : WindowsOk inst (s.opened conn uid did) := by
  unfold LocalState.opened
  split
  · next w hw =>
    split
    · next hconn =>
      -- but for its start, the window is the one there was
      have hold : ∀ {u d w'},
          (s.setWindow uid did (some ⟨conn, some (s.time + 1)⟩)).window u d = some w' →
            ∃ v, s.window u d = some v ∧ v.conn = w'.conn := by
        intro u d w' hw'
        rw [window_setWindow] at hw'
        split at hw'
        · next heq =>
          obtain ⟨rfl, rfl⟩ := heq
          obtain rfl := Option.some.inj hw'
          exact ⟨w, hw, hconn⟩
        · exact ⟨w', hw', rfl⟩
      exact {
        h with
        conn := fun u d w' hw' ↦ by
          obtain ⟨v, hv, heq⟩ := hold hw'
          exact heq ▸ h.conn u d v hv
        bound := fun u d w' hw' ↦ by
          obtain ⟨v, hv, -⟩ := hold hw'
          exact h.bound u d v hv
        cache := fun u d w' hw' ↦ by
          obtain ⟨v, hv, -⟩ := hold hw'
          exact h.cache u d v hv
        since := fun u d c t hw' ↦ by
          simp only [window_setWindow] at hw' ⊢
          split at hw'
          · cases hw'
            exact le_rfl
          · exact Nat.le_succ_of_le (h.since u d c t hw') }
    · exact h
  · exact h

end WindowsOk

/-! ### The steps -/

/-- Every route of the user that the cache holds, or is about to, maps the device. -/
def LocalState.CacheMaps (s : LocalState) (uid did inst : String) : Prop :=
  (∀ r ∈ s.l1 uid, r.Maps did inst) ∧ ∀ r ∈ s.filling uid, r.Maps did inst

instance (s : LocalState) (uid did inst : String) : Decidable (s.CacheMaps uid did inst) :=
  inferInstanceAs (Decidable (_ ∧ _))

/-- No bind of a device finds a route in the cache, or on its way there, that leaves the device
out. -/
def bindsFresh (inst : String) : Machine.Guard LocalOp LocalOp.Res LocalState (ℤ × ℤ) LocalEv where
  onOp
    | _, .bind _ uid did, _, s => s.CacheMaps uid did inst
    | _, _, _, _ => True
  onEv _ _ := True

instance (inst : String) (i : ℕ) (o : LocalOp) (c : ℤ × ℤ) (s : LocalState) :
    Decidable ((bindsFresh inst).onOp i o c s) :=
  match o with
  | .bind _ uid did => inferInstanceAs (Decidable (s.CacheMaps uid did inst))
  | l1Get _ | lock _ | unlock _ | deviceInstancesMap _ | l1Set _ _ | l1Invalidate _ | answer _ _ _
  | insertConn _ _ _ _ | authReturns _ _ _ | client _ | removeConn _ | unbind _ _ | closeReturns =>
    .isTrue trivial

instance (inst : String) (e : LocalEv) (p : LocalPool) : Decidable ((bindsFresh inst).onEv e p) :=
  .isTrue trivial

section Steps

variable {inst : String} {ts : List LocalThread} {s s' : LocalState} {i : ℕ} {c : ℤ × ℤ}

theorem LocalInv.lookup_call {uid : String} {start : ℕ} {ph : LookupPhase} {o : LocalOp}
    {r : o.Res} (h : LocalInv inst ts s) (hi : ts[i]? = some (.lookup uid start ph))
    (ho : localContract.allowed (.lookup uid start ph) o)
    (hx : LocalState.exec inst i o c s = some (r, s')) :
    LocalInv inst (ts.set i (localContract.next (.lookup uid start ph) o r)) s' := by
  have hs := h.stores
  obtain ⟨hstart, hph⟩ := h.threads i _ hi
  -- a thread with the mutex of the user is this one
  have hmine : ∀ {j u}, j ≠ i → s.locked uid = some i → s.locked u = some j → u ≠ uid := by
    rintro j u hji hlock hj rfl
    exact hji (Option.some.inj (hj.symm.trans hlock))
  cases ph with
  | looking =>
    cases ho
    cases hx
    refine h.step hs (fun j _ ↦ .of_lookup (fun _ hu ↦ ⟨hu, rfl⟩) rfl rfl rfl rfl rfl) ?_
    cases hc : s.l1 uid with
    | none => exact ⟨hstart, trivial⟩
    | some route => exact ⟨hstart, fun d c t hw _ ↦ hs.cache uid d _ hw route (.inl hc)⟩
  | missed =>
    cases ho
    simp only [LocalState.exec] at hx
    split at hx
    · next hfree =>
      cases hx
      refine h.step { hs with } (fun j hji ↦ .of_lookup (fun u hu ↦ ⟨?_, rfl⟩) rfl rfl rfl rfl rfl)
        ⟨hstart, Function.update_self ..⟩
      have hne : u ≠ uid := by
        rintro rfl
        cases hfree.symm.trans hu
      exact (Function.update_of_ne hne ..).trans hu
    · cases hx
  | locked =>
    cases ho
    cases hx
    refine h.step hs (fun j _ ↦ .of_lookup (fun _ hu ↦ ⟨hu, rfl⟩) rfl rfl rfl rfl rfl) ?_
    cases hc : s.l1 uid with
    | none => exact ⟨hstart, hph⟩
    | some route => exact ⟨hstart, hph, fun d c t hw _ ↦ hs.cache uid d _ hw route (.inl hc)⟩
  | checked =>
    cases ho
    cases hx
    refine h.step (hs.read uid) (fun j hji ↦ .of_lookup (fun u hu ↦ ⟨hu, ?_⟩) rfl rfl rfl rfl rfl)
      ⟨hstart, hph, Function.update_self ..⟩
    exact Function.update_of_ne (hmine hji hph hu) ..
  | read route =>
    cases ho
    cases hx
    obtain ⟨hlock, hfill⟩ := hph
    refine h.step (hs.l1Set hfill)
      (fun j hji ↦ .of_lookup (fun u hu ↦ ⟨hu, ?_⟩) rfl rfl rfl rfl rfl)
      ⟨hstart, hlock, fun d c t hw _ ↦ hs.cache uid d _ hw route (.inr hfill)⟩
    exact Function.update_of_ne (hmine hji hlock hu) ..
  | holds route =>
    cases ho
    cases hx
    refine h.step { hs with } (fun j hji ↦ .of_lookup (fun u hu ↦ ⟨?_, rfl⟩) rfl rfl rfl rfl rfl)
      ⟨hstart, hph.2⟩
    exact (Function.update_of_ne (hmine hji hph.1 hu) ..).trans hu
  | has route =>
    cases ho
    cases hx
    exact h.step (hs.answer hph) (fun j _ ↦ .of_lookup (fun _ hu ↦ ⟨hu, rfl⟩) rfl rfl rfl rfl rfl)
      trivial

/-- To bind a device to the instance leaves it all the devices that it has. -/
theorem act_bind_keeps {m : Owners} {did d : String} {rj dj : ℤ} (hd : m d = some inst) :
    act m (.bind did inst rj dj) d = some inst := by
  by_cases heq : d = did
  · rw [heq]
    exact Function.update_self ..
  · exact (Function.update_of_ne heq ..).trans hd

theorem LocalInv.auth_call {conn : ℕ} {uid did jti : String} {ph : ConnectPhase} {o : LocalOp}
    {r : o.Res} (h : LocalInv inst ts s) (hi : ts[i]? = some (.auth conn uid did jti ph))
    (ho : localContract.allowed (.auth conn uid did jti ph) o)
    (hG : (bindsFresh inst).onOp i o c s)
    (hx : LocalState.exec inst i o c s = some (r, s')) :
    LocalInv inst (ts.set i (localContract.next (.auth conn uid did jti ph) o r)) s' := by
  have hs := h.stores
  obtain ⟨hws, hopen, hdid, hph⟩ := h.threads i _ hi
  -- no other thread is a handler
  have hother : ∀ j, j ≠ i → s.ws ≠ some j := by
    intro j hji hj
    exact hji (Option.some.inj (hj.symm.trans hws))
  cases ph with
  | entered =>
    cases ho
    cases hx
    have hends : ∀ u d w, (s.setWindow uid did none).window u d = some w →
        s.window u d = some w := by
      intro u d w hw
      rw [window_setWindow] at hw
      split at hw
      · cases hw
      · exact hw
    have hnone : (s.setWindow uid did none).window uid did = none := by
      rw [window_setWindow, if_pos ⟨rfl, rfl⟩]
    refine h.step ((hs.endWindows hends).insertConn conn jti c.1 hdid hnone)
      (fun j hji ↦ .of_handler (hother j hji) rfl rfl (fun u d c t hw ↦ .inl (hends u d _ hw))
        le_rfl)
      ⟨hws, hopen, hdid, ?_⟩
    show conn ∈ (s.connections.insert conn uid did jti c.1).connections uid did
    rw [Connection.insert_connections, if_pos ⟨rfl, rfl⟩]
    exact List.mem_singleton_self conn
  | inserted =>
    cases ho
    cases hx
    have hscript : WindowsOk inst (s.runScript uid (.bind did inst c.1 c.2)) :=
      hs.runScript fun d w hw ↦ act_bind_keeps (hs.bound uid d w hw)
    have hbound : ((s.runScript uid (.bind did inst c.1 c.2)).routes uid).instance_of did =
        some inst := by
      simp only [LocalState.runScript, Function.update_self]
      rw [instance_of_exec (hs.keys uid)]
      exact Function.update_self ..
    refine h.step (hscript.connected ⟨hph, hopen⟩ hbound fun r hr ↦ hr.elim (hG.1 r) (hG.2 r))
      (fun j hji ↦ .of_handler (hother j hji) rfl rfl (fun u d c t hw ↦ .inl ?_) le_rfl)
      ⟨hws, hopen, hdid, hph⟩
    rw [window_setWindow] at hw
    split at hw
    · cases hw
    · exact hw
  | bound =>
    cases ho
    cases hx
    refine h.step { hs.opened conn uid did with } (fun j hji ↦ ?_) trivial
    unfold LocalState.opened
    split
    · next w hw =>
      split
      · refine .of_handler (hother j hji) rfl rfl (fun u d c t hw ↦ ?_) (Nat.le_succ s.time)
        simp only [window_setWindow] at hw
        split at hw
        · cases hw
          exact .inr (Nat.lt_succ_self s.time)
        · exact .inl hw
      · exact .of_handler (hother j hji) rfl rfl (fun u d c t hw ↦ .inl hw) le_rfl
    · exact .of_handler (hother j hji) rfl rfl (fun u d c t hw ↦ .inl hw) le_rfl

theorem LocalInv.close_call {conn : ℕ} {ph : ClosePhase} {o : LocalOp} {r : o.Res}
    (h : LocalInv inst ts s) (hi : ts[i]? = some (.close conn ph))
    (ho : localContract.allowed (.close conn ph) o)
    (hx : LocalState.exec inst i o c s = some (r, s')) :
    LocalInv inst (ts.set i (localContract.next (.close conn ph) o r)) s' := by
  have hs := h.stores
  obtain ⟨hws, hph⟩ := h.threads i _ hi
  have hother : ∀ j, j ≠ i → s.ws ≠ some j := by
    intro j hji hj
    exact hji (Option.some.inj (hj.symm.trans hws))
  cases ph with
  | entered =>
    cases ho
    cases hx
    refine h.step hs (fun j hji ↦ .of_handler (hother j hji) rfl rfl
      (fun u d c t hw ↦ .inl hw) le_rfl) ?_
    cases hc : s.connections.client conn with
    | none => exact ⟨hws, trivial⟩
    | some cl =>
      obtain ⟨hlisted, hne⟩ := hs.listed conn cl hc
      refine ⟨hws, hph, Option.eq_none_iff_forall_not_mem.2 fun w hw ↦ ?_, hne⟩
      -- the device lists one socket only, and that of a window is not closed
      obtain ⟨hw', hopen⟩ := hs.conn cl.uid cl.device_id w hw
      obtain ⟨x, hx⟩ := List.length_eq_one_iff.1 (Nat.le_antisymm (hs.exclusive cl.uid cl.device_id)
        (List.length_pos_of_mem hlisted))
      rw [hx, List.mem_singleton] at hw' hlisted
      exact hopen (hw'.trans hlisted.symm ▸ hph)
  | found cl =>
    cases ho
    cases hx
    exact h.step (hs.removeConn hph.1) (fun j hji ↦ .of_handler (hother j hji) rfl rfl
      (fun u d c t hw ↦ .inl hw) le_rfl) ⟨hws, hph.2⟩
  | removed cl =>
    cases ho
    cases hx
    obtain ⟨hnone, hne⟩ := hph
    refine h.step (hs.runScript fun d w hw ↦ ?_) (fun j hji ↦ .of_handler (hother j hji) rfl rfl
      (fun u d c t hw ↦ .inl hw) le_rfl) ⟨hws, trivial⟩
    have hkeep : ¬((cl.device_id = "" ∨ cl.device_id = d) ∧
        (s.routes cl.uid).instance_of d = some inst) := by
      rintro ⟨hd | rfl, -⟩
      · exact hne hd
      · cases hnone.symm.trans hw
    exact (if_neg hkeep).trans (hs.bound cl.uid d w hw)
  | unbound uid =>
    cases ho
    cases hx
    exact h.step (hs.l1Invalidate uid) (fun j hji ↦ .of_handler (hother j hji) rfl rfl
      (fun u d c t hw ↦ .inl hw) le_rfl) ⟨hws, trivial⟩
  | invalidated =>
    cases ho
    cases hx
    exact h.step { hs with } (fun j hji ↦ .of_handler (hother j hji) rfl rfl
      (fun u d c t hw ↦ .inl hw) le_rfl) trivial

theorem LocalInv.call {t : LocalThread} {o : LocalOp} {r : o.Res} (h : LocalInv inst ts s)
    (hi : ts[i]? = some t) (ho : localContract.allowed t o) (hG : (bindsFresh inst).onOp i o c s)
    (hx : LocalState.exec inst i o c s = some (r, s')) :
    LocalInv inst (ts.set i (localContract.next t o r)) s' := by
  cases t with
  | lookup uid start ph => exact h.lookup_call hi ho hx
  | auth conn uid did jti ph => exact h.auth_call hi ho hG hx
  | close conn ph => exact h.close_call hi ho hx
  | done => cases ho

/-- A call of another instance leaves the devices that are connected here to this one, but for the
device that it binds. -/
theorem WindowsOk.remote (h : WindowsOk inst s) {uid : String} {o : RouteOp}
    (ho : o.Elsewhere inst) : WindowsOk inst ((s.runScript uid o).leave uid o) := by
  cases o with
  | bind did j rj dj =>
    have hends : ∀ u d w, (s.setWindow uid did none).window u d = some w →
        s.window u d = some w ∧ ¬(u = uid ∧ d = did) := by
      intro u d w hw
      rw [window_setWindow] at hw
      split at hw
      · cases hw
      · next hne => exact ⟨hw, hne⟩
    have hleft : WindowsOk inst (s.setWindow uid did none) :=
      h.endWindows fun u d w hw ↦ (hends u d w hw).1
    refine hleft.runScript fun d w hw ↦ ?_
    obtain ⟨hw', hne⟩ := hends uid d w hw
    exact (Function.update_of_ne (fun hd ↦ hne ⟨rfl, hd⟩) ..).trans (h.bound uid d w hw')
  | touch => exact h.runScript fun d w hw ↦ h.bound uid d w hw
  | unbind did j =>
    refine h.runScript fun d w hw ↦ ?_
    have hmine := h.bound uid d w hw
    have hkeep : ¬((did = "" ∨ did = d) ∧ (s.routes uid).instance_of d = some j) :=
      fun hj ↦ ho (Option.some.inj (hj.2.symm.trans hmine))
    exact (if_neg hkeep).trans hmine

theorem LocalInv.event {p p' : LocalPool} {e : LocalEv} (h : LocalInv inst ts p.shared)
    (hm : p.Meets localContract (fun _ ↦ True) ts) (hx : LocalState.env inst e p = some p') :
    ∃ ts', LocalInv inst ts' p'.shared ∧ p'.Meets localContract (fun _ ↦ True) ts' := by
  have hs := h.stores
  have hlen := hm.length_eq
  cases e with
  | lookup uid =>
    cases hx
    refine ⟨_, h.spawn (t := .lookup uid p.shared.time .looking) hs (fun j ↦ ?_) ⟨le_rfl, trivial⟩,
      hm.spawn (lookup_meets uid _) _⟩
    exact .of_lookup (fun _ hu ↦ ⟨hu, rfl⟩) rfl rfl rfl rfl rfl
  | auth conn uid did jti =>
    simp only [LocalState.env] at hx
    split at hx
    · next hok =>
      cases hx
      obtain ⟨hws, hopen, hdid⟩ := hok
      refine ⟨_, h.spawn (t := .auth conn uid did jti .entered) { hs with } (fun j ↦ ?_)
        ⟨congrArg some hlen, hopen, hdid, trivial⟩,
        hm.spawn (handle_client_auth_meets conn uid did jti) _⟩
      refine .of_handler ?_ rfl rfl (fun u d c t hw ↦ .inl hw) le_rfl
      rw [hws]
      exact Option.some_ne_none j |>.symm
    · cases hx
  | close conn =>
    simp only [LocalState.env] at hx
    split at hx
    · next hok =>
      cases hx
      have hends : ∀ u d w, (p.shared.endWindows conn).window u d = some w →
          p.shared.window u d = some w ∧ w.conn ≠ conn := by
        intro u d w hw
        obtain ⟨hw', hne⟩ := Option.filter_eq_some_iff.1 hw
        exact ⟨hw', of_decide_eq_true hne⟩
      have hleft := hs.endWindows fun u d w hw ↦ (hends u d w hw).1
      refine ⟨_, h.spawn (t := .close conn .entered)
        { hleft with
          conn := fun u d w hw ↦ ⟨(hleft.conn u d w hw).1, fun hc ↦ ?_⟩ }
        (fun j ↦ ?_) ⟨congrArg some hlen, List.mem_cons_self⟩,
        hm.spawn (close_handler_meets conn) _⟩
      · rcases List.mem_cons.1 hc with heq | hc
        · exact (hends u d w hw).2 heq
        · exact (hleft.conn u d w hw).2 hc
      · refine .of_handler ?_ rfl rfl (fun u d c t hw ↦ .inl (hends u d _ hw).1) le_rfl
        rw [hok.1]
        exact Option.some_ne_none j |>.symm
    · cases hx
  | expire uid =>
    cases hx
    refine ⟨ts, h.stores_step (hs.l1Invalidate uid) (fun j ↦ ?_), hm⟩
    exact .of_lookup (fun _ hu ↦ ⟨hu, rfl⟩) rfl rfl rfl rfl rfl
  | remote uid o =>
    simp only [LocalState.env] at hx
    split at hx
    · next hother =>
      cases hx
      refine ⟨ts, h.stores_step (hs.remote hother) (fun j ↦ ?_), hm⟩
      cases o with
      | bind did k rj dj =>
        have hends : ∀ u d w, (p.shared.setWindow uid did none).window u d = some w →
            p.shared.window u d = some w := by
          intro u d w hw
          rw [window_setWindow] at hw
          split at hw
          · cases hw
          · exact hw
        have hnone : ∀ u d, p.shared.window u d = none →
            (p.shared.setWindow uid did none).window u d = none := by
          intro u d hw
          rw [window_setWindow, hw, ite_self]
        exact {
          lock := fun _ hu ↦ ⟨hu, rfl⟩
          ws := fun hws ↦ ⟨hws, rfl, rfl, hnone⟩
          window := fun u d c t hw ↦ .inl (hends u d _ hw)
          time := le_rfl }
      | touch => exact .of_lookup (fun _ hu ↦ ⟨hu, rfl⟩) rfl rfl rfl rfl rfl
      | unbind => exact .of_lookup (fun _ hu ↦ ⟨hu, rfl⟩) rfl rfl rfl rfl rfl
    · cases hx

end Steps

/-! ### Runs -/

/-- The route of a lookup maps every device whose connection was there when the lookup was called,
and still is. -/
def RouteAnswer.Routable (a : RouteAnswer) (inst : String) : Prop :=
  ∀ d c t, a.window d = some ⟨c, some t⟩ → t ≤ a.start → a.route.Maps d inst

theorem LocalInv.fresh (inst : String) : LocalInv inst [] LocalState.fresh.shared where
  stores := {
    keys := fun _ ↦ ⟨trivial, trivial, fun _ ↦ rfl, fun _ ↦ by
      simp [LocalState.fresh, Keys.instance_of, RouteValue.members, RouteValue.fields]⟩
    listed := fun _ _ hcl ↦ by cases hcl
    exclusive := Connection.empty_exclusive
    conn := fun _ _ _ hw ↦ by cases hw
    bound := fun _ _ _ hw ↦ by cases hw
    cache := fun _ _ _ hw ↦ by cases hw
    since := fun _ _ _ _ hw ↦ by cases hw
    answered := fun _ ha ↦ by cases ha }
  threads _ _ ht := by cases ht

/-- **A connected device is routable on its own instance**: in every run in which no bind finds a
route in the cache, or on its way there, that leaves the device out. -/
theorem connected_device_routable (inst : String) {p : LocalPool}
    (hr : (pushInstance inst).Reach (bindsFresh inst) LocalState.fresh p) :
    ∀ a ∈ p.shared.answers, a.Routable inst := by
  obtain ⟨ts, hinv, -⟩ := Machine.invariant (Q := fun _ ↦ True) hr
    ⟨[], LocalInv.fresh inst, List.Forall₂.nil⟩
    (fun h hi ho hG hx ↦ ⟨trivial, h.call hi ho hG hx⟩) fun h hm _ hx ↦ h.event hm hx
  exact hinv.stores.answered

/-! ### Concrete runs -/

/-- Alice's phone authenticates on socket `7`, and then her route is looked up. -/
def authThenLookup : List (Machine.Label (ℤ × ℤ) LocalEv) :=
  .event (.auth 7 "alice" "phone" "j") :: List.replicate 3 (.call 0 (0, 0)) ++
    .event (.lookup "alice") :: List.replicate 7 (.call 1 (0, 0))

/-- The lookup finds nothing in the cache, and reads a route that maps the phone. -/
theorem connected_device_routable_fresh :
    ∃ p, (pushInstance "A").Reach (bindsFresh "A") LocalState.fresh p ∧
      p.shared.answers.map (fun a ↦ (a.start, a.window "phone")) = [(1, some ⟨7, some 1⟩)] ∧
      ∀ a ∈ p.shared.answers, a.Routable "A" := by
  obtain ⟨p, hr, ha⟩ := Machine.exists_of_run (pushInstance "A") (bindsFresh "A") LocalState.fresh
    authThenLookup
    (fun p ↦ p.shared.answers.map (fun a ↦ (a.start, a.window "phone")) = [(1, some ⟨7, some 1⟩)])
    (by decide +kernel)
  exact ⟨p, hr, ha, connected_device_routable "A" hr⟩

/-- Alice's route is looked up, her phone authenticates, and her route is looked up again. -/
def lookupAuthLookup : List (Machine.Label (ℤ × ℤ) LocalEv) :=
  .event (.lookup "alice") :: List.replicate 7 (.call 0 (0, 0)) ++
    .event (.auth 7 "alice" "phone" "j") :: List.replicate 3 (.call 1 (0, 0)) ++
    .event (.lookup "alice") :: List.replicate 2 (.call 2 (0, 0))

/-- The first lookup leaves an empty route in the cache, and the second returns it though the phone
is connected. -/
theorem connected_device_not_routable :
    ¬∀ p, (pushInstance "A").Reach Machine.Guard.any LocalState.fresh p →
      ∀ a ∈ p.shared.answers, a.Routable "A" := by
  intro hall
  obtain ⟨p, hr, a, ha, hw, hstart, hmaps⟩ := Machine.exists_of_run (pushInstance "A")
    Machine.Guard.any LocalState.fresh lookupAuthLookup
    (fun p ↦ ∃ a ∈ p.shared.answers, a.window "phone" = some ⟨7, some 1⟩ ∧ 1 ≤ a.start ∧
      ¬a.route.Maps "phone" "A") (by decide +kernel)
  exact hmaps (hall p hr a ha "phone" 7 1 hw hstart)

end ChatNow
