import Mathlib.Data.List.AList
import Mathlib.Data.List.Induction

/-!
# The connection table of a push instance

`Connection` of `push/source/connection.hpp`: two hash maps that index the live sockets of an
instance, one by user and device, one by socket. Every operation holds the table's mutex, so the
operations are atomic and a history of the table is a sequence of them.

The maps are association lists without duplicate keys, so that the source's tests for emptiness can
be written down; the `unordered_set` of sockets is a list. Sockets are an arbitrary type, and the
clock is an argument of the operations that read it.

The invariant of the table (`Consistent`) is that the two maps describe the same relation. It
survives every operation but one: `insert` erases the sockets that the *new* user and device had,
and never the listing that the inserted socket itself had under another user or device. So a run
keeps the invariant exactly as long as no socket is inserted again under another name
(`Switches`); see `tableOk_along_iff`.
-/

namespace ChatNow

/-- `Connection::Client`, without the send mutex, which no operation of the table looks at. -/
structure Client where
  uid : String
  device_id : String
  jwt_jti : String
  last_active_ts : ℤ
  deriving DecidableEq

/-- The devices of one user, with their sockets. -/
abbrev DeviceMap (κ : Type) := AList fun _ : String ↦ List κ

/-- `Connection`. -/
structure Connection (κ : Type) [DecidableEq κ] where
  _uid_device_connections : AList fun _ : String ↦ DeviceMap κ
  _conn_clients : AList fun _ : κ ↦ Client

namespace Connection

variable {κ : Type} [DecidableEq κ]

/-- The table of an instance that has just started. -/
def empty : Connection κ := ⟨∅, ∅⟩

/-- The first half of `insert`: close the sockets of the same user and device. -/
def close_old (t : Connection κ) (uid device_id : String) : Connection κ :=
  match t._uid_device_connections.lookup uid with
  | none => t
  | some devices =>
    match devices.lookup device_id with
    | none => t
    | some old =>
      { _uid_device_connections := t._uid_device_connections.insert uid (devices.insert device_id [])
        _conn_clients := old.foldl (fun cs c ↦ cs.erase c) t._conn_clients }

/-- `insert`. -/
def insert (t : Connection κ) (conn : κ) (uid device_id jwt_jti : String) (ts : ℤ) :
    Connection κ :=
  let t' := t.close_old uid device_id
  -- `_uid_device_connections[uid][device_id]` creates what is missing
  let devices := (t'._uid_device_connections.lookup uid).getD ∅
  let conns := (devices.lookup device_id).getD []
  { _uid_device_connections :=
      t'._uid_device_connections.insert uid (devices.insert device_id (conns.insert conn))
    _conn_clients := t'._conn_clients.insert conn ⟨uid, device_id, jwt_jti, ts⟩ }

/-- `connections`. -/
def connections (t : Connection κ) (uid device_id : String) : List κ :=
  match t._uid_device_connections.lookup uid with
  | none => []
  | some devices => (devices.lookup device_id).getD []

/-- `client`. -/
def client (t : Connection κ) (conn : κ) : Option Client := t._conn_clients.lookup conn

/-- `touch`. -/
def touch (t : Connection κ) (conn : κ) (now : ℤ) : Connection κ :=
  match t._conn_clients.lookup conn with
  | none => t
  | some c =>
    { t with _conn_clients := t._conn_clients.insert conn { c with last_active_ts := now } }

/-- Take a socket out of the listing of a device, and the device with its last socket. -/
def unlist_device (devices : DeviceMap κ) (did : String) (conn : κ) : DeviceMap κ :=
  match devices.lookup did with
  | none => devices
  | some conns =>
    let conns' := conns.filter (· ≠ conn)
    if conns'.isEmpty then devices.erase did else devices.insert did conns'

/-- Take a socket out of the listing of a user and device, and the user with the last device. -/
def unlist (m : AList fun _ : String ↦ DeviceMap κ) (uid did : String) (conn : κ) :
    AList fun _ : String ↦ DeviceMap κ :=
  match m.lookup uid with
  | none => m
  | some devices =>
    let devices' := unlist_device devices did conn
    if devices'.entries.isEmpty then m.erase uid else m.insert uid devices'

/-- The body that `remove` and `reap` share. -/
def drop (t : Connection κ) (conn : κ) (c : Client) : Connection κ :=
  { _uid_device_connections := unlist t._uid_device_connections c.uid c.device_id conn
    _conn_clients := t._conn_clients.erase conn }

/-- `remove`. -/
def remove (t : Connection κ) (conn : κ) : Connection κ :=
  match t._conn_clients.lookup conn with
  | none => t
  | some c => t.drop conn c

/-- The loop of `reap` over the entries of `_conn_clients` it has still to visit. -/
def reap_loop (ttl_sec now : ℤ) : List (Σ _ : κ, Client) → Connection κ →
    Connection κ × List (String × κ)
  | [], t => (t, [])
  | ⟨conn, c⟩ :: rest, t =>
    if ttl_sec < now - c.last_active_ts then
      let (t', reaped) := reap_loop ttl_sec now rest (t.drop conn c)
      (t', (c.uid, conn) :: reaped)
    else reap_loop ttl_sec now rest t

/-- `reap`. -/
def reap (t : Connection κ) (ttl_sec now : ℤ) : Connection κ × List (String × κ) :=
  reap_loop ttl_sec now t._conn_clients.entries t

/-! ### What each operation does to the two maps -/

/-- The listing of one user and device in a map. -/
def listing (m : AList fun _ : String ↦ DeviceMap κ) (u d : String) : List κ :=
  (((m.lookup u).getD ∅).lookup d).getD []

theorem connections_eq_listing (t : Connection κ) (u d : String) :
    t.connections u d = listing t._uid_device_connections u d := by
  rw [connections, listing]
  cases t._uid_device_connections.lookup u <;> rfl

omit [DecidableEq κ] in
theorem listing_insert (m : AList fun _ : String ↦ DeviceMap κ) (uid did u d : String)
    (conns : List κ) :
    listing (m.insert uid (((m.lookup uid).getD ∅).insert did conns)) u d =
      if u = uid ∧ d = did then conns else listing m u d := by
  unfold listing
  by_cases hu : u = uid
  · subst hu
    rw [AList.lookup_insert, Option.getD_some]
    by_cases hd : d = did
    · subst hd
      rw [AList.lookup_insert, if_pos ⟨rfl, rfl⟩, Option.getD_some]
    · rw [AList.lookup_insert_ne hd, if_neg fun h ↦ hd h.2]
  · rw [AList.lookup_insert_ne hu, if_neg fun h ↦ hu h.1]

theorem lookup_unlist_device (devices : DeviceMap κ) (did d : String) (conn : κ) :
    ((unlist_device devices did conn).lookup d).getD [] =
      if d = did then ((devices.lookup d).getD []).filter (· ≠ conn)
      else (devices.lookup d).getD [] := by
  rw [unlist_device]
  split
  · next h =>
    split
    · next hd =>
      rw [hd, h]
      rfl
    · rfl
  · next conns h =>
    by_cases hd : d = did
    · subst hd
      rw [if_pos rfl, h, Option.getD_some]
      dsimp only
      split
      · next he => rw [AList.lookup_erase, List.isEmpty_iff.1 he, Option.getD_none]
      · rw [AList.lookup_insert, Option.getD_some]
    · rw [if_neg hd]
      dsimp only
      split
      · rw [AList.lookup_erase_ne hd]
      · rw [AList.lookup_insert_ne hd]

theorem listing_unlist (m : AList fun _ : String ↦ DeviceMap κ) (uid did u d : String) (conn : κ) :
    listing (unlist m uid did conn) u d =
      if u = uid ∧ d = did then (listing m u d).filter (· ≠ conn) else listing m u d := by
  rw [unlist]
  split
  · next h =>
    split
    · next hud =>
      rw [hud.1]
      simp [listing, h]
    · rfl
  · next devices h =>
    by_cases hu : u = uid
    · subst hu
      have hm : ∀ d, listing m u d = (devices.lookup d).getD [] := by
        intro d
        rw [listing, h, Option.getD_some]
      -- whether the user goes or stays, the listing is that of what is left of the devices
      have hleft : listing (if (unlist_device devices did conn).entries.isEmpty then m.erase u
          else m.insert u (unlist_device devices did conn)) u d =
          ((unlist_device devices did conn).lookup d).getD [] := by
        rw [listing]
        split
        · next he =>
          have hnone : unlist_device devices did conn = ∅ := AList.ext (List.isEmpty_iff.1 he)
          rw [AList.lookup_erase, hnone, AList.lookup_empty]
          rfl
        · rw [AList.lookup_insert, Option.getD_some]
      rw [hleft, lookup_unlist_device, hm]
      simp only [true_and]
    · have hud : ¬ (u = uid ∧ d = did) := fun h ↦ hu h.1
      rw [if_neg hud]
      unfold listing
      dsimp only
      split
      · rw [AList.lookup_erase_ne hu]
      · rw [AList.lookup_insert_ne hu]

theorem lookup_foldl_erase (old : List κ) (cs : AList fun _ : κ ↦ Client) (c : κ) :
    (old.foldl (fun cs c ↦ cs.erase c) cs).lookup c = if c ∈ old then none else cs.lookup c := by
  induction old generalizing cs with
  | nil => simp
  | cons o old ih =>
    rw [List.foldl_cons, ih]
    by_cases hmem : c ∈ old
    · rw [if_pos hmem, if_pos (List.mem_cons_of_mem _ hmem)]
    · rw [if_neg hmem]
      by_cases ho : c = o
      · rw [ho, AList.lookup_erase, if_pos List.mem_cons_self]
      · rw [AList.lookup_erase_ne ho, if_neg (by simp [ho, hmem])]

/-- After closing the old sockets, the user and device list none. -/
theorem close_old_connections (t : Connection κ) (uid did u d : String) :
    (t.close_old uid did).connections u d =
      if u = uid ∧ d = did then [] else t.connections u d := by
  rw [connections_eq_listing, connections_eq_listing]
  rw [close_old]
  split
  · next h =>
    split
    · next hud =>
      rw [hud.1]
      simp [listing, h]
    · rfl
  · next devices h =>
    split
    · next hd =>
      split
      · next hud =>
        rw [hud.1, hud.2]
        simp [listing, h, hd]
      · rfl
    · have hins := listing_insert t._uid_device_connections uid did u d []
      rw [h, Option.getD_some] at hins
      exact hins

theorem close_old_client (t : Connection κ) (uid did : String) (c : κ) :
    (t.close_old uid did).client c =
      if c ∈ t.connections uid did then none else t.client c := by
  unfold close_old connections client
  split
  · simp
  · next devices h =>
    split
    · next hd => simp [hd]
    · next old hd =>
      simp only [hd, Option.getD_some]
      exact lookup_foldl_erase old t._conn_clients c

/-- `insert` leaves the new socket alone under its user and device. -/
theorem insert_connections (t : Connection κ) (conn : κ) (uid did jti : String) (ts : ℤ)
    (u d : String) :
    (t.insert conn uid did jti ts).connections u d =
      if u = uid ∧ d = did then [conn] else t.connections u d := by
  have hold : listing (t.close_old uid did)._uid_device_connections uid did = [] := by
    rw [← connections_eq_listing, close_old_connections, if_pos ⟨rfl, rfl⟩]
  rw [connections_eq_listing]
  rw [insert]
  rw [listing_insert]
  split
  · have hnil : ((((t.close_old uid did)._uid_device_connections.lookup uid).getD ∅).lookup
        did).getD [] = [] := hold
    rw [hnil]
    rfl
  · next hud => rw [← connections_eq_listing, close_old_connections, if_neg hud]

theorem insert_client (t : Connection κ) (conn : κ) (uid did jti : String) (ts : ℤ) (c : κ) :
    (t.insert conn uid did jti ts).client c =
      if c = conn then some ⟨uid, did, jti, ts⟩
      else if c ∈ t.connections uid did then none else t.client c := by
  rw [insert]
  by_cases hc : c = conn
  · rw [if_pos hc, hc]
    exact AList.lookup_insert _
  · rw [if_neg hc, ← close_old_client]
    exact AList.lookup_insert_ne hc

theorem drop_connections (t : Connection κ) (conn : κ) (cl : Client) (u d : String) :
    (t.drop conn cl).connections u d =
      if u = cl.uid ∧ d = cl.device_id then (t.connections u d).filter (· ≠ conn)
      else t.connections u d := by
  rw [connections_eq_listing, connections_eq_listing]
  exact listing_unlist _ _ _ _ _ _

theorem drop_client (t : Connection κ) (conn : κ) (cl : Client) (c : κ) :
    (t.drop conn cl).client c = if c = conn then none else t.client c := by
  by_cases hc : c = conn
  · rw [if_pos hc, hc]
    exact AList.lookup_erase _ _
  · rw [if_neg hc]
    exact AList.lookup_erase_ne hc

theorem touch_connections (t : Connection κ) (conn : κ) (now : ℤ) (u d : String) :
    (t.touch conn now).connections u d = t.connections u d := by
  rw [touch]
  split <;> rfl

/-! ### The invariant -/

/-- Both maps describe the same relation: a socket is listed under a user and device exactly when
it is registered with them. -/
def Consistent (t : Connection κ) : Prop :=
  ∀ c u d, c ∈ t.connections u d ↔ ∃ cl, t.client c = some cl ∧ cl.uid = u ∧ cl.device_id = d

/-- A user and device list at most one socket. -/
def Exclusive (t : Connection κ) : Prop :=
  ∀ u d, (t.connections u d).length ≤ 1

theorem empty_consistent : (empty : Connection κ).Consistent := by
  intro c u d
  simp [empty, connections, client]

theorem empty_exclusive : (empty : Connection κ).Exclusive := by
  intro u d
  simp [empty, connections]

/-- The socket is registered already, under another user or device. -/
def Switches (t : Connection κ) (conn : κ) (uid device_id : String) : Prop :=
  ∃ cl, t.client conn = some cl ∧ ¬ (cl.uid = uid ∧ cl.device_id = device_id)

theorem insert_consistent {t : Connection κ} {conn : κ} {uid did jti : String} {ts : ℤ}
    (ht : t.Consistent) (hs : ¬ t.Switches conn uid did) :
    (t.insert conn uid did jti ts).Consistent := by
  intro c u d
  rw [insert_connections, insert_client]
  by_cases hc : c = conn
  · subst hc
    rw [if_pos rfl]
    constructor
    · intro hmem
      refine ⟨_, rfl, ?_⟩
      by_contra hud
      rw [if_neg fun h ↦ hud ⟨h.1.symm, h.2.symm⟩] at hmem
      -- listed elsewhere means registered elsewhere, which is what `Switches` rules out
      obtain ⟨cl, hcl, rfl, rfl⟩ := (ht c u d).1 hmem
      exact hs ⟨cl, hcl, fun h ↦ hud ⟨h.1.symm, h.2.symm⟩⟩
    · rintro ⟨_, ⟨⟩, rfl, rfl⟩
      rw [if_pos ⟨rfl, rfl⟩]
      exact List.mem_singleton_self c
  · rw [if_neg hc]
    split
    · next hud =>
      obtain ⟨rfl, rfl⟩ := hud
      refine ⟨fun hmem ↦ absurd (List.mem_singleton.1 hmem) hc, ?_⟩
      rintro ⟨cl, hcl, hu, hd⟩
      split at hcl
      · cases hcl
      · next hold => exact absurd ((ht c u d).2 ⟨cl, hcl, hu, hd⟩) hold
    · next hud =>
      rw [ht c u d]
      constructor
      · rintro ⟨cl, hcl, hu, hd⟩
        have hold : c ∉ t.connections uid did := by
          intro hmem
          obtain ⟨cl', hcl', hu', hd'⟩ := (ht c uid did).1 hmem
          rw [hcl, Option.some.injEq] at hcl'
          subst hcl'
          exact hud ⟨hu.symm.trans hu', hd.symm.trans hd'⟩
        exact ⟨cl, by rw [if_neg hold, hcl], hu, hd⟩
      · rintro ⟨cl, hcl, hu, hd⟩
        split at hcl
        · cases hcl
        · exact ⟨cl, hcl, hu, hd⟩

/-- A socket that is inserted under another name stays listed under its old one. -/
theorem insert_not_consistent {t : Connection κ} {conn : κ} {uid did jti : String} {ts : ℤ}
    (ht : t.Consistent) (hs : t.Switches conn uid did) :
    ¬ (t.insert conn uid did jti ts).Consistent := by
  obtain ⟨cl, hcl, hne⟩ := hs
  intro h
  have hmem : conn ∈ (t.insert conn uid did jti ts).connections cl.uid cl.device_id := by
    rw [insert_connections, if_neg hne, ht]
    exact ⟨cl, hcl, rfl, rfl⟩
  obtain ⟨cl', hcl', hu, hd⟩ := (h conn cl.uid cl.device_id).1 hmem
  rw [insert_client, if_pos rfl, Option.some.injEq] at hcl'
  subst hcl'
  exact hne ⟨hu.symm, hd.symm⟩

theorem insert_exclusive {t : Connection κ} {conn : κ} {uid did jti : String} {ts : ℤ}
    (ht : t.Exclusive) : (t.insert conn uid did jti ts).Exclusive := by
  intro u d
  rw [insert_connections]
  split
  · exact le_rfl
  · exact ht u d

theorem drop_consistent {t : Connection κ} {conn : κ} {cl : Client} (ht : t.Consistent)
    (hcl : t.client conn = some cl) : (t.drop conn cl).Consistent := by
  intro c u d
  rw [drop_connections, drop_client]
  by_cases hc : c = conn
  · subst hc
    rw [if_pos rfl]
    constructor
    · intro hmem
      split at hmem
      · simp at hmem
      · next hud =>
        obtain ⟨cl', hcl', rfl, rfl⟩ := (ht c u d).1 hmem
        rw [hcl, Option.some.injEq] at hcl'
        exact absurd ⟨by rw [hcl'], by rw [hcl']⟩ hud
    · rintro ⟨_, ⟨⟩, -⟩
  · rw [if_neg hc, ← ht c u d]
    split
    · simp [hc]
    · rfl

theorem drop_exclusive {t : Connection κ} {conn : κ} {cl : Client} (ht : t.Exclusive) :
    (t.drop conn cl).Exclusive := by
  intro u d
  rw [drop_connections]
  split
  · exact le_trans (List.length_filter_le _ _) (ht u d)
  · exact ht u d

theorem remove_consistent {t : Connection κ} {conn : κ} (ht : t.Consistent) :
    (t.remove conn).Consistent := by
  rw [remove]
  split
  · exact ht
  · next hcl => exact drop_consistent ht hcl

theorem remove_exclusive {t : Connection κ} {conn : κ} (ht : t.Exclusive) :
    (t.remove conn).Exclusive := by
  rw [remove]
  split
  · exact ht
  · exact drop_exclusive ht

theorem remove_client (t : Connection κ) (conn : κ) : (t.remove conn).client conn = none := by
  rw [remove]
  split
  · assumption
  · rw [drop_client, if_pos rfl]

/-- A removed socket is listed nowhere. -/
theorem not_mem_connections_remove {t : Connection κ} {conn : κ} (ht : t.Consistent)
    (u d : String) : conn ∉ (t.remove conn).connections u d := by
  intro hmem
  obtain ⟨cl, hcl, -⟩ := (remove_consistent ht conn u d).1 hmem
  rw [remove_client] at hcl
  cases hcl

theorem touch_client (t : Connection κ) (conn c : κ) (now : ℤ) :
    (t.touch conn now).client c =
      if c = conn then (t.client c).map fun cl ↦ { cl with last_active_ts := now }
      else t.client c := by
  rw [touch]
  split
  · next h =>
    split
    · next hc =>
      rw [hc, client, h]
      rfl
    · rfl
  · next cl h =>
    by_cases hc : c = conn
    · rw [if_pos hc, hc, client, client, h]
      exact AList.lookup_insert _
    · rw [if_neg hc]
      exact AList.lookup_insert_ne hc

theorem touch_consistent {t : Connection κ} {conn : κ} {now : ℤ} (ht : t.Consistent) :
    (t.touch conn now).Consistent := by
  intro c u d
  rw [touch_connections, touch_client, ht c u d]
  split
  · constructor
    · rintro ⟨cl, hcl, hu, hd⟩
      exact ⟨{ cl with last_active_ts := now }, by rw [hcl]; rfl, hu, hd⟩
    · rintro ⟨cl', hcl', hu, hd⟩
      obtain ⟨cl, hcl, rfl⟩ := Option.map_eq_some_iff.1 hcl'
      exact ⟨cl, hcl, hu, hd⟩
  · rfl

/-- `reap` drops registered sockets, one after the other: the entries it has still to visit stay
registered until it comes to them. -/
theorem reap_loop_preserves {ttl_sec now : ℤ} {P : Connection κ → Prop}
    (hP : ∀ t conn cl, P t → t.client conn = some cl → P (t.drop conn cl))
    {rest : List (Σ _ : κ, Client)} {t : Connection κ} (ht : P t)
    (hreg : ∀ e ∈ rest, t.client e.1 = some e.2) (hnd : rest.NodupKeys) :
    P (reap_loop ttl_sec now rest t).1 := by
  induction rest generalizing t with
  | nil => exact ht
  | cons e rest ih =>
    obtain ⟨conn, cl⟩ := e
    obtain ⟨hfresh, hnd'⟩ := List.nodupKeys_cons.1 hnd
    have hcl := hreg ⟨conn, cl⟩ List.mem_cons_self
    have hrest : ∀ e ∈ rest, t.client e.1 = some e.2 := fun e he ↦
      hreg e (List.mem_cons_of_mem _ he)
    rw [reap_loop]
    split
    · refine ih (hP t conn cl ht hcl) (fun e he ↦ ?_) hnd'
      have hne : e.1 ≠ conn := by
        intro heq
        rw [← heq] at hfresh
        exact hfresh (List.mem_keys.2 ⟨e.2, he⟩)
      rw [drop_client, if_neg hne]
      exact hrest e he
    · exact ih ht hrest hnd'

theorem reap_preserves {ttl_sec now : ℤ} {P : Connection κ → Prop}
    (hP : ∀ t conn cl, P t → t.client conn = some cl → P (t.drop conn cl)) {t : Connection κ}
    (ht : P t) : P (t.reap ttl_sec now).1 :=
  reap_loop_preserves hP ht (fun _ he ↦ AList.mem_lookup_iff.2 he) t._conn_clients.nodupKeys

/-! ### Runs -/

/-- An operation on the table, with the time it reads. -/
inductive Op (κ : Type)
  | insert (conn : κ) (uid device_id jwt_jti : String) (now : ℤ)
  | remove (conn : κ)
  | touch (conn : κ) (now : ℤ)
  | reap (ttl_sec now : ℤ)

/-- The table after an operation. -/
def step (t : Connection κ) : Op κ → Connection κ
  | .insert conn uid device_id jwt_jti now => t.insert conn uid device_id jwt_jti now
  | .remove conn => t.remove conn
  | .touch conn now => t.touch conn now
  | .reap ttl_sec now => (t.reap ttl_sec now).1

/-- The table after a sequence of operations on a fresh one. -/
def run (ops : List (Op κ)) : Connection κ := ops.foldl step empty

/-- The operation registers a socket again, under another user or device. -/
def Op.Switches (t : Connection κ) : Op κ → Prop
  | .insert conn uid device_id _ _ => t.Switches conn uid device_id
  | _ => False

/-- What holds of a table in order: the two maps agree, a socket is listed under at most one user
and device, a user and device list at most one socket, and removing a socket takes it out of every
listing. -/
structure TableOk (t : Connection κ) : Prop where
  consistent : t.Consistent
  one_name : ∀ c u d u' d', c ∈ t.connections u d → c ∈ t.connections u' d' → u = u' ∧ d = d'
  one_socket : ∀ c c' u d, c ∈ t.connections u d → c' ∈ t.connections u d → c = c'
  removed : ∀ c u d, c ∉ (t.remove c).connections u d

theorem Consistent.one_name {t : Connection κ} (ht : t.Consistent) {c : κ} {u d u' d' : String}
    (h : c ∈ t.connections u d) (h' : c ∈ t.connections u' d') : u = u' ∧ d = d' := by
  obtain ⟨cl, hcl, rfl, rfl⟩ := (ht c u d).1 h
  obtain ⟨cl', hcl', rfl, rfl⟩ := (ht c u' d').1 h'
  rw [hcl, Option.some.injEq] at hcl'
  exact ⟨by rw [hcl'], by rw [hcl']⟩

theorem Consistent.tableOk {t : Connection κ} (ht : t.Consistent) (he : t.Exclusive) :
    t.TableOk where
  consistent := ht
  one_name _ _ _ _ _ h h' := ht.one_name h h'
  one_socket c c' u d h h' := by
    have hle := he u d
    match hl : t.connections u d with
    | [] => rw [hl] at h; cases h
    | [x] =>
      rw [hl] at h h'
      rw [List.mem_singleton.1 h, List.mem_singleton.1 h']
    | _ :: _ :: _ => simp [hl] at hle
  removed _ u d := not_mem_connections_remove ht u d

theorem step_exclusive {t : Connection κ} (ht : t.Exclusive) (o : Op κ) : (t.step o).Exclusive := by
  cases o with
  | insert => exact insert_exclusive ht
  | remove => exact remove_exclusive ht
  | touch conn now =>
    intro u d
    show ((t.touch conn now).connections u d).length ≤ 1
    rw [touch_connections]
    exact ht u d
  | reap => exact reap_preserves (fun _ _ _ h _ ↦ drop_exclusive h) ht

/-- One operation keeps the invariant exactly when it does not switch a socket's name. -/
theorem step_consistent_iff {t : Connection κ} (ht : t.Consistent) (o : Op κ) :
    (t.step o).Consistent ↔ ¬ o.Switches t := by
  cases o with
  | insert conn uid did jti now =>
    exact ⟨fun h hs ↦ insert_not_consistent ht hs h, insert_consistent ht⟩
  | remove => exact ⟨fun _ ↦ id, fun _ ↦ remove_consistent ht⟩
  | touch => exact ⟨fun _ ↦ id, fun _ ↦ touch_consistent ht⟩
  | reap => exact ⟨fun _ ↦ id, fun _ ↦ reap_preserves (fun _ _ _ ↦ drop_consistent) ht⟩

theorem run_concat (ops : List (Op κ)) (o : Op κ) : run (ops ++ [o]) = (run ops).step o := by
  rw [run, List.foldl_concat]
  rfl

theorem run_exclusive (ops : List (Op κ)) : (run ops).Exclusive := by
  induction ops using List.reverseRecOn with
  | nil => exact empty_exclusive
  | append_singleton ops o ih =>
    rw [run_concat]
    exact step_exclusive ih o

/-- **The table stays in order along a run exactly when no operation of the run switches the name
of a registered socket.** -/
theorem tableOk_along_iff (ops : List (Op κ)) :
    (∀ pre, pre <+: ops → (run pre).TableOk) ↔
      ∀ pre o, pre ++ [o] <+: ops → ¬ o.Switches (run pre) := by
  constructor
  · intro h pre o hpre
    have hbefore := h pre ((List.prefix_append pre [o]).trans hpre)
    rw [← step_consistent_iff hbefore.consistent, ← run_concat]
    exact (h _ hpre).consistent
  · intro h pre hpre
    refine Consistent.tableOk ?_ (run_exclusive pre)
    induction pre using List.reverseRecOn with
    | nil => exact empty_consistent
    | append_singleton pre o ih =>
      rw [run_concat]
      exact (step_consistent_iff (ih ((List.prefix_append pre [o]).trans hpre)) o).2 (h pre o hpre)

/-- A socket authenticates as `alice` and then, with a second `CLIENT_AUTH` frame, as `bob`. -/
def reauthenticated : List (Op ℕ) :=
  [.insert 7 "alice" "phone" "j1" 0, .insert 7 "bob" "phone" "j2" 1]

/-- The socket of `bob` stays listed under `alice`, and closing it does not take it out. -/
theorem reauthenticated_not_tableOk :
    ¬ (run reauthenticated).Consistent ∧
      (run reauthenticated).client 7 = some ⟨"bob", "phone", "j2", 1⟩ ∧
      7 ∈ (run reauthenticated).connections "alice" "phone" ∧
      7 ∈ ((run reauthenticated).remove 7).connections "alice" "phone" := by
  have hlisted : 7 ∈ (run reauthenticated).connections "alice" "phone" := by decide
  have hcl : (run reauthenticated).client 7 = some ⟨"bob", "phone", "j2", 1⟩ := by decide
  refine ⟨fun h ↦ ?_, hcl, hlisted, by decide⟩
  obtain ⟨cl, hcl', hu, -⟩ := (h 7 "alice" "phone").1 hlisted
  rw [hcl, Option.some.injEq] at hcl'
  rw [← hcl'] at hu
  exact absurd hu (by decide)

end Connection

end ChatNow
