import ChatNow.Common.DirectAddressing
import ChatNow.Lib.Labelled

/-!
# Discovery

`Discovery` of `common/infra/etcd.hpp`, with the `ServiceManager` behind its two callbacks. Two
threads write the manager: the watcher's, which runs the callbacks of the events one after another,
and the one that runs `full_sync_`, which calls `_put_cb` for every key that `ls` lists. Each is a
list of callbacks, of which the first may be under way; between the lock sections of a callback the
other thread may do anything.

* etcd counts its revisions, and `ls` is an atomic snapshot. The events of the watcher come in the
  order of the changes, and any of them may be lost before its callback is called.
* `brpc::Channel::Init` succeeds.

The periodic listing is there to make up for lost events. It only adds, so it makes up for a lost
PUT and not for a lost DELETE: see `Repairable` for what else it takes, and `discovery_converges`.
-/

namespace ChatNow

/-! ### The callbacks -/

/-- A callback that is to be called, or where one stands. -/
inductive Callback
  /-- `_put_cb`, which is `onServiceOnline`. -/
  | online (service_instance host : String)
  /-- Before the first lock section of `append`. -/
  | append (service host : String)
  /-- Before its second one, with the channel initialised. -/
  | add (service host : String)
  /-- `_del_cb`, which is `onServiceOffline`. -/
  | offline (service_instance host : String)
  /-- Before the lock section of `remove`. -/
  | remove (service host : String)
  deriving DecidableEq

namespace Callback

/-- The next lock section of a callback, and what is left of it. -/
def step (m : ServiceManager) : Callback → ServiceManager × Option Callback
  | online service_instance host =>
    match m.enter service_instance with
    | (m, none) => (m, none)
    | (m, some service) => (m, some (append service host))
  | append service host =>
    if (m.object service).has host then (m, none) else (m, some (add service host))
  | add service host => (m.setObject service ((m.object service).add host), none)
  | offline service_instance host =>
    match m.services.lookup (getServiceName service_instance) with
    | none => (m, none)
    | some service => (m, some (remove service host))
  | remove service host => (m.setObject service ((m.object service).remove host), none)

/-- A callback that nobody interrupts, up to a number of lock sections. -/
def run : ℕ → ServiceManager → Option Callback → ServiceManager × Option Callback
  | 0, m, c => (m, c)
  | _ + 1, m, none => (m, none)
  | n + 1, m, some c => run n (c.step m).1 (c.step m).2

/-- Without interruption, `_put_cb` is `onServiceOnline`. -/
theorem run_online (m : ServiceManager) (service_instance host : String) :
    ∃ m', run 3 m (some (online service_instance host)) = (m', none) ∧
      m'.follow_services = (m.onServiceOnline service_instance host true).follow_services ∧
      m'.services = (m.onServiceOnline service_instance host true).services ∧
      ∀ s, m'.object s = (m.onServiceOnline service_instance host true).object s := by
  rw [run, step, ServiceManager.onServiceOnline]
  cases m.enter service_instance with
  | mk m₁ service =>
    cases service with
    | none => exact ⟨m₁, rfl, rfl, rfl, fun _ ↦ rfl⟩
    | some service =>
      dsimp only
      rw [run, step, ServiceChannel.append]
      by_cases hhas : (m₁.object service).has host = true
      · rw [if_pos hhas, if_pos hhas]
        refine ⟨m₁, rfl, rfl, rfl, fun s ↦ ?_⟩
        by_cases hs : s = service
        · rw [hs, ServiceManager.object_setObject]
        · rw [ServiceManager.object_setObject_ne hs]
      · rw [if_neg hhas, if_neg hhas]
        exact ⟨_, rfl, rfl, rfl, fun _ ↦ rfl⟩

/-- Without interruption, `_del_cb` is `onServiceOffline`. -/
theorem run_offline (m : ServiceManager) (service_instance host : String) :
    run 2 m (some (offline service_instance host)) =
      (m.onServiceOffline service_instance host, none) := by
  rw [run, step, ServiceManager.onServiceOffline]
  cases m.services.lookup (getServiceName service_instance) <;> rfl

end Callback

/-- What a thread makes of the manager and of its callbacks. -/
def advance (m : ServiceManager) : List Callback → Option (ServiceManager × List Callback)
  | [] => none
  | c :: cs => some ((c.step m).1, (c.step m).2.toList ++ cs)

/-! ### The machine -/

/-- etcd, the two threads of `Discovery`, and the manager. -/
structure DiscoveryState where
  /-- The hosts of the keys. -/
  registered : AList fun _ : String ↦ String := ∅
  revision : ℕ := 0
  /-- The events on their way, and the callbacks of the watcher. -/
  events : List Callback := []
  /-- The callbacks of `full_sync_`. -/
  sync : List Callback := []
  /-- The revision of the last listing. -/
  listed : Option ℕ := none
  manager : ServiceManager

/-- What can happen. -/
inductive DiscoveryStep
  /-- A key is put to etcd. -/
  | put (key host : String)
  /-- A key is removed, or its lease expires. -/
  | delete (key : String)
  /-- An event is lost. -/
  | lose (i : ℕ)
  /-- The watcher's thread goes on. -/
  | watch
  /-- `full_sync_` is called, and lists the keys. -/
  | ls (kvs : List (Σ _ : String, String))
  /-- `full_sync_` goes on. -/
  | sync
  | choose (key : String)

namespace DiscoveryState

/-- The state after a step. -/
def next (s : DiscoveryState) : DiscoveryStep → Option DiscoveryState
  | .put key host => some { s with
      registered := s.registered.insert key host
      revision := s.revision + 1
      events := s.events ++ [.online key host] }
  | .delete key => (s.registered.lookup key).map fun host ↦ { s with
      registered := s.registered.erase key
      revision := s.revision + 1
      events := s.events ++ [.offline key host] }
  | .lose i =>
    match s.events[i]? with
    | some (.online _ _) | some (.offline _ _) => some { s with events := s.events.eraseIdx i }
    | _ => none
  | .watch => (advance s.manager s.events).map fun x ↦ { s with manager := x.1, events := x.2 }
  | .ls kvs =>
    if s.sync = [] ∧ kvs.Perm s.registered.entries then
      some { s with
        sync := kvs.map fun kv ↦ .online kv.1 kv.2
        listed := some s.revision }
    else none
  | .sync => (advance s.manager s.sync).map fun x ↦ { s with manager := x.1, sync := x.2 }
  | .choose key => some { s with manager := (s.manager.choose key).2 }

/-- A process that follows the services, before its first listing. -/
def fresh (follow : List String) : DiscoveryState where
  manager := follow.foldl ServiceManager.declared {}

/-- The host is registered for the service. -/
def Hosts (s : DiscoveryState) (service host : String) : Prop :=
  ∃ e ∈ s.registered.entries, getServiceName e.1 = service ∧ e.2 = host

instance (s : DiscoveryState) (service host : String) : Decidable (s.Hosts service host) :=
  inferInstanceAs (Decidable (∃ e ∈ s.registered.entries, _))

/-- The last listing was of the current registrations. -/
def Current (s : DiscoveryState) : Prop := s.listed = some s.revision

instance (s : DiscoveryState) : Decidable s.Current := inferInstanceAs (Decidable (_ = _))

/-- A `full_sync_` has listed the current registrations and has returned, and no event is
outstanding. -/
structure Settled (s : DiscoveryState) : Prop where
  current : s.Current
  synced : s.sync = []
  watched : s.events = []

end DiscoveryState

/-- The discovery of a process. -/
def discovery : Labelled DiscoveryState DiscoveryStep := ⟨fun i s ↦ s.next i⟩

/-- `choose` of the service can return the channel to the host. -/
def ServiceManager.Chooses (m : ServiceManager) (service host : String) : Prop :=
  ∃ k, (((List.replicate k (.choose service)).foldl ManagerCall.exec m).choose service).1 =
    some host

/-! ### What is assumed of a run -/

namespace Callback

/-- The callback ends with a channel to the host. -/
def Puts (service host : String) : Callback → Prop
  | online p h => getServiceName p = service ∧ h = host
  | append s h | add s h => s = service ∧ h = host
  | offline _ _ | remove _ _ => False

/-- The callback ends with no channel to the host. -/
def Drops (service host : String) : Callback → Prop
  | offline p h => getServiceName p = service ∧ h = host
  | remove s h => s = service ∧ h = host
  | online _ _ | append _ _ | add _ _ => False

instance (service host : String) : DecidablePred (Puts service host)
  | online p h => inferInstanceAs (Decidable (getServiceName p = service ∧ h = host))
  | append s h | add s h => inferInstanceAs (Decidable (s = service ∧ h = host))
  | offline _ _ | remove _ _ => .isFalse id

instance (service host : String) : DecidablePred (Drops service host)
  | offline p h => inferInstanceAs (Decidable (getServiceName p = service ∧ h = host))
  | remove s h => inferInstanceAs (Decidable (s = service ∧ h = host))
  | online _ _ | append _ _ | add _ _ => .isFalse id

end Callback

/-- The key is not the name of another followed service, and does not lie under the path of an
instance of one. -/
def KeyOk (follow : Finset String) (key : String) : Prop :=
  if getServiceName key ∈ follow then key ∈ follow → getServiceName key = key
  else getServiceName (getServiceName key) ∉ follow

instance (follow : Finset String) : DecidablePred (KeyOk follow) := fun key ↦
  inferInstanceAs (Decidable (if getServiceName key ∈ follow then _ → _ else _))

namespace DiscoveryState

variable (s : DiscoveryState)

/-- The host that a put takes the place of is registered under another key of the service. -/
def PutOk (key host : String) : Prop :=
  ∀ old ∈ s.registered.lookup key, old = host ∨
    ∃ e ∈ s.registered.entries, e.1 ≠ key ∧ getServiceName e.1 = getServiceName key ∧ e.2 = old

/-- A lost DELETE is of a host that is registered again, or will be dropped later. A lost PUT is not
the only one that would put back a host that is registered and has been listed. -/
def LoseOk (i : ℕ) : Callback → Prop
  | .offline key host => getServiceName key ∈ s.manager.follow_services →
      s.Hosts (getServiceName key) host ∨
        ∃ c ∈ s.events.drop (i + 1), c.Drops (getServiceName key) host
  | .online key host => getServiceName key ∈ s.manager.follow_services →
      s.Current → s.Hosts (getServiceName key) host →
        host ∈ (s.manager.object (getServiceName key)).channels ∨
          (∃ c ∈ s.sync, c.Puts (getServiceName key) host) ∨
            ∃ c ∈ s.events.eraseIdx i, c.Puts (getServiceName key) host
  | _ => True

/-- The watcher removes no host that is registered and has been listed, unless it will put it
back. -/
def WatchOk : Callback → Prop
  | .remove service host => s.Current → s.Hosts service host →
      ∃ c ∈ s.events.tail, c.Puts service host
  | _ => True

/-- `full_sync_` adds no host that has been removed since it was listed, unless the watcher has
still to remove it. -/
def SyncOk : Callback → Prop
  | .add service host => s.Hosts service host ∨ ∃ c ∈ s.events, c.Drops service host
  | _ => True

instance (key host : String) : Decidable (s.PutOk key host) :=
  inferInstanceAs (Decidable (∀ old ∈ s.registered.lookup key, _))

instance (i : ℕ) : DecidablePred (s.LoseOk i)
  | .offline _ _ => inferInstanceAs (Decidable (_ → _))
  | .online _ _ => inferInstanceAs (Decidable (_ → _))
  | .append _ _ | .add _ _ | .remove _ _ => .isTrue trivial

instance : DecidablePred s.WatchOk
  | .remove _ _ => inferInstanceAs (Decidable (_ → _))
  | .online _ _ | .append _ _ | .add _ _ | .offline _ _ => .isTrue trivial

instance : DecidablePred s.SyncOk
  | .add _ _ => inferInstanceAs (Decidable (_ ∨ _))
  | .online _ _ | .append _ _ | .offline _ _ | .remove _ _ => .isTrue trivial

end DiscoveryState

/-- What can go wrong, for the followed services, does not. -/
def Repairable : DiscoveryStep → DiscoveryState → Prop
  | .put key host, s => KeyOk s.manager.follow_services key ∧
      (getServiceName key ∈ s.manager.follow_services → s.PutOk key host)
  | .lose i, s => ∀ c ∈ s.events[i]?, s.LoseOk i c
  | .watch, s => ∀ c ∈ s.events.head?, s.WatchOk c
  | .sync, s => ∀ c ∈ s.sync.head?, s.SyncOk c
  | .delete _, _ | .ls _, _ | .choose _, _ => True

instance (i : DiscoveryStep) (s : DiscoveryState) : Decidable (Repairable i s) :=
  match i with
  | .put _ _ => inferInstanceAs (Decidable (_ ∧ _))
  | .lose _ => inferInstanceAs (Decidable (∀ c ∈ s.events[_]?, _))
  | .watch => inferInstanceAs (Decidable (∀ c ∈ s.events.head?, _))
  | .sync => inferInstanceAs (Decidable (∀ c ∈ s.sync.head?, _))
  | .delete _ | .ls _ | .choose _ => .isTrue trivial

/-! ### What a lock section does -/

/-- The manager of a process that follows the services: under a followed service stands nothing but
its own object, where there is a channel it does stand there, and the other keys are paths of
instances. -/
structure ManagerOk (follow : Finset String) (m : ServiceManager) : Prop where
  follows : m.follow_services = follow
  own : ∀ service ∈ follow, ∀ r, m.services.lookup service = some r → r = service
  entered : ∀ service host, host ∈ (m.object service).channels →
    service ∈ follow ∧ m.services.lookup service = some service
  path : ∀ k r, m.services.lookup k = some r → k ∈ follow ∨ getServiceName k ∈ follow

/-- What holds of a callback: past the manager's lock section, the service has an object. -/
def Callback.Ok (follow : Finset String) (m : ServiceManager) : Callback → Prop
  | .online key _ | .offline key _ => KeyOk follow key
  | .append service _ | .add service _ | .remove service _ =>
    service ∈ follow ∧ m.services.lookup service = some service

section Manager

variable {follow : Finset String} {m : ServiceManager} {c : Callback} {service key : String}

theorem ManagerOk.start (names : List String) :
    ManagerOk names.toFinset (names.foldl ServiceManager.declared {}) := by
  rw [ServiceManager.declared_all]
  exact ⟨rfl, fun _ _ _ hr ↦ by simp at hr, fun _ _ h ↦ by simp [ServiceManager.object] at h,
    fun _ _ hr ↦ by simp at hr⟩

theorem ManagerOk.setObject (hm : ManagerOk follow m) (hs : service ∈ follow)
    (hl : m.services.lookup service = some service) (c : ServiceChannel) :
    ManagerOk follow (m.setObject service c) where
  follows := hm.follows
  own := hm.own
  entered service' host h := by
    by_cases he : service' = service
    · subst he
      exact ⟨hs, hl⟩
    · rw [ServiceManager.object_setObject_ne he] at h
      exact hm.entered service' host h
  path := hm.path

/-- The lock section of `onServiceOnline` finds the service's object, or makes it, and writes no
channel. -/
theorem ManagerOk.enter (hm : ManagerOk follow m) (hk : KeyOk follow key)
    (hs : getServiceName key ∈ follow) :
    ∃ m', m.enter key = (m', some (getServiceName key)) ∧ ManagerOk follow m' ∧
      m'.services.lookup (getServiceName key) = some (getServiceName key) ∧
      (∀ s ∈ follow, m.services.lookup s = some s → m'.services.lookup s = some s) ∧
      ∀ s h, h ∈ (m'.object s).channels ↔ h ∈ (m.object s).channels := by
  rw [KeyOk, if_pos hs] at hk
  obtain ⟨m', he, hfollow, hservices, hobject⟩ := m.enter_spec (p := key) rfl
    (by rw [hm.follows]; exact hs) (hm.own _ hs)
  have hself : m'.services.lookup (getServiceName key) = some (getServiceName key) := by
    rw [hservices, if_pos (.inr rfl)]
  have hkept : ∀ s ∈ follow, m.services.lookup s = some s → m'.services.lookup s = some s := by
    intro s hsf hl
    rw [hservices]
    split
    · next heq =>
      obtain rfl | rfl := heq
      · rw [hk hsf]
      · rfl
    · exact hl
  have hchannels : ∀ s h, h ∈ (m'.object s).channels ↔ h ∈ (m.object s).channels := by
    intro s h
    rw [hobject]
    split
    · next hnew =>
      -- an object is made only where there was no channel
      refine iff_of_false List.not_mem_nil fun hin ↦ ?_
      obtain ⟨-, hl⟩ := hm.entered s h hin
      rw [hnew.1, hnew.2] at hl
      cases hl
    · rfl
  refine ⟨m', he, ⟨hfollow.trans hm.follows, fun s hsf r hr ↦ ?_, fun s h hin ↦ ?_,
    fun k r hr ↦ ?_⟩, hself, hkept, hchannels⟩
  · rw [hservices] at hr
    split at hr
    · next heq =>
      obtain rfl | rfl := heq
      · exact (Option.some.inj hr).symm.trans (hk hsf)
      · exact (Option.some.inj hr).symm
    · exact hm.own s hsf r hr
  · obtain ⟨hsf, hl⟩ := hm.entered s h ((hchannels s h).1 hin)
    exact ⟨hsf, hkept s hsf hl⟩
  · rw [hservices] at hr
    split at hr
    · next heq =>
      obtain rfl | rfl := heq
      · exact .inr hs
      · exact .inl hs
    · exact hm.path k r hr

/-- A choice moves a turn, and nothing else. -/
theorem choose_spec (m : ServiceManager) (key : String) :
    (m.choose key).2.services = m.services ∧
      (m.choose key).2.follow_services = m.follow_services ∧
      ∀ s, ((m.choose key).2.object s).channels = (m.object s).channels := by
  rw [ServiceManager.choose]
  cases m.services.lookup key with
  | none => exact ⟨rfl, rfl, fun _ ↦ rfl⟩
  | some r =>
    refine ⟨rfl, rfl, fun s ↦ ?_⟩
    by_cases hs : s = r
    · rw [hs, ServiceManager.object_setObject, ServiceChannel.choose_channels]
    · rw [ServiceManager.object_setObject_ne hs]

theorem ManagerOk.choose (hm : ManagerOk follow m) (key : String) :
    ManagerOk follow (m.choose key).2 := by
  obtain ⟨hservices, hfollow, hch⟩ := choose_spec m key
  exact {
    follows := hfollow.trans hm.follows
    own := by
      rw [hservices]
      exact hm.own
    entered := fun service host hin ↦ by
      rw [hservices]
      exact hm.entered service host (hch service ▸ hin)
    path := by
      rw [hservices]
      exact hm.path }

theorem Callback.Ok.mono {m' : ServiceManager} (h : c.Ok follow m)
    (hkept : ∀ s ∈ follow, m.services.lookup s = some s → m'.services.lookup s = some s) :
    c.Ok follow m' := by
  cases c with
  | online | offline => exact h
  | append | add | remove => exact ⟨h.1, hkept _ h.1 h.2⟩

/-- What a lock section makes of the channels, and of the callback. -/
inductive Callback.Outcome (follow : Finset String) (m : ServiceManager) (c : Callback) :
    ServiceManager × Option Callback → Prop
  /-- It goes on as it was. -/
  | moved {m' : ServiceManager} {c' : Callback}
      (hch : ∀ s h, h ∈ (m'.object s).channels ↔ h ∈ (m.object s).channels) (hok : c'.Ok follow m')
      (hputs : ∀ s h, c'.Puts s h ↔ c.Puts s h) (hdrops : ∀ s h, c'.Drops s h ↔ c.Drops s h) :
      Outcome follow m c (m', some c')
  /-- It had nothing to do. -/
  | idle (hputs : ∀ s ∈ follow, ∀ h, c.Puts s h → h ∈ (m.object s).channels)
      (hdrops : ∀ s h, c.Drops s h → h ∉ (m.object s).channels) : Outcome follow m c (m, none)
  | added {m' : ServiceManager} {service host : String} (hc : c = .add service host)
      (hch : ∀ s h, h ∈ (m'.object s).channels ↔
        h ∈ (m.object s).channels ∨ s = service ∧ h = host) : Outcome follow m c (m', none)
  | removed {m' : ServiceManager} {service host : String} (hc : c = .remove service host)
      (hch : ∀ s h, h ∈ (m'.object s).channels ↔
        h ∈ (m.object s).channels ∧ ¬(s = service ∧ h = host)) : Outcome follow m c (m', none)

theorem mem_setObject {c : ServiceChannel} {s h : String} :
    h ∈ ((m.setObject service c).object s).channels ↔
      if s = service then h ∈ c.channels else h ∈ (m.object s).channels := by
  by_cases hs : s = service
  · subst hs
    rw [ServiceManager.object_setObject, if_pos rfl]
  · rw [ServiceManager.object_setObject_ne hs, if_neg hs]

/-- **One lock section.** It keeps the manager in order, and objects once made. -/
theorem Callback.step_spec (hm : ManagerOk follow m) (hc : c.Ok follow m) :
    c.Outcome follow m (c.step m) ∧ ManagerOk follow (c.step m).1 ∧
      ∀ s ∈ follow, m.services.lookup s = some s → (c.step m).1.services.lookup s = some s := by
  cases c with
  | online key host =>
    rw [Callback.step]
    by_cases hs : getServiceName key ∈ follow
    · obtain ⟨m', he, hm', hself, hkept, hch⟩ := hm.enter hc hs
      rw [he]
      exact ⟨.moved hch ⟨hs, hself⟩ (fun s h ↦ Iff.rfl) (fun s h ↦ Iff.rfl), hm', hkept⟩
    · have hf : getServiceName key ∉ m.follow_services := by
        rwa [hm.follows]
      rw [ServiceManager.enter, if_pos hf]
      refine ⟨.idle (fun s hsf h hp ↦ ?_) fun s h hd ↦ hd.elim, hm, fun s _ hl ↦ hl⟩
      obtain ⟨rfl, -⟩ := hp
      exact absurd hsf hs
  | append service host =>
    rw [Callback.step]
    split
    · next hhas =>
      refine ⟨.idle (fun s _ h hp ↦ ?_) fun s h hd ↦ hd.elim, hm, fun s _ hl ↦ hl⟩
      obtain ⟨rfl, rfl⟩ := hp
      simpa [ServiceChannel.has] using hhas
    · exact ⟨.moved (fun s h ↦ Iff.rfl) hc (fun s h ↦ Iff.rfl) (fun s h ↦ Iff.rfl), hm,
        fun s _ hl ↦ hl⟩
  | add service host =>
    refine ⟨.added rfl fun s h ↦ ?_, hm.setObject hc.1 hc.2 _, fun s _ hl ↦ hl⟩
    rw [mem_setObject]
    split
    · next hs =>
      rw [hs, ServiceChannel.mem_add]
      simp
    · next hs => simp [hs]
  | offline key host =>
    rw [Callback.step]
    cases hl : m.services.lookup (getServiceName key) with
    | none =>
      refine ⟨.idle (fun s _ h hp ↦ hp.elim) fun s h hd hin ↦ ?_, hm, fun s _ hl ↦ hl⟩
      obtain ⟨rfl, rfl⟩ := hd
      cases hl.symm.trans (hm.entered _ _ hin).2
    | some r =>
      have hs : getServiceName key ∈ follow := by
        by_contra hs
        rw [Callback.Ok, KeyOk, if_neg hs] at hc
        exact (hm.path _ _ hl).elim hs hc
      obtain rfl := hm.own _ hs r hl
      exact ⟨.moved (fun s h ↦ Iff.rfl) ⟨hs, hl⟩ (fun s h ↦ Iff.rfl) (fun s h ↦ Iff.rfl), hm,
        fun s _ hl ↦ hl⟩
  | remove service host =>
    refine ⟨.removed rfl fun s h ↦ ?_, hm.setObject hc.1 hc.2 _, fun s _ hl ↦ hl⟩
    rw [mem_setObject]
    split
    · next hs =>
      rw [hs, ServiceChannel.mem_remove]
      tauto
    · next hs => simp [hs]

end Manager

/-! ### The invariant -/

section Registered

variable {reg : AList fun _ : String ↦ String} {e : Σ _ : String, String} {key host : String}

theorem mem_entries_insert : e ∈ (reg.insert key host).entries ↔
    e = ⟨key, host⟩ ∨ e.1 ≠ key ∧ e ∈ reg.entries := by
  obtain ⟨k, h⟩ := e
  rw [← AList.mem_lookup_iff, ← AList.mem_lookup_iff]
  by_cases hk : k = key
  · subst hk
    simp [eq_comm]
  · simp [AList.lookup_insert_ne hk, hk]

theorem mem_entries_erase : e ∈ (reg.erase key).entries ↔ e.1 ≠ key ∧ e ∈ reg.entries := by
  obtain ⟨k, h⟩ := e
  rw [← AList.mem_lookup_iff, ← AList.mem_lookup_iff]
  by_cases hk : k = key
  · subst hk
    simp
  · simp [AList.lookup_erase_ne hk, hk]

end Registered

/-- Every PUT in the list is of a host that is registered, or is dropped further on. -/
def Answered (follow : Finset String) (reg : String → String → Prop) : List Callback → Prop
  | [] => True
  | c :: cs => (∀ service ∈ follow, ∀ host, c.Puts service host →
      reg service host ∨ ∃ c' ∈ cs, c'.Drops service host) ∧ Answered follow reg cs

namespace Answered

variable {follow : Finset String} {reg reg' : String → String → Prop} {c : Callback}
  {cs l₁ l₂ : List Callback}

/-- A change of the registrations, with its event. -/
theorem concat (h : Answered follow reg cs)
    (hreg : ∀ s ∈ follow, ∀ h, reg s h → reg' s h ∨ c.Drops s h)
    (hc : ∀ s ∈ follow, ∀ h, c.Puts s h → reg' s h) : Answered follow reg' (cs ++ [c]) := by
  induction cs with
  | nil => exact ⟨fun s hs host hp ↦ .inl (hc s hs host hp), trivial⟩
  | cons c₀ cs ih =>
    refine ⟨fun s hs host hp ↦ ?_, ih h.2⟩
    rcases h.1 s hs host hp with hr | ⟨c', hc', hd⟩
    · exact (hreg s hs host hr).imp_right fun hd ↦ ⟨c, by simp, hd⟩
    · exact .inr ⟨c', List.mem_append_left _ hc', hd⟩

/-- An event is lost. -/
theorem lose (h : Answered follow reg (l₁ ++ c :: l₂))
    (hc : ∀ s ∈ follow, ∀ h, c.Drops s h → reg s h ∨ ∃ c' ∈ l₂, c'.Drops s h) :
    Answered follow reg (l₁ ++ l₂) := by
  induction l₁ with
  | nil => exact h.2
  | cons c₀ l₁ ih =>
    refine ⟨fun s hs host hp ↦ ?_, ih h.2⟩
    rcases h.1 s hs host hp with hr | ⟨c', hc', hd⟩
    · exact .inl hr
    · rcases List.mem_append.1 hc' with hc' | hc'
      · exact .inr ⟨c', List.mem_append_left _ hc', hd⟩
      · rcases List.mem_cons.1 hc' with rfl | hc'
        · exact (hc s hs host hd).imp_right fun ⟨c'', hc'', hd''⟩ ↦
            ⟨c'', List.mem_append_right _ hc'', hd''⟩
        · exact .inr ⟨c', List.mem_append_right _ hc', hd⟩

/-- A callback goes on as it was. -/
theorem moved {c' : Callback} (h : Answered follow reg (c :: cs))
    (hputs : ∀ s h, c'.Puts s h ↔ c.Puts s h) : Answered follow reg (c' :: cs) :=
  ⟨fun s hs host hp ↦ h.1 s hs host ((hputs s host).1 hp), h.2⟩

end Answered

/-- What holds in every state of a run. -/
structure DiscoveryInv (follow : Finset String) (s : DiscoveryState) : Prop where
  manager : ManagerOk follow s.manager
  keys : ∀ e ∈ s.registered.entries, KeyOk follow e.1
  callbacks : ∀ c ∈ s.events ++ s.sync, c.Ok follow s.manager
  adds : ∀ c ∈ s.sync, ∀ service host, ¬c.Drops service host
  answered : Answered follow s.Hosts s.events
  /-- A channel is to a host that is registered, or will be dropped. -/
  dropped : ∀ service host, host ∈ (s.manager.object service).channels →
    s.Hosts service host ∨ ∃ c ∈ s.events, c.Drops service host
  /-- A host that is registered and has been listed has a channel, or will be put. -/
  put : s.Current → ∀ service ∈ follow, ∀ host, s.Hosts service host →
    host ∈ (s.manager.object service).channels ∨ (∃ c ∈ s.sync, c.Puts service host) ∨
      ∃ c ∈ s.events, c.Puts service host
  listed : ∀ r ∈ s.listed, r ≤ s.revision

namespace DiscoveryInv

variable {follow : Finset String} {s s' : DiscoveryState}

/-- A change of the registrations, with its event. -/
theorem changed {c : Callback} {reg : AList fun _ : String ↦ String} (h : DiscoveryInv follow s)
    (hkeys : ∀ e ∈ reg.entries, KeyOk follow e.1) (hok : c.Ok follow s.manager)
    (hreg : ∀ service ∈ follow, ∀ host, s.Hosts service host →
      DiscoveryState.Hosts { s with registered := reg } service host ∨ c.Drops service host)
    (hc : ∀ service ∈ follow, ∀ host, c.Puts service host →
      DiscoveryState.Hosts { s with registered := reg } service host) :
    DiscoveryInv follow { s with
      registered := reg
      revision := s.revision + 1
      events := s.events ++ [c] } where
  manager := h.manager
  keys := hkeys
  callbacks c' hc' := by
    rcases List.mem_append.1 hc' with hc' | hc'
    · rcases List.mem_append.1 hc' with hc' | hc'
      · exact h.callbacks c' (List.mem_append_left _ hc')
      · rw [List.mem_singleton.1 hc']
        exact hok
    · exact h.callbacks c' (List.mem_append_right _ hc')
  adds := h.adds
  answered := h.answered.concat hreg hc
  dropped service host hin := by
    rcases h.dropped service host hin with hr | ⟨c', hc', hd⟩
    · refine (hreg service (h.manager.entered service host hin).1 host hr).imp_right fun hd ↦ ?_
      exact ⟨c, by simp, hd⟩
    · exact .inr ⟨c', List.mem_append_left _ hc', hd⟩
  put hcur := by
    -- the listing is older than the change
    have hle := h.listed _ hcur
    exact absurd hle (Nat.not_succ_le_self s.revision)
  listed r hr := Nat.le_succ_of_le (h.listed r hr)

/-- A key is put to etcd. -/
theorem put_step {key host : String} (h : DiscoveryInv follow s) (hk : KeyOk follow key)
    (hput : getServiceName key ∈ follow → s.PutOk key host)
    (hx : s.next (.put key host) = some s') : DiscoveryInv follow s' := by
  cases hx
  refine h.changed (c := .online key host) (fun e he ↦ ?_) hk (fun service hs host' hr ↦ .inl ?_)
    fun service _ host' hp ↦ ⟨⟨key, host⟩, mem_entries_insert.2 (.inl rfl), hp.1, hp.2⟩
  · rcases mem_entries_insert.1 he with rfl | ⟨-, he⟩
    · exact hk
    · exact h.keys e he
  · obtain ⟨e, he, rfl, rfl⟩ := hr
    by_cases hne : e.1 = key
    · have hl : e.2 ∈ s.registered.lookup key := hne ▸ AList.mem_lookup_iff.2 he
      rcases hput (hne ▸ hs) e.2 hl with heq | ⟨e', he', hne', hs', heq⟩
      · exact ⟨⟨key, host⟩, mem_entries_insert.2 (.inl rfl), by rw [hne], heq.symm⟩
      · exact ⟨e', mem_entries_insert.2 (.inr ⟨hne', he'⟩), hs'.trans (by rw [hne]), heq⟩
    · exact ⟨e, mem_entries_insert.2 (.inr ⟨hne, he⟩), rfl, rfl⟩

/-- A key is removed. -/
theorem delete_step {key : String} (h : DiscoveryInv follow s)
    (hx : s.next (.delete key) = some s') : DiscoveryInv follow s' := by
  obtain ⟨host, hl, rfl⟩ := Option.map_eq_some_iff.1 hx
  have hkey : KeyOk follow key := h.keys ⟨key, host⟩ (AList.mem_lookup_iff.1 hl)
  refine h.changed (c := .offline key host) (fun e he ↦ h.keys e (mem_entries_erase.1 he).2) hkey
    (fun service hs host' hr ↦ ?_) fun service _ host' hp ↦ hp.elim
  obtain ⟨e, he, rfl, rfl⟩ := hr
  by_cases hne : e.1 = key
  · have hl' : s.registered.lookup key = some e.2 := hne ▸ AList.mem_lookup_iff.2 he
    exact .inr ⟨by rw [hne], Option.some.inj (hl.symm.trans hl')⟩
  · exact .inl ⟨e, mem_entries_erase.2 ⟨hne, he⟩, rfl, rfl⟩

/-- An event is lost. -/
theorem lose_step {i : ℕ} (h : DiscoveryInv follow s) (hlose : ∀ c ∈ s.events[i]?, s.LoseOk i c)
    (hx : s.next (.lose i) = some s') : DiscoveryInv follow s' := by
  have hfollow := h.manager.follows
  -- whichever event it is, what follows from its loss being harmless
  have hlost : ∀ c, s.events[i]? = some c →
      (∀ service ∈ follow, ∀ host, c.Drops service host →
        s.Hosts service host ∨ ∃ c' ∈ s.events.drop (i + 1), c'.Drops service host) →
      (s.Current → ∀ service ∈ follow, ∀ host, c.Puts service host → s.Hosts service host →
        host ∈ (s.manager.object service).channels ∨ (∃ c' ∈ s.sync, c'.Puts service host) ∨
          ∃ c' ∈ s.events.eraseIdx i, c'.Puts service host) →
      DiscoveryInv follow { s with events := s.events.eraseIdx i } := by
    intro c hc hdrops hputs
    obtain ⟨hlt, rfl⟩ := List.getElem?_eq_some_iff.1 hc
    have hsplit : s.events = s.events.take i ++ s.events[i] :: s.events.drop (i + 1) := by
      rw [← List.drop_eq_getElem_cons hlt, List.take_append_drop]
    have hleft : s.events.eraseIdx i = s.events.take i ++ s.events.drop (i + 1) :=
      List.eraseIdx_eq_take_drop_succ ..
    have hmem : ∀ c' ∈ s.events, c' = s.events[i] ∨ c' ∈ s.events.eraseIdx i := by
      intro c' hc'
      rw [hsplit] at hc'
      rw [hleft]
      simp only [List.mem_append, List.mem_cons] at hc' ⊢
      tauto
    exact {
      h with
      callbacks := fun c' hc' ↦ h.callbacks c' <| by
        rcases List.mem_append.1 hc' with hc' | hc'
        · exact List.mem_append_left _ (List.mem_of_mem_eraseIdx hc')
        · exact List.mem_append_right _ hc'
      answered := by
        have hans := h.answered
        rw [hsplit] at hans
        rw [hleft]
        exact hans.lose hdrops
      dropped := fun service host hin ↦ by
        rcases h.dropped service host hin with hr | ⟨c', hc', hd⟩
        · exact .inl hr
        · rcases hmem c' hc' with rfl | hc'
          · refine (hdrops service (h.manager.entered service host hin).1 host hd).imp_right ?_
            rintro ⟨c', hc', hd'⟩
            exact ⟨c', hleft ▸ List.mem_append_right _ hc', hd'⟩
          · exact .inr ⟨c', hc', hd⟩
      put := fun hcur service hs host hr ↦ by
        rcases h.put hcur service hs host hr with hin | hp | ⟨c', hc', hp⟩
        · exact .inl hin
        · exact .inr (.inl hp)
        · rcases hmem c' hc' with rfl | hc'
          · exact hputs hcur service hs host hp hr
          · exact .inr (.inr ⟨c', hc', hp⟩) }
  simp only [DiscoveryState.next] at hx
  split at hx
  · next key host hc =>
    cases hx
    refine hlost _ hc (fun service _ host' hd ↦ hd.elim) fun hcur service hs host' hp hr ↦ ?_
    obtain ⟨rfl, rfl⟩ := hp
    exact hlose _ hc (hfollow ▸ hs) hcur hr
  · next key host hc =>
    cases hx
    refine hlost _ hc (fun service hs host' hd ↦ ?_) fun _ service _ host' hp ↦ hp.elim
    obtain ⟨rfl, rfl⟩ := hd
    exact hlose _ hc (hfollow ▸ hs)
  · cases hx

/-- The watcher's thread goes on. -/
theorem watch_step (h : DiscoveryInv follow s) (hwatch : ∀ c ∈ s.events.head?, s.WatchOk c)
    (hx : s.next .watch = some s') : DiscoveryInv follow s' := by
  obtain ⟨⟨m', events'⟩, ha, rfl⟩ := Option.map_eq_some_iff.1 hx
  cases he : s.events with
  | nil =>
    rw [he] at ha
    cases ha
  | cons c cs =>
    rw [he] at ha
    obtain ⟨rfl, rfl⟩ := Prod.mk.inj (Option.some.inj ha)
    have hans := h.answered
    have hdropped := h.dropped
    have hput := h.put
    simp only [he, List.exists_mem_cons_iff] at hans hdropped hput
    have hok : c.Ok follow s.manager := h.callbacks c (by simp [he])
    obtain ⟨hout, hm, hkept⟩ := Callback.step_spec h.manager hok
    -- the other callbacks stay in order
    have hothers : ∀ c' ∈ cs ++ s.sync, c'.Ok follow (c.step s.manager).1 := by
      intro c' hc'
      refine (h.callbacks c' ?_).mono hkept
      rw [he]
      exact List.mem_cons_of_mem c hc'
    have hwatch' : s.WatchOk c := hwatch c (by rw [he]; rfl)
    generalize c.step s.manager = x at hout hm hothers
    cases hout with
    | moved hch hok' hputs hdrops =>
      exact {
        h with
        manager := hm
        callbacks := List.forall_mem_cons.2 ⟨hok', hothers⟩
        answered := hans.moved hputs
        dropped := fun service host hin ↦ by
          rw [Option.toList_some, List.singleton_append, List.exists_mem_cons_iff, hdrops]
          exact hdropped service host ((hch _ _).1 hin)
        put := fun hcur service hs host hr ↦ by
          rw [Option.toList_some, List.singleton_append, List.exists_mem_cons_iff, hputs, hch]
          exact hput hcur service hs host hr }
    | idle hputs hdrops =>
      exact {
        h with
        callbacks := hothers
        answered := hans.2
        dropped := fun service host hin ↦ by
          rcases hdropped service host hin with hr | hd | hd
          · exact .inl hr
          · exact absurd hin (hdrops service host hd)
          · exact .inr hd
        put := fun hcur service hs host hr ↦ by
          rcases hput hcur service hs host hr with hin | hp | hp | hp
          · exact .inl hin
          · exact .inr (.inl hp)
          · exact .inl (hputs service hs host hp)
          · exact .inr (.inr hp) }
    | added hc hch =>
      subst hc
      exact {
        h with
        manager := hm
        callbacks := hothers
        answered := hans.2
        dropped := fun service host hin ↦ by
          rcases (hch _ _).1 hin with hin | ⟨rfl, rfl⟩
          · rcases hdropped service host hin with hr | hd | hd
            · exact .inl hr
            · exact hd.elim
            · exact .inr hd
          · exact hans.1 _ hok.1 _ ⟨rfl, rfl⟩
        put := fun hcur service hs host hr ↦ by
          rw [hch]
          rcases hput hcur service hs host hr with hin | hp | ⟨rfl, rfl⟩ | hp
          · exact .inl (.inl hin)
          · exact .inr (.inl hp)
          · exact .inl (.inr ⟨rfl, rfl⟩)
          · exact .inr (.inr hp) }
    | @removed m' removed_service removed_host hc hch =>
      subst hc
      exact {
        h with
        manager := hm
        callbacks := hothers
        answered := hans.2
        dropped := fun service host hin ↦ by
          obtain ⟨hin, hne⟩ := (hch _ _).1 hin
          rcases hdropped service host hin with hr | ⟨rfl, rfl⟩ | hd
          · exact .inl hr
          · exact absurd ⟨rfl, rfl⟩ hne
          · exact .inr hd
        put := fun hcur service hs host hr ↦ by
          rw [hch]
          rcases hput hcur service hs host hr with hin | hp | hp | hp
          · by_cases heq : service = removed_service ∧ host = removed_host
            · obtain ⟨rfl, rfl⟩ := heq
              have hback := hwatch' hcur hr
              rw [he] at hback
              exact .inr (.inr hback)
            · exact .inl ⟨hin, heq⟩
          · exact .inr (.inl hp)
          · exact hp.elim
          · exact .inr (.inr hp) }

/-- `full_sync_` goes on. -/
theorem sync_step (h : DiscoveryInv follow s) (hsync : ∀ c ∈ s.sync.head?, s.SyncOk c)
    (hx : s.next .sync = some s') : DiscoveryInv follow s' := by
  obtain ⟨⟨m', sync'⟩, ha, rfl⟩ := Option.map_eq_some_iff.1 hx
  cases he : s.sync with
  | nil =>
    rw [he] at ha
    cases ha
  | cons c cs =>
    rw [he] at ha
    obtain ⟨rfl, rfl⟩ := Prod.mk.inj (Option.some.inj ha)
    have hput := h.put
    have hadds := h.adds
    simp only [he, List.exists_mem_cons_iff, List.forall_mem_cons] at hput hadds
    have hok : c.Ok follow s.manager := h.callbacks c (by simp [he])
    obtain ⟨hout, hm, hkept⟩ := Callback.step_spec h.manager hok
    have hevents : ∀ c' ∈ s.events, c'.Ok follow (c.step s.manager).1 := fun c' hc' ↦
      (h.callbacks c' (List.mem_append_left _ hc')).mono hkept
    have hothers : ∀ c' ∈ cs, c'.Ok follow (c.step s.manager).1 := by
      intro c' hc'
      refine (h.callbacks c' (List.mem_append_right _ ?_)).mono hkept
      rw [he]
      exact List.mem_cons_of_mem c hc'
    have hsync' : s.SyncOk c := hsync c (by rw [he]; rfl)
    generalize c.step s.manager = x at hout hm hothers hevents
    cases hout with
    | moved hch hok' hputs hdrops =>
      exact {
        h with
        manager := hm
        callbacks := List.forall_mem_append.2 ⟨hevents, List.forall_mem_cons.2 ⟨hok', hothers⟩⟩
        adds := List.forall_mem_cons.2 ⟨fun service host hd ↦ hadds.1 service host
          ((hdrops service host).1 hd), hadds.2⟩
        dropped := fun service host hin ↦ h.dropped service host ((hch _ _).1 hin)
        put := fun hcur service hs host hr ↦ by
          rw [Option.toList_some, List.singleton_append, List.exists_mem_cons_iff, hputs, hch]
          exact hput hcur service hs host hr }
    | idle hputs hdrops =>
      exact {
        h with
        callbacks := List.forall_mem_append.2 ⟨hevents, hothers⟩
        adds := hadds.2
        put := fun hcur service hs host hr ↦ by
          rcases hput hcur service hs host hr with hin | (hp | hp) | hp
          · exact .inl hin
          · exact .inl (hputs service hs host hp)
          · exact .inr (.inl hp)
          · exact .inr (.inr hp) }
    | added hc hch =>
      subst hc
      exact {
        h with
        manager := hm
        callbacks := List.forall_mem_append.2 ⟨hevents, hothers⟩
        adds := hadds.2
        dropped := fun service host hin ↦ by
          rcases (hch _ _).1 hin with hin | ⟨rfl, rfl⟩
          · exact h.dropped service host hin
          · exact hsync'
        put := fun hcur service hs host hr ↦ by
          rw [hch]
          rcases hput hcur service hs host hr with hin | (⟨rfl, rfl⟩ | hp) | hp
          · exact .inl (.inl hin)
          · exact .inl (.inr ⟨rfl, rfl⟩)
          · exact .inr (.inl hp)
          · exact .inr (.inr hp) }
    | removed hc hch =>
      subst hc
      exact absurd ⟨rfl, rfl⟩ (hadds.1 _ _)

/-- `full_sync_` lists the keys. -/
theorem ls_step {kvs : List (Σ _ : String, String)} (h : DiscoveryInv follow s)
    (hx : s.next (.ls kvs) = some s') : DiscoveryInv follow s' := by
  simp only [DiscoveryState.next] at hx
  split at hx
  · next hls =>
    cases hx
    exact {
      h with
      callbacks := List.forall_mem_append.2
        ⟨fun c hc ↦ h.callbacks c (List.mem_append_left _ hc),
          List.forall_mem_map.2 fun e he ↦ h.keys e (hls.2.mem_iff.1 he)⟩
      adds := List.forall_mem_map.2 fun _ _ _ _ hd ↦ hd
      put := fun _ service _ host ⟨e, he, hs, hh⟩ ↦
        .inr (.inl ⟨_, List.mem_map_of_mem (hls.2.mem_iff.2 he), hs, hh⟩)
      listed := fun r hr ↦ (Option.some.inj hr).ge }
  · cases hx

/-- A channel is chosen. -/
theorem choose_step {key : String} (h : DiscoveryInv follow s)
    (hx : s.next (.choose key) = some s') : DiscoveryInv follow s' := by
  cases hx
  obtain ⟨hservices, -, hch⟩ := choose_spec s.manager key
  exact {
    h with
    manager := h.manager.choose key
    callbacks := fun c hc ↦ (h.callbacks c hc).mono fun service _ hl ↦ hservices ▸ hl
    dropped := fun service host hin ↦ h.dropped service host (hch service ▸ hin)
    put := fun hcur service hs host hr ↦ by
      rw [hch]
      exact h.put hcur service hs host hr }

theorem step {i : DiscoveryStep} (h : DiscoveryInv follow s) (hG : Repairable i s)
    (hx : s.next i = some s') : DiscoveryInv follow s' := by
  have hfollow := h.manager.follows
  cases i with
  | put key host =>
    rw [Repairable, hfollow] at hG
    exact h.put_step hG.1 hG.2 hx
  | delete key => exact h.delete_step hx
  | lose i => exact h.lose_step hG hx
  | watch => exact h.watch_step hG hx
  | ls kvs => exact h.ls_step hx
  | sync => exact h.sync_step hG hx
  | choose key => exact h.choose_step hx

theorem fresh (names : List String) :
    DiscoveryInv names.toFinset (DiscoveryState.fresh names) where
  manager := ManagerOk.start names
  keys _ he := by cases he
  callbacks _ hc := by cases hc
  adds _ hc := by cases hc
  answered := trivial
  dropped _ _ hin := by
    rw [DiscoveryState.fresh, ServiceManager.declared_all] at hin
    simp [ServiceManager.object] at hin
  put hcur := by cases hcur
  listed _ hr := by cases hr

/-- When no event is outstanding, the channels are those of the registered hosts. -/
theorem mem_channels_iff (h : DiscoveryInv follow s) (hs : s.Settled) {service host : String}
    (hf : service ∈ follow) :
    host ∈ (s.manager.object service).channels ↔ s.Hosts service host := by
  constructor
  · intro hin
    rcases h.dropped service host hin with hr | ⟨c, hc, -⟩
    · exact hr
    · rw [hs.watched] at hc
      cases hc
  · intro hr
    rcases h.put hs.current service hf host hr with hin | ⟨c, hc, -⟩ | ⟨c, hc, -⟩
    · exact hin
    · rw [hs.synced] at hc
      cases hc
    · rw [hs.watched] at hc
      cases hc

end DiscoveryInv

/-! ### Whom the service reaches -/

section Chooses

variable {follow : Finset String} {m : ServiceManager} {service host : String}

/-- A choice is of a channel that was there before. -/
theorem mem_of_chooses (hm : ManagerOk follow m) (hs : service ∈ follow)
    (h : m.Chooses service host) : host ∈ (m.object service).channels := by
  obtain ⟨k, hk⟩ := h
  induction k generalizing m with
  | zero =>
    rw [List.replicate_zero, List.foldl_nil, ServiceManager.choose] at hk
    cases hl : m.services.lookup service with
    | none =>
      rw [hl] at hk
      cases hk
    | some r =>
      obtain rfl := hm.own service hs r hl
      rw [hl] at hk
      exact ServiceChannel.mem_of_choose hk
  | succ k ih => exact (choose_spec m service).2.2 service ▸ ih (hm.choose service) hk

/-- Every channel comes up, when the turn can reach it. -/
theorem chooses_of_mem (hm : ManagerOk follow m)
    (hfew : (m.object service).channels.length ≤ 2 ^ 32)
    (h : host ∈ (m.object service).channels) : m.Chooses service host := by
  obtain ⟨j, hj, rfl⟩ := List.mem_iff_getElem.1 h
  obtain ⟨k, hk⟩ := exists_choose (hm.entered service _ h).2 (Nat.lt_of_lt_of_le hj hfew) hj
  exact ⟨k, hk.trans (List.getElem?_eq_getElem hj)⟩

end Chooses

/-- **Discovery converges.** In a run in which nothing that `full_sync_` cannot repair goes wrong,
once it has listed the current registrations and no event is outstanding, the hosts that `choose` of
a followed service can return are those registered for it. -/
theorem discovery_converges (names : List String) {s : DiscoveryState}
    (hr : discovery.Reach Repairable (DiscoveryState.fresh names) s) (hs : s.Settled)
    (hfew : s.registered.entries.length ≤ 2 ^ 32) :
    ∀ service ∈ names, ∀ host, s.manager.Chooses service host ↔ s.Hosts service host := by
  intro service hmem host
  have hf : service ∈ names.toFinset := List.mem_toFinset.2 hmem
  have hinv : DiscoveryInv names.toFinset s :=
    Labelled.invariant hr (DiscoveryInv.fresh names) DiscoveryInv.step
  have hiff : ∀ host, host ∈ (s.manager.object service).channels ↔ s.Hosts service host :=
    fun host ↦ hinv.mem_channels_iff hs hf
  -- there are no more channels than keys
  have hlen : (s.manager.object service).channels.length ≤ 2 ^ 32 := by
    have hsub : (s.manager.object service).channels ⊆ s.registered.entries.map (·.2) := by
      intro h hin
      obtain ⟨e, he, -, rfl⟩ := (hiff h).1 hin
      exact List.mem_map_of_mem he
    have hle := ((s.manager.object service).nodup.subperm hsub).length_le
    rw [List.length_map] at hle
    exact hle.trans hfew
  rw [← hiff]
  exact ⟨mem_of_chooses hinv.manager hf, chooses_of_mem hinv.manager hlen⟩

/-! ### Concrete runs -/

/-- Two instances of the push service are registered. The PUT of the second one is lost, and the
listing makes up for it; the first one goes, and its DELETE is delivered. -/
def lostPut : List DiscoveryStep :=
  [.put "/service/push/a" "10.0.0.1", .watch, .watch, .watch, .put "/service/push/b" "10.0.0.2",
    .lose 0, .ls [⟨"/service/push/a", "10.0.0.1"⟩, ⟨"/service/push/b", "10.0.0.2"⟩],
    .sync, .sync, .sync, .sync, .sync, .delete "/service/push/a", .watch, .watch,
    .ls [⟨"/service/push/b", "10.0.0.2"⟩], .sync, .sync]

/-- The process ends up with the one that is left. -/
theorem discovery_converges_lost_put :
    ∃ s, discovery.Reach Repairable (DiscoveryState.fresh ["/service/push"]) s ∧
      s.Hosts "/service/push" "10.0.0.2" ∧
      ∀ service ∈ ["/service/push"], ∀ host,
        s.manager.Chooses service host ↔ s.Hosts service host := by
  obtain ⟨s, hr, hh, hcur, hsync, hev, hfew⟩ := Labelled.exists_of_run discovery Repairable
    (DiscoveryState.fresh ["/service/push"]) lostPut
    (fun s ↦ s.Hosts "/service/push" "10.0.0.2" ∧ s.Current ∧ s.sync = [] ∧ s.events = [] ∧
      s.registered.entries.length ≤ 2 ^ 32) (by decide +kernel)
  exact ⟨s, hr, hh, discovery_converges ["/service/push"] hr ⟨hcur, hsync, hev⟩ hfew⟩

/-- An instance is registered and goes, and its DELETE is lost. -/
def lostDelete : List DiscoveryStep :=
  [.put "/service/push/a" "10.0.0.1", .watch, .watch, .watch, .delete "/service/push/a", .lose 0,
    .ls []]

/-- The listing is empty, and the process still has the channel. -/
theorem discovery_does_not_converge :
    ¬∀ s, discovery.Reach (fun _ _ ↦ True) (DiscoveryState.fresh ["/service/push"]) s → s.Settled →
      s.registered.entries.length ≤ 2 ^ 32 → ∀ service ∈ ["/service/push"], ∀ host,
        s.manager.Chooses service host ↔ s.Hosts service host := by
  intro hall
  obtain ⟨s, hr, hc, hh, hcur, hsync, hev, hfew⟩ := Labelled.exists_of_run discovery
    (fun _ _ ↦ True) (DiscoveryState.fresh ["/service/push"]) lostDelete
    (fun s ↦ (s.manager.choose "/service/push").1 = some "10.0.0.1" ∧
      ¬s.Hosts "/service/push" "10.0.0.1" ∧ s.Current ∧ s.sync = [] ∧ s.events = [] ∧
      s.registered.entries.length ≤ 2 ^ 32) (by decide +kernel)
  exact hh ((hall s hr ⟨hcur, hsync, hev⟩ hfew _ List.mem_cons_self _).1 ⟨0, hc⟩)

end ChatNow
