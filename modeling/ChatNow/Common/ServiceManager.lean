import Mathlib.Data.List.AList
import Mathlib.Data.Finset.Lattice.Lemmas
import Mathlib.Data.Finset.Dedup

/-!
# ServiceManager

`ServiceChannel` and `ServiceManager` of `common/mq/channel.hpp`: the channels to the instances of a
service, and the map through which they are chosen. The map has two kinds of keys, the name of a
followed service and the full path of an instance, and both point to the one `ServiceChannel` of the
service.

A channel is named by the host that it was initialised for, and a `ServiceChannel` object by the
service it was made for: an object is made only when its service is not in the map, it is put there
at once, and nothing takes a key out of the map. Whether `brpc::Channel::Init` succeeds is part of
the announcement that calls it. `append` has two lock sections, `has` and `add`, which are kept
apart for the threads that meet there.
-/

namespace ChatNow

/-- `ServiceChannel`. The keys of `_hosts` are the hosts of `_channels`, as each lock section that
writes one writes the other. -/
structure ServiceChannel where
  service_name : String
  index : UInt32 := 0
  channels : List String := []
  nodup : channels.Nodup := by exact List.nodup_nil

namespace ServiceChannel

variable (c : ServiceChannel) (host : String)

/-- Whether `_hosts` has the host. -/
def has : Bool := c.channels.contains host

/-- The second lock section of `append`, with its double check. -/
def add : ServiceChannel :=
  if h : host ∈ c.channels then c
  else
    { c with
      channels := c.channels ++ [host]
      nodup := List.nodup_append.2 ⟨c.nodup, List.nodup_singleton host, fun _ ha _ hb e ↦
        h (List.mem_singleton.1 hb ▸ e ▸ ha)⟩ }

/-- `append`, where `init` is whether the channel could be initialised. -/
def append (init : Bool) : ServiceChannel :=
  if c.has host then c
  else if !init then c
  else c.add host

/-- `remove`. -/
def remove : ServiceChannel :=
  { c with channels := c.channels.erase host, nodup := c.nodup.erase host }

/-- `choose`: the next channel in turn, null when there is none. -/
def choose : Option String × ServiceChannel :=
  if c.channels = [] then (none, c)
  else (c.channels[c.index.toNat % c.channels.length]?, { c with index := c.index + 1 })

variable {c host}

theorem mem_add {h : String} : h ∈ (c.add host).channels ↔ h ∈ c.channels ∨ h = host := by
  unfold add
  split
  · next hin => exact ⟨.inl, fun o ↦ o.elim id fun e ↦ e ▸ hin⟩
  · simp

theorem mem_append {init : Bool} {h : String} :
    h ∈ (c.append host init).channels ↔ h ∈ c.channels ∨ init = true ∧ h = host := by
  unfold append
  split
  · next hin =>
    have hin : host ∈ c.channels := by simpa [has] using hin
    exact ⟨.inl, fun o ↦ o.elim id fun e ↦ e.2 ▸ hin⟩
  · cases init with
    | false => simp
    | true => simpa using mem_add

theorem mem_remove {h : String} : h ∈ (c.remove host).channels ↔ h ≠ host ∧ h ∈ c.channels :=
  c.nodup.mem_erase_iff

@[simp] theorem choose_channels : c.choose.2.channels = c.channels := by
  unfold choose
  split <;> rfl

theorem choose_fst (h : c.channels ≠ []) :
    c.choose.1 = c.channels[c.index.toNat % c.channels.length]? := by
  rw [choose, if_neg h]

theorem choose_index (h : c.channels ≠ []) : c.choose.2.index = c.index + 1 := by
  rw [choose, if_neg h]

/-- Only a channel of the set is chosen. -/
theorem mem_of_choose {h : String} (hc : c.choose.1 = some h) : h ∈ c.channels := by
  unfold choose at hc
  split at hc
  · cases hc
  · exact List.mem_of_getElem? hc

theorem choose_isSome (h : c.channels ≠ []) : c.choose.1.isSome := by
  rw [choose_fst h]
  have hlt := Nat.mod_lt c.index.toNat (List.length_pos_of_ne_nil h)
  simp [List.getElem?_eq_getElem hlt]

end ServiceChannel

/-- `getServiceName`: the path up to its last slash. -/
def getServiceName (service_instance : String) : String :=
  match service_instance.toList.reverse.dropWhile (· ≠ '/') with
  | [] => service_instance
  | _ :: rest => String.ofList rest.reverse

/-- `ServiceManager`. A value of `services` is the name of the object that the pointer holds. -/
structure ServiceManager where
  follow_services : Finset String := ∅
  services : AList fun _ : String ↦ String := ∅
  objects : AList fun _ : String ↦ ServiceChannel := ∅

namespace ServiceManager

variable (m : ServiceManager)

/-- The object of the service. -/
def object (service : String) : ServiceChannel :=
  (m.objects.lookup service).getD { service_name := service }

/-- The manager with another state of the object. -/
def setObject (service : String) (c : ServiceChannel) : ServiceManager :=
  { m with objects := m.objects.insert service c }

/-- `declared`. -/
def declared (service_name : String) : ServiceManager :=
  { m with follow_services := insert service_name m.follow_services }

/-- The lock section of `onServiceOnline`: the object of the instance's service, made if need be, is
entered under the path as well. Null when the service is not followed. -/
def enter (service_instance : String) : ServiceManager × Option String :=
  let service_name := getServiceName service_instance
  if service_name ∉ m.follow_services then (m, none)
  else
    match m.services.lookup service_name with
    | some service =>
      ({ m with services := m.services.insert service_instance service }, some service)
    | none =>
      ({ m with
          services := (m.services.insert service_name service_name).insert service_instance
            service_name
          objects := m.objects.insert service_name { service_name } }, some service_name)

/-- `onServiceOnline`. -/
def onServiceOnline (service_instance host : String) (init : Bool) : ServiceManager :=
  match m.enter service_instance with
  | (m, none) => m
  | (m, some service) => m.setObject service ((m.object service).append host init)

/-- `onServiceOffline`. -/
def onServiceOffline (service_instance host : String) : ServiceManager :=
  match m.services.lookup (getServiceName service_instance) with
  | none => m
  | some service => m.setObject service ((m.object service).remove host)

/-- `choose`, for a service name or an instance path. -/
def choose (key : String) : Option String × ServiceManager :=
  match m.services.lookup key with
  | none => (none, m)
  | some service =>
    ((m.object service).choose.1, m.setObject service (m.object service).choose.2)

variable {m} {service service' : String} {c : ServiceChannel}

@[simp] theorem object_setObject : (m.setObject service c).object service = c := by
  simp [object, setObject]

theorem object_setObject_ne (h : service' ≠ service) :
    (m.setObject service c).object service' = m.object service' := by
  simp [object, setObject, AList.lookup_insert_ne h]

@[simp] theorem setObject_services : (m.setObject service c).services = m.services := rfl

@[simp] theorem setObject_follow :
    (m.setObject service c).follow_services = m.follow_services := rfl

/-- A key of the map chooses at the object that it points to. -/
theorem choose_of_lookup {key : String} (h : m.services.lookup key = some service) :
    m.choose key =
      ((m.object service).choose.1, m.setObject service (m.object service).choose.2) := by
  rw [choose, h]

/-- What `declared` at start leaves: the followed services, and no channel. -/
theorem declared_all (names : List String) :
    names.foldl declared {} = { follow_services := names.toFinset } := by
  have hfold : ∀ m : ServiceManager, names.foldl declared m =
      { m with follow_services := names.toFinset ∪ m.follow_services } := by
    induction names with
    | nil => exact fun m ↦ by simp
    | cons n names ih =>
      intro m
      rw [List.foldl_cons, ih, List.toFinset_cons, Finset.insert_union, ← Finset.union_insert]
      rfl
  rw [hfold, Finset.union_empty]

end ServiceManager

end ChatNow
