import ChatNow.Common.ServiceManager
import Mathlib.Algebra.Group.Nat.Defs
import Mathlib.Data.Finset.Filter
import Mathlib.Data.Finset.Erase
import Mathlib.Data.Finset.Insert

/-!
# Direct addressing

What `choose` of an instance path returns. All instances of a service share one `ServiceChannel`,
and the path of an instance points to it as the service's name does, so `choose` of a path takes
turns over the channels of the whole service. It reaches the announced host, whatever was chosen
before, exactly when no other instance of the service has a channel (`instance_is_chosen`).

A history is a list of announcements and `choose` calls. `Announced.manager` is what a history
leaves of the manager; `choose` calls only move the index.
-/

namespace ChatNow

/-- An announcement of etcd. `init` is whether the channel to the host could be initialised. -/
inductive Announcement
  | online (service_instance host : String) (init : Bool)
  | offline (service_instance host : String)

namespace Announcement

/-- The path that is announced. -/
def path : Announcement → String
  | online p _ _ | offline p _ => p

/-- The host that is announced. -/
def host : Announcement → String
  | online _ h _ | offline _ h => h

/-- The instances that are alive after the announcement. -/
def alive (ps : Finset String) : Announcement → Finset String
  | online p _ _ => insert p ps
  | offline p _ => ps.erase p

/-- The instances that have a channel after the announcement. -/
def joined (ps : Finset String) : Announcement → Finset String
  | online p _ init => if init then insert p ps else ps
  | offline p _ => ps.erase p

end Announcement

/-- A call of the manager. -/
inductive ManagerCall
  | announce (a : Announcement)
  | choose (key : String)

namespace ManagerCall

/-- The manager after the call. -/
def exec (m : ServiceManager) : ManagerCall → ServiceManager
  | announce (.online p h init) => m.onServiceOnline p h init
  | announce (.offline p h) => m.onServiceOffline p h
  | choose key => (m.choose key).2

def announcement? : ManagerCall → Option Announcement
  | announce a => some a
  | choose _ => none

end ManagerCall

/-- The announcements of a history. -/
def announcements (calls : List ManagerCall) : List Announcement :=
  calls.filterMap ManagerCall.announcement?

/-- The instances that are alive after the announcements. -/
def alive (as : List Announcement) : Finset String := as.foldl Announcement.alive ∅

/-- The instances that have a channel after the announcements. -/
def joined (as : List Announcement) : Finset String := as.foldl Announcement.joined ∅

/-- The manager of a process that follows the services, after the calls. -/
def ServiceManager.run (follow : List String) (calls : List ManagerCall) : ServiceManager :=
  calls.foldl ManagerCall.exec (follow.foldl declared {})

/-- The announcements are of instances of followed services, at hosts of their own: an instance is
not itself a followed service, it is announced at its own host, and no two share a host. -/
structure Announced (follow : List String) (addr : String → String) (as : List Announcement) :
    Prop where
  followed : ∀ a ∈ as, getServiceName a.path ∈ follow
  not_service : ∀ a ∈ as, a.path ∉ follow
  host : ∀ a ∈ as, a.host = addr a.path
  distinct : ∀ a ∈ as, ∀ b ∈ as, addr a.path = addr b.path → a.path = b.path

/-- The instance was announced online. -/
def Registered (as : List Announcement) (p : String) : Prop :=
  ∃ h init, .online p h init ∈ as

/-! ### What a history leaves -/

namespace ServiceManager

variable {m : ServiceManager} {p s : String}

/-- **The lock section of `onServiceOnline`**, for a followed service that has no object or its own:
the path and the service's name point to the service's object, which is new if there was none. -/
theorem enter_spec (hp : getServiceName p = s) (hs : s ∈ m.follow_services)
    (hown : ∀ r, m.services.lookup s = some r → r = s) :
    ∃ m', m.enter p = (m', some s) ∧ m'.follow_services = m.follow_services ∧
      (∀ k, m'.services.lookup k = if k = p ∨ k = s then some s else m.services.lookup k) ∧
      ∀ k, m'.object k =
        if k = s ∧ m.services.lookup s = none then { service_name := s } else m.object k := by
  subst hp
  rw [enter, if_neg (not_not_intro hs)]
  cases hl : m.services.lookup (getServiceName p) with
  | some r =>
    obtain rfl := hown r hl
    refine ⟨_, rfl, rfl, fun k ↦ ?_, fun k ↦ by simp [object]⟩
    by_cases hk : k = p
    · subst hk
      simp
    · rw [AList.lookup_insert_ne hk]
      by_cases hks : k = getServiceName p
      · subst hks
        simpa using hl
      · simp [hk, hks]
  | none =>
    refine ⟨_, rfl, rfl, fun k ↦ ?_, fun k ↦ ?_⟩
    · by_cases hk : k = p
      · subst hk
        simp
      · rw [AList.lookup_insert_ne hk]
        by_cases hks : k = getServiceName p
        · subst hks
          simp
        · simp [AList.lookup_insert_ne hks, hk, hks]
    · by_cases hks : k = getServiceName p
      · subst hks
        simp [object]
      · simp [object, AList.lookup_insert_ne hks, hks]

end ServiceManager

/-- What the manager knows after the announcements: under a followed service and under each of its
instances that was announced stands the service's own object, with a channel for each host of an
instance that has one. -/
structure Knows (follow : List String) (addr : String → String) (as : List Announcement)
    (m : ServiceManager) : Prop where
  follows : m.follow_services = follow.toFinset
  own : ∀ s ∈ follow, ∀ r, m.services.lookup s = some r → r = s
  service : ∀ p, Registered as p →
    m.services.lookup (getServiceName p) = some (getServiceName p)
  entered : ∀ p, Registered as p → m.services.lookup p = some (getServiceName p)
  hosts : ∀ s ∈ follow, ∀ h, h ∈ (m.object s).channels ↔
    ∃ p ∈ joined as, getServiceName p = s ∧ addr p = h

section History

variable {follow : List String} {addr : String → String} {as : List Announcement}
  {a : Announcement} {m : ServiceManager} {p s : String}

theorem Registered.append (h : Registered as p) : Registered (as ++ [a]) p := by
  obtain ⟨h, init, hm⟩ := h
  exact ⟨h, init, List.mem_append_left _ hm⟩

theorem joined_append : joined (as ++ [a]) = a.joined (joined as) := by
  rw [joined, List.foldl_append]
  rfl

/-- An instance with a channel was announced. -/
theorem registered_of_joined (h : p ∈ joined as) : Registered as p := by
  induction as using List.reverseRecOn with
  | nil => simp [joined] at h
  | append_singleton as a ih =>
    rw [joined_append] at h
    cases a with
    | online q host init =>
      rw [Announcement.joined] at h
      split at h
      · obtain rfl | h := Finset.mem_insert.1 h
        · exact ⟨host, init, by simp⟩
        · exact (ih h).append
      · exact (ih h).append
    | offline q host => exact (ih (Finset.mem_of_mem_erase h)).append

/-- A registered path is announced in the list. -/
theorem Registered.exists_path (h : Registered as p) : ∃ a ∈ as, a.path = p := by
  obtain ⟨h, init, hm⟩ := h
  exact ⟨_, hm, rfl⟩

theorem Announced.left (h : Announced follow addr (as ++ [a])) : Announced follow addr as where
  followed b hb := h.followed b (List.mem_append_left _ hb)
  not_service b hb := h.not_service b (List.mem_append_left _ hb)
  host b hb := h.host b (List.mem_append_left _ hb)
  distinct b hb c hc := h.distinct b (List.mem_append_left _ hb) c (List.mem_append_left _ hc)

theorem Announced.service_mem (h : Announced follow addr as) (hp : Registered as p) :
    getServiceName p ∈ follow := by
  obtain ⟨a, ha, rfl⟩ := hp.exists_path
  exact h.followed a ha

theorem Announced.path_notMem (h : Announced follow addr as) (hp : Registered as p) :
    p ∉ follow := by
  obtain ⟨a, ha, rfl⟩ := hp.exists_path
  exact h.not_service a ha

/-- Instances at one host are one instance. -/
theorem Announced.eq_of_addr {q : String} (h : Announced follow addr as) (hq : Registered as q)
    (hp : Registered as p) (e : addr q = addr p) : q = p := by
  obtain ⟨b, hb, rfl⟩ := hq.exists_path
  obtain ⟨c, hc, rfl⟩ := hp.exists_path
  exact h.distinct b hb c hc e

namespace Knows

/-- An announcement of an instance that comes online. -/
theorem online {host : String} {init : Bool} (h : Knows follow addr as m)
    (ha : Announced follow addr (as ++ [.online p host init])) :
    Knows follow addr (as ++ [.online p host init]) (m.onServiceOnline p host init) := by
  have hpf : getServiceName p ∈ follow := ha.followed (.online p host init) (by simp)
  have hpn : p ∉ follow := ha.not_service (.online p host init) (by simp)
  have hhost : host = addr p := ha.host (.online p host init) (by simp)
  obtain ⟨m', henter, hfollow, hservices, hobject⟩ := m.enter_spec (p := p) rfl
    (by rw [h.follows]; exact List.mem_toFinset.2 hpf) (h.own _ hpf)
  have hnew : ∀ {q}, Registered (as ++ [.online p host init]) q → q = p ∨ Registered as q := by
    rintro q ⟨g, i, hm⟩
    rcases List.mem_append.1 hm with hm | hm
    · exact .inr ⟨g, i, hm⟩
    · cases List.mem_singleton.1 hm
      exact .inl rfl
  rw [ServiceManager.onServiceOnline, henter]
  refine ⟨hfollow.trans h.follows, fun s hs r hr ↦ ?_, fun q hq ↦ ?_, fun q hq ↦ ?_,
    fun s hs g ↦ ?_⟩
  · rw [ServiceManager.setObject_services, hservices] at hr
    split at hr
    · next e =>
      obtain rfl | rfl := e
      · exact absurd hs hpn
      · exact (Option.some.inj hr).symm
    · exact h.own s hs r hr
  · rw [ServiceManager.setObject_services, hservices]
    split
    · next e =>
      obtain e | e := e
      · exact absurd (e ▸ ha.service_mem hq) hpn
      · rw [e]
    · next e =>
      obtain rfl | hq := hnew hq
      · exact absurd (.inr rfl) e
      · exact h.service q hq
  · rw [ServiceManager.setObject_services, hservices]
    split
    · next e =>
      obtain rfl | rfl := e
      · rfl
      · exact absurd hpf (ha.path_notMem hq)
    · next e =>
      obtain rfl | hq := hnew hq
      · exact absurd (.inl rfl) e
      · exact h.entered q hq
  · rw [joined_append]
    by_cases hsp : s = getServiceName p
    · subst hsp
      rw [ServiceManager.object_setObject, ServiceChannel.mem_append]
      -- a new object stands for a service none of whose instances had a channel
      have hold : g ∈ (m'.object (getServiceName p)).channels ↔
          ∃ q ∈ joined as, getServiceName q = getServiceName p ∧ addr q = g := by
        rw [hobject]
        split
        · next e =>
          refine ⟨fun hg ↦ by simp at hg, ?_⟩
          rintro ⟨q, hq, hqs, -⟩
          have := h.service q (registered_of_joined hq)
          rw [hqs, e.2] at this
          cases this
        · exact h.hosts _ hpf g
      rw [hold, hhost]
      cases init with
      | false => simp [Announcement.joined]
      | true =>
        simp only [Announcement.joined, if_true, Finset.exists_mem_insert, true_and]
        exact or_comm.trans (or_congr eq_comm Iff.rfl)
    · rw [ServiceManager.object_setObject_ne hsp, hobject, if_neg fun e ↦ hsp e.1, h.hosts s hs]
      cases init with
      | false => rfl
      | true => simp [Announcement.joined, show getServiceName p ≠ s from fun e ↦ hsp e.symm]

/-- An announcement of an instance that goes offline. -/
theorem offline {host : String} (h : Knows follow addr as m)
    (ha : Announced follow addr (as ++ [.offline p host])) :
    Knows follow addr (as ++ [.offline p host]) (m.onServiceOffline p host) := by
  have hpf : getServiceName p ∈ follow := ha.followed (.offline p host) (by simp)
  have hhost : host = addr p := ha.host (.offline p host) (by simp)
  have hold : ∀ {q}, Registered (as ++ [.offline p host]) q → Registered as q := by
    rintro q ⟨g, i, hm⟩
    rcases List.mem_append.1 hm with hm | hm
    · exact ⟨g, i, hm⟩
    · cases List.mem_singleton.1 hm
  rw [ServiceManager.onServiceOffline]
  cases hl : m.services.lookup (getServiceName p) with
  | none =>
    refine ⟨h.follows, h.own, fun q hq ↦ h.service q (hold hq), fun q hq ↦ h.entered q (hold hq),
      fun s hs g ↦ ?_⟩
    have hnot : p ∉ joined as := by
      intro hj
      rw [h.service p (registered_of_joined hj)] at hl
      cases hl
    rw [joined_append, Announcement.joined, Finset.erase_eq_of_notMem hnot]
    exact h.hosts s hs g
  | some r =>
    obtain rfl := h.own _ hpf r hl
    refine ⟨h.follows, h.own, fun q hq ↦ h.service q (hold hq), fun q hq ↦ h.entered q (hold hq),
      fun s hs g ↦ ?_⟩
    rw [joined_append, Announcement.joined]
    by_cases hsp : s = getServiceName p
    · subst hsp
      rw [ServiceManager.object_setObject, ServiceChannel.mem_remove, h.hosts _ hpf, hhost]
      constructor
      · rintro ⟨hg, q, hq, hqs, rfl⟩
        exact ⟨q, Finset.mem_erase.2 ⟨fun e ↦ hg (e ▸ rfl), hq⟩, hqs, rfl⟩
      · rintro ⟨q, hq, hqs, rfl⟩
        obtain ⟨hqp, hq⟩ := Finset.mem_erase.1 hq
        refine ⟨fun e ↦ hqp ?_, q, hq, hqs, rfl⟩
        -- instances at one host are one instance
        obtain ⟨b, hb, rfl⟩ := (registered_of_joined hq).exists_path
        exact ha.distinct b (List.mem_append_left _ hb) (.offline p host) (by simp) e
    · rw [ServiceManager.object_setObject_ne hsp, h.hosts s hs]
      refine exists_congr fun q ↦ ?_
      rw [Finset.mem_erase]
      refine ⟨fun ⟨hq, hqs, e⟩ ↦ ⟨⟨fun eq ↦ hsp ?_, hq⟩, hqs, e⟩, fun ⟨hq, he⟩ ↦ ⟨hq.2, he⟩⟩
      rw [← hqs, eq]

/-- A choice leaves everything but the turn. -/
theorem choose (h : Knows follow addr as m) (key : String) :
    Knows follow addr as (m.choose key).2 := by
  rw [ServiceManager.choose]
  cases hl : m.services.lookup key with
  | none => exact h
  | some r =>
    refine ⟨h.follows, h.own, h.service, h.entered, fun s hs g ↦ ?_⟩
    by_cases hsr : s = r
    · subst hsr
      rw [ServiceManager.object_setObject, ServiceChannel.choose_channels]
      exact h.hosts s hs g
    · rw [ServiceManager.object_setObject_ne hsr]
      exact h.hosts s hs g

end Knows

/-- **What a history leaves of the manager.** -/
theorem Announced.knows {calls : List ManagerCall}
    (h : Announced follow addr (announcements calls)) :
    Knows follow addr (announcements calls) (ServiceManager.run follow calls) := by
  induction calls using List.reverseRecOn with
  | nil =>
    rw [ServiceManager.run, List.foldl_nil, ServiceManager.declared_all]
    refine ⟨rfl, fun s _ r hr ↦ by simp at hr, ?_, ?_, fun s _ g ↦ ?_⟩
    · rintro p ⟨g, i, hm⟩
      cases hm
    · rintro p ⟨g, i, hm⟩
      cases hm
    · simp [ServiceManager.object, announcements, joined]
  | append_singleton calls call ih =>
    rw [ServiceManager.run, List.foldl_append, ← ServiceManager.run]
    rw [announcements, List.filterMap_append, ← announcements] at h ⊢
    cases call with
    | choose key =>
      rw [show [ManagerCall.choose key].filterMap ManagerCall.announcement? = [] from rfl,
        List.append_nil] at h ⊢
      exact (ih h).choose key
    | announce a =>
      cases a with
      | online p host init => exact (ih h.left).online h
      | offline p host => exact (ih h.left).offline h

/-! ### Whom a path reaches -/

/-- `choose` of the path returns the channel to the instance's host while the instance is online,
and null while it is not, whatever was chosen before. -/
def DirectlyAddressed (follow : List String) (addr : String → String) (as : List Announcement)
    (p : String) : Prop :=
  ∀ calls, announcements calls = as →
    ((ServiceManager.run follow calls).choose p).1 = if p ∈ alive as then some (addr p) else none

/-- To choose again and again moves the turn of the service's object, and nothing else. -/
theorem foldl_choose (hp : m.services.lookup p = some s) (hc : (m.object s).channels ≠ []) (k : ℕ) :
    ∃ m', (List.replicate k (.choose p)).foldl ManagerCall.exec m = m' ∧
      m'.services.lookup p = some s ∧ (m'.object s).channels = (m.object s).channels ∧
      (m'.object s).index = (m.object s).index + UInt32.ofNat k := by
  induction k generalizing m with
  | zero => exact ⟨m, rfl, hp, rfl, (UInt32.add_zero _).symm⟩
  | succ k ih =>
    have hstep : (m.choose p).2 = m.setObject s (m.object s).choose.2 := by
      rw [ServiceManager.choose_of_lookup hp]
    obtain ⟨m', hm', hp', hc', hi'⟩ := ih (m := (m.choose p).2)
      (by rw [hstep]; exact hp)
      (by rwa [hstep, ServiceManager.object_setObject, ServiceChannel.choose_channels])
    rw [hstep, ServiceManager.object_setObject] at hc' hi'
    refine ⟨m', hm', hp', hc'.trans ServiceChannel.choose_channels, ?_⟩
    rw [hi', ServiceChannel.choose_index hc, UInt32.ofNat_add, UInt32.add_assoc,
      UInt32.add_comm 1]
    rfl

/-- **Every early place of the channel list comes up.** -/
theorem exists_choose (hp : m.services.lookup p = some s) {j : ℕ} (hj : j < 2 ^ 32)
    (hlt : j < (m.object s).channels.length) :
    ∃ k, (((List.replicate k (.choose p)).foldl ManagerCall.exec m).choose p).1 =
      (m.object s).channels[j]? := by
  have hc : (m.object s).channels ≠ [] := List.ne_nil_of_length_pos (Nat.zero_lt_of_lt hlt)
  obtain ⟨m', hm', hp', hc', hi'⟩ := foldl_choose hp hc (UInt32.ofNat j - (m.object s).index).toNat
  refine ⟨(UInt32.ofNat j - (m.object s).index).toNat, ?_⟩
  have hturn : (m'.object s).index = UInt32.ofNat j := by
    rw [hi', UInt32.ofNat_toNat, UInt32.add_comm, UInt32.sub_add_cancel]
  rw [hm', ServiceManager.choose_of_lookup hp', ServiceChannel.choose_fst (hc' ▸ hc), hturn, hc',
    UInt32.toNat_ofNat_of_lt' hj, Nat.mod_eq_of_lt hlt]

/-- The hosts of the channels that a path stands for are those of the instances of its service. -/
theorem Knows.mem_channels (h : Knows follow addr as m) (hp : getServiceName p ∈ follow)
    (g : String) : g ∈ (m.object (getServiceName p)).channels ↔
      ∃ q ∈ (joined as).filter (getServiceName · = getServiceName p), addr q = g := by
  simpa [and_assoc] using h.hosts _ hp g

/-- **Direct addressing.** The path of a registered instance reaches the announced host, whatever
was chosen before, exactly when the instance has a channel and no other instance of its service has
one; and it reaches nobody while the instance is offline exactly when no instance of the service has
a channel. -/
theorem instance_is_chosen (h : Announced follow addr as) (hp : Registered as p) :
    DirectlyAddressed follow addr as p ↔
      (joined as).filter (getServiceName · = getServiceName p) =
        if p ∈ alive as then {p} else ∅ := by
  have hs : getServiceName p ∈ follow := h.service_mem hp
  constructor
  · intro hall
    have hcalls : announcements (as.map .announce) = as := by
      simp [announcements, List.filterMap_map, Function.comp_def, ManagerCall.announcement?]
    have hknows : Knows follow addr as (ServiceManager.run follow (as.map .announce)) := by
      have hk : Announced follow addr (announcements (as.map .announce)) := hcalls.symm ▸ h
      have hkn := hk.knows
      rwa [hcalls] at hkn
    have hmem := hknows.mem_channels hs
    -- the property after the announcements and any number of choices of the path
    have hturns : ∀ k, (((List.replicate k (.choose p)).foldl ManagerCall.exec
        (ServiceManager.run follow (as.map .announce))).choose p).1 =
        if p ∈ alive as then some (addr p) else none := by
      intro k
      have hk := hall (as.map .announce ++ List.replicate k (.choose p)) (by
        rw [announcements, List.filterMap_append, ← announcements, hcalls]
        simp [ManagerCall.announcement?])
      rwa [ServiceManager.run, List.foldl_append] at hk
    generalize ServiceManager.run follow (as.map .announce) = m at hknows hmem hturns
    have hlookup := hknows.entered p hp
    have hchoose : ((m.object (getServiceName p)).choose).1 =
        if p ∈ alive as then some (addr p) else none := by
      have h0 := hturns 0
      rwa [List.replicate_zero, List.foldl_nil, ServiceManager.choose_of_lookup hlookup] at h0
    split_ifs at hturns hchoose ⊢ with hup
    · -- all early places of the list hold the instance's host, so there is one place
      have hplace : ∀ j < 2, j < (m.object (getServiceName p)).channels.length →
          (m.object (getServiceName p)).channels[j]? = some (addr p) := by
        intro j hj hlt
        obtain ⟨k, hk⟩ := exists_choose hlookup (Nat.lt_trans hj (by decide)) hlt
        rw [← hk, hturns]
      have hall : ∀ g ∈ (m.object (getServiceName p)).channels, g = addr p := by
        intro g hg
        obtain ⟨j, hj, rfl⟩ := List.mem_iff_getElem.1 hg
        have hnodup := (m.object (getServiceName p)).nodup
        have hlen : (m.object (getServiceName p)).channels.length < 2 := by
          by_contra hlen
          have h0 := hplace 0 (by omega) (by omega)
          have h1 := hplace 1 (by omega) (by omega)
          exact absurd ((List.getElem?_inj (by omega) hnodup).1 (h0.trans h1.symm)) (by decide)
        have hj' := hplace j (by omega) hj
        rw [List.getElem?_eq_getElem hj] at hj'
        exact Option.some.inj hj'
      refine Finset.eq_singleton_iff_unique_mem.2 ⟨?_, fun q hq ↦ ?_⟩
      · obtain ⟨q, hq, he⟩ := (hmem _).1 (ServiceChannel.mem_of_choose hchoose)
        rwa [h.eq_of_addr (registered_of_joined (Finset.mem_filter.1 hq).1) hp he] at hq
      · exact h.eq_of_addr (registered_of_joined (Finset.mem_filter.1 hq).1) hp
          (hall _ ((hmem _).2 ⟨q, hq, rfl⟩))
    · refine Finset.eq_empty_of_forall_notMem fun q hq ↦ ?_
      have hne := List.ne_nil_of_mem ((hmem _).2 ⟨q, hq, rfl⟩)
      have hsome := ServiceChannel.choose_isSome hne
      rw [hchoose] at hsome
      cases hsome
  · rintro hfilter calls rfl
    have hmem := h.knows.mem_channels hs
    rw [ServiceManager.choose_of_lookup (h.knows.entered p hp)]
    rw [hfilter] at hmem
    split_ifs at hmem ⊢ with hup
    · have hne : _ ≠ [] := List.ne_nil_of_mem ((hmem (addr p)).2 ⟨p, by simp, rfl⟩)
      obtain ⟨g, hg⟩ := Option.isSome_iff_exists.1 (ServiceChannel.choose_isSome hne)
      obtain ⟨q, hq, rfl⟩ := (hmem g).1 (ServiceChannel.mem_of_choose hg)
      rw [hg, Finset.mem_singleton.1 hq]
    · have hnil := List.eq_nil_iff_forall_not_mem.2 fun g hg ↦ by simpa using (hmem g).1 hg
      rw [ServiceChannel.choose, if_pos hnil]

end History

/-- Two instances of the push service, of which the second goes offline. -/
theorem instance_is_chosen_alone :
    DirectlyAddressed ["/service/push_service"]
      (fun p ↦ if p = "/service/push_service/a" then "10.0.0.1:9007" else "10.0.0.2:9007")
      [.online "/service/push_service/a" "10.0.0.1:9007" true,
        .online "/service/push_service/b" "10.0.0.2:9007" true,
        .offline "/service/push_service/b" "10.0.0.2:9007"] "/service/push_service/a" :=
  (instance_is_chosen ⟨by decide +kernel, by decide +kernel, by decide +kernel, by decide +kernel⟩
    ⟨"10.0.0.1:9007", true, by simp⟩).2 (by decide +kernel)

/-- With both instances online, the second `choose` of the first one's path returns the channel to
the other one. -/
theorem path_reaches_another_instance :
    let calls : List ManagerCall :=
      [.announce (.online "/service/push_service/a" "10.0.0.1:9007" true),
        .announce (.online "/service/push_service/b" "10.0.0.2:9007" true),
        .choose "/service/push_service/a"]
    "/service/push_service/a" ∈ alive (announcements calls) ∧
      ((ServiceManager.run ["/service/push_service"] calls).choose "/service/push_service/a").1 =
        some "10.0.0.2:9007" := by
  decide +kernel

end ChatNow
