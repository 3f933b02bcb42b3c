import ChatNow.Lib.Implement
import ChatNow.Members.Freshness

/-!
# What the members cache lists, whatever fails

The freshness of all answers rests on two assumptions: no store fails, and no version moves behind a
hit on the sentinel. Both are about answers that name nobody. A query of the members that fails is
taken for a conversation without members and kept as such, and the sentinel says no more.

A list with somebody in it needs neither. It has been read from the members key or from the
database, under a version that was read before, or not at all; so in every run each copy that is
kept under a version, as long as that is the current one, lists a membership from the last
invalidation or later (`Listing`), and what a reader takes for its answer does so when it takes it
(`Listing.learns`).
-/

namespace ChatNow

open Prog MemOp

/-- The list may be kept under the version, as far as it names anybody. -/
def Keepable (db : Versioned (Finset String)) (v : ℕ) (uids : List String) : Prop :=
  uids ≠ [] → cache_version_is_known v = true → db.FreshAt v uids.toFinset

/-- What the two layers keep. -/
structure Listing (m : MemState) : Prop where
  l2 : ∀ ssid, (m.convs ssid).members ≠ ∅ → (m.convs ssid).db.Fresh (m.convs ssid).members
  l1 : ∀ inst ssid e, m.l1 inst ssid = some e → Keepable (m.convs ssid).db e.version e.content

theorem Conv.version_known (c : Conv) : cache_version_is_known c.db.version = true := by
  have hlt := c.version_lt
  refine decide_eq_true fun heq ↦ ?_
  rw [heq] at hlt
  simp only [kUnknownCacheVersion] at hlt
  omega

/-- The version and the list that a reader holds go together. -/
structure ReadPhase.Sound (db : Versioned (Finset String)) (ph : ReadPhase) : Prop where
  pair : ∀ v uids, ph.pair = some (v, uids) → Keepable db v uids
  read : ∀ v, ph = .read v → cache_version_is_known v = true → v ≤ db.version

/-- After a step the pair is sound, and a new answer is as new as all that is settled. -/
structure ReadPhase.Learns (db : Versioned (Finset String)) (ph ph' : ReadPhase) : Prop where
  sound : ph'.Sound db
  answer : ∀ uids, ph'.answer = some uids → uids ≠ [] →
    ph.answer = some uids ∨ db.Fresh uids.toFinset

/-! ### Time -/

section Time

variable {db db' : Versioned (Finset String)} {v : ℕ} {uids : List String} {ph : ReadPhase}

theorem Keepable.of_le (h : Keepable db v uids) (hle : db ≤ db') : Keepable db' v uids :=
  fun hne hknown ↦ (h hne hknown).of_le hle

theorem ReadPhase.Sound.of_le (h : ph.Sound db) (hle : db ≤ db') : ph.Sound db' where
  pair v uids hp := (h.pair v uids hp).of_le hle
  read v hv hknown := (h.read v hv hknown).trans hle.2.1

/-- **The rule for a step**: what was there before stays good, and what is new is to be shown. -/
theorem Listing.next {m m' : MemState} (h : Listing m)
    (hdb : ∀ ssid, (m.convs ssid).db ≤ (m'.convs ssid).db)
    (hl2 : ∀ ssid, (m'.convs ssid).members ≠ ∅ → (m'.convs ssid).db.Fresh (m'.convs ssid).members)
    (hl1 : ∀ inst ssid e, m'.l1 inst ssid = some e →
      m.l1 inst ssid = some e ∨ Keepable (m.convs ssid).db e.version e.content) : Listing m' where
  l2 := hl2
  l1 inst ssid e he := by
    rcases hl1 inst ssid e he with hold | hnew
    · exact (h.l1 inst ssid e hold).of_le (hdb ssid)
    · exact hnew.of_le (hdb ssid)

theorem Listing.empty : Listing {} := ⟨fun _ hne ↦ absurd rfl hne, nofun⟩

/-- A step that touches neither layer. -/
theorem Listing.of_eq {m m' : MemState} (h : Listing m) (hconvs : m'.convs = m.convs)
    (hl1 : m'.l1 = m.l1) : Listing m' :=
  h.next (fun ssid ↦ by rw [hconvs]) (fun ssid ↦ by rw [hconvs]; exact h.l2 ssid)
    fun inst ssid e he ↦ .inl (by rw [← hl1]; exact he)

/-- The keys of a conversation are written. -/
theorem Listing.setConv {m : MemState} (h : Listing m) {ssid : String} {c : Conv}
    (hdb : (m.convs ssid).db ≤ c.db) (hl2 : c.members ≠ ∅ → c.db.Fresh c.members) :
    Listing (m.setConv ssid c) := by
  refine h.next (fun k ↦ ?_) (fun k ↦ ?_) fun _ _ _ he ↦ .inl he
  · rw [MemState.convs_setConv]
    split
    · next hk => exact hk ▸ hdb
    · exact le_refl _
  · rw [MemState.convs_setConv]
    split
    · exact hl2
    · exact h.l2 k

/-- An entry of L1 is written or dropped. -/
theorem Listing.setLocal {m : MemState} (h : Listing m) {inst : ℕ} {ssid : String}
    {entry : Option MembersCacheEntry}
    (hentry : ∀ e, entry = some e → Keepable (m.convs ssid).db e.version e.content) :
    Listing (m.setLocal inst ssid entry) := by
  refine h.next (fun _ ↦ le_refl _) h.l2 fun inst' ssid' e he ↦ ?_
  rw [MemState.l1_setLocal] at he
  split at he
  · next hkey =>
    rw [hkey.2]
    exact .inr (hentry e he)
  · exact .inl he

end Time

/-! ### What a reader learns -/

namespace ReadPhase

variable {db : Versioned (Finset String)} {ph : ReadPhase} {v : ℕ} {uids : List String}

theorem sound_idle : idle.Sound db := ⟨nofun, nofun⟩

theorem learns_idle : ph.Learns db idle := ⟨sound_idle, nofun⟩

theorem Sound.learns (h : ph.Sound db) : ph.Learns db ph := ⟨h, fun _ ha _ ↦ .inl ha⟩

theorem learns_read (h : cache_version_is_known v = true → v ≤ db.version) :
    ph.Learns db (.read v) := by
  refine ⟨⟨nofun, fun w hw hknown ↦ ?_⟩, nofun⟩
  obtain rfl := ReadPhase.read.inj hw
  exact h hknown

theorem learns_found {e : MembersCacheEntry} (h : Keepable db e.version e.content) :
    ph.Learns db (found e) := by
  refine ⟨⟨fun v uids hp ↦ ?_, nofun⟩, nofun⟩
  obtain ⟨rfl, rfl⟩ := Prod.mk.inj (Option.some.inj hp)
  exact h

/-- The sentinel names nobody. -/
theorem learns_sentinel : ph.Learns db sentinel := by
  refine ⟨⟨nofun, nofun⟩, fun uids ha hne ↦ ?_⟩
  obtain rfl := Option.some.inj ha
  exact absurd rfl hne

/-- The version is read: an L1 entry that has it is as good as its copy. -/
theorem Sound.reread (h : ph.Sound db) (own : Bool)
    (hv : cache_version_is_known v = true → v = db.version) :
    ph.Learns db (ph.reread own v) := by
  have hread : ph.Learns db (.read v) := learns_read fun hknown ↦ (hv hknown).le
  cases ph with
  | found e =>
    show Learns db _ (if _ then _ else _)
    split
    · next hmatches =>
      have hknown := known_of_accepts_warm hmatches
      obtain rfl := eq_of_accepts_warm hmatches
      refine ⟨⟨h.pair, nofun⟩, fun uids ha hne ↦ .inr ?_⟩
      obtain rfl := Option.some.inj ha
      have hfresh := h.pair _ _ rfl hne hknown
      rw [hv hknown] at hfresh
      exact hfresh.fresh
    · exact hread
  | listed w members =>
    show Learns db _ (if _ then _ else _)
    split
    · next hstable =>
      obtain rfl := eq_of_accepts_warm hstable
      exact ⟨⟨h.pair, nofun⟩, fun uids ha _ ↦ .inl ha⟩
    · exact hread
  | sentinel =>
    show Learns db _ (if _ then _ else _)
    split
    · refine ⟨⟨fun w uids hp hne ↦ ?_, nofun⟩, fun uids ha _ ↦ .inl ha⟩
      obtain ⟨-, rfl⟩ := Prod.mk.inj (Option.some.inj hp)
      exact absurd rfl hne
    · exact hread
  | _ => exact hread

/-- The members key is listed. -/
theorem Sound.list (h : ph.Sound db) (hfresh : uids ≠ [] → db.Fresh uids.toFinset) :
    ph.Learns db (ph.list uids) := by
  cases ph with
  | read v =>
    refine ⟨⟨fun w ms hp hne hknown ↦ ?_, nofun⟩, fun ms ha hne ↦ ?_⟩
    · obtain ⟨-, hms⟩ := Option.ite_none_left_eq_some.1 hp
      obtain ⟨rfl, rfl⟩ := Prod.mk.inj (Option.some.inj hms)
      exact (hfresh hne).freshAt (h.read v rfl hknown)
    · obtain ⟨-, hms⟩ := Option.ite_none_left_eq_some.1 ha
      obtain rfl := Option.some.inj hms
      exact .inr (hfresh hne)
  | _ => exact learns_idle

/-- The database answers. -/
theorem Sound.fetch (h : ph.Sound db) (hfresh : uids ≠ [] → db.Fresh uids.toFinset) :
    ph.Learns db (ph.fetch uids) := by
  cases ph with
  | read v =>
    refine ⟨⟨fun w ms hp hne hknown ↦ ?_, nofun⟩, fun ms ha hne ↦ ?_⟩
    · obtain ⟨rfl, rfl⟩ := Prod.mk.inj (Option.some.inj hp)
      exact (hfresh hne).freshAt (h.read v rfl hknown)
    · obtain rfl := Option.some.inj ha
      exact .inr (hfresh hne)
  | _ => exact learns_idle

end ReadPhase

/-! ### The calls of a reader -/

section Calls

variable {m m' : MemState} {i : ℕ} {own : Bool} {ssid : String} {o : MemOp} {ch : MemChoice}
  {r : o.Res} {ph : ReadPhase}

/-- What the members key lists, if it lists anybody. -/
theorem Listing.fresh_of_lists (h : Listing m) {order : List String}
    (hl : Lists order (m.convs ssid).members) (hne : order ≠ []) :
    (m.convs ssid).db.Fresh order.toFinset := by
  rw [hl.2]
  refine h.l2 ssid fun hempty ↦ hne ?_
  rw [← hl.2] at hempty
  exact (List.toFinset_eq_empty_iff _).1 hempty

/-- What the database lists. -/
theorem Conv.fresh_of_lists {c : Conv} {order : List String} (hl : Lists order c.db.current) :
    c.db.Fresh order.toFinset := by
  rw [hl.2]
  exact Versioned.fresh_current _

/-- **What a reader learns** from a call about its conversation. -/
theorem Listing.learns (h : Listing m) (hph : ph.Sound (m.convs ssid).db)
    (ha : ∃ ph₀, (readContract own ssid []).allowed ph₀ o)
    (hx : MemState.exec i o ch m = some (r, m')) :
    ph.Learns (m.convs ssid).db ((readContract own ssid []).next ph o r) := by
  obtain ⟨ph₀, ha⟩ := ha
  cases o with
  | l1Get inst c =>
    obtain rfl : c = ssid := ha
    obtain ⟨rfl, -⟩ := Prod.mk.inj (Option.some.inj hx)
    show ph.Learns _ ((readContract own c []).next ph (l1Get inst c) _)
    cases he : m.l1 inst c with
    | none => exact ReadPhase.learns_idle
    | some e => exact ReadPhase.learns_found (h.l1 inst c e he)
  | getVersion c =>
    obtain rfl : c = ssid := ha
    simp only [MemState.exec] at hx
    split at hx <;> obtain ⟨rfl, -⟩ := Prod.mk.inj (Option.some.inj hx)
    · exact hph.reread own fun hknown ↦ absurd rfl (of_decide_eq_true hknown)
    · exact hph.reread own fun _ ↦ Conv.version_of_key _
  | smembers c =>
    obtain rfl : c = ssid := ha
    simp only [MemState.exec] at hx
    split at hx
    · obtain ⟨rfl, -⟩ := Prod.mk.inj (Option.some.inj hx)
      exact ReadPhase.learns_idle
    · split at hx
      · next hl =>
        obtain ⟨rfl, -⟩ := Prod.mk.inj (Option.some.inj hx)
        exact hph.list (h.fresh_of_lists hl)
      · cases hx
  | getSentinel c =>
    simp only [MemState.exec] at hx
    split at hx
    · obtain ⟨rfl, -⟩ := Prod.mk.inj (Option.some.inj hx)
      exact ReadPhase.learns_idle
    · split at hx <;> obtain ⟨rfl, -⟩ := Prod.mk.inj (Option.some.inj hx)
      · exact ReadPhase.learns_sentinel
      · exact ReadPhase.learns_idle
  | callGetMemberIds c =>
    obtain rfl : c = ssid := ha
    simp only [MemState.exec] at hx
    split at hx
    · obtain ⟨rfl, -⟩ := Prod.mk.inj (Option.some.inj hx)
      exact ReadPhase.learns_idle
    · split at hx
      · next hl =>
        obtain ⟨rfl, -⟩ := Prod.mk.inj (Option.some.inj hx)
        exact hph.fetch fun _ ↦ Conv.fresh_of_lists hl
      · cases hx
  | selectMembers c =>
    obtain rfl : c = ssid := ha
    simp only [MemState.exec] at hx
    split at hx
    · -- a query that fails answers nothing
      obtain ⟨rfl, -⟩ := Prod.mk.inj (Option.some.inj hx)
      exact hph.fetch fun hne ↦ absurd rfl hne
    · split at hx
      · next hl =>
        obtain ⟨rfl, -⟩ := Prod.mk.inj (Option.some.inj hx)
        exact hph.fetch fun _ ↦ Conv.fresh_of_lists hl
      · cases hx
  | l1Invalidate inst c => exact ReadPhase.learns_idle
  | commitMembers c members => exact ha.elim
  | evalInvalidate c => exact ha.elim
  | l1Set | evalWarmIfVersion | evalSentinelIfVersion | acquire | release | tryLock | unlock
  | resolved | served => exact hph.learns

/-- What the calls of a reader do to the layers. -/
inductive ReadMove (m : MemState) : MemOp → MemState → Prop
  | stay {o : MemOp} {m' : MemState} (hconvs : m'.convs = m.convs) (hl1 : m'.l1 = m.l1) :
    ReadMove m o m'
  | keep (inst : ℕ) (c : String) (e : MembersCacheEntry) :
    ReadMove m (l1Set inst c e) (m.setLocal inst c (some e))
  | drop (inst : ℕ) (c : String) : ReadMove m (l1Invalidate inst c) (m.setLocal inst c none)
  | warm (c observed : String) (uids : List String) :
    ReadMove m (evalWarmIfVersion c observed uids)
      (m.setConv c ((m.convs c).warmIfVersion observed uids).2)
  | sentinel (c observed : String) :
    ReadMove m (evalSentinelIfVersion c observed)
      (m.setConv c ((m.convs c).sentinelIfVersion observed).2)

theorem ReadMove.of_exec (ha : (readContract own ssid []).allowed ph o)
    (hx : MemState.exec i o ch m = some (r, m')) : ReadMove m o m' := by
  cases o with
  | commitMembers c members => exact ha.elim
  | evalInvalidate c => exact ha.elim
  | evalWarmIfVersion c observed uids =>
    simp only [MemState.exec] at hx
    split at hx <;> obtain ⟨-, rfl⟩ := Prod.mk.inj (Option.some.inj hx)
    · exact .stay rfl rfl
    · exact .warm c observed uids
  | evalSentinelIfVersion c observed =>
    simp only [MemState.exec] at hx
    split at hx <;> obtain ⟨-, rfl⟩ := Prod.mk.inj (Option.some.inj hx)
    · exact .stay rfl rfl
    · exact .sentinel c observed
  | l1Set inst c e =>
    obtain ⟨-, rfl⟩ := Prod.mk.inj (Option.some.inj hx)
    exact .keep inst c e
  | l1Invalidate inst c =>
    obtain ⟨-, rfl⟩ := Prod.mk.inj (Option.some.inj hx)
    exact .drop inst c
  | acquire inst c =>
    simp only [MemState.exec] at hx
    split at hx
    · cases hx
    · obtain ⟨-, rfl⟩ := Prod.mk.inj (Option.some.inj hx)
      exact .stay rfl rfl
  | smembers | callGetMemberIds | selectMembers =>
    simp only [MemState.exec] at hx
    split at hx
    · obtain ⟨-, rfl⟩ := Prod.mk.inj (Option.some.inj hx)
      exact .stay rfl rfl
    · split at hx
      · obtain ⟨-, rfl⟩ := Prod.mk.inj (Option.some.inj hx)
        exact .stay rfl rfl
      · cases hx
  | getSentinel =>
    simp only [MemState.exec] at hx
    split at hx
    · obtain ⟨-, rfl⟩ := Prod.mk.inj (Option.some.inj hx)
      exact .stay rfl rfl
    · split at hx <;>
      · obtain ⟨-, rfl⟩ := Prod.mk.inj (Option.some.inj hx)
        exact .stay rfl rfl
  | getVersion | tryLock =>
    simp only [MemState.exec] at hx
    split at hx <;>
    · obtain ⟨-, rfl⟩ := Prod.mk.inj (Option.some.inj hx)
      exact .stay rfl rfl
  | l1Get | release | unlock | resolved | served =>
    obtain ⟨-, rfl⟩ := Prod.mk.inj (Option.some.inj hx)
    exact .stay rfl rfl

/-- A reader leaves the database and the versions as they are. -/
theorem ReadMove.db (h : ReadMove m o m') (k : String) : (m'.convs k).db = (m.convs k).db := by
  have hset {c : String} {conv : Conv} (hconv : conv.db = (m.convs c).db) :
      ((m.setConv c conv).convs k).db = (m.convs k).db := by
    rw [MemState.convs_setConv]
    split
    · next hk => exact hk ▸ hconv
    · rfl
  cases h with
  | stay hconvs hl1 => rw [hconvs]
  | keep | drop => rfl
  | warm c observed uids => exact hset (Conv.db_warmIfVersion _ _ _)
  | sentinel c observed => exact hset (Conv.db_sentinelIfVersion _ _)

/-- **What a reader writes** may be kept. -/
theorem Listing.move (h : Listing m) (hph : ph.Sound (m.convs ssid).db)
    (ha : (readContract own ssid []).allowed ph o) (hmove : ReadMove m o m') : Listing m' := by
  cases hmove with
  | stay hconvs hl1 => exact h.of_eq hconvs hl1
  | keep inst c e =>
    obtain ⟨rfl, hpair⟩ := ha
    refine h.setLocal fun e' he ↦ ?_
    obtain rfl := Option.some.inj he
    exact hph.pair _ _ hpair
  | drop inst c => exact h.setLocal nofun
  | warm c observed uids =>
    obtain ⟨rfl, v, rfl, hpair⟩ := ha
    refine h.setConv (Conv.db_warmIfVersion _ _ _).ge ?_
    rw [Conv.warmIfVersion]
    split
    · next hv =>
      -- the version that has been read is still the current one
      obtain rfl := (Conv.key_eq_iff _).1 hv
      intro hne
      have huids : uids ≠ [] := fun hnil ↦ hne (hnil ▸ rfl)
      exact (hph.pair _ _ hpair huids (Conv.version_known _)).fresh
    · exact h.l2 c
  | sentinel c observed =>
    refine h.setConv (Conv.db_sentinelIfVersion _ _).ge ?_
    rw [Conv.sentinelIfVersion]
    split
    · exact fun hne ↦ absurd rfl hne
    · exact h.l2 c

/-- What a call answers and what it does; a command whose reply is lost takes effect all the
same. -/
def MemState.effect (i : ℕ) (o : MemOp) (c : MemChoice) (late : Bool) (m : MemState) :
    Option (o.Res × MemState) :=
  if late then
    (MemState.exec i o c m).bind fun x ↦
      (MemState.exec i o { c with fault := false } m).map fun y ↦ (x.1, y.2)
  else MemState.exec i o c m

theorem MemState.exec_of_effect {late : Bool} (hx : MemState.effect i o ch late m = some (r, m')) :
    (∃ m₁, MemState.exec i o ch m = some (r, m₁)) ∧
      ∃ ch' r', MemState.exec i o ch' m = some (r', m') := by
  unfold effect at hx
  split at hx
  · obtain ⟨⟨r₁, m₁⟩, hanswer, hx⟩ := Option.bind_eq_some_iff.1 hx
    obtain ⟨⟨r₂, m₂⟩, hstate, heq⟩ := Option.map_eq_some_iff.1 hx
    obtain ⟨rfl, rfl⟩ := Prod.mk.inj heq
    exact ⟨⟨m₁, hanswer⟩, _, r₂, hstate⟩
  · exact ⟨⟨m', hx⟩, ch, r, hx⟩

/-- **A call of a reader**, who may begin anew at any time. -/
theorem Listing.call {phases : List ReadPhase} {late : Bool} (h : Listing m)
    (hsound : ∀ ph ∈ phases, ph.Sound (m.convs ssid).db)
    (ha : ((readContract own ssid []).restart .idle).allowed phases o)
    (hx : MemState.effect i o ch late m = some (r, m')) :
    Listing m' ∧ (∀ k, (m'.convs k).db = (m.convs k).db) ∧
      ∀ ph' ∈ ((readContract own ssid []).restart .idle).next phases o r,
        ∃ ph ∈ .idle :: phases, ph.Learns (m.convs ssid).db ph' := by
  obtain ⟨ph₀, hph₀, ha⟩ := ha
  obtain ⟨⟨m₁, hanswer⟩, ch', r', hstate⟩ := MemState.exec_of_effect hx
  have hmove := ReadMove.of_exec ha hstate
  refine ⟨h.move (hsound ph₀ hph₀) ha hmove, hmove.db, fun ph' hph' ↦ ?_⟩
  rcases List.mem_cons.1 hph' with rfl | hnext
  · exact ⟨.idle, List.mem_cons_self, ReadPhase.learns_idle⟩
  · obtain ⟨ph, hph, rfl⟩ := List.mem_map.1 hnext
    exact ⟨ph, List.mem_cons_of_mem _ hph, h.learns (hsound ph hph) ⟨ph₀, ha⟩ hanswer⟩

end Calls

end ChatNow
