import ChatNow.Common.LocalCache

/-!
# What the local cache answers

`LocalCache` seen from outside. The history of a cache is the list of its calls, the latest first,
each with the moment it read, its answer, and the keys whose entries it evicted: those that had not
expired, that it did not invalidate, and that are gone. From the history alone one can tell what was
last written under a key and is still owed to it (`lastEntry`) and in which order keys have been
used (`uses`).

`Effect` says of a call what becomes of the entries, of the size and of the order, and has one proof
for each way a method can end. `Inv` follows from it by induction over the calls.
-/

namespace ChatNow.LocalCache

variable {V : Type}

/-! ### Calls -/

inductive Op (V : Type)
  | get (key : String)
  | set (key : String) (value : V) (ttl : ℤ)
  | set_if_absent (key : String) (value : V) (ttl : ℤ)
  | invalidate (key : String)
  | evict_expired

/-- What a method returns. -/
inductive Answer (V : Type)
  | value (value : Option V)
  | none
  | stored (stored : Bool)
  | removed (removed : ℕ)

/-- A method is called. -/
def perform (max_entries : ℕ) (now : ℤ) (c : Cache V) : Op V → Cache V × Answer V
  | .get key => ((c.get key now).1, .value (c.get key now).2)
  | .set key value ttl => (c.set key now max_entries value ttl, .none)
  | .set_if_absent key value ttl =>
    ((c.set_if_absent key now max_entries value ttl).1,
      .stored (c.set_if_absent key now max_entries value ttl).2)
  | .invalidate key => (c.invalidate key, .none)
  | .evict_expired => ((c.evict_expired now).1, .removed (c.evict_expired now).2)

/-- A call that has been answered. -/
structure Call (V : Type) where
  op : Op V
  now : ℤ
  answer : Answer V
  /-- The keys whose entries were evicted. -/
  evicted : List String := []

namespace Call

variable (max_entries : ℕ) (x : Call V)

/-- The key that the call uses: it sets it, hits it, or touches it. -/
def uses : Option String :=
  match x.op, x.answer with
  | .get key, .value (some _) => some key
  | .set key _ ttl, _ | .set_if_absent key _ ttl, _ =>
    if 0 < ttl ∧ 0 < max_entries then some key else none
  | _, _ => none

/-- The value and the expiry that the call writes under a key. -/
def writes (key : String) : Option (V × ℤ) :=
  match x.op, x.answer with
  | .set k value ttl, _ =>
    if k = key ∧ 0 < ttl ∧ 0 < max_entries then some (value, x.now + seconds ttl) else none
  | .set_if_absent k value ttl, .stored true =>
    if k = key then some (value, x.now + seconds ttl) else none
  | _, _ => none

/-- The key that the call invalidates. -/
def invalidates : Option String :=
  match x.op with
  | .invalidate key => some key
  | .set key _ ttl => if ttl ≤ 0 then some key else none
  | _ => none

end Call

/-- The keys in the order in which they were used, the latest first. -/
def uses (max_entries : ℕ) (history : List (Call V)) : List String :=
  history.filterMap (·.uses max_entries)

/-- What was last written under a key, with its expiry, unless the key has been invalidated or
evicted since. -/
def lastEntry (max_entries : ℕ) (key : String) : List (Call V) → Option (V × ℤ)
  | [] => none
  | x :: history =>
    match x.writes max_entries key with
    | some entry => some entry
    | none =>
      if x.invalidates = some key ∨ key ∈ x.evicted then none
      else lastEntry max_entries key history

theorem uses_get (max_entries : ℕ) (key : String) (now : ℤ) (value : Option V)
    (evicted : List String) :
    Call.uses max_entries ⟨.get key, now, .value value, evicted⟩ = value.map fun _ ↦ key := by
  cases value <;> rfl

theorem writes_set_if_absent (max_entries : ℕ) (key : String) (now : ℤ) (value : V) (ttl : ℤ)
    (stored : Bool) (evicted : List String) (k : String) :
    Call.writes max_entries ⟨.set_if_absent key value ttl, now, .stored stored, evicted⟩ k =
      if stored = true ∧ key = k then some (value, now + seconds ttl) else none := by
  cases stored <;> simp [Call.writes]

/-! ### Runs -/

/-- A cache with its history. -/
structure Run (V : Type) where
  cache : Cache V := {}
  /-- The last moment that was read. -/
  clock : ℤ := 0
  history : List (Call V) := []

/-- The keys of the entries that the call lost without having been told to. -/
def evictedBy (c c' : Cache V) (x : Call V) : List String :=
  (c.map.filter fun p ↦ x.now ≤ p.2.expires_at ∧ x.invalidates ≠ some p.1 ∧
    p.1 ∉ c'.map.map (·.1)).map (·.1)

/-- The call of a method at a moment. -/
def callOf (max_entries : ℕ) (c : Cache V) (op : Op V) (now : ℤ) : Call V :=
  let x : Call V := { op, now, answer := (perform max_entries now c op).2 }
  { x with evicted := evictedBy c (perform max_entries now c op).1 x }

/-- A cache of a certain size, called with a clock that does not go back. -/
def caches (max_entries : ℕ) : Labelled (Run V) (Op V × ℤ) where
  step o s :=
    if s.clock ≤ o.2 then
      some { cache := (perform max_entries o.2 s.cache o.1).1
             clock := o.2
             history := callOf max_entries s.cache o.1 o.2 :: s.history }
    else none

/-! ### The effect of a call -/

/-- What becomes of a cache by a call at a moment. -/
structure Effect (max_entries : ℕ) (c c' : Cache V) (now : ℤ) (uses : Option String)
    (writes : String → Option (V × ℤ)) (invalidates : Option String) : Prop where
  wellFormed : c'.WellFormed
  size : c'.recency.length ≤ max_entries
  /-- An entry has been written, or was there and has not been told to go. -/
  entries : ∀ key e, (key, e) ∈ c'.map → writes key = some (e.value, e.expires_at) ∨
    writes key = none ∧ invalidates ≠ some key ∧ (key, e) ∈ c.map
  written : ∀ key entry, writes key = some entry → key ∈ c'.recency
  /-- What is used comes to the front, and nothing else changes the order. -/
  recency : c'.recency.Sublist (uses.elim c.recency (Recency.touch · c.recency))
  /-- What is evicted is at the back of a cache that has become too large. -/
  evicted : ∀ key e, (key, e) ∈ c.map → now ≤ e.expires_at → invalidates ≠ some key →
    key ∉ c'.recency → ∃ key' l, uses = some key' ∧ l.length = max_entries ∧
      (l ++ [key]).Sublist (Recency.touch key' c.recency)

section Effect

variable {c c' c₀ : Cache V} {key : String} {e : Entry V} {now : ℤ} {max_entries : ℕ}
  {P : String → Bool}

/-- Nothing happens. -/
theorem effect_self (h : c.WellFormed) (hsize : c.recency.length ≤ max_entries) (now : ℤ) :
    Effect max_entries c c now none (fun _ ↦ none) none where
  wellFormed := h
  size := hsize
  entries _ _ he := .inr ⟨rfl, (Option.some_ne_none _).symm, he⟩
  written _ _ hw := by cases hw
  recency := .refl _
  evicted _ _ he _ _ hgone := absurd (h.mem_recency he) hgone

/-- Entries go that have expired or are told to. -/
theorem effect_of_keeps (h : c.WellFormed) (hsize : c.recency.length ≤ max_entries)
    (hk : c.Keeps c' P) {invalidates : Option String}
    (hP : ∀ key e, (key, e) ∈ c.map → P key = false → e.expires_at < now ∨ invalidates = some key)
    (hi : ∀ key, invalidates = some key → P key = false) :
    Effect max_entries c c' now none (fun _ ↦ none) invalidates where
  wellFormed := hk.wellFormed h
  size := by
    rw [hk.recency]
    exact (List.length_filter_le _ _).trans hsize
  entries key e he := by
    obtain ⟨he, hkey⟩ := hk.mem_iff.1 he
    refine .inr ⟨rfl, fun hinv ↦ ?_, he⟩
    rw [hi key hinv] at hkey
    cases hkey
  written _ _ hw := by cases hw
  recency := by
    rw [hk.recency]
    exact List.filter_sublist
  evicted key e he hnow hinv hgone := by
    rw [hk.recency, List.mem_filter, not_and] at hgone
    rcases hP key e he (Bool.eq_false_iff.2 (hgone (h.mem_recency he))) with hlt | heq
    · exact absurd hnow (not_le.2 hlt)
    · exact absurd heq hinv

/-- An entry is used and no other goes. -/
theorem effect_of_touch (h : c.WellFormed) (hsize : c.recency.length ≤ max_entries)
    (hc : c'.WellFormed) (hrecency : c'.recency = Recency.touch key c.recency)
    (hkey : key ∈ c.recency) {writes : String → Option (V × ℤ)}
    (hentries : ∀ k e, (k, e) ∈ c'.map → writes k = some (e.value, e.expires_at) ∨
      writes k = none ∧ (k, e) ∈ c.map)
    (hwrites : ∀ k entry, writes k = some entry → k = key) :
    Effect max_entries c c' now (some key) writes none := by
  have hperm : c'.recency.Perm c.recency := by
    rw [hrecency]
    exact (List.perm_cons_erase hkey).symm
  exact {
    wellFormed := hc
    size := hperm.length_eq.trans_le hsize
    entries := fun k e he ↦ (hentries k e he).imp_right fun hold ↦
      ⟨hold.1, (Option.some_ne_none _).symm, hold.2⟩
    written := fun k entry hw ↦ hwrites k entry hw ▸ hperm.mem_iff.2 hkey
    recency := hrecency ▸ .refl _
    evicted := fun k e he _ _ hgone ↦ absurd (hperm.mem_iff.2 (h.mem_recency he)) hgone }

/-- **An entry is stored** under a key without one, or whose entry has expired. -/
theorem effect_of_store (h : c.WellFormed) (hsize : c.recency.length ≤ max_entries)
    (hmax : 0 < max_entries) (hk : c.Keeps c₀ (· ≠ key))
    (hold : ∀ e, (key, e) ∈ c.map → e.expires_at < now) (value : V) (expires_at : ℤ) :
    Effect max_entries c (c₀.store key now max_entries value expires_at) now (some key)
      (fun k ↦ if key = k then some (value, expires_at) else none) none := by
  obtain ⟨P, herase, hP⟩ := keeps_erase_expired_ (hk.wellFormed h) now
  have hkeeps := hk.trans herase
  have hnew : ∀ e, (key, e) ∉ (c₀.erase_expired_ now).1.map := fun e he ↦ by
    have hne := (hk.mem_iff.1 (herase.mem_iff.1 he).1).2
    exact of_decide_eq_true hne rfl
  obtain ⟨hmap, hrecency, hc⟩ :=
    emplace_spec (hkeeps.wellFormed h) hnew value expires_at
  have hevict := keeps_evict_over_capacity_ hc max_entries
  have hkeys : (c₀.erase_expired_ now).1.recency.Sublist (c.recency.erase key) := by
    rw [herase.recency, hk.recency, Recency.erase_eq_filter h.recency_nodup]
    exact List.filter_sublist
  have hall : (key :: (c₀.erase_expired_ now).1.recency).Sublist (Recency.touch key c.recency) :=
    hkeys.cons_cons key
  have hleft : (c₀.store key now max_entries value expires_at).recency =
      (key :: (c₀.erase_expired_ now).1.recency).take max_entries := by
    rw [← hrecency, ← Recency.filter_mem_take hc.recency_nodup]
    exact hevict.recency
  refine ⟨hevict.wellFormed hc, ?_, fun k e he ↦ ?_, fun k entry hw ↦ ?_, ?_,
    fun k e he hnow _ hgone ↦ ?_⟩
  · rw [hleft]
    exact List.length_take_le _ _
  · have hin := (hevict.mem_iff.1 he).1
    rw [hmap, List.mem_append, List.mem_singleton] at hin
    rcases hin with hin | hin
    · obtain ⟨hin, hne⟩ := hk.mem_iff.1 (herase.mem_iff.1 hin).1
      exact .inr ⟨if_neg (Ne.symm (of_decide_eq_true hne)), (Option.some_ne_none _).symm, hin⟩
    · obtain ⟨rfl, rfl⟩ := Prod.mk.inj hin
      exact .inl (if_pos rfl)
  · obtain ⟨hkey, -⟩ := Option.ite_none_right_eq_some.1 hw
    rw [hleft, ← hkey, List.take_cons hmax]
    exact List.mem_cons_self
  · rw [hleft]
    exact (List.take_sublist _ _).trans hall
  · have hne : k ≠ key := by
      rintro rfl
      exact absurd hnow (not_le.2 (hold e he))
    have hin₀ : (k, e) ∈ c₀.map := hk.mem_iff.2 ⟨he, decide_eq_true hne⟩
    have hin : k ∈ (c₀.erase_expired_ now).1.recency :=
      (hkeeps.wellFormed h).mem_recency (herase.mem_iff.2 ⟨hin₀, (hP k e hin₀).2 hnow⟩)
    have hlen : (key :: (c₀.erase_expired_ now).1.recency).length ≤ max_entries + 1 :=
      Nat.succ_le_succ (hkeys.length_le.trans ((List.length_erase_le).trans hsize))
    obtain ⟨hsplit, hfull⟩ := Recency.take_concat_of_not_mem hlen
      (List.mem_cons_of_mem _ hin) (hleft ▸ hgone)
    exact ⟨key, _, rfl, hfull, hsplit.symm ▸ hall⟩

theorem keeps_drop_expired (h : c.WellFormed) (he : (key, e) ∈ c.map) :
    c.Keeps (c.drop_expired key e) (· ≠ key) :=
  (keeps_erase_entry_ h he).withStats _

theorem keeps_invalidate (h : c.WellFormed) (key : String) :
    c.Keeps (c.invalidate key) (· ≠ key) := by
  rw [Cache.invalidate]
  cases hfind : c.find key with
  | none => exact h.keeps_of_find_none hfind
  | some e => exact keeps_erase_entry_ h (h.find_eq_some.1 hfind)

theorem effect_of_invalidate (h : c.WellFormed) (hsize : c.recency.length ≤ max_entries)
    (key : String) :
    Effect max_entries c (c.invalidate key) now none (fun _ ↦ none) (some key) :=
  effect_of_keeps h hsize (keeps_invalidate h key)
    (fun _ _ _ hne ↦ .inr (congrArg some (not_not.1 (of_decide_eq_false hne)).symm))
    fun _ heq ↦ decide_eq_false (not_not.2 (Option.some.inj heq).symm)

theorem effect_of_get (h : c.WellFormed) (hsize : c.recency.length ≤ max_entries)
    (key : String) (now : ℤ) :
    Effect max_entries c (c.get key now).1 now ((c.get key now).2.map fun _ ↦ key)
      (fun _ ↦ none) none := by
  rw [Cache.get]
  cases hfind : c.find key with
  | none =>
    exact effect_of_keeps h hsize
      ((Cache.Keeps.refl (P := fun _ ↦ true) (fun _ _ ↦ rfl) h).withStats _)
      (fun _ _ _ hP ↦ by cases hP) fun _ hi ↦ by cases hi
  | some e =>
    have he := h.find_eq_some.1 hfind
    show Effect max_entries c (if now > e.expires_at then _ else _ : Cache V × Option V).1 now
      ((if now > e.expires_at then _ else _ : Cache V × Option V).2.map _) _ _
    split
    · next hexpired =>
      refine effect_of_keeps h hsize ((keeps_erase_entry_ h he).withStats _) (fun k e' he' hk ↦ ?_)
        fun _ hi ↦ by cases hi
      obtain rfl : k = key := not_not.1 (of_decide_eq_false hk)
      rw [h.entry_eq he' he]
      exact .inl hexpired
    · obtain ⟨hmap, hrecency, hc⟩ := touch_spec h he
      exact effect_of_touch h hsize (hc.withStats { c.stats with hits := c.stats.hits + 1 })
        hrecency
        (h.mem_recency he)
        (fun _ _ he' ↦ .inr ⟨rfl, hmap ▸ he'⟩) fun _ _ hw ↦ by cases hw

theorem effect_of_set (h : c.WellFormed) (hsize : c.recency.length ≤ max_entries)
    (key : String) (now : ℤ) (value : V) (ttl : ℤ) :
    Effect max_entries c (c.set key now max_entries value ttl) now
      (if 0 < ttl ∧ 0 < max_entries then some key else none)
      (fun k ↦
        if key = k ∧ 0 < ttl ∧ 0 < max_entries then some (value, now + seconds ttl) else none)
      (if ttl ≤ 0 then some key else none) := by
  rcases le_or_gt ttl 0 with httl | httl
  · simpa [Cache.set, httl, not_lt.2 httl] using effect_of_invalidate h hsize key
  rcases max_entries.eq_zero_or_pos with rfl | hmax
  · simpa [Cache.set, httl, not_le.2 httl] using effect_self h hsize now
  simp only [Cache.set, not_le.2 httl, hmax.ne', httl, hmax, if_false, and_self, and_true, if_true]
  cases hfind : c.find key with
  | none =>
    have hnone : ∀ e, (key, e) ∈ c.map → e.expires_at < now := fun e he ↦ by
      rw [h.find_eq_some.2 he] at hfind
      cases hfind
    exact effect_of_store h hsize hmax (h.keeps_of_find_none hfind) hnone value (now + seconds ttl)
  | some e =>
    have he := h.find_eq_some.1 hfind
    show Effect max_entries c (if now > e.expires_at then _ else _) now _ _ _
    split
    · next hexpired =>
      exact effect_of_store h hsize hmax (keeps_drop_expired h he)
        (fun e' he' ↦ h.entry_eq he' he ▸ hexpired) value (now + seconds ttl)
    · obtain ⟨hentries, hrecency, hc⟩ := modify_spec h he value (now + seconds ttl)
      have hin := (hentries key _).2 (.inl ⟨rfl, rfl⟩)
      obtain ⟨hmap, hrecency', hc'⟩ := touch_spec hc hin
      refine effect_of_touch h hsize hc' (hrecency ▸ hrecency') (h.mem_recency he)
        (fun k e' he' ↦ ?_) fun k entry hw ↦ (Option.ite_none_right_eq_some.1 hw).1.symm
      rcases (hentries k e').1 (hmap ▸ he') with ⟨rfl, rfl⟩ | ⟨hne, hold⟩
      · exact .inl (if_pos rfl)
      · exact .inr ⟨if_neg (Ne.symm hne), hold⟩

theorem effect_of_set_if_absent (h : c.WellFormed) (hsize : c.recency.length ≤ max_entries)
    (key : String) (now : ℤ) (value : V) (ttl : ℤ) :
    Effect max_entries c (c.set_if_absent key now max_entries value ttl).1 now
      (if 0 < ttl ∧ 0 < max_entries then some key else none)
      (fun k ↦ if (c.set_if_absent key now max_entries value ttl).2 = true ∧ key = k
        then some (value, now + seconds ttl) else none) none := by
  rcases le_or_gt ttl 0 with httl | httl
  · simpa [Cache.set_if_absent, httl, not_lt.2 httl] using effect_self h hsize now
  rcases max_entries.eq_zero_or_pos with rfl | hmax
  · simpa [Cache.set_if_absent, httl, not_le.2 httl] using effect_self h hsize now
  simp only [Cache.set_if_absent, not_le.2 httl, hmax.ne', httl, hmax, if_false, and_self, if_true]
  cases hfind : c.find key with
  | none =>
    have hnone : ∀ e, (key, e) ∈ c.map → e.expires_at < now := fun e he ↦ by
      rw [h.find_eq_some.2 he] at hfind
      cases hfind
    simpa only [true_and] using
      effect_of_store h hsize hmax (h.keeps_of_find_none hfind) hnone value (now + seconds ttl)
  | some e =>
    have he := h.find_eq_some.1 hfind
    rcases le_or_gt now e.expires_at with hlive | hexpired
    · obtain ⟨hmap, hrecency, hc⟩ := touch_spec h he
      have htouch : Effect max_entries c (c.touch_ key e) now (some key) (fun _ ↦ none) none :=
        effect_of_touch h hsize hc hrecency (h.mem_recency he)
          (fun _ _ he' ↦ .inr ⟨rfl, hmap ▸ he'⟩) fun _ _ hw ↦ by cases hw
      simpa [hlive] using htouch
    · simpa only [not_le.2 hexpired, if_false, true_and] using
        effect_of_store h hsize hmax (keeps_drop_expired h he)
          (fun e' he' ↦ h.entry_eq he' he ▸ hexpired) value (now + seconds ttl)

theorem effect_of_evict_expired (h : c.WellFormed) (hsize : c.recency.length ≤ max_entries)
    (now : ℤ) :
    Effect max_entries c (c.evict_expired now).1 now none (fun _ ↦ none) none := by
  obtain ⟨P, hk, hP⟩ := keeps_erase_expired_ h now
  refine effect_of_keeps h hsize hk (fun key e he hfalse ↦ .inl (not_le.1 fun hle ↦ ?_))
    fun _ hi ↦ by cases hi
  rw [(hP key e he).2 hle] at hfalse
  cases hfalse

/-- **The effect of a call.** -/
theorem effect_of_perform (h : c.WellFormed) (hsize : c.recency.length ≤ max_entries) (op : Op V)
    (now : ℤ) :
    Effect max_entries c (perform max_entries now c op).1 now
      ((callOf max_entries c op now).uses max_entries)
      ((callOf max_entries c op now).writes max_entries)
      (callOf max_entries c op now).invalidates := by
  cases op with
  | get key =>
    exact uses_get max_entries key now _ _ ▸ effect_of_get h hsize key now
  | set key value ttl => exact effect_of_set h hsize key now value ttl
  | set_if_absent key value ttl =>
    have hwrites :
        (callOf max_entries c (.set_if_absent key value ttl) now).writes max_entries = _ :=
      funext fun k ↦ writes_set_if_absent max_entries key now value ttl _ _ k
    rw [hwrites]
    exact effect_of_set_if_absent h hsize key now value ttl
  | invalidate key => exact effect_of_invalidate h hsize key
  | evict_expired => exact effect_of_evict_expired h hsize now

theorem mem_evictedBy {x : Call V} (h' : c'.WellFormed) : key ∈ evictedBy c c' x ↔
    ∃ e, (key, e) ∈ c.map ∧ x.now ≤ e.expires_at ∧ x.invalidates ≠ some key ∧
      key ∉ c'.recency := by
  have hgone : ∀ k, k ∉ c'.map.map (·.1) ↔ k ∉ c'.recency := fun k ↦
    not_congr h'.recency_perm.mem_iff
  rw [evictedBy, List.mem_map]
  constructor
  · rintro ⟨⟨k, e⟩, hin, rfl⟩
    obtain ⟨he, hlost⟩ := List.mem_filter.1 hin
    obtain ⟨hnow, hinv, hlost⟩ := of_decide_eq_true hlost
    exact ⟨e, he, hnow, hinv, (hgone k).1 hlost⟩
  · rintro ⟨e, he, hnow, hinv, hlost⟩
    exact ⟨(key, e), List.mem_filter.2 ⟨he, decide_eq_true ⟨hnow, hinv, (hgone key).2 hlost⟩⟩, rfl⟩

/-- **What is evicted** has seen as many other keys used as the cache holds. -/
theorem le_card_of_evicted (h : c.WellFormed) (hsize : c.recency.length ≤ max_entries)
    {history : List (Call V)}
    (hrecent : c.recency.Sublist (Recency.recent (uses max_entries history)))
    {op : Op V} (hkey : key ∈ (callOf max_entries c op now).evicted) :
    max_entries ≤ ((uses max_entries (callOf max_entries c op now :: history)).takeWhile
      (· ≠ key)).toFinset.card := by
  have heffect := effect_of_perform h hsize op now
  obtain ⟨e, he, hnow, hinv, hgone⟩ := (mem_evictedBy heffect.wellFormed).1 hkey
  obtain ⟨key', l, huses, hlen, hlast⟩ := heffect.evicted key e he hnow hinv hgone
  rw [uses, List.filterMap_cons_some huses]
  exact hlen.ge.trans
    (Recency.length_le_of_sublist (hlast.trans (Recency.Sublist.touch hrecent)))

/-- **`set_if_absent`** stores if the key has no entry that is still good, and changes no entry if
it does not store. -/
theorem set_if_absent_spec (h : c.WellFormed) (key : String) (now : ℤ) (max_entries : ℕ) (value : V)
    (ttl : ℤ) :
    ((c.set_if_absent key now max_entries value ttl).2 = true ↔
      0 < ttl ∧ 0 < max_entries ∧ ∀ e, c.find key = some e → e.expires_at < now) ∧
      ((c.set_if_absent key now max_entries value ttl).2 = false →
        (c.set_if_absent key now max_entries value ttl).1.map = c.map) := by
  rcases le_or_gt ttl 0 with httl | httl
  · simp [Cache.set_if_absent, httl, not_lt.2 httl]
  rcases max_entries.eq_zero_or_pos with rfl | hmax
  · simp [Cache.set_if_absent]
  cases hfind : c.find key with
  | none => simp [Cache.set_if_absent, hfind, httl, not_le.2 httl, hmax, hmax.ne']
  | some e =>
    rcases le_or_gt now e.expires_at with hlive | hexpired
    · have hmap := (touch_spec h (h.find_eq_some.1 hfind)).1
      simp [Cache.set_if_absent, hfind, httl, not_le.2 httl, hmax.ne', hlive, hmap]
    · simp [Cache.set_if_absent, hfind, httl, not_le.2 httl, hmax, hmax.ne', hexpired,
        not_le.2 hexpired]

end Effect

/-! ### Every history -/

/-- What a cache has to do with its history. -/
structure Inv (max_entries : ℕ) (s : Run V) : Prop where
  wellFormed : s.cache.WellFormed
  size : s.cache.recency.length ≤ max_entries
  recency : s.cache.recency.Sublist (Recency.recent (uses max_entries s.history))
  /-- An entry is the last one that was written. -/
  sound : ∀ key e, (key, e) ∈ s.cache.map →
    lastEntry max_entries key s.history = some (e.value, e.expires_at)
  /-- The last one that was written is there, or has expired. -/
  complete : ∀ key entry, lastEntry max_entries key s.history = some entry → s.clock ≤ entry.2 →
    key ∈ s.cache.recency

section Inv

variable {max_entries : ℕ} {s s' : Run V}

/-- **Every call** keeps the cache in line with its history. -/
theorem Inv.step (h : Inv max_entries s) {o : Op V × ℤ}
    (hs : (caches max_entries).step o s = some s') : Inv max_entries s' := by
  obtain ⟨op, now⟩ := o
  obtain ⟨hclock, hs⟩ := Option.ite_none_right_eq_some.1 hs
  obtain rfl := Option.some.inj hs
  obtain ⟨hw, hsize, hentries, hwritten, hrecency, hevicted⟩ :=
    effect_of_perform h.wellFormed h.size op now
  have hdropped : ∀ key, key ∈ (callOf max_entries s.cache op now).evicted ↔ _ := fun key ↦
    mem_evictedBy hw
  refine ⟨hw, hsize, ?_, fun key e he ↦ ?_, fun key entry hlast hexp ↦ ?_⟩
  · cases huses : (callOf max_entries s.cache op now).uses max_entries with
    | none =>
      rw [huses] at hrecency
      show List.Sublist _ (Recency.recent (uses max_entries (_ :: _)))
      rw [uses, List.filterMap_cons_none huses]
      exact hrecency.trans h.recency
    | some key =>
      rw [huses] at hrecency
      show List.Sublist _ (Recency.recent (uses max_entries (_ :: _)))
      rw [uses, List.filterMap_cons_some huses]
      exact hrecency.trans (Recency.Sublist.touch h.recency)
  · rw [lastEntry]
    rcases hentries key e he with hw' | ⟨hw', hinv, hold⟩
    · rw [hw']
    · rw [hw']
      have hkept : key ∉ (callOf max_entries s.cache op now).evicted := fun hin ↦ by
        obtain ⟨_, -, -, -, hgone⟩ := (hdropped key).1 hin
        exact hgone (hw.mem_recency he)
      show (if _ then _ else _) = _
      rw [if_neg (not_or.2 ⟨hinv, hkept⟩)]
      exact h.sound key e hold
  · rw [lastEntry] at hlast
    cases hw' : (callOf max_entries s.cache op now).writes max_entries key with
    | some entry' => exact hwritten key entry' hw'
    | none =>
      rw [hw'] at hlast
      obtain ⟨hkept, hlast⟩ := Option.ite_none_left_eq_some.1 hlast
      obtain ⟨hinv, hkept⟩ := not_or.1 hkept
      have hin := h.complete key entry hlast (hclock.trans hexp)
      obtain ⟨e, he⟩ := h.wellFormed.exists_mem hin
      obtain rfl := Option.some.inj ((h.sound key e he).symm.trans hlast)
      by_contra hgone
      exact hkept ((hdropped key).2 ⟨e, he, hexp, hinv, hgone⟩)

theorem inv_of_reach {t₀ : ℤ} (hs : (caches max_entries).Reach (fun _ _ ↦ True) { clock := t₀ } s) :
    Inv max_entries s :=
  Labelled.invariant hs
    ⟨wellFormed_empty, Nat.zero_le _, .slnil, fun _ _ he ↦ absurd he List.not_mem_nil,
      fun _ _ hlast ↦ by cases hlast⟩
    fun h _ hs ↦ h.step hs

/-- **What `get` returns** is read off the history. -/
theorem Inv.get_eq (h : Inv max_entries s) (key : String) {now : ℤ} (hnow : s.clock ≤ now) :
    (s.cache.get key now).2 =
      ((lastEntry max_entries key s.history).filter (now ≤ ·.2)).map (·.1) := by
  cases hfind : s.cache.find key with
  | some e =>
    have hlast := h.sound key e (h.wellFormed.find_eq_some.1 hfind)
    rcases le_or_gt now e.expires_at with hlive | hexpired
    · simp [Cache.get, hfind, hlast, hlive, not_lt.2 hlive, Option.filter_some]
    · simp [Cache.get, hfind, hlast, hexpired, Option.filter_some]
  | none =>
    cases hlast : lastEntry max_entries key s.history with
    | none => simp [Cache.get, hfind]
    | some entry =>
      have hexpired : ¬ now ≤ entry.2 := fun hle ↦ by
        obtain ⟨e, he⟩ := h.wellFormed.exists_mem (h.complete key entry hlast (hnow.trans hle))
        rw [h.wellFormed.find_eq_some.2 he] at hfind
        cases hfind
      simp [Cache.get, hfind, hexpired, Option.filter_some]

end Inv

/-- What a cache promises after a history. -/
structure Exact (max_entries : ℕ) (s : Run V) : Prop where
  wellFormed : s.cache.WellFormed
  size : s.cache.map.length ≤ max_entries
  /-- The last value that was written, until it expires, is invalidated or is evicted. -/
  get : ∀ key now, s.clock ≤ now → (s.cache.get key now).2 =
    ((lastEntry max_entries key s.history).filter (now ≤ ·.2)).map (·.1)
  /-- It stores exactly if there is no entry that is still good. -/
  set_if_absent : ∀ key now value ttl,
    let x := s.cache.set_if_absent key now max_entries value ttl
    (x.2 = true ↔ 0 < ttl ∧ 0 < max_entries ∧
      ∀ e, s.cache.find key = some e → e.expires_at < now) ∧
    (x.2 = true → ∃ e, x.1.find key = some e ∧ e.value = value ∧
      e.expires_at = now + seconds ttl) ∧
    (x.2 = false → x.1.map = s.cache.map)
  /-- A key is evicted only after as many others have been used as the cache holds. -/
  evicted : ∀ op now, ∀ key ∈ (callOf max_entries s.cache op now).evicted,
    max_entries ≤ ((uses max_entries (callOf max_entries s.cache op now :: s.history)).takeWhile
      (· ≠ key)).toFinset.card

/-- **An exact LRU with expiry.** Whatever calls are made of a cache of whatever size, by a clock
that does not go back, it is well formed and keeps what it promises. -/
theorem exact_of_reach {max_entries : ℕ} {t₀ : ℤ} {s : Run V}
    (hs : (caches max_entries).Reach (fun _ _ ↦ True) { clock := t₀ } s) : Exact max_entries s := by
  have h := inv_of_reach hs
  refine ⟨h.wellFormed, ?_, fun key now hnow ↦ h.get_eq key hnow, fun key now value ttl ↦ ?_,
    fun op now key hkey ↦ le_card_of_evicted h.wellFormed h.size h.recency hkey⟩
  · rw [h.wellFormed.length_eq, ← List.length_map (f := Node.key)]
    exact h.size
  · obtain ⟨hstored, hleft⟩ := set_if_absent_spec h.wellFormed key now max_entries value ttl
    have heffect := effect_of_set_if_absent h.wellFormed h.size key now value ttl
    refine ⟨hstored, fun htrue ↦ ?_, hleft⟩
    have hin := heffect.written key (value, now + seconds ttl) (if_pos ⟨htrue, rfl⟩)
    obtain ⟨e, he⟩ := heffect.wellFormed.exists_mem hin
    rcases heffect.entries key e he with hw | ⟨hw, -⟩
    · rw [if_pos ⟨htrue, rfl⟩] at hw
      obtain ⟨hvalue, hexp⟩ := Prod.mk.inj (Option.some.inj hw)
      exact ⟨e, heffect.wellFormed.find_eq_some.2 he, hvalue.symm, hexp.symm⟩
    · rw [if_pos ⟨htrue, rfl⟩] at hw
      cases hw

/-- Of two keys the one that has been read stays when a third comes. -/
theorem exact_of_reach_three : ∃ s : Run ℕ,
    (caches 2).Reach (fun _ _ ↦ True) {} s ∧ Exact 2 s ∧
      (s.cache.get "a" 4).2 = some 1 ∧ (s.cache.get "b" 4).2 = none := by
  obtain ⟨s, hs, hget⟩ := Labelled.exists_of_run (L := caches 2) (fun _ _ ↦ True) {}
    [(.set "a" 1 60, 1), (.set "b" 2 60, 2), (.get "a", 3), (.set "c" 3 60, 4)]
    (fun s ↦ (s.cache.get "a" 4).2 = some 1 ∧ (s.cache.get "b" 4).2 = none) (by decide +kernel)
  exact ⟨s, hs, exact_of_reach hs, hget⟩

end ChatNow.LocalCache
