import ChatNow.UserInfo.Resolve
import Mathlib.Logic.Function.Basic

/-!
# What a reader of the user-info cache may store

The contract of a reader (`fillContract`): it stores for a user the text of the row that it has read
last, under the generation that it has read before the row. Which calls it uses for that, and for
how many users at a time, is left to it.

* `resolve_user_info_fills`: `resolve_user_info` keeps to it, with the sentinel for a user who is
  not there.
* `single_fill_fills`, `batch_fill_fills`: so do readers that use the calls for one user and for
  many. An MGET reads the generations of a bucket at once, and no other group has the same users, so
  that what has been observed stands until the rows are read.

A `Filler` is a reader together with the proof that it keeps to the contract.
-/

namespace ChatNow

open Prog UserOp

/-! ### Readers -/

/-- What a reader has read of a user: the generation, and then the text of the row. -/
inductive FillPhase
  | idle
  | read (generation : ℕ)
  | fetched (generation : ℕ) (text : String)
  deriving DecidableEq

namespace FillPhase

/-- After a reading of the generation. -/
def of_raw (raw : Option String) : FillPhase :=
  match UserInfoCache.generation_of raw with
  | some g => read g
  | none => idle

/-- After a reading of the row. -/
def fetch (text : String) : FillPhase → FillPhase
  | read g => fetched g text
  | fetched g _ => fetched g text
  | idle => idle

end FillPhase

/-- What a reader has read of each user. -/
abbrev FillPhases := String → FillPhase

/-- The generations that an MGET has answered. -/
def FillPhases.mget (ph : FillPhases) (uids : List String)
    (values : List (Option String × Option String)) : FillPhases :=
  fun uid ↦
    match (uids.zip values).lookup uid with
    | some (_, raw) => .of_raw raw
    | none => ph uid

/-- An MGET answers for every user of its list. -/
theorem FillPhases.mget_map (ph : FillPhases) (uids : List String)
    (f : String → Option String × Option String) (uid : String) :
    ph.mget uids (uids.map f) uid = if uid ∈ uids then .of_raw (f uid).2 else ph uid := by
  have hlookup :
      (uids.zip (uids.map f)).lookup uid = if uid ∈ uids then some (f uid) else none := by
    induction uids with
    | nil => rfl
    | cons u uids ih =>
      rw [List.map_cons, List.zip_cons_cons, List.lookup_cons, ih]
      by_cases hu : uid = u
      · simp [hu]
      · simp [hu, beq_false_of_ne hu]
  rw [mget, hlookup]
  split <;> simp_all

/-- The contract of a reader. -/
def fillContract (codec : UserInfoCodec) : Contract UserOp UserOp.Res FillPhases where
  allowed ph o :=
    match o with
    | evalSetIfGeneration uid v => ph uid = .fetched v.observed_generation v.serialized
    | evalBatchSetIfGeneration entries =>
      ∀ e ∈ entries, ph e.1 = .fetched e.2.observed_generation e.2.serialized
    | updateUser _ _ => False
    | updated _ => False
    | _ => True
  admits _ o r :=
    match o, r with
    | mget uids, .ok values => ∃ f, values = uids.map f
    | _, _ => True
  next ph o r :=
    match o, r with
    | getGeneration uid, .ok raw => Function.update ph uid (.of_raw raw)
    | mget uids, .ok values => ph.mget uids values
    | selectById uid, row => Function.update ph uid ((ph uid).fetch (codec.text row))
    | callGetProfile uid, .found bytes => Function.update ph uid ((ph uid).fetch bytes)
    | callGetProfile uid, .notFound => Function.update ph uid ((ph uid).fetch "")
    | _, _ => ph

/-- A reader that keeps to the contract. -/
structure Filler (codec : UserInfoCodec) where
  prog : UserM Unit
  meets : prog.Meets (fillContract codec) (fun _ ↦ .idle) fun _ _ ↦ True

section Readers

variable {codec : UserInfoCodec} {ph : FillPhases} {uid : String}

namespace UserInfoCache

theorem get_fills : (get uid).Meets (fillContract codec) ph fun ph' _ ↦ ph' = ph := by
  refine meets_op_bind.2 ⟨trivial, fun r _ ↦ ?_⟩
  cases r with
  | ok value => exact rfl
  | thrown => exact rfl

theorem generation_fills : (generation uid).Meets (fillContract codec) ph
    fun ph' r ↦ ∀ g, r = some g → ph' uid = .read g := by
  refine meets_op_bind.2 ⟨trivial, fun r _ ↦ ?_⟩
  cases r with
  | ok raw =>
    intro g hg
    show Function.update ph uid (FillPhase.of_raw raw) uid = _
    rw [Function.update_self, FillPhase.of_raw, hg]
  | thrown => exact nofun

theorem set_if_generation_fills {text : String} {g : ℕ} (h : ph uid = .fetched g text) :
    (set_if_generation uid text g).Meets (fillContract codec) ph fun _ _ ↦ True :=
  meets_op_bind.2 ⟨h, fun _ _ ↦ trivial⟩

theorem invalidate_fills : (invalidate uid).Meets (fillContract codec) ph fun _ _ ↦ True := by
  refine meets_op_bind.2 ⟨trivial, fun r _ ↦ ?_⟩
  cases r with
  | ok _ => exact trivial
  | thrown => exact trivial

end UserInfoCache

variable {cfg : UserInfoConfig} {inst : ℕ}

theorem read_l1_fills : (read_l1 codec cfg inst uid).Meets (fillContract codec) ph
    fun _ _ ↦ True := by
  rw [read_l1]
  split
  · exact trivial
  · refine meets_op_bind.2 ⟨trivial, fun r _ ↦ ?_⟩
    cases r with
    | none => exact trivial
    | some bytes =>
      dsimp only
      split
      · exact trivial
      · refine meets_op_bind.2 ⟨trivial, fun _ _ ↦ ?_⟩
        split
        · exact UserInfoCache.invalidate_fills.bind fun _ _ _ ↦ trivial
        · exact trivial

/-- What the identity service has answered is what may be stored under a generation read before. -/
theorem fetch_user_info_fills : (fetch_user_info_from_identity codec uid).Meets
    (fillContract codec) ph fun ph' r ↦ ∀ g, ph uid = .read g →
      (∀ bytes, r.1 = some bytes → ph' uid = .fetched g bytes) ∧
        (r.2 = true → ph' uid = .fetched g "") := by
  refine meets_op_bind.2 ⟨trivial, fun r _ ↦ ?_⟩
  cases r with
  | failed => exact fun g _ ↦ ⟨nofun, nofun⟩
  | notFound =>
    refine fun g hg ↦ ⟨nofun, fun _ ↦ ?_⟩
    show Function.update ph uid _ uid = _
    rw [Function.update_self, hg]
    rfl
  | found bytes =>
    refine fun g hg ↦ ⟨fun bytes' hb ↦ ?_, nofun⟩
    obtain ⟨-, hb⟩ := Option.ite_none_right_eq_some.1 hb
    obtain rfl := Option.some.inj hb
    show Function.update ph uid _ uid = _
    rw [Function.update_self, hg]
    rfl

theorem publish_user_info_l1_fills {result : UserInfoCache.GenerationWriteResult}
    {bytes : String} : (publish_user_info_l1 cfg inst uid result bytes).Meets (fillContract codec)
      ph fun _ _ ↦ True := by
  rw [publish_user_info_l1]
  split
  · exact trivial
  · split
    · exact ⟨trivial, fun _ _ ↦ trivial⟩
    · exact trivial

theorem observed_generation_fills : (observed_generation cfg uid).Meets (fillContract codec) ph
    fun ph' r ↦ ∀ g, r = some g → ph' uid = .read g := by
  rw [observed_generation]
  split
  · exact UserInfoCache.generation_fills
  · exact nofun

theorem set_if_observed_fills {text : String} {generation : Option ℕ}
    (h : ∀ g, generation = some g → ph uid = .fetched g text) :
    (set_if_observed uid text generation).Meets (fillContract codec) ph fun _ _ ↦ True := by
  cases generation with
  | some g => exact UserInfoCache.set_if_generation_fills (h g rfl)
  | none => exact trivial

theorem resolve_from_identity_fills : (resolve_from_identity codec cfg inst uid).Meets
    (fillContract codec) ph fun _ _ ↦ True := by
  refine observed_generation_fills.bind fun ph generation hg ↦ ?_
  refine fetch_user_info_fills.bind fun ph' r hr ↦ ?_
  obtain ⟨bytes, confirmed_not_found⟩ := r
  cases bytes with
  | none =>
    dsimp only
    split
    · next hc =>
      refine (set_if_observed_fills fun g h ↦ ?_).bind fun _ _ _ ↦ trivial
      exact (hr g (hg g h)).2 hc
    · exact trivial
  | some bytes =>
    refine (set_if_observed_fills fun g h ↦ ?_).bind fun _ _ _ ↦ ?_
    · exact (hr g (hg g h)).1 bytes rfl
    · exact publish_user_info_l1_fills.bind fun _ _ _ ↦ trivial

theorem resolve_after_lock_fills : (resolve_after_lock codec cfg inst uid).Meets
    (fillContract codec) ph fun _ _ ↦ True := by
  refine read_l1_fills.bind fun _ r _ ↦ ?_
  cases r with
  | some bytes => exact trivial
  | none =>
    show Meets _ (if _ then _ else _) _ _
    split
    · refine UserInfoCache.get_fills.bind fun _ r _ ↦ ?_
      cases r with
      | none => exact resolve_from_identity_fills
      | some redis =>
        dsimp only
        split
        · exact trivial
        · split
          · split
            · exact ⟨trivial, fun _ _ ↦ trivial⟩
            · exact trivial
          · exact UserInfoCache.invalidate_fills.bind fun _ _ _ ↦ resolve_from_identity_fills
    · exact resolve_from_identity_fills

/-- `resolve_user_info` keeps to the contract. -/
theorem resolve_user_info_fills : (resolve_user_info codec cfg inst uid).Meets
    (fillContract codec) ph fun _ _ ↦ True := by
  refine read_l1_fills.bind fun _ r _ ↦ ?_
  cases r with
  | some bytes => exact trivial
  | none =>
    show Meets _ (if _ then _ else _) _ _
    split
    · refine meets_op_bind.2 ⟨trivial, fun _ _ ↦ ?_⟩
      refine resolve_after_lock_fills.bind fun _ _ _ ↦ ?_
      exact ⟨trivial, fun _ _ ↦ trivial⟩
    · exact resolve_after_lock_fills

/-! ### Readers of one user and of many -/

/-- A reader of one user: the generation, the row, the write. -/
def single_fill (codec : UserInfoCodec) (uid : String) : UserM Unit := do
  match ← UserInfoCache.generation uid with
  | none => return ()
  | some generation =>
    let row ← op (selectById uid)
    let _ ← UserInfoCache.set_if_generation uid (codec.text row) generation

theorem single_fill_fills : (single_fill codec uid).Meets (fillContract codec) ph
    fun _ _ ↦ True := by
  refine UserInfoCache.generation_fills.bind fun ph r hr ↦ ?_
  cases r with
  | none => exact trivial
  | some g =>
    refine meets_op_bind.2 ⟨trivial, fun row _ ↦ ?_⟩
    refine (UserInfoCache.set_if_generation_fills ?_).bind fun _ _ _ ↦ trivial
    show Function.update ph uid _ uid = _
    rw [Function.update_self, hr g rfl]
    rfl

/-- The rows of the users that were missed with a generation. A later text of a user replaces an
earlier one. -/
def fetch_misses (codec : UserInfoCodec) : List (String × Option ℕ) →
    List (String × FencedValue) → UserM (List (String × FencedValue))
  | [], values => return values
  | (_, none) :: misses, values => fetch_misses codec misses values
  | (uid, some generation) :: misses, values => do
    let row ← op (selectById uid)
    fetch_misses codec misses
      ((uid, ⟨codec.text row, generation⟩) :: values.filter (·.1 ≠ uid))

/-- A reader of many users, with the orders in which the two hash maps are gone through. -/
def batch_fill (codec : UserInfoCodec) (order order' : List UInt32) (uids : List String) :
    UserM Unit := do
  let result ← UserInfoCache.batch_get order uids
  let values ← fetch_misses codec result.misses []
  let _ ← UserInfoCache.batch_set order' values

/-- What may be stored as it is. -/
def FillPhases.Fetched (ph : FillPhases) (values : List (String × FencedValue)) : Prop :=
  ∀ e ∈ values, ph e.1 = .fetched e.2.observed_generation e.2.serialized

/-- The generations are those that the reader has in hand. -/
def FillPhases.Missed (ph : FillPhases) (misses : List (String × Option ℕ)) : Prop :=
  ∀ m ∈ misses, ∀ g, m.2 = some g → ph m.1 = .read g

theorem mem_bucket_groups {α : Type} {f : α → String} {order : List UInt32} {entries g : List α}
    (h : g ∈ bucket_groups f order entries) : g ⊆ entries := by
  obtain ⟨b, -, rfl⟩ := List.mem_map.1 (List.mem_of_mem_filter h)
  exact List.filter_subset_self _

/-- A user is in one group. -/
theorem pairwise_bucket_groups {order : List UInt32} (horder : order.Nodup) (uids : List String) :
    (bucket_groups id order uids).Pairwise List.Disjoint := by
  refine List.Pairwise.filter _ (List.pairwise_map.2 (horder.imp fun {b b'} hne ↦ ?_))
  intro uid hb hb'
  simp only [List.mem_filter, decide_eq_true_eq] at hb hb'
  exact hne (hb.2.symm.trans hb'.2)

/-- A user that is missed by an MGET has been answered without a value. -/
theorem misses_sort_values {f : String → Option String × Option String} {uids : List String}
    {result : UserInfoCache.BatchResult} {m : String × Option ℕ}
    (hm : m ∈ (UserInfoCache.sort_values uids (uids.map f) result).misses) :
    m ∈ result.misses ∨ m.1 ∈ uids ∧ m.2 = UserInfoCache.generation_of (f m.1).2 := by
  induction uids generalizing result with
  | nil => exact .inl hm
  | cons uid uids ih =>
    rw [List.map_cons] at hm
    rcases hf : f uid with ⟨value, raw⟩
    rw [hf] at hm
    cases value with
    | some value =>
      rcases ih hm with h | ⟨h, hg⟩
      · exact .inl h
      · exact .inr ⟨List.mem_cons_of_mem _ h, hg⟩
    | none =>
      rcases ih hm with h | ⟨h, hg⟩
      · rcases List.mem_append.1 h with h | h
        · exact .inl h
        · obtain rfl := List.mem_singleton.1 h
          exact .inr ⟨List.mem_cons_self, by rw [hf]⟩
      · exact .inr ⟨List.mem_cons_of_mem _ h, hg⟩

/-- The generations of the groups that are done stay in hand, as no later group has their users. -/
theorem batch_get_groups_fills {groups : List (List String)} {result : UserInfoCache.BatchResult}
    (hdisj : groups.Pairwise List.Disjoint) (hmissed : ph.Missed result.misses)
    (hdone : ∀ m ∈ result.misses, ∀ entries ∈ groups, m.1 ∉ entries) :
    (UserInfoCache.batch_get_groups groups result).Meets (fillContract codec) ph
      fun ph' r ↦ ph'.Missed r.misses := by
  induction groups generalizing ph result with
  | nil => exact hmissed
  | cons entries groups ih =>
    obtain ⟨hhead, htail⟩ := List.pairwise_cons.1 hdisj
    refine meets_op_bind.2 ⟨trivial, fun r hr ↦ ?_⟩
    cases r with
    | ok values =>
      obtain ⟨f, rfl⟩ := hr
      refine ih htail (fun m hm g hg ↦ ?_) fun m hm later hlater ↦ ?_
      · show ph.mget entries (entries.map f) m.1 = _
        rw [FillPhases.mget_map]
        rcases misses_sort_values hm with hm | ⟨hm, hgen⟩
        · rw [if_neg (hdone m hm entries List.mem_cons_self)]
          exact hmissed m hm g hg
        · rw [if_pos hm, FillPhase.of_raw, ← hgen, hg]
      · rcases misses_sort_values hm with hm | ⟨hm, -⟩
        · exact hdone m hm later (List.mem_cons_of_mem _ hlater)
        · exact fun hin ↦ hhead later hlater hm hin
    | thrown =>
      have hcases {m : String × Option ℕ}
          (hm : m ∈ result.misses ++ entries.map fun uid ↦ (uid, none)) :
          m ∈ result.misses ∨ m.1 ∈ entries ∧ m.2 = none := by
        rcases List.mem_append.1 hm with hm | hm
        · exact .inl hm
        · obtain ⟨uid, huid, rfl⟩ := List.mem_map.1 hm
          exact .inr ⟨huid, rfl⟩
      refine ih htail (fun m hm g hg ↦ ?_) fun m hm later hlater ↦ ?_
      · rcases hcases hm with hm | ⟨-, hnone⟩
        · exact hmissed m hm g hg
        · rw [hnone] at hg
          cases hg
      · rcases hcases hm with hm | ⟨hm, -⟩
        · exact hdone m hm later (List.mem_cons_of_mem _ hlater)
        · exact fun hin ↦ hhead later hlater hm hin

/-- What has been missed is in hand until the row is read, and may be stored from then on. -/
theorem fetch_misses_fills {misses : List (String × Option ℕ)}
    {values : List (String × FencedValue)} (hvalues : ph.Fetched values)
    (hmisses : ∀ m ∈ misses, ∀ g, m.2 = some g →
      ph m.1 = .read g ∨ ∃ text, ph m.1 = .fetched g text) :
    (fetch_misses codec misses values).Meets (fillContract codec) ph
      fun ph' r ↦ ph'.Fetched r := by
  induction misses generalizing ph values with
  | nil => exact hvalues
  | cons m misses ih =>
    obtain ⟨uid, generation⟩ := m
    cases generation with
    | none => exact ih hvalues fun m hm ↦ hmisses m (List.mem_cons_of_mem _ hm)
    | some g =>
      refine meets_op_bind.2 ⟨trivial, fun row _ ↦ ?_⟩
      have hnow : (ph uid).fetch (codec.text row) = .fetched g (codec.text row) := by
        rcases hmisses (uid, some g) List.mem_cons_self g rfl with h | ⟨text, h⟩
        · rw [h]
          rfl
        · rw [h]
          rfl
      show (fetch_misses codec misses _).Meets _ (Function.update ph uid _) _
      rw [hnow]
      refine ih (fun e he ↦ ?_) fun m hm g' hg ↦ ?_
      · rcases List.mem_cons.1 he with rfl | he
        · exact Function.update_self _ _ _
        · obtain ⟨he, hne⟩ := List.mem_filter.1 he
          rw [Function.update_of_ne (of_decide_eq_true hne)]
          exact hvalues e he
      · have hm := hmisses m (List.mem_cons_of_mem _ hm) g' hg
        by_cases huid : m.1 = uid
        · have hold := hmisses (uid, some g) List.mem_cons_self g rfl
          rw [huid] at hm ⊢
          rw [Function.update_self]
          -- both misses name the generation that is in hand
          rcases hold with h | ⟨_, h⟩
          · rcases hm with h' | ⟨_, h'⟩
            · obtain rfl := FillPhase.read.inj (h.symm.trans h')
              exact .inr ⟨_, rfl⟩
            · cases h.symm.trans h'
          · rcases hm with h' | ⟨_, h'⟩
            · cases h.symm.trans h'
            · obtain ⟨rfl, -⟩ := FillPhase.fetched.inj (h.symm.trans h')
              exact .inr ⟨_, rfl⟩
        · rwa [Function.update_of_ne huid]

theorem batch_set_groups_fills {groups : List (List (String × FencedValue))} {written : ℕ}
    (h : ∀ entries ∈ groups, ph.Fetched entries) :
    (UserInfoCache.batch_set_groups groups written).Meets (fillContract codec) ph
      fun _ _ ↦ True := by
  induction groups generalizing written with
  | nil => exact trivial
  | cons entries groups ih =>
    refine meets_op_bind.2 ⟨h entries List.mem_cons_self, fun r _ ↦ ?_⟩
    have hrest : ∀ entries ∈ groups, ph.Fetched entries :=
      fun e he ↦ h e (List.mem_cons_of_mem _ he)
    cases r with
    | ok n => exact ih hrest
    | thrown => exact ih hrest

theorem batch_fill_fills {order order' : List UInt32} (horder : order.Nodup) {uids : List String} :
    (batch_fill codec order order' uids).Meets (fillContract codec) ph fun _ _ ↦ True := by
  refine (batch_get_groups_fills (pairwise_bucket_groups horder _)
    (fun _ hm ↦ absurd hm List.not_mem_nil) fun _ hm ↦ absurd hm List.not_mem_nil).bind
    fun ph result hresult ↦ ?_
  refine (fetch_misses_fills (fun _ he ↦ absurd he List.not_mem_nil)
    fun m hm g hg ↦ .inl (hresult m hm g hg)).bind fun ph values hvalues ↦ ?_
  refine (batch_set_groups_fills fun entries hentries e he ↦ ?_).bind fun _ _ _ ↦ trivial
  exact hvalues e (List.mem_of_mem_take (mem_bucket_groups hentries he))

end Readers

end ChatNow
