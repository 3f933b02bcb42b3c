import ChatNow.Presence.Keys
import Mathlib.Data.Finset.Basic
import Mathlib.Data.Finset.Lattice.Fold
import Mathlib.Data.List.Sort

/-!
# Presence subscriptions

Who is told when the presence of a user changes. The presence service keeps one Redis set a user,
with the watchers in it; `SubscribePresence` and `UnsubscribePresence` write the sets,
`subscribed_uids` reads the names of the users back from the keys, and `_notify_presence_change_` of
the push service reads the set of one user.

* `SubscribePresence`, `UnsubscribePresence`, `subscribed_uids`, `presenceSubs`: the four of them.
* `Watches`: what a history of calls says, apart from any key.
* `mem_serve`: the sets are the histories, key by key.
* `delivered_iff`: the notifier agrees with the history only when nobody watches anybody.

The writers put the user under `im:presence:sub:` as it is; the notifier puts the hash tag around
it. So the notifier reads, for `uid`, who watches a user named `{uid}` (`mem_presenceSubs`). What
`subscribed_uids` reads back is what the writers have built (`mem_subscribed_uids`).
-/

namespace ChatNow.Presence

/-! ### The service -/

/-- The sets in Redis. A key is there while its set has a member. -/
abbrev Sets : Type := String → Finset String

/-- `SADD`. -/
def sadd (db : Sets) (key member : String) : Sets :=
  Function.update db key (insert member (db key))

/-- `SREM`. -/
def srem (db : Sets) (key member : String) : Sets :=
  Function.update db key ((db key).erase member)

/-- `SubscribePresence`, for a user whom the metadata names. -/
def SubscribePresence (user_id : String) (subscribe_user_ids : List String) (db : Sets) : Sets :=
  subscribe_user_ids.foldl
    (fun db target_uid ↦ sadd db ("im:presence:sub:" ++ target_uid) user_id) db

/-- `UnsubscribePresence`. -/
def UnsubscribePresence (user_id : String) (unsubscribe_user_ids : List String) (db : Sets) :
    Sets :=
  unsubscribe_user_ids.foldl
    (fun db target_uid ↦ srem db ("im:presence:sub:" ++ target_uid) user_id) db

/-- The user in a key, where `find` gives the position 0. -/
def sub_uid (k : String) : Option String :=
  if "im:presence:sub:".toList.isPrefixOf k.toList then
    some (String.ofList (k.toList.drop "im:presence:sub:".toList.length))
  else
    none

/-- `std::unique` and the `erase` after it. -/
def unique : List String → List String
  | [] => []
  | [a] => [a]
  | a :: b :: l => if a = b then unique (b :: l) else a :: unique (b :: l)

/-- `PresenceAggregator::subscribed_uids`, with the batches of its `SCAN`. -/
def subscribed_uids (batches : List (List String)) : List String :=
  unique ((batches.flatten.filterMap sub_uid).mergeSort (· ≤ ·))

/-- The set that `_notify_presence_change_` reads. -/
def presenceSubs (db : Sets) (uid : String) : Finset String := db (presence_sub_key uid)

/-! ### Histories -/

/-- A call of one of the two. -/
inductive SubCall
  | subscribe (user_id : String) (subscribe_user_ids : List String)
  | unsubscribe (user_id : String) (unsubscribe_user_ids : List String)
  deriving DecidableEq

namespace SubCall

def apply : SubCall → Sets → Sets
  | subscribe user_id uids => SubscribePresence user_id uids
  | unsubscribe user_id uids => UnsubscribePresence user_id uids

/-- The user who calls. -/
def caller : SubCall → String
  | subscribe user_id _ => user_id
  | unsubscribe user_id _ => user_id

/-- The users whom the call names. -/
def targets : SubCall → List String
  | subscribe _ uids => uids
  | unsubscribe _ uids => uids

/-- The call is made by `w` and names `uid`. -/
def Concerns (w uid : String) (c : SubCall) : Prop := c.caller = w ∧ uid ∈ c.targets

instance (w uid : String) : DecidablePred (Concerns w uid) := fun c ↦
  inferInstanceAs (Decidable (c.caller = w ∧ uid ∈ c.targets))

def isSubscribe : SubCall → Bool
  | subscribe _ _ => true
  | unsubscribe _ _ => false

end SubCall

/-- The sets after a sequence of calls. -/
def serve (calls : List SubCall) : Sets := calls.foldl (fun db c ↦ c.apply db) fun _ ↦ ∅

/-- The last call of `w` that names `uid` is a subscribe. -/
def Watches (calls : List SubCall) (w uid : String) : Prop :=
  (calls.filter (·.Concerns w uid)).getLast?.any (·.isSubscribe)

instance (calls : List SubCall) (w uid : String) : Decidable (Watches calls w uid) :=
  inferInstanceAs (Decidable (_ = true))

theorem serve_concat (calls : List SubCall) (c : SubCall) :
    serve (calls ++ [c]) = c.apply (serve calls) := by
  rw [serve, List.foldl_append]
  rfl

theorem watches_concat {calls : List SubCall} {c : SubCall} {w uid : String} :
    Watches (calls ++ [c]) w uid ↔
      if c.Concerns w uid then c.isSubscribe else Watches calls w uid := by
  rw [Watches, List.filter_append, List.filter_singleton]
  by_cases hc : c.Concerns w uid
  · rw [if_pos hc]
    simp [hc]
  · rw [if_neg hc]
    simp [hc, Watches]

/-! ### The sets are the histories -/

section Sets

variable {db : Sets} {w x uid : String} {uids : List String}

theorem subKey_inj {uid uid' : String} :
    "im:presence:sub:" ++ uid = "im:presence:sub:" ++ uid' ↔ uid = uid' := by
  simp

theorem mem_SubscribePresence :
    x ∈ SubscribePresence w uids db ("im:presence:sub:" ++ uid) ↔
      w = x ∧ uid ∈ uids ∨ x ∈ db ("im:presence:sub:" ++ uid) := by
  induction uids generalizing db with
  | nil => simp [SubscribePresence]
  | cons t uids ih =>
    rw [SubscribePresence, List.foldl_cons]
    refine ih.trans ?_
    rcases eq_or_ne uid t with rfl | hne
    · simp only [sadd, Function.update_self, Finset.mem_insert, List.mem_cons, true_or, and_true]
      grind
    · rw [sadd, Function.update_of_ne (mt subKey_inj.1 hne), List.mem_cons]
      simp only [hne, false_or]

theorem mem_UnsubscribePresence :
    x ∈ UnsubscribePresence w uids db ("im:presence:sub:" ++ uid) ↔
      ¬(w = x ∧ uid ∈ uids) ∧ x ∈ db ("im:presence:sub:" ++ uid) := by
  induction uids generalizing db with
  | nil => simp [UnsubscribePresence]
  | cons t uids ih =>
    rw [UnsubscribePresence, List.foldl_cons]
    refine ih.trans ?_
    rcases eq_or_ne uid t with rfl | hne
    · simp only [srem, Function.update_self, Finset.mem_erase, List.mem_cons, true_or, and_true]
      grind
    · rw [srem, Function.update_of_ne (mt subKey_inj.1 hne), List.mem_cons]
      simp only [hne, false_or]

end Sets

variable {calls : List SubCall} {w uid : String}

/-- **The set under the key that the writers build holds the watchers.** -/
theorem mem_serve : w ∈ serve calls ("im:presence:sub:" ++ uid) ↔ Watches calls w uid := by
  induction calls using List.reverseRecOn with
  | nil => simp [serve, Watches]
  | append_singleton calls c ih =>
    rw [serve_concat, watches_concat]
    cases c with
    | subscribe user_id uids =>
      refine mem_SubscribePresence.trans ?_
      rw [ih]
      by_cases h : user_id = w ∧ uid ∈ uids <;>
        simp [SubCall.Concerns, SubCall.caller, SubCall.targets, SubCall.isSubscribe, h]
    | unsubscribe user_id uids =>
      refine mem_UnsubscribePresence.trans ?_
      rw [ih]
      by_cases h : user_id = w ∧ uid ∈ uids <;>
        simp [SubCall.Concerns, SubCall.caller, SubCall.targets, SubCall.isSubscribe, h]

/-- What the notifier reads for a user is who watches the user of that name in braces. -/
theorem mem_presenceSubs :
    w ∈ presenceSubs (serve calls) uid ↔ Watches calls w (hash_tag uid) :=
  mem_serve

/-! ### The users with a watcher -/

theorem mem_unique {a : String} {l : List String} : a ∈ unique l ↔ a ∈ l := by
  fun_induction unique l with
  | case1 => rfl
  | case2 => rfl
  | case3 b l ih =>
    rw [ih]
    simp
  | case4 b c l hne ih => rw [List.mem_cons, ih, ← List.mem_cons]

theorem sub_uid_eq_some {k : String} : sub_uid k = some uid ↔ k = "im:presence:sub:" ++ uid := by
  rw [sub_uid]
  constructor
  · intro h
    split at h
    · next hpre =>
      obtain ⟨rest, hrest⟩ := List.isPrefixOf_iff_prefix.1 hpre
      have huid : rest = uid.toList := by
        rw [← hrest, List.drop_left] at h
        rw [← Option.some.inj h, String.toList_ofList]
      rw [← String.toList_inj, ← hrest, huid, String.toList_append]
    · cases h
  · rintro rfl
    rw [String.toList_append, if_pos (List.isPrefixOf_iff_prefix.2 (List.prefix_append _ _)),
      List.drop_left, String.ofList_toList]

/-- `subscribed_uids` reads back what the writers have built. -/
theorem mem_subscribed_uids {G : Glob} {batches : List (List String)}
    (h : Scanned (fun k ↦ (serve calls k).Nonempty) G "im:presence:sub:*" batches) :
    uid ∈ subscribed_uids batches ↔ ∃ w, Watches calls w uid := by
  have hpat : ∀ k, G.accepts "im:presence:sub:*" k =
      "im:presence:sub:".toList.isPrefixOf k.toList :=
    G.accepts_star "im:presence:sub:" (by rfl)
  have hpre : "im:presence:sub:".toList.isPrefixOf ("im:presence:sub:" ++ uid).toList = true := by
    rw [String.toList_append]
    exact List.isPrefixOf_iff_prefix.2 (List.prefix_append _ _)
  rw [subscribed_uids, mem_unique, List.mem_mergeSort, List.mem_filterMap]
  simp only [sub_uid_eq_some, exists_eq_right, ← mem_serve]
  rw [h, hpat, hpre, and_iff_left rfl]
  rfl

/-! ### The notifier -/

/-- The notifier and `subscribed_uids` agree with the history. -/
structure Delivered (calls : List SubCall) : Prop where
  notified : ∀ uid w, w ∈ presenceSubs (serve calls) uid ↔ Watches calls w uid
  listed : ∀ G batches, Scanned (fun k ↦ (serve calls k).Nonempty) G "im:presence:sub:*" batches →
    ∀ uid, uid ∈ subscribed_uids batches ↔ ∃ w, Watches calls w uid

/-- Whoever is watched is named in a call. -/
theorem Watches.named (h : Watches calls w uid) : ∃ c ∈ calls, c.Concerns w uid := by
  rw [Watches, Option.any_eq_true] at h
  obtain ⟨c, hc, -⟩ := h
  have hmem := List.mem_filter.1 (List.mem_of_getLast? hc)
  exact ⟨c, hmem.1, of_decide_eq_true hmem.2⟩

/-- The names of users who are watched are no longer than some bound, since the calls name finitely
many. -/
theorem exists_length_le (calls : List SubCall) :
    ∃ n, ∀ w uid, Watches calls w uid → uid.length ≤ n := by
  refine ⟨(calls.flatMap (·.targets)).toFinset.sup String.length, fun w uid h ↦ ?_⟩
  obtain ⟨c, hc, -, huid⟩ := h.named
  exact Finset.le_sup (f := String.length)
    (List.mem_toFinset.2 (List.mem_flatMap.2 ⟨c, hc, huid⟩))

/-- Where the notifier agrees with the history, who watches a user watches the one in braces. -/
theorem Delivered.watches_hash_tag (h : Delivered calls) (hw : Watches calls w uid) :
    Watches calls w (hash_tag uid) :=
  mem_presenceSubs.1 ((h.notified uid w).2 hw)

/-- And the one in `n` pairs of braces, whose name is longer than `n`. -/
theorem Delivered.exists_long (h : Delivered calls) (hw : Watches calls w uid) (n : ℕ) :
    ∃ uid', Watches calls w uid' ∧ n ≤ uid'.length := by
  induction n with
  | zero => exact ⟨uid, hw, Nat.zero_le _⟩
  | succ n ih =>
    obtain ⟨uid', hw', hlen⟩ := ih
    refine ⟨hash_tag uid', h.watches_hash_tag hw', ?_⟩
    rw [length_hash_tag]
    omega

/-- **The notifier agrees with the calls exactly when they leave nobody watched.** -/
theorem delivered_iff : Delivered calls ↔ ∀ w uid, ¬Watches calls w uid := by
  constructor
  · intro h w uid hw
    obtain ⟨n, hn⟩ := exists_length_le calls
    obtain ⟨uid', hw', hlen⟩ := h.exists_long hw (n + 1)
    have := hn w uid' hw'
    omega
  · intro h
    refine ⟨fun uid w ↦ ?_, fun G batches hscan uid ↦ mem_subscribed_uids hscan⟩
    exact iff_of_false (mt mem_presenceSubs.1 (h w _)) (h w uid)

/-- One subscription, and nobody to tell. -/
theorem not_delivered :
    ¬Delivered [.subscribe "w" ["u"]] ∧ presenceSubs (serve [.subscribe "w" ["u"]]) "u" = ∅ :=
  ⟨fun h ↦ absurd ((h.notified "u" "w").2 (by decide +kernel)) (by decide +kernel),
    by decide +kernel⟩

end ChatNow.Presence
