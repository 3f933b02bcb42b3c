import ChatNow.Common.ErrorCodes
import ChatNow.Presence.Aggregator
import ChatNow.Proto.Message

/-!
# Invisible devices

`GetPresence` and `BatchGetPresence` of `presence/source/presence_server.h`, for callers that are
logged in, over two contents of the store that differ only in that some devices are INVISIBLE in the
one and OFFLINE in the other (`Hides`).

The aggregate ranks the two states alike, and the time of a device does not depend on its state. But
the list of devices has the state of each device in it, so the two answers are the same exactly
where no such device is shown: it is too old, or the reader throws (`presence_same_iff`).
-/

namespace ChatNow.Presence

open presence

/-! ### The RPCs -/

/-- What the environment decides when the presence of a user is read. -/
structure Lookup where
  user_id : String
  /-- The batches of the `SCAN`. -/
  batches : List (List String)
  /-- The clock. -/
  now_ms : ℤ

/-- The presence that is read. -/
def Lookup.read (db : Hashes) (l : Lookup) : Except StdError Presence :=
  aggregate l.user_id l.batches db l.now_ms

def ok_header (request_id : String) : ResponseHeader where
  request_id := request_id
  success := true
  error_code := error.kOK

def internal_error (request_id : String) : ResponseHeader where
  request_id := request_id
  success := false
  error_code := error.kSystemInternalError
  error_message := "internal error"

/-- `GetPresenceRsp`. -/
structure GetPresenceRsp where
  header : ResponseHeader
  presence : Option Presence := none

/-- `GetPresence`. -/
def GetPresence (request_id : String) (db : Hashes) (l : Lookup) : GetPresenceRsp :=
  match l.read db with
  | .ok p => { header := ok_header request_id, presence := some p }
  | .error _ => { header := internal_error request_id }

/-- `BatchGetPresenceRsp`. -/
structure BatchGetPresenceRsp where
  header : ResponseHeader
  presences : String → Option Presence := fun _ ↦ none

/-- The loop of `BatchGetPresence`, after what it has found so far. -/
def batch_loop (request_id : String) (db : Hashes) (found : String → Option Presence) :
    List Lookup → BatchGetPresenceRsp
  | [] => { header := ok_header request_id, presences := found }
  | l :: ls =>
    match l.read db with
    | .ok p => batch_loop request_id db (Function.update found l.user_id (some p)) ls
    | .error _ => { header := internal_error request_id, presences := found }

/-- `BatchGetPresence`. -/
def BatchGetPresence (request_id : String) (db : Hashes) (ls : List Lookup) :
    BatchGetPresenceRsp :=
  batch_loop request_id db (fun _ ↦ none) ls

/-! ### Two contents of the store -/

/-- The state in a hash, where there is one that can be read. -/
def DeviceHash.reads (h : DeviceHash) (state : PresenceState) : Prop :=
  ∃ text n, h.state = some text ∧ stoi text = .ok n ∧ PresenceState.ofInt n = state

/-- A device that is INVISIBLE in the one and OFFLINE in the other. -/
structure Masks (h h' : DeviceHash) : Prop where
  platform : h'.platform = h.platform
  last_active_at_ms : h'.last_active_at_ms = h.last_active_at_ms
  invisible : h.reads .INVISIBLE
  offline : h'.reads .OFFLINE

/-- The two differ only in that some devices are INVISIBLE in the one and OFFLINE in the other. -/
def Hides (db db' : Hashes) : Prop :=
  ∀ key, db key = db' key ∨ ∃ h h', db key = some h ∧ db' key = some h' ∧ Masks h h'

/-! ### What a hash shows -/

/-- The device that a hash is listed as, if it is. -/
def listed (db : Hashes) (now_ms : ℤ) (key : String) : Except StdError (Option DevicePresence) := do
  let hash := (db key).getD {}
  match hash.state with
  | none => return none
  | some state =>
    let state_val ← stoi state
    let last_ms ← hash.last_active_at_ms.mapM stoll
    if last_ms.any fun ms ↦ decide (now_ms - ms > 125000) then return none
    let platform ← hash.platform.mapM stoi
    return some
      { device_id := device_id_of key, platform := platform.getD 0
        state := PresenceState.ofInt state_val, last_active_at_ms := last_ms.getD 0 }

/-- A device is added to what the loop carries. -/
def Best.add (acc : Best) (dp : DevicePresence) : Best where
  devices := acc.devices ++ [dp]
  best_rank :=
    if dp.state.rank < acc.best_rank ∨ dp.state.rank = acc.best_rank ∧ dp.state = .ONLINE then
      dp.state.rank
    else acc.best_rank
  best_active_ms := max acc.best_active_ms dp.last_active_at_ms

/-- A turn of the loop adds what the hash is listed as. -/
theorem visit_eq (db : Hashes) (now_ms : ℤ) (acc : Best) (key : String) :
    Best.visit db now_ms acc key =
      (listed db now_ms key).map fun d ↦ (d.map acc.add).getD acc := by
  rw [Best.visit, listed]
  dsimp only
  cases ((db key).getD {}).state with
  | none => rfl
  | some text =>
    dsimp only
    cases stoi text with
    | error e => rfl
    | ok n =>
      cases ((db key).getD {}).last_active_at_ms.mapM stoll with
      | error e => rfl
      | ok last_ms =>
        simp only [bind, Except.bind, pure, Except.pure]
        split
        · rfl
        · cases ((db key).getD {}).platform.mapM stoi with
          | error e => rfl
          | ok platform => rfl

/-- The presence of what the hashes are listed as. -/
def presenceOf (uid : String) (ds : List (Option DevicePresence)) : Presence :=
  let best := ds.reduceOption.foldl Best.add {}
  { user_id := uid, aggregated_state := stateOfRank best.best_rank
    last_active_at_ms := best.best_active_ms, devices := best.devices }

theorem foldlM_visit (db : Hashes) (now_ms : ℤ) (keys : List String) (acc : Best) :
    keys.foldlM (Best.visit db now_ms) acc =
      (keys.mapM (listed db now_ms)).map fun ds ↦ ds.reduceOption.foldl Best.add acc := by
  induction keys generalizing acc with
  | nil => rfl
  | cons key keys ih =>
    rw [List.foldlM_cons, List.mapM_cons, visit_eq]
    cases listed db now_ms key with
    | error e => rfl
    | ok d =>
      show keys.foldlM (Best.visit db now_ms) ((d.map acc.add).getD acc) = _
      rw [ih]
      cases keys.mapM (listed db now_ms) with
      | error e => rfl
      | ok ds =>
        cases d with
        | none => rfl
        | some dp => rfl

/-- **The reader makes one answer of what the hashes are listed as.** -/
theorem read_eq (db : Hashes) (l : Lookup) :
    l.read db = (l.batches.flatten.mapM (listed db l.now_ms)).map (presenceOf l.user_id) := by
  rw [Lookup.read, aggregate]
  split
  · next hnil =>
    rw [hnil]
    rfl
  · rw [foldlM_visit]
    cases l.batches.flatten.mapM (listed db l.now_ms) with
    | error e => rfl
    | ok ds => rfl

theorem devices_foldl (ds : List DevicePresence) (acc : Best) :
    (ds.foldl Best.add acc).devices = acc.devices ++ ds := by
  induction ds generalizing acc with
  | nil => exact (List.append_nil _).symm
  | cons d ds ih =>
    rw [List.foldl_cons, ih]
    show acc.devices ++ [d] ++ ds = _
    rw [List.append_assoc]
    rfl

/-- Every device that a hash is listed as is in the answer, with its state. -/
theorem devices_presenceOf (uid : String) (ds : List (Option DevicePresence)) :
    (presenceOf uid ds).devices = ds.reduceOption := by
  show (ds.reduceOption.foldl Best.add {}).devices = _
  rw [devices_foldl]
  rfl

/-! ### The two side by side -/

/-- The hash is too old. -/
def Stale (h : DeviceHash) (now_ms : ℤ) : Prop :=
  ∃ text ms, h.last_active_at_ms = some text ∧ stoll text = .ok ms ∧ 125000 < now_ms - ms

/-- The time or the platform cannot be parsed. -/
def DeviceHash.Garbled (h : DeviceHash) : Prop :=
  (∃ text e, h.last_active_at_ms = some text ∧ stoll text = .error e) ∨
    ∃ text e, h.platform = some text ∧ stoi text = .error e

/-- The hash has a field that is read and cannot be parsed. -/
def Unreadable (h : DeviceHash) (now_ms : ℤ) : Prop :=
  ∃ state, h.state = some state ∧
    ((∃ e, stoi state = .error e) ∨ ¬Stale h now_ms ∧ h.Garbled)

/-- The two differ in no device that is shown, or the reader throws at one of the hashes that it
finds. -/
def Unseen (db db' : Hashes) (l : Lookup) : Prop :=
  (∃ key ∈ l.batches.flatten, ∃ h, db key = some h ∧ Unreadable h l.now_ms) ∨
    ∀ key ∈ l.batches.flatten, ∀ h, db key = some h → db' key ≠ some h → Stale h l.now_ms

/-- The platform and the time of a hash, where it is not too old. -/
def details (h : DeviceHash) (now_ms : ℤ) : Except StdError (Option (ℤ × ℤ)) := do
  let last_ms ← h.last_active_at_ms.mapM stoll
  if last_ms.any fun ms ↦ decide (now_ms - ms > 125000) then return none
  let platform ← h.platform.mapM stoi
  return some (platform.getD 0, last_ms.getD 0)

/-- What a hash with these details is listed as. -/
def deviceOf (key : String) (state : PresenceState) (x : ℤ × ℤ) : DevicePresence where
  device_id := device_id_of key
  platform := x.1
  state := state
  last_active_at_ms := x.2

/-- What a hash is listed as in the one and in the other. -/
inductive Seen : Except StdError (Option DevicePresence) → Except StdError (Option DevicePresence) →
    Prop
  | same (x : Except StdError (Option DevicePresence)) : Seen x x
  | masked {dp : DevicePresence} (h : dp.state = .INVISIBLE) :
    Seen (.ok (some dp)) (.ok (some { dp with state := .OFFLINE }))

/-- The two states are different. -/
theorem Masks.ne {h h' : DeviceHash} (hm : Masks h h') : h' ≠ h := by
  rintro rfl
  obtain ⟨text, n, htext, hn, hstate⟩ := hm.invisible
  obtain ⟨text', n', htext', hn', hstate'⟩ := hm.offline
  obtain rfl := Option.some.inj (htext.symm.trans htext')
  obtain rfl := Except.ok.inj (hn.symm.trans hn')
  rw [hstate] at hstate'
  cases hstate'

section Masks

variable {db db' : Hashes} {now_ms : ℤ} {key : String} {h h' : DeviceHash}

theorem not_stale_of_error {text : String} {e : StdError} (hlast : h.last_active_at_ms = some text)
    (htext : stoll text = .error e) : ¬Stale h now_ms := by
  rintro ⟨text', ms, hlast', htext', -⟩
  obtain rfl := Option.some.inj (hlast.symm.trans hlast')
  rw [htext] at htext'
  cases htext'

/-- The platform is read of a hash that is not too old. -/
theorem details_of_fresh {last_ms : Option ℤ} (hlast : h.last_active_at_ms.mapM stoll = .ok last_ms)
    (hfresh : last_ms.any (fun ms ↦ decide (now_ms - ms > 125000)) = false) :
    details h now_ms = h.platform.mapM stoi >>= fun platform ↦
      return some (platform.getD 0, last_ms.getD 0) := by
  rw [details, hlast]
  show (if last_ms.any (fun ms ↦ decide (now_ms - ms > 125000)) = true then _ else _) = _
  rw [hfresh]
  rfl

/-- **The details of a hash**: none where it is too old, an error where they cannot be parsed. -/
theorem details_cases (h : DeviceHash) (now_ms : ℤ) :
    Stale h now_ms ∧ details h now_ms = .ok none ∨
      ¬Stale h now_ms ∧ h.Garbled ∧ (∃ e, details h now_ms = .error e) ∨
      ¬Stale h now_ms ∧ ¬h.Garbled ∧ ∃ x, details h now_ms = .ok (some x) := by
  have hplatform {last_ms : Option ℤ} (hstale : ¬Stale h now_ms)
      (hclean : ¬∃ text e, h.last_active_at_ms = some text ∧ stoll text = .error e)
      (hrest : details h now_ms = h.platform.mapM stoi >>= fun platform ↦
        return some (platform.getD 0, last_ms.getD 0)) :
      h.Garbled ∧ (∃ e, details h now_ms = .error e) ∨
        ¬h.Garbled ∧ ∃ x, details h now_ms = .ok (some x) := by
    cases hp : h.platform with
    | none =>
      rw [hp] at hrest
      refine .inr ⟨?_, _, hrest⟩
      rintro (hlast | ⟨text, e, htext, -⟩)
      · exact hclean hlast
      · rw [hp] at htext
        cases htext
    | some text =>
      rw [hp] at hrest
      have hmap : Option.mapM stoi (some text) = some <$> stoi text := rfl
      cases htext : stoi text with
      | error e =>
        rw [hmap, htext] at hrest
        exact .inl ⟨.inr ⟨text, e, hp, htext⟩, e, hrest⟩
      | ok platform =>
        rw [hmap, htext] at hrest
        refine .inr ⟨?_, _, hrest⟩
        rintro (hlast | ⟨text', e, hp', htext'⟩)
        · exact hclean hlast
        · obtain rfl := Option.some.inj (hp.symm.trans hp')
          rw [htext] at htext'
          cases htext'
  cases hlast : h.last_active_at_ms with
  | none =>
    have hstale : ¬Stale h now_ms := by
      rintro ⟨text, ms, htext, -, -⟩
      rw [hlast] at htext
      cases htext
    have hmap : h.last_active_at_ms.mapM stoll = .ok none := by
      rw [hlast]
      rfl
    have hclean : ¬∃ text e, h.last_active_at_ms = some text ∧ stoll text = .error e := by
      rintro ⟨text, e, htext, -⟩
      rw [hlast] at htext
      cases htext
    exact .inr ((hplatform hstale hclean (details_of_fresh hmap rfl)).imp (⟨hstale, ·⟩)
      (⟨hstale, ·⟩))
  | some text =>
    have hmap : h.last_active_at_ms.mapM stoll = some <$> stoll text := by
      rw [hlast]
      rfl
    cases htext : stoll text with
    | error e =>
      rw [htext] at hmap
      refine .inr (.inl ⟨not_stale_of_error hlast htext, .inl ⟨text, e, hlast, htext⟩, e, ?_⟩)
      rw [details, hmap]
      rfl
    | ok ms =>
      rw [htext] at hmap
      by_cases hold : 125000 < now_ms - ms
      · refine .inl ⟨⟨text, ms, hlast, htext, hold⟩, ?_⟩
        have hany : (some ms).any (fun ms ↦ decide (now_ms - ms > 125000)) = true :=
          decide_eq_true hold
        rw [details, hmap]
        exact if_pos hany
      · have hstale : ¬Stale h now_ms := by
          rintro ⟨text', ms', htext', hms', hold'⟩
          obtain rfl := Option.some.inj (hlast.symm.trans htext')
          obtain rfl := Except.ok.inj (htext.symm.trans hms')
          exact hold hold'
        have hclean : ¬∃ text e, h.last_active_at_ms = some text ∧ stoll text = .error e := by
          rintro ⟨text', e, htext', he⟩
          obtain rfl := Option.some.inj (hlast.symm.trans htext')
          rw [htext] at he
          cases he
        exact .inr ((hplatform hstale hclean (details_of_fresh hmap (decide_eq_false hold))).imp
          (⟨hstale, ·⟩) (⟨hstale, ·⟩))

/-- What a hash with a state that can be read is listed as. -/
theorem listed_of_reads {state : PresenceState} (hkey : db key = some h) (hstate : h.reads state) :
    listed db now_ms key = (details h now_ms).map (Option.map (deviceOf key state)) := by
  obtain ⟨text, n, htext, hn, rfl⟩ := hstate
  have hlisted : listed db now_ms key = (do
      let last_ms ← h.last_active_at_ms.mapM stoll
      if last_ms.any fun ms ↦ decide (now_ms - ms > 125000) then return none
      let platform ← h.platform.mapM stoi
      return some (deviceOf key (PresenceState.ofInt n) (platform.getD 0, last_ms.getD 0))) := by
    rw [listed, hkey]
    dsimp only [Option.getD_some]
    rw [htext]
    show (stoi text >>= _) = _
    rw [hn]
    rfl
  rw [hlisted, details]
  cases h.last_active_at_ms.mapM stoll with
  | error e => rfl
  | ok last_ms =>
    simp only [bind, Except.bind, pure, Except.pure]
    split
    · rfl
    · cases h.platform.mapM stoi with
      | error e => rfl
      | ok platform => rfl

/-- **The reader throws at a hash exactly where it is unreadable.** -/
theorem listed_error_iff (hkey : db key = some h) :
    (∃ e, listed db now_ms key = .error e) ↔ Unreadable h now_ms := by
  cases hstate : h.state with
  | none =>
    have hlisted : listed db now_ms key = .ok none := by
      rw [listed, hkey]
      dsimp only [Option.getD_some]
      rw [hstate]
      rfl
    rw [hlisted]
    refine iff_of_false (by rintro ⟨e, he⟩; cases he) ?_
    rintro ⟨state, hstate', -⟩
    rw [hstate] at hstate'
    cases hstate'
  | some text =>
    cases htext : stoi text with
    | error e =>
      have hlisted : listed db now_ms key = .error e := by
        rw [listed, hkey]
        dsimp only [Option.getD_some]
        rw [hstate]
        show (stoi text >>= _) = _
        rw [htext]
        rfl
      exact iff_of_true ⟨e, hlisted⟩ ⟨text, hstate, .inl ⟨e, htext⟩⟩
    | ok n =>
      have hiff : Unreadable h now_ms ↔ ¬Stale h now_ms ∧ h.Garbled := by
        constructor
        · rintro ⟨text', hstate', ⟨e, he⟩ | hbad⟩
          · obtain rfl := Option.some.inj (hstate.symm.trans hstate')
            rw [htext] at he
            cases he
          · exact hbad
        · exact fun hbad ↦ ⟨text, hstate, .inr hbad⟩
      rw [hiff, listed_of_reads hkey ⟨text, n, hstate, htext, rfl⟩]
      rcases details_cases h now_ms with ⟨hstale, hx⟩ | ⟨hfresh, hbad, e, hx⟩ | ⟨hfresh, hgood, x, hx⟩
      · rw [hx]
        exact iff_of_false (by rintro ⟨e, he⟩; cases he) fun hbad ↦ hbad.1 hstale
      · rw [hx]
        exact iff_of_true ⟨e, rfl⟩ ⟨hfresh, hbad⟩
      · rw [hx]
        exact iff_of_false (by rintro ⟨e, he⟩; cases he) fun hbad ↦ hgood hbad.2

/-- **What a masked hash is listed as**: the same in the two, or a device with the one state and
with the other. -/
theorem listed_of_masks (now_ms : ℤ) (hkey : db key = some h) (hkey' : db' key = some h')
    (hm : Masks h h') :
    (Stale h now_ms ∨ Unreadable h now_ms) ∧ listed db now_ms key = listed db' now_ms key ∨
      ¬Stale h now_ms ∧ ∃ dp, dp.state = .INVISIBLE ∧ listed db now_ms key = .ok (some dp) ∧
        listed db' now_ms key = .ok (some { dp with state := .OFFLINE }) := by
  have hdetails : details h' now_ms = details h now_ms := by
    rw [details, details, hm.platform, hm.last_active_at_ms]
  obtain ⟨text, n, hstate, -, -⟩ := hm.invisible
  rw [listed_of_reads hkey hm.invisible, listed_of_reads hkey' hm.offline, hdetails]
  rcases details_cases h now_ms with ⟨hstale, hx⟩ | ⟨hfresh, hbad, e, hx⟩ | ⟨hfresh, -, x, hx⟩
  · rw [hx]
    exact .inl ⟨.inl hstale, rfl⟩
  · rw [hx]
    exact .inl ⟨.inr ⟨text, hstate, .inr ⟨hfresh, hbad⟩⟩, rfl⟩
  · rw [hx]
    exact .inr ⟨hfresh, deviceOf key .INVISIBLE x, rfl, rfl, rfl⟩

/-- A hash is listed alike in the two, but for the state of a masked device. -/
theorem seen_of_hides (hides : Hides db db') (now_ms : ℤ) (key : String) :
    Seen (listed db now_ms key) (listed db' now_ms key) := by
  rcases hides key with heq | ⟨h, h', hkey, hkey', hm⟩
  · have hlisted : listed db' now_ms key = listed db now_ms key := by
      rw [listed, listed, heq]
    rw [hlisted]
    exact .same _
  · rcases listed_of_masks now_ms hkey hkey' hm with ⟨-, hsame⟩ | ⟨-, dp, hdp, hx, hx'⟩
    · rw [hsame]
      exact .same _
    · rw [hx, hx']
      exact .masked hdp

end Masks

/-- Both readers throw at the same hash, or neither does. -/
theorem mapM_seen {f g : String → Except StdError (Option DevicePresence)}
    (h : ∀ key, Seen (f key) (g key)) (keys : List String) :
    (∃ e, keys.mapM f = .error e ∧ keys.mapM g = .error e) ∨
      ∃ ds ds', keys.mapM f = .ok ds ∧ keys.mapM g = .ok ds' ∧
        List.Forall₂ (fun d d' ↦ Seen (.ok d) (.ok d')) ds ds' ∧
        List.Forall₂ (fun key d ↦ f key = .ok d) keys ds ∧
        List.Forall₂ (fun key d ↦ g key = .ok d) keys ds' := by
  induction keys with
  | nil => exact .inr ⟨[], [], rfl, rfl, .nil, .nil, .nil⟩
  | cons key keys ih =>
    have hok {d d' : Option DevicePresence} (hf : f key = .ok d) (hg : g key = .ok d')
        (hseen : Seen (.ok d) (.ok d')) :
        (∃ e, (key :: keys).mapM f = .error e ∧ (key :: keys).mapM g = .error e) ∨
          ∃ ds ds', (key :: keys).mapM f = .ok ds ∧ (key :: keys).mapM g = .ok ds' ∧
            List.Forall₂ (fun d d' ↦ Seen (.ok d) (.ok d')) ds ds' ∧
            List.Forall₂ (fun key d ↦ f key = .ok d) (key :: keys) ds ∧
            List.Forall₂ (fun key d ↦ g key = .ok d) (key :: keys) ds' := by
      rw [List.mapM_cons, List.mapM_cons, hf, hg]
      rcases ih with ⟨e, hfs, hgs⟩ | ⟨ds, ds', hfs, hgs, hall, hfall, hgall⟩
      · rw [hfs, hgs]
        exact .inl ⟨e, rfl, rfl⟩
      · rw [hfs, hgs]
        exact .inr ⟨_, _, rfl, rfl, .cons hseen hall, .cons hf hfall, .cons hg hgall⟩
    have hkey := h key
    generalize hf : f key = x at hkey
    generalize hg : g key = y at hkey
    cases hkey with
    | masked hdp => exact hok hf hg (.masked hdp)
    | same x =>
      cases x with
      | ok d => exact hok hf hg (.same _)
      | error e =>
        rw [List.mapM_cons, List.mapM_cons, hf, hg]
        exact .inl ⟨e, rfl, rfl⟩

/-- Lists of devices that are alike but for their states are the same where the devices are. -/
theorem eq_of_reduceOption {ds ds' : List (Option DevicePresence)}
    (h : List.Forall₂ (fun d d' ↦ Seen (.ok d) (.ok d')) ds ds')
    (heq : ds.reduceOption = ds'.reduceOption) : ds = ds' := by
  induction h with
  | nil => rfl
  | @cons d d' ds ds' hseen _ ih =>
    cases d with
    | none =>
      cases hseen with
      | same => rw [ih heq]
    | some dp =>
      cases hseen with
      | same => rw [ih (List.cons.inj heq).2]
      | masked hdp =>
        obtain ⟨hhead, htail⟩ := List.cons.inj heq
        have hstate := congrArg DevicePresence.state hhead
        rw [hdp] at hstate
        cases hstate

/-! ### When they are the same -/

section Same

variable {db db' : Hashes}

/-- What is read is the same in the two exactly where each hash is listed alike. -/
theorem forall₂_eq_iff {f g : String → Except StdError (Option DevicePresence)}
    {keys : List String} {ds ds' : List (Option DevicePresence)}
    (hf : List.Forall₂ (fun key d ↦ f key = .ok d) keys ds)
    (hg : List.Forall₂ (fun key d ↦ g key = .ok d) keys ds') :
    ds = ds' ↔ ∀ key ∈ keys, f key = g key := by
  induction hf generalizing ds' with
  | nil =>
    cases hg
    exact iff_of_true rfl fun key hmem ↦ absurd hmem List.not_mem_nil
  | @cons key d keys ds hkey _ ih =>
    cases hg with
    | @cons _ d' _ ds' hkey' hrest =>
      have hhead : d = d' ↔ f key = g key := by
        rw [hkey, hkey', Except.ok.injEq]
      rw [List.cons.injEq, List.forall_mem_cons, ih hrest, hhead]

theorem exists_error_of_mapM {f : String → Except StdError (Option DevicePresence)}
    {keys : List String} {e : StdError} (h : keys.mapM f = .error e) :
    ∃ key ∈ keys, ∃ e, f key = .error e := by
  induction keys with
  | nil => cases h
  | cons key keys ih =>
    rw [List.mapM_cons] at h
    cases hkey : f key with
    | error e' => exact ⟨key, List.mem_cons_self, e', hkey⟩
    | ok d =>
      rw [hkey] at h
      cases hrest : keys.mapM f with
      | error e' =>
        obtain ⟨key', hmem, he⟩ := ih (hrest.trans (by rw [hrest] at h; exact h))
        exact ⟨key', List.mem_cons_of_mem _ hmem, he⟩
      | ok ds =>
        rw [hrest] at h
        cases h

theorem exists_ok_of_mem {f : String → Except StdError (Option DevicePresence)} {keys : List String}
    {ds : List (Option DevicePresence)} (hf : List.Forall₂ (fun key d ↦ f key = .ok d) keys ds)
    {key : String} (hmem : key ∈ keys) : ∃ d, f key = .ok d := by
  induction hf with
  | nil => exact absurd hmem List.not_mem_nil
  | @cons key' d keys ds hkey _ ih =>
    rcases List.mem_cons.1 hmem with rfl | hmem
    · exact ⟨d, hkey⟩
    · exact ih hmem

/-- **What is read is the same exactly where no masked device is shown.** -/
theorem read_same_iff (hides : Hides db db') (l : Lookup) :
    l.read db = l.read db' ↔ Unseen db db' l := by
  have hseen := mapM_seen (seen_of_hides hides l.now_ms) l.batches.flatten
  rw [read_eq, read_eq]
  rcases hseen with ⟨e, hx, hx'⟩ | ⟨ds, ds', hx, hx', hall, hf, hg⟩
  · -- The reader throws.
    rw [hx, hx']
    refine iff_of_true rfl (.inl ?_)
    obtain ⟨key, hmem, herror⟩ := exists_error_of_mapM hx
    cases hkey : db key with
    | none =>
      obtain ⟨e, he⟩ := herror
      rw [listed, hkey] at he
      cases he
    | some h => exact ⟨key, hmem, h, hkey, (listed_error_iff hkey).1 herror⟩
  · have hread : ∀ key ∈ l.batches.flatten, ∀ h, db key = some h → ¬Unreadable h l.now_ms := by
      intro key hmem h hkey hbad
      obtain ⟨e, he⟩ := (listed_error_iff hkey).2 hbad
      obtain ⟨d, hd⟩ := exists_ok_of_mem hf hmem
      rw [he] at hd
      cases hd
    rw [hx, hx']
    show Except.ok (presenceOf l.user_id ds) = Except.ok (presenceOf l.user_id ds') ↔ _
    constructor
    · intro heq
      have hdevices := congrArg Presence.devices (Except.ok.inj heq)
      rw [devices_presenceOf, devices_presenceOf] at hdevices
      have hsame := (forall₂_eq_iff hf hg).1 (eq_of_reduceOption hall hdevices)
      refine .inr fun key hmem h hkey hne ↦ ?_
      rcases hides key with heq | ⟨h₁, h', hkey₁, hkey', hm⟩
      · exact absurd (heq ▸ hkey) hne
      · obtain rfl := Option.some.inj (hkey.symm.trans hkey₁)
        rcases listed_of_masks l.now_ms hkey hkey' hm with ⟨hstale | hbad, -⟩ |
            ⟨-, dp, hdp, hlisted, hlisted'⟩
        · exact hstale
        · exact absurd hbad (hread key hmem h hkey)
        · have hdp' := hsame key hmem
          rw [hlisted, hlisted', Except.ok.injEq, Option.some.injEq] at hdp'
          have hstate := congrArg DevicePresence.state hdp'
          rw [hdp] at hstate
          cases hstate
    · rintro (⟨key, hmem, h, hkey, hbad⟩ | hstale)
      · exact absurd hbad (hread key hmem h hkey)
      · have hsame : ds = ds' := by
          refine (forall₂_eq_iff hf hg).2 fun key hmem ↦ ?_
          rcases hides key with heq | ⟨h, h', hkey, hkey', hm⟩
          · rw [listed, listed, heq]
          · have hne : db' key ≠ some h := fun heq ↦ hm.ne (Option.some.inj (hkey'.symm.trans heq))
            rcases listed_of_masks l.now_ms hkey hkey' hm with ⟨-, hlisted⟩ | ⟨hfresh, -⟩
            · exact hlisted
            · exact absurd (hstale key hmem h hkey hne) hfresh
        rw [hsame]

theorem GetPresence_same {request_id : String} {l : Lookup} (hread : l.read db = l.read db') :
    GetPresence request_id db l = GetPresence request_id db' l := by
  rw [GetPresence, GetPresence, hread]

theorem batch_loop_same {request_id : String} {ls : List Lookup}
    (hread : ∀ l ∈ ls, l.read db = l.read db') (found : String → Option Presence) :
    batch_loop request_id db found ls = batch_loop request_id db' found ls := by
  induction ls generalizing found with
  | nil => rfl
  | cons l ls ih =>
    rw [batch_loop, batch_loop, hread l List.mem_cons_self]
    split
    · exact ih (fun l hl ↦ hread l (List.mem_cons_of_mem _ hl)) _
    · rfl

/-- The reader throws in both, or in neither. -/
theorem read_alike (hides : Hides db db') (l : Lookup) :
    l.read db = l.read db' ∨ ∃ p p', l.read db = .ok p ∧ l.read db' = .ok p' := by
  rw [read_eq, read_eq]
  rcases mapM_seen (seen_of_hides hides l.now_ms) l.batches.flatten with
    ⟨e, hx, hx'⟩ | ⟨ds, ds', hx, hx', -⟩
  · rw [hx, hx']
    exact .inl rfl
  · rw [hx, hx']
    exact .inr ⟨_, _, rfl, rfl⟩

/-- What is read can be seen in the response. -/
theorem read_of_GetPresence (hides : Hides db db') {request_id : String} {l : Lookup}
    (h : GetPresence request_id db l = GetPresence request_id db' l) :
    l.read db = l.read db' := by
  rcases read_alike hides l with hsame | ⟨p, p', hp, hp'⟩
  · exact hsame
  · rw [GetPresence, GetPresence, hp, hp'] at h
    have hpresence := congrArg GetPresenceRsp.presence h
    rw [hp, hp', Option.some.inj hpresence]

/-- **Invisible means offline to others exactly where no such device is shown.** The responses to
`GetPresence` for some users, and to `BatchGetPresence` for all of them, are the same in two stores
that differ in INVISIBLE and OFFLINE only, if and only if for every user the two differ in no device
that is found and not too old, or the reader throws. -/
theorem presence_same_iff (hides : Hides db db') (request_id : String) (ls : List Lookup) :
    (∀ l ∈ ls, GetPresence request_id db l = GetPresence request_id db' l) ∧
        BatchGetPresence request_id db ls = BatchGetPresence request_id db' ls ↔
      ∀ l ∈ ls, Unseen db db' l := by
  constructor
  · intro h l hl
    exact (read_same_iff hides l).1 (read_of_GetPresence hides (h.1 l hl))
  · intro h
    have hread : ∀ l ∈ ls, l.read db = l.read db' := fun l hl ↦ (read_same_iff hides l).2 (h l hl)
    exact ⟨fun l hl ↦ GetPresence_same (hread l hl), batch_loop_same hread _⟩

end Same

/-- A device that was active at 1000. -/
def oneDevice (state : String) : Hashes :=
  Function.update (fun _ ↦ none) (presence_device_key "u" "d")
    (some { state := some state, last_active_at_ms := some "1000" })

theorem hides_oneDevice : Hides (oneDevice "5") (oneDevice "4") := by
  intro key
  by_cases hkey : key = presence_device_key "u" "d"
  · subst hkey
    exact .inr ⟨_, _, Function.update_self .., Function.update_self ..,
      ⟨rfl, rfl, ⟨"5", 5, rfl, rfl, rfl⟩, ⟨"4", 4, rfl, rfl, rfl⟩⟩⟩
  · refine .inl ?_
    rw [oneDevice, oneDevice, Function.update_of_ne hkey, Function.update_of_ne hkey]

/-- The lookup of the user at a time. -/
def lookupAt (now_ms : ℤ) : Lookup := ⟨"u", [[presence_device_key "u" "d"]], now_ms⟩

/-- After two minutes and a bit the device is not shown. -/
theorem presence_same_late :
    Hides (oneDevice "5") (oneDevice "4") ∧
      BatchGetPresence "r" (oneDevice "5") [lookupAt 126001] =
        BatchGetPresence "r" (oneDevice "4") [lookupAt 126001] := by
  refine ⟨hides_oneDevice, ((presence_same_iff hides_oneDevice "r" [lookupAt 126001]).2 ?_).2⟩
  intro l hl
  obtain rfl := List.mem_singleton.1 hl
  refine .inr fun key hmem h hkey _ ↦ ⟨"1000", 1000, ?_, rfl, by decide⟩
  obtain rfl := List.mem_singleton.1 hmem
  rw [oneDevice, Function.update_self] at hkey
  rw [← Option.some.inj hkey]

/-- **Until then it is shown as it is.** -/
theorem invisible_seen :
    ∃ db db' l, Hides db db' ∧
      Scanned (fun k ↦ (db k).isSome) .trailing (presence_device_scan_pattern l.user_id) l.batches ∧
      GetPresence "r" db l ≠ GetPresence "r" db' l := by
  refine ⟨oneDevice "5", oneDevice "4", lookupAt 1000, hides_oneDevice, fun key ↦ ?_, fun heq ↦ ?_⟩
  · have hfound : (oneDevice "5" key).isSome ↔ key = presence_device_key "u" "d" := by
      rw [oneDevice, Function.update_apply]
      split
      · next h => exact iff_of_true rfl h
      · next h => exact iff_of_false Bool.false_ne_true h
    show key ∈ [presence_device_key "u" "d"] ↔ (oneDevice "5" key).isSome ∧ _
    rw [List.mem_singleton, hfound]
    refine (and_iff_left_of_imp ?_).symm
    rintro rfl
    decide +kernel
  · have hstates := congrArg (fun rsp ↦ rsp.presence.map fun p ↦ p.devices.map (·.state)) heq
    have hone : ((GetPresence "r" (oneDevice "5") (lookupAt 1000)).presence.map fun p ↦
        p.devices.map (·.state)) = some [.INVISIBLE] := by decide +kernel
    have hother : ((GetPresence "r" (oneDevice "4") (lookupAt 1000)).presence.map fun p ↦
        p.devices.map (·.state)) = some [.OFFLINE] := by decide +kernel
    have hdiff := hone.symm.trans (hstates.trans hother)
    exact absurd hdiff (by decide)

end ChatNow.Presence
