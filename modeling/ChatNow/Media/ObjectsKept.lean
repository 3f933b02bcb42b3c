import ChatNow.Media.Machine

/-!
# Committed rows and their objects

Rows with the same hash share an object, and five paths delete one: a completion that finds the
wrong size, a completion that takes over the object of an earlier row, and the tasks for rows that
have timed out, for blobs without references and for rows in quarantine. None of them asks whether
another row has its content there.

* `objectsSpared`: the assumption on the steps under which no harm is done. What is deleted is not
  the object of a row that is committed, or that another thread is about to commit; what a row is
  pointed to is there; and an update of a status does not undo a move to another object.
* `committed_backed`: under it every committed row has its object, in every reachable state.
* `size_mismatch_takes_object`: a second upload of the same content that declares another size takes
  the object of the first.
* `write_back_undoes_move`: a row that is about to be committed is written back as a cleanup task
  has read it, with the place whose object its completion has deleted.
-/

namespace ChatNow

open Prog MediaOp

/-! ### The assumption -/

/-- What a call deletes. -/
def MediaOp.deletes : MediaOp → Option (String × String)
  | deleteObject bucket key => some (bucket, key)
  | _ => none

/-- Where a call points a row. -/
def MediaOp.repoints : MediaOp → Option (String × String)
  | writeBucketKey _ bucket key => some (bucket, key)
  | _ => none

/-- The call is one of `update_bucket_key`, and fails. -/
def MediaOp.losesPlace (c : MediaChoice) : MediaOp → Bool
  | readBucketKey _ => c.fault
  | writeBucketKey _ _ _ => !c.acts
  | _ => false

/-- The row that a call of `update_status` writes back. -/
def MediaOp.restores : MediaOp → Option MediaFile
  | writeStatus row status => some { row with status := status }
  | _ => none

/-- The row whose object a call looks at. -/
def MediaOp.heads : MediaOp → Option MediaFile
  | headObject f => some f
  | _ => none

namespace MediaState

/-- No row has its object there that is committed, or past the check of the size in a thread other
than `i`. -/
def Unneeded (s : MediaState) (i : ℕ) (place : String × String) : Prop :=
  ∀ f ∈ s.files, f.place = place →
    f.status ≠ .COMMITTED ∧ ∀ e ∈ s.passed, e.2 = f.file_id → e.1 = i

instance (s : MediaState) (i : ℕ) (place : String × String) : Decidable (s.Unneeded i place) :=
  inferInstanceAs (Decidable (∀ f ∈ s.files, _ → _ ∧ ∀ e ∈ s.passed, _))

/-- The row with the id has its object. -/
def Backed (s : MediaState) (file_id : String) : Prop :=
  ∀ f ∈ s.files, f.file_id = file_id → s.objects f.place ≠ none

instance (s : MediaState) (file_id : String) : Decidable (s.Backed file_id) :=
  inferInstanceAs (Decidable (∀ f ∈ s.files, _))

/-- A row that is written back is committed then, or is past the check of the size in a thread other
than `i`. -/
def Needs (s : MediaState) (i : ℕ) (row : MediaFile) : Prop :=
  row.status = .COMMITTED ∨ ∃ e ∈ s.passed, e.2 = row.file_id ∧ e.1 ≠ i

instance (s : MediaState) (i : ℕ) (row : MediaFile) : Decidable (s.Needs i row) :=
  inferInstanceAs (Decidable (_ ∨ ∃ e ∈ s.passed, _))

/-- A row that is written back has the place that it has now, or one with an object. -/
def KeepsPlace (s : MediaState) (row : MediaFile) : Prop :=
  s.objects row.place ≠ none ∨ ∀ f ∈ s.files, f.file_id = row.file_id → f.place = row.place

instance (s : MediaState) (row : MediaFile) : Decidable (s.KeepsPlace row) :=
  inferInstanceAs (Decidable (_ ∨ ∀ f ∈ s.files, _))

end MediaState

/-- Only what is not needed is deleted; rows are pointed only to what is there; and a row that
passes the check has its object, also if another completion has pointed it elsewhere since it was
read. -/
def deletionsSpare : Machine.Guard MediaOp MediaOp.Res MediaState MediaChoice MediaEv where
  onOp i o c s := (∀ place ∈ o.deletes, c.acts = true → s.Unneeded i place) ∧
    (o.losesPlace c = false ∧ ∀ place ∈ o.repoints, s.objects place ≠ none) ∧
    ∀ f ∈ o.heads, s.head c f = some f.file_size → s.Backed f.file_id
  onEv _ _ := True

/-- And `update_status`, which writes the place of a row as it has read it, does not undo what
another completion has written since. -/
def objectsSpared : Machine.Guard MediaOp MediaOp.Res MediaState MediaChoice MediaEv where
  onOp i o c s := deletionsSpare.onOp i o c s ∧
    ∀ row ∈ o.restores, c.acts = true → s.Needs i row → s.KeepsPlace row
  onEv _ _ := True

/-! ### The invariant -/

namespace MediaState

/-- There is a row with the id. -/
def Has (s : MediaState) (file_id : String) : Prop := ∃ f ∈ s.files, f.file_id = file_id

/-- Every committed row has its object. -/
def CommittedBacked (s : MediaState) : Prop :=
  ∀ f ∈ s.files, f.status = .COMMITTED → s.objects f.place ≠ none

end MediaState

/-- What a thread knows of its row. -/
def MediaPhase.Knows (i : ℕ) (s : MediaState) : MediaPhase → Prop
  | idle => True
  | read f => s.Has f.file_id
  | passed f => s.Has f.file_id ∧ (i, f.file_id) ∈ s.passed ∧ s.Backed f.file_id
  | moving f => s.Has f.file_id ∧ (i, f.file_id) ∈ s.passed
  | counted f => s.Has f.file_id ∧ (i, f.file_id) ∈ s.passed ∧ s.Backed f.file_id

/-- The invariant. -/
structure ObjectsInv (ts : List MediaPhase) (s : MediaState) : Prop where
  committed : s.CommittedBacked
  threads : ∀ (i : ℕ) (ph : MediaPhase), ts[i]? = some ph → ph.Knows i s

namespace MediaState

/-- What a step of thread `i` keeps for the others. -/
structure Keeps (i : ℕ) (s s' : MediaState) : Prop where
  has : ∀ file_id, s.Has file_id → s'.Has file_id
  passed : ∀ j file_id, j ≠ i → (j, file_id) ∈ s.passed → (j, file_id) ∈ s'.passed
  backed : ∀ j file_id, j ≠ i → (j, file_id) ∈ s.passed → s.Has file_id → s.Backed file_id →
    s'.Backed file_id

variable {i : ℕ} {s s' : MediaState} {row : MediaFile} {place : String × String}

theorem Keeps.knows (h : s.Keeps i s') {j : ℕ} (hj : j ≠ i) {ph : MediaPhase}
    (hk : ph.Knows j s) : ph.Knows j s' := by
  cases ph with
  | idle => exact trivial
  | read f => exact h.has _ hk
  | passed f =>
    obtain ⟨hhas, hpassed, hbacked⟩ := hk
    exact ⟨h.has _ hhas, h.passed j _ hj hpassed, h.backed j _ hj hpassed hhas hbacked⟩
  | moving f => exact ⟨h.has _ hk.1, h.passed j _ hj hk.2⟩
  | counted f =>
    obtain ⟨hhas, hpassed, hbacked⟩ := hk
    exact ⟨h.has _ hhas, h.passed j _ hj hpassed, h.backed j _ hj hpassed hhas hbacked⟩

theorem Keeps.trans {s₁ : MediaState} (h : s.Keeps i s₁) (h' : s₁.Keeps i s') : s.Keeps i s' where
  has _ hhas := h'.has _ (h.has _ hhas)
  passed j _ hj hp := h'.passed j _ hj (h.passed j _ hj hp)
  backed j _ hj hp hhas hb :=
    h'.backed j _ hj (h.passed j _ hj hp) (h.has _ hhas) (h.backed j _ hj hp hhas hb)

/-- Nothing but the rows that are past the check may have changed, and those of thread `i` only. -/
theorem keeps_of_eq (hfiles : s'.files = s.files) (hobjects : s'.objects = s.objects)
    (hpassed : ∀ e ∈ s.passed, e.1 ≠ i → e ∈ s'.passed) : s.Keeps i s' where
  has _ hhas := by rwa [Has, hfiles]
  passed _ _ hj hp := hpassed _ hp hj
  backed _ _ _ _ _ hb := by rwa [Backed, hfiles, hobjects]

theorem keeps_clear (s : MediaState) (i : ℕ) : s.Keeps i (s.clear i) :=
  keeps_of_eq rfl rfl fun _ he hi ↦ List.mem_filter.2 ⟨he, decide_eq_true hi⟩

/-! ### What the changes keep -/

theorem keeps_insert (f : MediaFile) : s.Keeps i (s.insert f) := by
  rw [insert]
  split
  · next hfresh =>
    exact
      { has := fun file_id hhas ↦ by
          obtain ⟨g, hg, hid⟩ := hhas
          exact ⟨g, List.mem_append_left _ hg, hid⟩
        passed := fun _ _ _ hp ↦ hp
        backed := fun j file_id _ _ hhas hb g hg hid ↦ by
          obtain ⟨g₀, hg₀, hid₀⟩ := hhas
          rcases List.mem_append.1 hg with hg | hg
          · exact hb g hg hid
          · obtain rfl := List.mem_singleton.1 hg
            exact absurd (hid₀.trans hid.symm) (hfresh g₀ hg₀) }
  · exact keeps_of_eq rfl rfl fun _ he _ ↦ he

theorem committedBacked_insert {f : MediaFile} (hf : f.status = .PENDING)
    (h : s.CommittedBacked) : (s.insert f).CommittedBacked := by
  rw [insert]
  split
  · intro g hg hc
    rcases List.mem_append.1 hg with hg | hg
    · exact h g hg hc
    · obtain rfl := List.mem_singleton.1 hg
      rw [hf] at hc
      cases hc
  · exact h

/-- A write back keeps the others' rows if it gives them an object. -/
theorem keeps_writeBack (hplace : ∀ j, j ≠ i → (j, row.file_id) ∈ s.passed → s.Has row.file_id →
    s.Backed row.file_id → s.objects row.place ≠ none) : s.Keeps i (s.writeBack row) where
  has _ hhas := exists_writeBack (fun _ hid ↦ hid) hhas
  passed _ _ _ hp := hp
  backed j id hj hp hhas hb g hg hid := by
    rcases mem_writeBack hg with ⟨hg, -⟩ | ⟨f, hf, hfid, rfl⟩
    · exact hb g hg hid
    · obtain rfl : row.file_id = id := hfid.symm.trans hid
      exact hplace j hj hp hhas hb

theorem backed_writeBack (hplace : s.objects row.place ≠ none) :
    (s.writeBack row).Backed row.file_id := fun g hg hid ↦ by
  rcases mem_writeBack hg with ⟨-, hne⟩ | ⟨f, -, -, rfl⟩
  · exact absurd hid hne
  · exact hplace

/-- A row that is written back as a committed one has its object. -/
theorem committedBacked_writeBack (hplace : row.status = .COMMITTED → s.objects row.place ≠ none)
    (h : s.CommittedBacked) : (s.writeBack row).CommittedBacked := fun g hg hc ↦ by
  rcases mem_writeBack hg with ⟨hg, -⟩ | ⟨f, -, -, rfl⟩
  · exact h g hg hc
  · exact hplace hc

theorem KeepsPlace.backed (h : s.KeepsPlace row) (hhas : s.Has row.file_id)
    (hb : s.Backed row.file_id) : s.objects row.place ≠ none := by
  rcases h with hobject | hsame
  · exact hobject
  · obtain ⟨f, hf, hid⟩ := hhas
    rw [← hsame f hf hid]
    exact hb f hf hid

/-- An object is put, or one that is not needed is deleted. -/
theorem setObject_ne_none {body : Option (List UInt8)} {place' : String × String}
    (hne : body = none → place' ≠ place) (h : s.objects place' ≠ none) :
    (s.setObject place body).objects place' ≠ none := by
  show Function.update s.objects place body place' ≠ none
  by_cases hp : place' = place
  · rw [hp, Function.update_self]
    exact fun hb ↦ hne hb hp
  · rw [Function.update_of_ne hp]
    exact h

theorem keeps_setObject {body : Option (List UInt8)} (hun : body = none → s.Unneeded i place) :
    s.Keeps i (s.setObject place body) where
  has _ hhas := hhas
  passed _ _ _ hp := hp
  backed j id hj hp _ hb g hg hid := by
    refine setObject_ne_none (fun hbody hplace ↦ hj ?_) (hb g hg hid)
    exact (hun hbody g hg hplace).2 _ hp hid.symm

theorem committedBacked_setObject {body : Option (List UInt8)}
    (hun : body = none → s.Unneeded i place) (h : s.CommittedBacked) :
    (s.setObject place body).CommittedBacked := fun g hg hc ↦ by
  refine setObject_ne_none (fun hbody hplace ↦ ?_) (h g hg hc)
  exact (hun hbody g hg hplace).1 hc

end MediaState

/-! ### One call -/

section Calls

variable {ts : List MediaPhase} {s s' : MediaState} {i : ℕ} {o : MediaOp} {c : MediaChoice}
  {r : o.Res} {ph : MediaPhase}

open MediaState

theorem knows_select {f? : Option MediaFile} (h : ∀ f ∈ f?, f ∈ s.files) :
    (MediaPhase.select f?).Knows i s := by
  cases f? with
  | none => exact trivial
  | some f => exact ⟨f, h f rfl, rfl⟩

/-- A thread that is not past the check knows little. -/
theorem MediaPhase.Free.knows (hph : ph.Free) (hk : ph.Knows i s) (h : ∀ id, s.Has id → s'.Has id) :
    ph.Knows i s' := by
  cases ph with
  | idle => exact trivial
  | read f => exact h _ hk
  | _ => exact hph.elim

/-- What every step of a thread keeps for the others, it keeps for the thread if it leaves the list
of those past the check alone. -/
theorem knows_of_keeps (h : ∀ j, s.Keeps j s') (hk : ph.Knows i s) : ph.Knows i s' :=
  (h (i + 1)).knows (Nat.ne_of_lt (Nat.lt_succ_self i)) hk

/-- The size is checked: who passes is noted, and its row has its object. -/
theorem objects_head {f : MediaFile} {r : (headObject f).Res} (h : s.CommittedBacked)
    (hk : (MediaPhase.read f).Knows i s)
    (hhead : s.head c f = some f.file_size → s.Backed f.file_id)
    (hx : MediaState.exec i (headObject f) c s = some (r, s')) :
    s'.CommittedBacked ∧ s.Keeps i s' ∧ (MediaPhase.head f r).Knows i s' := by
  obtain ⟨rfl, rfl⟩ := Prod.mk.inj (Option.some.inj hx)
  have hclear := keeps_clear s i
  rw [MediaPhase.head]
  split
  · next hsize =>
    refine ⟨h, hclear.trans (keeps_of_eq rfl rfl fun _ he _ ↦ List.mem_cons_of_mem _ he), ?_⟩
    exact ⟨hk, List.mem_cons_self, hhead hsize⟩
  · exact ⟨h, hclear, trivial⟩

/-- An object that is not needed is deleted, and its thread no longer relies on it. -/
theorem objects_delete {bucket key : String} {r : (deleteObject bucket key).Res}
    (h : s.CommittedBacked) (hk : ph.Knows i s)
    (ha : mediaContract.allowed ph (deleteObject bucket key))
    (hun : c.acts = true → s.Unneeded i (bucket, key))
    (hx : MediaState.exec i (deleteObject bucket key) c s = some (r, s')) :
    s'.CommittedBacked ∧ s.Keeps i s' ∧ ph.delete.Knows i s' := by
  obtain ⟨-, rfl⟩ := Prod.mk.inj (Option.some.inj hx)
  have hnext {s' : MediaState} (hfiles : s'.files = s.files) (hpassed : s'.passed = s.passed) :
      ph.delete.Knows i s' := by
    have hhas (id : String) (hhas : s.Has id) : s'.Has id := by rwa [Has, hfiles]
    rcases ha with hfree | ⟨f, rfl⟩
    · rw [hfree.delete]
      exact hfree.knows hk hhas
    · exact ⟨hhas _ hk.1, by rw [hpassed]; exact hk.2.1⟩
  split
  · next hacts =>
    refine ⟨committedBacked_setObject (fun _ ↦ hun hacts) h, ?_, hnext rfl rfl⟩
    exact keeps_setObject fun _ ↦ hun hacts
  · exact ⟨h, keeps_of_eq rfl rfl fun _ he _ ↦ he, hnext rfl rfl⟩

/-- The row is there and is found, before it is pointed elsewhere. -/
theorem objects_readBucketKey {f : MediaFile} {r : (readBucketKey f.file_id).Res}
    (h : s.CommittedBacked) (hk : (MediaPhase.moving f).Knows i s) (hfault : c.fault = false)
    (hx : MediaState.exec i (readBucketKey f.file_id) c s = some (r, s')) :
    s'.CommittedBacked ∧ s.Keeps i s' ∧ ((MediaPhase.moving f).reread r).Knows i s' := by
  obtain ⟨rfl, rfl⟩ := Prod.mk.inj (Option.some.inj hx)
  obtain ⟨g, hg, hid⟩ := hk.1
  have hfound : s.files.find? (·.file_id = f.file_id) = some g := hid ▸ find_of_mem hg
  rw [hfault, if_neg Bool.false_ne_true, hfound]
  exact ⟨h, keeps_of_eq rfl rfl fun _ he _ ↦ he, hk⟩

/-- The row is pointed to an object. -/
theorem objects_writeBucketKey {f row : MediaFile} {bucket key : String}
    {r : (writeBucketKey row bucket key).Res} (h : s.CommittedBacked)
    (hk : (MediaPhase.moving f).Knows i s) (hid : row.file_id = f.file_id)
    (hacts : (!c.acts) = false) (hplace : s.objects (bucket, key) ≠ none)
    (hx : MediaState.exec i (writeBucketKey row bucket key) c s = some (r, s')) :
    s'.CommittedBacked ∧ s.Keeps i s' ∧ (MediaPhase.passed f).Knows i s' := by
  obtain ⟨-, rfl⟩ := Prod.mk.inj (Option.some.inj hx)
  rw [if_pos (by simpa using hacts)]
  have hkeeps : s.Keeps i (s.writeBack { row with bucket := bucket, object_key := key }) :=
    keeps_writeBack fun _ _ _ _ _ ↦ hplace
  refine ⟨committedBacked_writeBack (fun _ ↦ hplace) h, hkeeps, hkeeps.has _ hk.1, hk.2, ?_⟩
  rw [← hid]
  exact backed_writeBack hplace

/-- A status is written, with the place that was read. -/
theorem objects_writeStatus {row : MediaFile} {status : MediaFileStatus}
    {r : (writeStatus row status).Res} (h : s.CommittedBacked) (hk : ph.Knows i s)
    (ha : mediaContract.allowed ph (writeStatus row status))
    (hkeep : c.acts = true → s.Needs i { row with status := status } →
      s.KeepsPlace { row with status := status })
    (hx : MediaState.exec i (writeStatus row status) c s = some (r, s')) :
    s'.CommittedBacked ∧ s.Keeps i s' ∧ MediaPhase.idle.Knows i s' := by
  obtain ⟨-, rfl⟩ := Prod.mk.inj (Option.some.inj hx)
  split
  · next hacts =>
    refine ⟨committedBacked_writeBack (fun hc ↦ ?_) h,
      (keeps_writeBack fun j hj hp hhas hb ↦ ?_).trans (keeps_clear _ i), trivial⟩
    · obtain rfl : status = .COMMITTED := hc
      obtain ⟨f, rfl, hid⟩ := ha
      have hhas : s.Has row.file_id := hid ▸ hk.1
      exact (hkeep hacts (.inl rfl)).backed hhas (hid ▸ hk.2.2)
    · exact (hkeep hacts (.inr ⟨_, hp, rfl, hj⟩)).backed hhas hb
  · exact ⟨h, keeps_clear _ i, trivial⟩

/-- **One call**, made under the assumption. -/
theorem objects_call (h : s.CommittedBacked) (hk : ph.Knows i s)
    (ha : mediaContract.allowed ph o) (hG : objectsSpared.onOp i o c s)
    (hx : MediaState.exec i o c s = some (r, s')) :
    s'.CommittedBacked ∧ s.Keeps i s' ∧ (mediaContract.next ph o r).Knows i s' := by
  obtain ⟨⟨hdelete, ⟨hloses, hrepoint⟩, hhead⟩, hrestore⟩ := hG
  -- what touches neither the rows nor the store, and what touches the blobs only
  have hquiet (hs : s.Same s') : s'.CommittedBacked ∧ (∀ j, s.Keeps j s') := by
    refine ⟨?_, fun j ↦ keeps_of_eq hs.files hs.objects fun e he _ ↦ by rwa [hs.passed]⟩
    rwa [CommittedBacked, hs.files, hs.objects]
  have hblob (hs : s' = s ∨ ∃ hash b, s' = s.setBlob hash b) :
      s'.CommittedBacked ∧ (∀ j, s.Keeps j s') := by
    rcases hs with rfl | ⟨hash, b, rfl⟩
    · exact ⟨h, fun j ↦ keeps_of_eq rfl rfl fun _ he _ ↦ he⟩
    · exact ⟨h, fun j ↦ keeps_of_eq rfl rfl fun _ he _ ↦ he⟩
  cases o with
  | selectByFileId file_id =>
    obtain ⟨rfl, rfl⟩ := Prod.mk.inj (Option.some.inj hx)
    exact ⟨h, keeps_of_eq rfl rfl fun _ he _ ↦ he, knows_select fun f hf ↦ mem_of_find hf⟩
  | selectByUploadId upload_id =>
    obtain ⟨rfl, rfl⟩ := Prod.mk.inj (Option.some.inj hx)
    exact ⟨h, keeps_of_eq rfl rfl fun _ he _ ↦ he, knows_select fun f hf ↦ mem_of_find hf⟩
  | insertFile f =>
    obtain ⟨-, rfl⟩ := Prod.mk.inj (Option.some.inj hx)
    split
    · exact ⟨committedBacked_insert ha.2 h, keeps_insert f,
        knows_of_keeps (fun _ ↦ keeps_insert f) hk⟩
    · exact ⟨h, keeps_of_eq rfl rfl fun _ he _ ↦ he, hk⟩
  | readBucketKey file_id =>
    obtain ⟨f, rfl, rfl⟩ := ha
    exact objects_readBucketKey h hk hloses hx
  | writeBucketKey row bucket key =>
    obtain ⟨f, rfl, hid⟩ := ha
    exact objects_writeBucketKey h hk hid hloses (hrepoint _ rfl) hx
  | readStatus file_id status =>
    obtain ⟨rfl, rfl⟩ := Prod.mk.inj (Option.some.inj hx)
    show _ ∧ _ ∧ (ph.recheck _).Knows i _
    cases if c.fault then none else s.files.find? (·.file_id = file_id) with
    | none => exact ⟨h, keeps_clear s i, trivial⟩
    | some row => exact ⟨h, keeps_of_eq rfl rfl fun _ he _ ↦ he, hk⟩
  | writeStatus row status => exact objects_writeStatus h hk ha (hrestore _ rfl) hx
  | upsertBlob b =>
    obtain ⟨-, rfl⟩ := Prod.mk.inj (Option.some.inj hx)
    obtain ⟨hs, hkeeps⟩ := hblob (by
      split
      · exact .inr ⟨_, _, rfl⟩
      · exact .inl rfl)
    exact ⟨hs, hkeeps i, knows_of_keeps hkeeps hk⟩
  | incRef hash =>
    obtain ⟨f, rfl, rfl⟩ := ha
    obtain ⟨-, rfl⟩ := Prod.mk.inj (Option.some.inj hx)
    obtain ⟨hs, hkeeps⟩ := hblob (by
      split
      · rw [addRef]
        split
        · exact .inr ⟨_, _, rfl⟩
        · exact .inl rfl
      · exact .inl rfl)
    have hknows : (MediaPhase.counted f).Knows i _ := knows_of_keeps hkeeps hk
    exact ⟨hs, hkeeps i, hknows⟩
  | eraseBlob hash =>
    obtain ⟨-, rfl⟩ := Prod.mk.inj (Option.some.inj hx)
    obtain ⟨hs, hkeeps⟩ := hblob (by
      split
      · exact .inr ⟨_, _, rfl⟩
      · exact .inl rfl)
    exact ⟨hs, hkeeps i, knows_of_keeps hkeeps hk⟩
  | headObject f =>
    obtain rfl : ph = .read f := ha
    exact objects_head h hk (hhead f rfl) hx
  | deleteObject bucket key => exact objects_delete h hk ha (hdelete _ rfl) hx
  | completeMultipart bucket key upload_id parts =>
    obtain ⟨-, rfl⟩ := Prod.mk.inj (Option.some.inj hx)
    split
    · have hclose (j : ℕ) : s.Keeps j (s.close bucket key upload_id) :=
        keeps_of_eq rfl rfl fun _ he _ ↦ he
      have hkeeps (j : ℕ) : s.Keeps j
          ((s.close bucket key upload_id).setObject (bucket, key) (some c.body)) :=
        (hclose j).trans (keeps_setObject fun hnone ↦ absurd hnone (Option.some_ne_none _))
      refine ⟨committedBacked_setObject (i := i) ?_ h, hkeeps i, knows_of_keeps hkeeps hk⟩
      exact fun hnone ↦ absurd hnone (Option.some_ne_none _)
    · exact ⟨h, keeps_of_eq rfl rfl fun _ he _ ↦ he, hk⟩
  | _ =>
    obtain ⟨hs, hkeeps⟩ := hquiet (exec_quiet (by exact trivial) hx)
    exact ⟨hs, hkeeps i, knows_of_keeps hkeeps hk⟩

end Calls

/-! ### Runs -/

theorem objectsInv_start : ObjectsInv [] {} where
  committed _ hf _ := absurd hf List.not_mem_nil
  threads _ _ h := absurd h (by simp)

section Runs

variable {cfg : MediaConfig} {ts : List MediaPhase} {p p' : MediaPool}

open MediaState

/-- An event keeps the invariant, and a program that it begins keeps to the contract. -/
theorem objectsInv_event {e : MediaEv} (h : ObjectsInv ts p.shared)
    (hm : p.Meets mediaContract MediaPhase.Free ts) (hx : MediaState.env cfg e p = some p') :
    ∃ ts', ObjectsInv ts' p'.shared ∧ p'.Meets mediaContract MediaPhase.Free ts' := by
  rcases MediaState.env_cases hx with ⟨q, hq, rfl⟩ | ⟨place, body, rfl⟩ | ⟨i, rfl, rfl⟩
  · refine ⟨ts ++ [.idle], ⟨h.committed, fun j ph hj ↦ ?_⟩, hm.spawn (MediaEv.program_meets hq) _⟩
    rcases Pool.getElem?_append_cases hj with ⟨-, rfl⟩ | ⟨-, hj⟩
    · exact trivial
    · exact h.threads j ph hj
  · refine ⟨ts, ⟨committedBacked_setObject (i := 0) nofun h.committed, fun j ph hj ↦ ?_⟩, hm⟩
    exact knows_of_keeps (fun _ ↦ keeps_setObject nofun) (h.threads j ph hj)
  · have hret : (Prog.ret () : MediaM Unit).Meets mediaContract .idle fun ph _ ↦ ph.Free := trivial
    refine ⟨ts.set i .idle, ⟨h.committed, fun j ph hj ↦ ?_⟩, hm.set i hret _⟩
    rcases Pool.getElem?_set_cases hj with ⟨-, rfl⟩ | ⟨hne, hj⟩
    · exact trivial
    · exact (keeps_clear p.shared i).knows hne (h.threads j ph hj)

/-- The invariant holds in every state that a run reaches. -/
theorem objectsInv_of_reach (hr : (mediaService cfg).Reach objectsSpared MediaState.start p) :
    ∃ ts, ObjectsInv ts p.shared ∧ p.Meets mediaContract MediaPhase.Free ts := by
  refine Machine.invariant hr ⟨[], objectsInv_start, .nil⟩ ?_ ?_
  · intro ts s i ph o c r s' hinv hi ha hG hx
    obtain ⟨hs, hkeeps, hk⟩ := objects_call hinv.committed (hinv.threads i ph hi) ha hG hx
    refine ⟨admits_of_exec hx, hs, fun j ph' hj ↦ ?_⟩
    rcases Pool.getElem?_set_cases hj with ⟨rfl, rfl⟩ | ⟨hne, hj⟩
    · exact hk
    · exact hkeeps.knows hne (hinv.threads j ph' hj)
  · intro ts p e p' hinv hm _ hx
    exact objectsInv_event hinv hm hx

/-- **Committed rows have their objects** in every run in which nothing is deleted that is needed,
rows are pointed only to objects that are there, and a row that passes the check has its object. -/
theorem committed_backed (cfg : MediaConfig) (p : MediaPool)
    (hr : (mediaService cfg).Reach objectsSpared MediaState.start p) :
    ∀ f ∈ p.shared.files, f.status = .COMMITTED → p.shared.objects f.place ≠ none := by
  obtain ⟨ts, h, -⟩ := objectsInv_of_reach hr
  exact h.committed

end Runs

instance (i : ℕ) (o : MediaOp) (c : MediaChoice) (s : MediaState) :
    Decidable (deletionsSpare.onOp i o c s) :=
  inferInstanceAs (Decidable ((∀ place ∈ o.deletes, _ → _) ∧
    (_ ∧ ∀ place ∈ o.repoints, _) ∧ ∀ f ∈ o.heads, _ → _))

instance (e : MediaEv) (p : MediaPool) : Decidable (deletionsSpare.onEv e p) := .isTrue trivial

instance (i : ℕ) (o : MediaOp) (c : MediaChoice) (s : MediaState) :
    Decidable (objectsSpared.onOp i o c s) :=
  inferInstanceAs (Decidable (deletionsSpare.onOp i o c s ∧ ∀ row ∈ o.restores, _ → _ → _))

instance (e : MediaEv) (p : MediaPool) : Decidable (objectsSpared.onEv e p) := .isTrue trivial

/-- Alice uploads a text. -/
def aliceUploads : List (Machine.Label MediaChoice MediaEv) :=
  .event (.apply "alice" (note 4)) :: mediaCalls 0 4 ++ mediaId 0 "f1" :: mediaCalls 0 3 ++
  .event (.put notePlace [1, 2, 3, 4]) :: .event (.complete "alice" "f1") :: mediaCalls 1 9

/-- Bob uploads the same content, with a size of his own. -/
def bobUploads (size : ℤ) (n : ℕ) : List (Machine.Label MediaChoice MediaEv) :=
  .event (.apply "bob" (note size)) :: mediaCalls 2 3 ++ mediaId 2 "f2" :: mediaCalls 2 2 ++
  .event (.complete "bob" "f2") :: mediaCalls 3 n

/-- Bob's row shares the object of alice's. -/
theorem committed_backed_shared :
    ∃ p, (mediaService plainMedia).Reach objectsSpared MediaState.start p ∧
      p.shared.files.map (fun f ↦ (f.file_id, f.status, f.place)) =
        [("f1", .COMMITTED, notePlace), ("f2", .COMMITTED, notePlace)] ∧
      ∀ f ∈ p.shared.files, f.status = .COMMITTED → p.shared.objects f.place ≠ none := by
  obtain ⟨p, hp, hfiles⟩ := Machine.exists_of_run (mediaService plainMedia) objectsSpared
    MediaState.start (aliceUploads ++ bobUploads 4 7)
    (fun p ↦ p.shared.files.map (fun f ↦ (f.file_id, f.status, f.place)) =
      [("f1", .COMMITTED, notePlace), ("f2", .COMMITTED, notePlace)]) (by decide)
  exact ⟨p, hp, hfiles, committed_backed _ p hp⟩

/-- Bob declares another size, and alice's text is deleted. -/
theorem size_mismatch_takes_object :
    ∃ p, (mediaService plainMedia).Reach .any MediaState.start p ∧
      ∃ f ∈ p.shared.files, f.status = .COMMITTED ∧ p.shared.objects f.place = none := by
  obtain ⟨p, hp, hlost⟩ := Machine.exists_of_run (mediaService plainMedia) .any MediaState.start
    (aliceUploads ++ bobUploads 5 5)
    (fun p ↦ ∃ f ∈ p.shared.files, f.status = .COMMITTED ∧ p.shared.objects f.place = none)
    (by decide)
  exact ⟨p, hp, hlost⟩

/-- Bob's row, as `task_pending_timeout` lists it. -/
def bobRow : MediaFile :=
  pending_row "bob" { note 4 with purpose := .AVATAR } "f2" avatarPlace.1 avatarPlace.2 0 none

/-- Two hours later the task reads bob's row, bob's completion moves the row to alice's object, and
the task writes the row back. -/
def taskInterferes : List (Machine.Label MediaChoice MediaEv) :=
  .event .pending_timeout :: .call 3 { now := 7200000 } :: .call 3 { rows := [bobRow] } ::
  mediaCalls 3 2 ++ .event (.complete "bob" "f2") :: mediaCalls 4 7 ++ mediaCalls 3 1 ++
  mediaCalls 4 3

/-- Nothing that is needed is deleted, and still a committed row is without its object. -/
theorem write_back_undoes_move :
    ∃ p, (mediaService plainMedia).Reach deletionsSpare MediaState.start p ∧
      ∃ f ∈ p.shared.files, f.status = .COMMITTED ∧ p.shared.objects f.place = none := by
  obtain ⟨p, hp, hlost⟩ := Machine.exists_of_run (mediaService plainMedia) deletionsSpare
    MediaState.start (bobBegins ++ aliceFollows ++ taskInterferes)
    (fun p ↦ ∃ f ∈ p.shared.files, f.status = .COMMITTED ∧ p.shared.objects f.place = none)
    (by decide +kernel)
  exact ⟨p, hp, hlost⟩

end ChatNow
