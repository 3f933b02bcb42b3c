import ChatNow.Lib.Pool
import ChatNow.Media.CompletionContract
import Mathlib.Algebra.BigOperators.Group.List.Basic
import Mathlib.Algebra.Ring.Int.Defs
import Mathlib.Data.List.Nodup
import Mathlib.Logic.Function.Basic

/-!
# The media service

Requests and cleanup tasks as threads over the tables and the object store (`mediaService`). Any
number of each may run at a time; a crash takes a thread away where it stands.

* A transaction or a call of the object store is atomic. When it fails, what it was to do may have
  been done all the same (`MediaChoice.acts`).
* Which rows a list has, and in what order, is up to the database.
* An object comes from a client, with a URL that has been handed out, or from the parts of a
  multipart upload. It goes by `delete_object` only.
* A status and a place are written with the rest of the row, as it was read (`writeBack`).
* `passed` is not in any store: it tells which threads have found the object of which row and have
  not ended the update of its status since.

`exec_quiet` is about the operations that change no row, no blob and no object; each of the others
has a lemma of its own.
-/

namespace ChatNow

open Prog MediaOp

/-! ### The state -/

/-- The first row with the id is changed. -/
def update_row (file_id : String) (g : MediaFile → MediaFile) : List MediaFile → List MediaFile
  | [] => []
  | f :: files => if f.file_id = file_id then g f :: files else f :: update_row file_id g files

section Rows

variable {file_id : String} {g : MediaFile → MediaFile} {files : List MediaFile} {f : MediaFile}

theorem map_update_row (hg : ∀ f, (g f).file_id = f.file_id) :
    (update_row file_id g files).map (·.file_id) = files.map (·.file_id) := by
  induction files with
  | nil => rfl
  | cons f files ih =>
    rw [update_row]
    split
    · rw [List.map_cons, List.map_cons, hg]
    · rw [List.map_cons, List.map_cons, ih]

theorem unique_update_row (hg : ∀ f, (g f).file_id = f.file_id)
    (hu : (files.map (·.file_id)).Nodup) :
    ((update_row file_id g files).map (·.file_id)).Nodup := by
  rwa [map_update_row hg]

theorem unique_append (hu : (files.map (·.file_id)).Nodup)
    (h : ∀ g ∈ files, g.file_id ≠ f.file_id) : ((files ++ [f]).map (·.file_id)).Nodup := by
  rw [List.map_append, List.nodup_append]
  refine ⟨hu, List.pairwise_singleton _ _, fun a ha b hb ↦ ?_⟩
  obtain ⟨g, hg, rfl⟩ := List.mem_map.1 ha
  obtain rfl := List.mem_singleton.1 hb
  exact h g hg

/-- What is in the table after a change is another row, or the changed one. -/
theorem mem_update_row (hu : (files.map (·.file_id)).Nodup) (h : f ∈ update_row file_id g files) :
    f ∈ files ∧ f.file_id ≠ file_id ∨ ∃ f₀ ∈ files, f₀.file_id = file_id ∧ f = g f₀ := by
  induction files with
  | nil => exact absurd h List.not_mem_nil
  | cons f₁ files ih =>
    obtain ⟨hnew, hu⟩ := List.nodup_cons.1 hu
    rw [update_row] at h
    split at h
    · next hid =>
      rcases List.mem_cons.1 h with rfl | hmem
      · exact .inr ⟨f₁, List.mem_cons_self, hid, rfl⟩
      · refine .inl ⟨List.mem_cons_of_mem _ hmem, fun hf ↦ hnew ?_⟩
        have hmem' : f.file_id ∈ files.map (·.file_id) := List.mem_map_of_mem hmem
        rwa [hf, ← hid] at hmem'
    · next hid =>
      rcases List.mem_cons.1 h with rfl | hmem
      · exact .inl ⟨List.mem_cons_self, hid⟩
      · rcases ih hu hmem with ⟨hmem, hne⟩ | ⟨f₀, hf₀, hid, rfl⟩
        · exact .inl ⟨List.mem_cons_of_mem _ hmem, hne⟩
        · exact .inr ⟨f₀, List.mem_cons_of_mem _ hf₀, hid, rfl⟩

/-- A row stays or is changed. -/
theorem mem_update_row_of_mem (file_id : String) (g : MediaFile → MediaFile) (h : f ∈ files) :
    f ∈ update_row file_id g files ∨ g f ∈ update_row file_id g files := by
  induction files with
  | nil => exact absurd h List.not_mem_nil
  | cons f₁ files ih =>
    rw [update_row]
    split
    · rcases List.mem_cons.1 h with rfl | hmem
      · exact .inr List.mem_cons_self
      · exact .inl (List.mem_cons_of_mem _ hmem)
    · rcases List.mem_cons.1 h with rfl | hmem
      · exact .inl List.mem_cons_self
      · exact (ih hmem).imp (List.mem_cons_of_mem _) (List.mem_cons_of_mem _)

/-- What the change keeps of a row can still be found. -/
theorem exists_update_row {P : MediaFile → Prop} (hP : ∀ f, P f → P (g f))
    (h : ∃ f ∈ files, P f) (file_id : String) : ∃ f ∈ update_row file_id g files, P f := by
  obtain ⟨f, hf, hPf⟩ := h
  rcases mem_update_row_of_mem file_id g hf with hf | hf
  · exact ⟨f, hf, hPf⟩
  · exact ⟨g f, hf, hP f hPf⟩

end Rows

/-- The tables, the object store, and the threads past the check of the size. -/
structure MediaState where
  files : List MediaFile := []
  /-- `uq_file_id`. -/
  unique : (files.map (·.file_id)).Nodup := by decide
  /-- `media_blob_ref`, by hash. -/
  blobs : String → Option MediaBlobRef := fun _ ↦ none
  quotas : String → Option MediaUserQuota := fun _ ↦ none
  /-- The objects, by bucket and key. -/
  objects : String × String → Option (List UInt8) := fun _ ↦ none
  /-- The multipart uploads that are open, by bucket. -/
  uploads : List (String × OrphanUpload) := []
  /-- The ids that multipart uploads have had. -/
  issued : List String := []
  /-- The places for which there is a URL. -/
  signed : List (String × String) := []
  passed : List (ℕ × String) := []

/-- What the environment decides at a call. -/
structure MediaChoice where
  /-- The call fails. -/
  fault : Bool := false
  /-- Its effect takes place all the same. -/
  late : Bool := false
  now : ℤ := 0
  file_id : String := ""
  upload_id : String := ""
  url : String := ""
  /-- The content of the parts. -/
  body : List UInt8 := []
  rows : List MediaFile := []
  blobs : List MediaBlobRef := []
  /-- How many rows are read before a fault. -/
  count : ℕ := 0

/-- The effect of the call takes place. -/
def MediaChoice.acts (c : MediaChoice) : Bool := !c.fault || c.late

namespace MediaState

variable (s : MediaState)

def insert (f : MediaFile) : MediaState :=
  if h : ∀ g ∈ s.files, g.file_id ≠ f.file_id then
    { s with
      files := s.files ++ [f]
      unique := unique_append s.unique h }
  else s

/-- A row that has been read before is written back. -/
def writeBack (row : MediaFile) : MediaState :=
  { s with
    files := update_row row.file_id row.write_back s.files
    unique := unique_update_row (fun _ ↦ rfl) s.unique }

def setBlob (hash : String) (b : Option MediaBlobRef) : MediaState :=
  { s with blobs := Function.update s.blobs hash b }

def setObject (place : String × String) (body : Option (List UInt8)) : MediaState :=
  { s with objects := Function.update s.objects place body }

def setQuota (user_id : String) (q : MediaUserQuota) : MediaState :=
  { s with quotas := Function.update s.quotas user_id (some q) }

/-- The count is a 32-bit number. -/
def addRef (hash : String) : MediaState :=
  match s.blobs hash with
  | some b => s.setBlob hash (some { b with ref_count := Int.bmod (b.ref_count + 1) (2 ^ 32) })
  | none => s

/-- The thread is not past the check any more. -/
def clear (i : ℕ) : MediaState := { s with passed := s.passed.filter (·.1 ≠ i) }

/-- The thread is past the check. -/
def pass (i : ℕ) (file_id : String) : MediaState :=
  { s with passed := (i, file_id) :: s.passed }

def close (bucket key upload_id : String) : MediaState :=
  { s with
    uploads := s.uploads.filter fun u ↦
      ¬ (u.1 = bucket ∧ u.2.key = key ∧ u.2.upload_id = upload_id) }

/-- The store keeps such an upload open. -/
def Open (bucket key upload_id : String) : Prop :=
  ∃ u ∈ s.uploads, u.1 = bucket ∧ u.2.key = key ∧ u.2.upload_id = upload_id

instance (bucket key upload_id : String) : Decidable (s.Open bucket key upload_id) :=
  inferInstanceAs (Decidable (∃ u ∈ s.uploads, _))

/-- The rows can be the answer to a query for those that satisfy `P`. -/
def Lists (P : MediaFile → Prop) (rows : List MediaFile) : Prop :=
  ∀ r ∈ rows, r ∈ s.files ∧ P r

instance (P : MediaFile → Prop) [DecidablePred P] (rows : List MediaFile) :
    Decidable (s.Lists P rows) :=
  inferInstanceAs (Decidable (∀ r ∈ rows, _))

/-- What `head_object` answers. -/
def head (c : MediaChoice) (f : MediaFile) : Option ℤ :=
  if c.fault then none else (s.objects f.place).map fun body ↦ (body.length : ℤ)

end MediaState

/-! ### The operations -/

/-- The effect of a call by thread `i`. -/
def MediaState.exec (i : ℕ) :
    (o : MediaOp) → MediaChoice → MediaState → Option (MediaOp.Res o × MediaState)
  | clock, c, s => some (c.now, s)
  | nextFileId, c, s => some (c.file_id, s)
  | selectByFileId file_id, c, s =>
    some (if c.fault then none else s.files.find? (·.file_id = file_id), s)
  | selectByUploadId upload_id, c, s =>
    some (if c.fault then none else s.files.find? (·.upload_id = some upload_id), s)
  | insertFile f, c, s =>
    some (!c.fault && s.files.all (·.file_id ≠ f.file_id), if c.acts then s.insert f else s)
  | readBucketKey file_id, c, s =>
    some (if c.fault then none else s.files.find? (·.file_id = file_id), s)
  | writeBucketKey row bucket object_key, c, s =>
    some (!c.fault && s.files.any (·.file_id = row.file_id),
      if c.acts then s.writeBack { row with bucket := bucket, object_key := object_key } else s)
  | readStatus file_id _, c, s =>
    let row := if c.fault then none else s.files.find? (·.file_id = file_id)
    some (row, if row.isNone then s.clear i else s)
  | writeStatus row status, c, s =>
    some (!c.fault && s.files.any (·.file_id = row.file_id),
      (if c.acts then s.writeBack { row with status := status } else s).clear i)
  | listPendingOlderThan cutoff limit, c, s =>
    if c.rows.length ≤ limit ∧
        s.Lists (fun r ↦ r.status = .PENDING ∧ r.uploaded_at < cutoff) c.rows then
      some (c.rows, s)
    else none
  | listQuarantinedOlderThan cutoff limit, c, s =>
    if c.rows.length ≤ limit ∧
        s.Lists (fun r ↦ r.status = .QUARANTINED ∧ r.uploaded_at < cutoff) c.rows then
      some (c.rows, s)
    else none
  | listCommittedAfter cursor limit, c, s =>
    if c.rows.length ≤ limit ∧ c.rows.Pairwise (fun r r' ↦ r.uploaded_at ≤ r'.uploaded_at) ∧
        s.Lists (fun r ↦ r.status = .COMMITTED ∧ cursor < r.uploaded_at) c.rows then
      some (c.rows, s)
    else none
  | listFilesByHashDead hash, c, s =>
    if s.Lists (fun r ↦ r.content_hash = hash ∧ (r.status = .DELETED ∨ r.status = .QUARANTINED))
        c.rows then
      some (c.rows, s)
    else none
  | pendingBytesOfOwner owner_id, c, s =>
    let rows := s.files.filter fun r ↦ r.owner_id = owner_id ∧ r.status = .PENDING
    some (((if c.fault then rows.take c.count else rows).map (·.file_size)).sum, s)
  | selectByHash hash, c, s => some (if c.fault then none else s.blobs hash, s)
  | upsertBlob r, c, s =>
    some (!c.fault,
      if c.acts ∧ s.blobs r.content_hash = none then s.setBlob r.content_hash (some r) else s)
  | incRef hash, c, s =>
    some (!c.fault && (s.blobs hash).isSome, if c.acts then s.addRef hash else s)
  | listZeroRefOlderThan cutoff limit, c, s =>
    if c.blobs.length ≤ limit ∧ ∀ b ∈ c.blobs,
        s.blobs b.content_hash = some b ∧ b.ref_count = 0 ∧ b.last_decremented_at < cutoff then
      some (c.blobs, s)
    else none
  | eraseBlob hash, c, s => some (!c.fault, if c.acts then s.setBlob hash none else s)
  | ensureQuota user_id, c, s =>
    match s.quotas user_id with
    | some q => some (if c.fault then {} else q, s)
    | none => some (if c.fault then {} else { user_id },
        if c.acts then s.setQuota user_id { user_id } else s)
  | incUsed user_id delta, c, s =>
    let q := (s.quotas user_id).getD { user_id }
    some (!c.fault,
      if c.acts then s.setQuota user_id { q with used_bytes := q.used_bytes + delta } else s)
  | decUsed user_id delta, c, s =>
    match s.quotas user_id with
    | none => some (false, s)
    | some q => some (!c.fault,
        if c.acts then s.setQuota user_id { q with used_bytes := max 0 (q.used_bytes - delta) }
        else s)
  | presignedPut bucket key, c, s =>
    some (if c.fault then none else some c.url,
      if c.acts then { s with signed := (bucket, key) :: s.signed } else s)
  | presignedPart _ _ upload_id part_number, c, s =>
    some (if c.fault then none
      else some (c.url ++ "&partNumber=" ++ toString part_number ++ "&uploadId=" ++ upload_id), s)
  | headObject f, c, s =>
    some (s.head c f,
      if s.head c f = some f.file_size then (s.clear i).pass i f.file_id else s.clear i)
  | deleteObject bucket key, c, s =>
    some (!c.fault, if c.acts then s.setObject (bucket, key) none else s)
  | getRange bucket key bytes, c, s =>
    some (if c.fault then none else (s.objects (bucket, key)).map (·.take bytes), s)
  | initMultipart bucket key, c, s =>
    if c.upload_id ∈ s.issued then none
    else
      some (if c.fault then none else some c.upload_id,
        if c.acts then
          { s with
            uploads := (bucket, ⟨key, c.upload_id, c.now⟩) :: s.uploads
            issued := c.upload_id :: s.issued }
        else s)
  | completeMultipart bucket key upload_id _, c, s =>
    some (!c.fault && s.Open bucket key upload_id,
      if c.acts ∧ s.Open bucket key upload_id then
        (s.close bucket key upload_id).setObject (bucket, key) (some c.body)
      else s)
  | abortMultipart bucket key upload_id, c, s =>
    some (!c.fault && s.Open bucket key upload_id,
      if c.acts then s.close bucket key upload_id else s)
  | listMultipartUploads bucket, c, s =>
    some (if c.fault then none
      else some ((s.uploads.filter (·.1 = bucket)).map (·.2)), s)

/-! ### The environment -/

/-- What can happen beside the calls. -/
inductive MediaEv
  | apply (user_id : String) (req : UploadReq)
  | complete (user_id file_id : String)
  | init (user_id : String) (req : UploadReq)
  | apply_part (user_id upload_id : String) (part_number : ℤ)
  | complete_multipart (user_id upload_id : String) (parts : List PartETag)
  | abort (user_id upload_id : String)
  | pending_timeout
  | multipart_orphan
  | unref_blob_gc
  | quarantine_gc
  | magic_sniff (cursor : ℤ)
  /-- A client puts an object. -/
  | put (place : String × String) (body : List UInt8)
  /-- A thread is gone. -/
  | crash (i : ℕ)

abbrev MediaPool := Pool MediaOp MediaOp.Res MediaState

/-- The program of a request or a task. -/
def MediaEv.program (cfg : MediaConfig) : MediaEv → Option (MediaM Unit)
  | apply user_id req => some do let _ ← UploadHandler.apply cfg user_id req
  | complete user_id file_id => some do let _ ← UploadHandler.complete user_id file_id
  | init user_id req => some do let _ ← MultipartHandler.init cfg user_id req
  | apply_part user_id upload_id part_number =>
    some do let _ ← MultipartHandler.apply_part cfg user_id upload_id part_number
  | complete_multipart user_id upload_id parts =>
    some do let _ ← MultipartHandler.complete user_id upload_id parts
  | abort user_id upload_id => some do let _ ← MultipartHandler.abort user_id upload_id
  | pending_timeout => some CleanupWorker.task_pending_timeout
  | multipart_orphan => some (CleanupWorker.task_multipart_orphan cfg)
  | unref_blob_gc => some CleanupWorker.task_unref_blob_gc
  | quarantine_gc => some CleanupWorker.task_quarantine_gc
  | magic_sniff cursor => some do let _ ← CleanupWorker.task_magic_sniff cursor
  | put _ _ => none
  | crash _ => none

/-- The effect of an event. -/
def MediaState.env (cfg : MediaConfig) (e : MediaEv) (p : MediaPool) : Option MediaPool :=
  match e with
  | .put place body =>
    if place ∈ p.shared.signed then some ⟨p.threads, p.shared.setObject place (some body)⟩
    else none
  | .crash i => some ⟨p.threads.set i (.ret ()), p.shared.clear i⟩
  | e => (e.program cfg).map fun q ↦ ⟨p.threads ++ [q], p.shared⟩

/-- The media service. -/
def mediaService (cfg : MediaConfig) :
    Machine MediaOp MediaOp.Res MediaState MediaChoice MediaEv :=
  ⟨MediaState.exec, MediaState.env cfg⟩

/-- Nothing has been uploaded. -/
def MediaState.start : MediaPool := ⟨[], {}⟩

/-! ### What the operations change -/

/-- Neither a row nor a blob nor an object has changed. -/
structure MediaState.Same (s s' : MediaState) : Prop where
  files : s'.files = s.files
  blobs : s'.blobs = s.blobs
  objects : s'.objects = s.objects
  passed : s'.passed = s.passed

/-- The operations that change no row, no blob and no object. -/
def MediaOp.Quiet : MediaOp → Prop
  | insertFile _ => False
  | writeBucketKey _ _ _ => False
  | readStatus _ _ => False
  | writeStatus _ _ => False
  | upsertBlob _ => False
  | incRef _ => False
  | eraseBlob _ => False
  | headObject _ => False
  | deleteObject _ _ => False
  | completeMultipart _ _ _ _ => False
  | _ => True

namespace MediaState.Same

variable {s s' s₁ : MediaState}

theorem refl (s : MediaState) : s.Same s := ⟨rfl, rfl, rfl, rfl⟩

/-- A change that may take place or not. -/
theorem ite {P : Prop} [Decidable P] (h : s.Same s₁) : s.Same (if P then s₁ else s) := by
  split
  · exact h
  · exact .refl s

/-- A call that is answered. -/
theorem of_some {α : Type} {r r' : α} (h : some (r, s₁) = some (r', s')) (hs : s.Same s₁) :
    s.Same s' := by
  obtain ⟨-, rfl⟩ := Prod.mk.inj (Option.some.inj h)
  exact hs

/-- A query, which may be answered in some ways only. -/
theorem of_query {α : Type} {P : Prop} [Decidable P] {r r' : α}
    (h : (if P then some (r, s) else none) = some (r', s')) : s.Same s' :=
  of_some (Option.ite_none_right_eq_some.1 h).2 (.refl s)

end MediaState.Same

theorem exec_quiet {i : ℕ} {o : MediaOp} {c : MediaChoice} {s s' : MediaState} {r : o.Res}
    (ho : o.Quiet) (hx : MediaState.exec i o c s = some (r, s')) : s.Same s' := by
  cases o with
  | insertFile f => exact ho.elim
  | writeBucketKey row bucket key => exact ho.elim
  | readStatus file_id status => exact ho.elim
  | writeStatus row status => exact ho.elim
  | upsertBlob b => exact ho.elim
  | incRef hash => exact ho.elim
  | eraseBlob hash => exact ho.elim
  | headObject f => exact ho.elim
  | deleteObject bucket key => exact ho.elim
  | completeMultipart bucket key upload_id parts => exact ho.elim
  | listPendingOlderThan cutoff limit => exact .of_query hx
  | listQuarantinedOlderThan cutoff limit => exact .of_query hx
  | listCommittedAfter cursor limit => exact .of_query hx
  | listFilesByHashDead hash => exact .of_query hx
  | listZeroRefOlderThan cutoff limit => exact .of_query hx
  | ensureQuota user_id =>
    simp only [MediaState.exec] at hx
    split at hx
    · exact .of_some hx (.refl s)
    · exact .of_some hx (.ite ⟨rfl, rfl, rfl, rfl⟩)
  | decUsed user_id delta =>
    simp only [MediaState.exec] at hx
    split at hx
    · exact .of_some hx (.refl s)
    · exact .of_some hx (.ite ⟨rfl, rfl, rfl, rfl⟩)
  | initMultipart bucket key =>
    simp only [MediaState.exec] at hx
    split at hx
    · cases hx
    · exact .of_some hx (.ite ⟨rfl, rfl, rfl, rfl⟩)
  | incUsed user_id delta => exact .of_some hx (.ite ⟨rfl, rfl, rfl, rfl⟩)
  | presignedPut bucket key => exact .of_some hx (.ite ⟨rfl, rfl, rfl, rfl⟩)
  | abortMultipart bucket key upload_id => exact .of_some hx (.ite ⟨rfl, rfl, rfl, rfl⟩)
  | _ => exact .of_some hx (.refl s)

namespace MediaState

variable {s s' : MediaState} {f row : MediaFile} {file_id : String}

/-- A row that has been found is in the table. -/
theorem mem_of_find {fault : Bool} {P : MediaFile → Bool}
    (h : (if fault then none else s.files.find? P) = some f) : f ∈ s.files :=
  List.mem_of_find?_eq_some (Option.ite_none_left_eq_some.1 h).2

/-- A row that has been found by its id has it. -/
theorem id_of_find {fault : Bool}
    (h : (if fault then none else s.files.find? (·.file_id = file_id)) = some f) :
    f.file_id = file_id := by
  have hid := List.find?_some (Option.ite_none_left_eq_some.1 h).2
  exact of_decide_eq_true hid

/-- A row of the table is found by its id. -/
theorem find_of_mem (hf : f ∈ s.files) : s.files.find? (·.file_id = f.file_id) = some f := by
  have hsome : (s.files.find? (·.file_id = f.file_id)).isSome = true :=
    List.find?_isSome.2 ⟨f, hf, decide_eq_true rfl⟩
  obtain ⟨f', hf'⟩ := Option.isSome_iff_exists.1 hsome
  have hid := List.find?_some hf'
  have heq : f' = f :=
    List.inj_on_of_nodup_map s.unique (List.mem_of_find?_eq_some hf') hf (of_decide_eq_true hid)
  rw [hf', heq]

/-- The status of the row with the id. -/
def statusOf (s : MediaState) (file_id : String) : Option MediaFileStatus :=
  (s.files.find? (·.file_id = file_id)).map (·.status)

theorem statusOf_of_mem (hf : f ∈ s.files) : s.statusOf f.file_id = some f.status := by
  rw [statusOf, find_of_mem hf, Option.map_some]

/-- The query of `update_status` changes no table. -/
theorem readStatus_tables {i : ℕ} {c : MediaChoice} {status : MediaFileStatus}
    {r : (readStatus file_id status).Res}
    (hx : MediaState.exec i (readStatus file_id status) c s = some (r, s')) :
    s'.files = s.files ∧ s'.blobs = s.blobs := by
  obtain ⟨-, rfl⟩ := Prod.mk.inj (Option.some.inj hx)
  cases if c.fault then none else s.files.find? (·.file_id = file_id) <;> exact ⟨rfl, rfl⟩

/-- What is in the table after a row has been written back. -/
theorem mem_writeBack (h : f ∈ (s.writeBack row).files) :
    f ∈ s.files ∧ f.file_id ≠ row.file_id ∨
      ∃ f₀ ∈ s.files, f₀.file_id = row.file_id ∧ f = row.write_back f₀ :=
  mem_update_row s.unique h

/-- What a write back keeps of a row can still be found. -/
theorem exists_writeBack {P : MediaFile → Prop} (hP : ∀ f, P f → P (row.write_back f))
    (h : ∃ f ∈ s.files, P f) : ∃ f ∈ (s.writeBack row).files, P f :=
  exists_update_row hP h row.file_id

end MediaState

/-- What is known of the answers: a row that an update has read is the one that was asked for. -/
theorem admits_of_exec {i : ℕ} {o : MediaOp} {c : MediaChoice} {s s' : MediaState} {r : o.Res}
    {ph : MediaPhase} (hx : MediaState.exec i o c s = some (r, s')) :
    mediaContract.admits ph o r := by
  cases o with
  | readBucketKey file_id =>
    obtain ⟨rfl, -⟩ := Prod.mk.inj (Option.some.inj hx)
    exact fun row hrow ↦ MediaState.id_of_find hrow
  | readStatus file_id status =>
    obtain ⟨rfl, -⟩ := Prod.mk.inj (Option.some.inj hx)
    exact fun row hrow ↦ MediaState.id_of_find hrow
  | _ => exact trivial

/-! ### What the programs keep to -/

theorem MediaEv.program_meets {cfg : MediaConfig} {e : MediaEv} {q : MediaM Unit}
    (h : e.program cfg = some q) : q.Meets mediaContract .idle fun ph _ ↦ ph.Free := by
  have hdone {α : Type} {p : MediaM α} (hp : p.Meets mediaContract .idle fun ph _ ↦ ph.Free) :
      (p >>= fun _ ↦ pure ()).Meets mediaContract .idle fun ph _ ↦ ph.Free :=
    hp.bind fun _ _ hph ↦ hph
  have hidle : MediaPhase.idle.Free := trivial
  cases e with
  | put place body => cases h
  | crash i => cases h
  | apply user_id req =>
    obtain rfl := Option.some.inj h
    exact hdone (UploadHandler.apply_meets hidle)
  | complete user_id file_id =>
    obtain rfl := Option.some.inj h
    exact hdone (UploadHandler.complete_meets hidle)
  | init user_id req =>
    obtain rfl := Option.some.inj h
    exact hdone (MultipartHandler.init_meets hidle)
  | apply_part user_id upload_id part_number =>
    obtain rfl := Option.some.inj h
    exact hdone (MultipartHandler.apply_part_meets hidle)
  | complete_multipart user_id upload_id parts =>
    obtain rfl := Option.some.inj h
    exact hdone (MultipartHandler.complete_meets hidle)
  | abort user_id upload_id =>
    obtain rfl := Option.some.inj h
    exact hdone (MultipartHandler.abort_meets hidle)
  | pending_timeout =>
    obtain rfl := Option.some.inj h
    exact CleanupWorker.task_pending_timeout_meets hidle
  | multipart_orphan =>
    obtain rfl := Option.some.inj h
    exact CleanupWorker.task_multipart_orphan_meets hidle
  | unref_blob_gc =>
    obtain rfl := Option.some.inj h
    exact CleanupWorker.task_unref_blob_gc_meets hidle
  | quarantine_gc =>
    obtain rfl := Option.some.inj h
    exact CleanupWorker.task_quarantine_gc_meets hidle
  | magic_sniff cursor =>
    obtain rfl := Option.some.inj h
    exact hdone (CleanupWorker.task_magic_sniff_meets hidle)

/-- An event begins a program, brings an object or ends a thread. -/
theorem MediaState.env_cases {cfg : MediaConfig} {e : MediaEv} {p p' : MediaPool}
    (hx : MediaState.env cfg e p = some p') :
    (∃ q, e.program cfg = some q ∧ p' = ⟨p.threads ++ [q], p.shared⟩) ∨
      (∃ place body, p' = ⟨p.threads, p.shared.setObject place (some body)⟩) ∨
      ∃ i, e = .crash i ∧ p' = ⟨p.threads.set i (.ret ()), p.shared.clear i⟩ := by
  unfold env at hx
  split at hx
  · next place body =>
    rw [Option.ite_none_right_eq_some] at hx
    exact .inr (.inl ⟨place, body, (Option.some.inj hx.2).symm⟩)
  · next i => exact .inr (.inr ⟨i, rfl, (Option.some.inj hx).symm⟩)
  · obtain ⟨q, hq, rfl⟩ := Option.map_eq_some_iff.1 hx
    exact .inl ⟨q, hq, rfl⟩

/-! ### A small service -/

/-- A service for short texts. -/
def plainMedia : MediaConfig where
  public_bucket := "pub"
  private_bucket := "pri"
  presign_seconds := 600
  mime mime := if mime = "text/plain" then some 100 else none
  utc_date _ := "2024/05/14"

/-- A text of the given size in a message; the hash is always the same. -/
def note (size : ℤ) : UploadReq :=
  ⟨"note.txt", size, "text/plain",
    "sha256:0123456789abcdef0123456789abcdef0123456789abcdef0123456789abcdef", .CHAT⟩

/-- Where it goes. -/
def notePlace : String × String := ("pri", plainMedia.object_key (note 4) 0)

/-- Where an avatar with the content of a text goes. -/
def avatarPlace : String × String :=
  ("pub", plainMedia.object_key { note 4 with purpose := .AVATAR } 0)

/-- Thread `i` makes its next `n` calls. -/
def mediaCalls (i n : ℕ) : List (Machine.Label MediaChoice MediaEv) :=
  List.replicate n (.call i {})

/-- Thread `i` makes its next call, and gets an id. -/
def mediaId (i : ℕ) (id : String) : Machine.Label MediaChoice MediaEv :=
  .call i { file_id := id, upload_id := id }

/-- Bob begins to upload an avatar before alice's text is there. -/
def bobBegins : List (Machine.Label MediaChoice MediaEv) :=
  .event (.apply "bob" { note 4 with purpose := .AVATAR }) :: mediaCalls 0 4 ++
  mediaId 0 "f2" :: mediaCalls 0 3 ++ [.event (.put avatarPlace [1, 2, 3, 4])]

/-- Alice uploads her text. -/
def aliceFollows : List (Machine.Label MediaChoice MediaEv) :=
  .event (.apply "alice" (note 4)) :: mediaCalls 1 4 ++ mediaId 1 "f1" :: mediaCalls 1 3 ++
  .event (.put notePlace [1, 2, 3, 4]) :: .event (.complete "alice" "f1") :: mediaCalls 2 9

end ChatNow
