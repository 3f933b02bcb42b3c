import ChatNow.Media.Cleanup

/-!
# What commits a row

The contract that all programs of the media service keep (`mediaContract`): a row is committed by a
program that has read it, has then found its object with the declared size, and has called `inc_ref`
just before. In between it may give up the object of the row, and then it points the row to another
one at once.

`UploadHandler.complete_meets` and `MultipartHandler.complete_meets` are about the two programs that
do so. Nothing else here commits a row.
-/

namespace ChatNow

open Prog MediaOp

/-- How far a program has come with committing a row. -/
inductive MediaPhase
  | idle
  | read (f : MediaFile)
  /-- The object of the row has the declared size. -/
  | passed (f : MediaFile)
  /-- That object has been deleted. -/
  | moving (f : MediaFile)
  /-- A reference has been counted. -/
  | counted (f : MediaFile)

namespace MediaPhase

/-- The program is not past the check of the size. -/
def Free : MediaPhase → Prop
  | idle => True
  | read _ => True
  | _ => False

/-- The program is not between the count and the status. -/
def Uncounted : MediaPhase → Prop
  | counted _ => False
  | _ => True

/-- After a look at a row. -/
def select : Option MediaFile → MediaPhase
  | some f => read f
  | none => idle

/-- After a look at the object of a row. -/
def head (f : MediaFile) (content_length : Option ℤ) : MediaPhase :=
  if content_length = some f.file_size then passed f else idle

def delete : MediaPhase → MediaPhase
  | passed f => moving f
  | ph => ph

def repoint : MediaPhase → MediaPhase
  | moving f => passed f
  | ph => ph

/-- After the query of `update_bucket_key`. The program goes on also without the row. -/
def reread (ph : MediaPhase) : Option MediaFile → MediaPhase
  | some _ => ph
  | none => ph.repoint

/-- After the query of `update_status`. Without the row there is no write. -/
def recheck (ph : MediaPhase) : Option MediaFile → MediaPhase
  | some _ => ph
  | none => idle

def count : MediaPhase → MediaPhase
  | passed f => counted f
  | ph => ph

theorem free_select (file : Option MediaFile) : (select file).Free := by
  cases file <;> exact trivial

theorem Free.uncounted {ph : MediaPhase} (h : ph.Free) : ph.Uncounted := by
  cases ph with
  | counted f => exact h.elim
  | _ => exact trivial

theorem Free.recheck {ph : MediaPhase} (h : ph.Free) (row : Option MediaFile) :
    (ph.recheck row).Free := by
  cases row with
  | none => exact trivial
  | some row => exact h

theorem Free.delete {ph : MediaPhase} (h : ph.Free) : ph.delete = ph := by
  cases ph with
  | passed f => exact h.elim
  | _ => rfl

end MediaPhase

/-- The contract of the programs of the media service. -/
def mediaContract : Contract MediaOp MediaOp.Res MediaPhase where
  allowed ph
    | selectByFileId _ => ph.Free
    | selectByUploadId _ => ph.Free
    | insertFile f => ph.Uncounted ∧ f.status = .PENDING
    | headObject f => ph = .read f
    | deleteObject _ _ => ph.Free ∨ ∃ f, ph = .passed f
    | readBucketKey file_id => ∃ f, ph = .moving f ∧ file_id = f.file_id
    | writeBucketKey row _ _ => ∃ f, ph = .moving f ∧ row.file_id = f.file_id
    | incRef hash => ∃ f, ph = .passed f ∧ hash = f.content_hash
    | readStatus file_id .COMMITTED => ∃ f, ph = .counted f ∧ file_id = f.file_id
    | readStatus _ _ => ph.Free
    | writeStatus row .COMMITTED => ∃ f, ph = .counted f ∧ row.file_id = f.file_id
    | writeStatus _ _ => ph.Free
    | upsertBlob r => ph.Uncounted ∧ r.ref_count = 0
    | _ => ph.Uncounted
  admits _ o r :=
    match o, r with
    | readBucketKey file_id, r => ∀ row ∈ r, row.file_id = file_id
    | readStatus file_id _, r => ∀ row ∈ r, row.file_id = file_id
    | _, _ => True
  next ph o r :=
    match o, r with
    | selectByFileId _, r => .select r
    | selectByUploadId _, r => .select r
    | headObject f, r => .head f r
    | deleteObject _ _, _ => ph.delete
    | readBucketKey _, r => ph.reread r
    | writeBucketKey _ _ _, _ => ph.repoint
    | incRef _, _ => ph.count
    | readStatus _ _, r => ph.recheck r
    | writeStatus _ _, _ => .idle
    | _, _ => ph

/-! ### Beginning an upload -/

section Begin

variable {cfg : MediaConfig} {user_id : String} {req : UploadReq}

theorem check_upload_meets {ph : MediaPhase} (h : ph.Free) :
    (check_upload cfg user_id req).Meets mediaContract ph fun ph _ ↦ ph.Free := by
  rw [check_upload]
  split
  · exact h
  · split
    · split <;> exact h
    · refine meets_op_bind.2 ⟨h.uncounted, fun qrow _ ↦ ?_⟩
      refine meets_op_bind.2 ⟨h.uncounted, fun pending _ ↦ ?_⟩
      split <;> exact h

theorem insert_dedup_meets {blob : MediaBlobRef} {ph : MediaPhase} (h : ph.Free) :
    (insert_dedup user_id req blob).Meets mediaContract ph fun ph _ ↦ ph.Free := by
  refine meets_op_bind.2 ⟨h.uncounted, fun file_id _ ↦ ?_⟩
  refine meets_op_bind.2 ⟨h.uncounted, fun at_ _ ↦ ?_⟩
  refine meets_op_bind.2 ⟨⟨h.uncounted, rfl⟩, fun inserted _ ↦ ?_⟩
  cases inserted <;> exact h

theorem insert_single_meets {ph : MediaPhase} (h : ph.Free) :
    (insert_single cfg user_id req).Meets mediaContract ph fun ph _ ↦ ph.Free := by
  refine meets_op_bind.2 ⟨h.uncounted, fun now_ms _ ↦ ?_⟩
  refine meets_op_bind.2 ⟨h.uncounted, fun file_id _ ↦ ?_⟩
  refine meets_op_bind.2 ⟨h.uncounted, fun at_ _ ↦ ?_⟩
  refine meets_op_bind.2 ⟨⟨h.uncounted, rfl⟩, fun inserted _ ↦ ?_⟩
  cases inserted with
  | false => exact h
  | true =>
    refine meets_op_bind.2 ⟨h.uncounted, fun url _ ↦ ?_⟩
    cases url <;> exact h

theorem UploadHandler.apply_meets {ph : MediaPhase} (h : ph.Free) :
    (UploadHandler.apply cfg user_id req).Meets mediaContract ph fun ph _ ↦ ph.Free := by
  refine (check_upload_meets h).bind fun ph r hph ↦ ?_
  cases r with
  | error e => exact hph
  | ok _ =>
    refine meets_op_bind.2 ⟨hph.uncounted, fun blob _ ↦ ?_⟩
    split
    · refine (insert_dedup_meets hph).bind fun ph r hph ↦ ?_
      cases r <;> exact hph
    · exact insert_single_meets hph

theorem insert_multipart_meets {ph : MediaPhase} (h : ph.Free) :
    (insert_multipart cfg user_id req).Meets mediaContract ph fun ph _ ↦ ph.Free := by
  refine meets_op_bind.2 ⟨h.uncounted, fun now_ms _ ↦ ?_⟩
  refine meets_op_bind.2 ⟨h.uncounted, fun upload _ ↦ ?_⟩
  cases upload with
  | none => exact h
  | some upload_id =>
    refine meets_op_bind.2 ⟨h.uncounted, fun file_id _ ↦ ?_⟩
    refine meets_op_bind.2 ⟨h.uncounted, fun at_ _ ↦ ?_⟩
    refine meets_op_bind.2 ⟨⟨h.uncounted, rfl⟩, fun inserted _ ↦ ?_⟩
    cases inserted with
    | true => exact h
    | false => exact meets_op_bind.2 ⟨h.uncounted, fun _ _ ↦ h⟩

theorem MultipartHandler.init_meets {ph : MediaPhase} (h : ph.Free) :
    (MultipartHandler.init cfg user_id req).Meets mediaContract ph fun ph _ ↦ ph.Free := by
  refine (check_upload_meets h).bind fun ph r hph ↦ ?_
  cases r with
  | error e => exact hph
  | ok _ =>
    refine meets_op_bind.2 ⟨hph.uncounted, fun blob _ ↦ ?_⟩
    split
    · refine (insert_dedup_meets hph).bind fun ph r hph ↦ ?_
      cases r <;> exact hph
    · exact insert_multipart_meets hph

end Begin

/-! ### Updating a row -/

section Update

variable {file_id bucket key : String} {file : MediaFile} {status : MediaFileStatus}
  {ph : MediaPhase}

theorem MediaFileTable.update_bucket_key_meets :
    (MediaFileTable.update_bucket_key file.file_id bucket key).Meets mediaContract (.moving file)
      fun ph _ ↦ ph = .passed file := by
  refine meets_op_bind.2 ⟨⟨file, rfl, rfl⟩, fun row hid ↦ ?_⟩
  cases row with
  | none => rfl
  | some row => exact ⟨⟨file, rfl, hid row rfl⟩, fun _ _ ↦ rfl⟩

/-- What may read a row for its status may write it. -/
theorem allowed_writeStatus {row : MediaFile}
    (h : mediaContract.allowed ph (readStatus row.file_id status)) :
    mediaContract.allowed ph (writeStatus row status) := by
  cases status <;> exact h

theorem MediaFileTable.update_status_meets
    (h : mediaContract.allowed ph (readStatus file_id status)) :
    (MediaFileTable.update_status file_id status).Meets mediaContract ph fun ph _ ↦ ph = .idle := by
  refine meets_op_bind.2 ⟨h, fun row hid ↦ ?_⟩
  cases row with
  | none => rfl
  | some row =>
    obtain rfl : row.file_id = file_id := hid row rfl
    exact ⟨allowed_writeStatus h, fun _ _ ↦ rfl⟩

/-- An update of a status that is the last thing a program does. -/
theorem MediaFileTable.update_status_free {α : Type} {a : α}
    (h : mediaContract.allowed ph (readStatus file_id status)) :
    (do
      let _ ← MediaFileTable.update_status file_id status
      return a : MediaM α).Meets mediaContract ph fun ph _ ↦ ph.Free := by
  refine (MediaFileTable.update_status_meets h).bind fun ph _ hph ↦ ?_
  obtain rfl := hph
  exact trivial

end Update

/-! ### Ending an upload -/

section End

variable {cfg : MediaConfig} {user_id : String} {file : MediaFile}

theorem share_blob_meets :
    (share_blob file).Meets mediaContract (.passed file) fun ph file' ↦
      ph = .passed file ∧ file'.file_id = file.file_id ∧
        file'.content_hash = file.content_hash := by
  refine meets_op_bind.2 ⟨trivial, fun existing _ ↦ ?_⟩
  cases existing with
  | some existing =>
    dsimp only
    split
    · refine meets_op_bind.2 ⟨.inr ⟨file, rfl⟩, fun _ _ ↦ ?_⟩
      refine MediaFileTable.update_bucket_key_meets.bind fun ph _ hph ↦ ?_
      exact ⟨hph, rfl, rfl⟩
    · exact ⟨rfl, rfl, rfl⟩
  | none =>
    refine meets_op_bind.2 ⟨trivial, fun at_ _ ↦ ?_⟩
    exact meets_op_bind.2 ⟨⟨trivial, rfl⟩, fun _ _ ↦ ⟨rfl, rfl, rfl⟩⟩

theorem commit_meets :
    (commit user_id file).Meets mediaContract (.passed file) fun ph _ ↦ ph.Free := by
  refine share_blob_meets.bind fun ph file' h ↦ ?_
  obtain ⟨rfl, hid, hhash⟩ := h
  refine meets_op_bind.2 ⟨⟨file, rfl, hhash⟩, fun _ _ ↦ ?_⟩
  have hcommit : mediaContract.allowed (.counted file) (readStatus file'.file_id .COMMITTED) :=
    ⟨file, rfl, hid⟩
  refine (MediaFileTable.update_status_meets hcommit).bind fun ph _ hph ↦ ?_
  obtain rfl := hph
  exact meets_op_bind.2 ⟨trivial, fun _ _ ↦ trivial⟩

theorem check_size_meets {content_length : ℤ} :
    (check_size user_id file content_length).Meets mediaContract
      (.head file (some content_length)) fun ph _ ↦ ph.Free := by
  rw [check_size]
  by_cases hsize : content_length = file.file_size
  · rw [if_neg (not_not.2 hsize), MediaPhase.head, if_pos (congrArg some hsize)]
    exact commit_meets.bind fun ph info hph ↦ hph
  · rw [if_pos hsize, MediaPhase.head, if_neg fun h ↦ hsize (Option.some.inj h)]
    exact meets_op_bind.2 ⟨.inl trivial, fun _ _ ↦ MediaFileTable.update_status_free trivial⟩

/-- `UploadHandler::complete` commits a row whose object it has found. -/
theorem UploadHandler.complete_meets {file_id : String} {ph : MediaPhase} (h : ph.Free) :
    (UploadHandler.complete user_id file_id).Meets mediaContract ph fun ph _ ↦ ph.Free := by
  refine meets_op_bind.2 ⟨h, fun file _ ↦ ?_⟩
  cases file with
  | none => exact trivial
  | some file =>
    dsimp only
    split
    · exact trivial
    · split
      · exact trivial
      · split
        · exact trivial
        · refine meets_op_bind.2 ⟨rfl, fun head _ ↦ ?_⟩
          cases head with
          | none => exact MediaFileTable.update_status_free trivial
          | some content_length => exact check_size_meets

/-- So does `MultipartHandler::complete`. -/
theorem MultipartHandler.complete_meets {upload_id : String} {parts : List PartETag}
    {ph : MediaPhase} (h : ph.Free) :
    (MultipartHandler.complete user_id upload_id parts).Meets mediaContract ph
      fun ph _ ↦ ph.Free := by
  refine meets_op_bind.2 ⟨h, fun file _ ↦ ?_⟩
  cases file with
  | none => exact trivial
  | some file =>
    dsimp only
    split
    · exact trivial
    · split
      · exact trivial
      · split
        · exact trivial
        · split
          · exact trivial
          · refine meets_op_bind.2 ⟨trivial, fun completed _ ↦ ?_⟩
            cases completed with
            | false => exact trivial
            | true =>
              refine meets_op_bind.2 ⟨rfl, fun head _ ↦ ?_⟩
              cases head with
              | none => exact trivial
              | some content_length => exact check_size_meets

theorem MultipartHandler.apply_part_meets {upload_id : String} {part_number : ℤ} {ph : MediaPhase}
    (h : ph.Free) :
    (MultipartHandler.apply_part cfg user_id upload_id part_number).Meets mediaContract ph
      fun ph _ ↦ ph.Free := by
  rw [apply_part]
  split
  · exact h
  · refine meets_op_bind.2 ⟨h, fun file _ ↦ ?_⟩
    cases file with
    | none => exact trivial
    | some file =>
      dsimp only
      split
      · exact trivial
      · split
        · exact trivial
        · refine meets_op_bind.2 ⟨trivial, fun url _ ↦ ?_⟩
          cases url <;> exact trivial

theorem MultipartHandler.abort_meets {upload_id : String} {ph : MediaPhase} (h : ph.Free) :
    (MultipartHandler.abort user_id upload_id).Meets mediaContract ph fun ph _ ↦ ph.Free := by
  refine meets_op_bind.2 ⟨h, fun file _ ↦ ?_⟩
  cases file with
  | none => exact trivial
  | some file =>
    dsimp only
    split
    · exact trivial
    · exact meets_op_bind.2 ⟨trivial, fun _ _ ↦ MediaFileTable.update_status_free trivial⟩

end End

/-! ### Cleaning up -/

namespace CleanupWorker

variable {ph : MediaPhase}

theorem task_pending_timeout_meets (h : ph.Free) :
    task_pending_timeout.Meets mediaContract ph fun ph _ ↦ ph.Free := by
  refine meets_op_bind.2 ⟨h.uncounted, fun now _ ↦ ?_⟩
  refine meets_op_bind.2 ⟨h.uncounted, fun rows _ ↦ ?_⟩
  refine .each (fun r ph hph ↦ ?_) h
  have hdelete : (delete_unreferenced r).Meets mediaContract ph fun ph _ ↦ ph.Free := by
    refine meets_op_bind.2 ⟨hph.uncounted, fun blob _ ↦ ?_⟩
    have hgo : ph.delete.Free := by rwa [hph.delete]
    cases blob with
    | none => exact meets_op_bind.2 ⟨.inl hph, fun _ _ ↦ hgo⟩
    | some blob =>
      dsimp only
      split
      · exact meets_op_bind.2 ⟨.inl hph, fun _ _ ↦ hgo⟩
      · exact hph
  refine hdelete.bind fun ph _ hph ↦ ?_
  have habort : (abort_upload r).Meets mediaContract ph fun ph _ ↦ ph.Free := by
    rw [abort_upload]
    split
    · exact hph
    · exact hph
    · exact meets_op_bind.2 ⟨hph.uncounted, fun _ _ ↦ hph⟩
  exact habort.bind fun ph _ hph ↦ MediaFileTable.update_status_free hph

theorem task_multipart_orphan_meets {cfg : MediaConfig} (h : ph.Free) :
    (task_multipart_orphan cfg).Meets mediaContract ph fun ph _ ↦ ph.Free := by
  refine meets_op_bind.2 ⟨h.uncounted, fun now _ ↦ .each (fun bucket ph hph ↦ ?_) h⟩
  refine meets_op_bind.2 ⟨hph.uncounted, fun ups _ ↦ ?_⟩
  cases ups with
  | none => exact hph
  | some ups =>
    refine .each (fun u ph hph ↦ ?_) hph
    rw [orphan_upload]
    split
    · exact hph
    · refine meets_op_bind.2 ⟨hph.uncounted, fun _ _ ↦ meets_op_bind.2 ⟨hph, fun file _ ↦ ?_⟩⟩
      cases file with
      | none => exact trivial
      | some file =>
        dsimp only
        split
        · exact MediaFileTable.update_status_free trivial
        · exact trivial

theorem task_unref_blob_gc_meets (h : ph.Free) :
    task_unref_blob_gc.Meets mediaContract ph fun ph _ ↦ ph.Free := by
  refine meets_op_bind.2 ⟨h.uncounted, fun now _ ↦ ?_⟩
  refine meets_op_bind.2 ⟨h.uncounted, fun rows _ ↦ ?_⟩
  refine .each (fun b ph hph ↦ ?_) h
  refine meets_op_bind.2 ⟨.inl hph, fun deleted _ ↦ ?_⟩
  have hgo : ph.delete.Free := by rwa [hph.delete]
  cases deleted with
  | false => exact hgo
  | true =>
    refine meets_op_bind.2 ⟨hgo.uncounted, fun orphans _ ↦ ?_⟩
    refine Meets.bind (.each (fun f ph hph ↦ ?_) hgo) fun ph _ hph ↦ ?_
    · exact meets_op_bind.2 ⟨hph.uncounted, fun _ _ ↦ hph⟩
    · exact meets_op_bind.2 ⟨hph.uncounted, fun _ _ ↦ hph⟩

theorem task_quarantine_gc_meets (h : ph.Free) :
    task_quarantine_gc.Meets mediaContract ph fun ph _ ↦ ph.Free := by
  refine meets_op_bind.2 ⟨h.uncounted, fun now _ ↦ ?_⟩
  refine meets_op_bind.2 ⟨h.uncounted, fun rows _ ↦ ?_⟩
  refine .each (fun r ph hph ↦ ?_) h
  refine meets_op_bind.2 ⟨.inl hph, fun _ _ ↦ ?_⟩
  exact MediaFileTable.update_status_free (by rwa [← hph.delete] at hph)

theorem task_magic_sniff_meets {cursor : ℤ} (h : ph.Free) :
    (task_magic_sniff cursor).Meets mediaContract ph fun ph _ ↦ ph.Free := by
  refine meets_op_bind.2 ⟨h.uncounted, fun rows _ ↦ ?_⟩
  refine Meets.bind (.each (fun r ph hph ↦ ?_) h) fun ph _ hph ↦ hph
  refine meets_op_bind.2 ⟨hph.uncounted, fun buf _ ↦ ?_⟩
  cases buf with
  | none => exact hph
  | some buf =>
    dsimp only
    split
    · exact hph
    · exact MediaFileTable.update_status_free hph

end CleanupWorker

end ChatNow
