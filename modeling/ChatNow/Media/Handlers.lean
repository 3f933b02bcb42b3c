import ChatNow.Common.ErrorCodes
import ChatNow.Lib.Prog
import Mathlib.Data.Int.Notation

/-!
# Uploads

`UploadHandler` and `MultipartHandler` of `media/source`, with the tables and the object store under
them. An upload begins with a `PENDING` row and a URL to which the client puts the content; it ends
with a completion, which looks at the size of the object, counts a reference to it and commits the
row.

* Rows with the same content share one object. Which object that is stands in `media_blob_ref`, by
  the hash that the client names; the service does not compute it.
* Each call of a table is a transaction of its own. The tables catch what the database throws, so
  that a fault is an empty answer or `false`, which most callers do not look at.
* `update_bucket_key` and `update_status` read the row without a lock and write all of it back, so
  that the query and the commit are two operations: anything may be committed in between.
* The two completions differ before the check of the size only, and end in `commit`.

Times are in milliseconds. The UTC date in a key is a parameter (`utc_date`).
-/

namespace ChatNow

open Prog

/-! ### Rows -/

/-- `MediaFileStatus`. -/
inductive MediaFileStatus
  | PENDING
  | COMMITTED
  | DELETED
  | QUARANTINED
  deriving DecidableEq

/-- `MediaPurpose`. A request may carry a number that is none of the names. -/
inductive MediaPurpose
  | UNSPECIFIED
  | AVATAR
  | GROUP_AVATAR
  | CHAT
  | STICKER
  | unknown (value : ℤ)
  deriving DecidableEq

/-- The purpose with the given number. -/
def MediaPurpose.of_byte (n : ℤ) : MediaPurpose :=
  if n = 0 then .UNSPECIFIED
  else if n = 1 then .AVATAR
  else if n = 2 then .GROUP_AVATAR
  else if n = 3 then .CHAT
  else if n = 4 then .STICKER
  else .unknown n

/-- The cast to the type of the column, which has eight bits. -/
def MediaPurpose.column : MediaPurpose → MediaPurpose
  | .unknown value => of_byte (value % 256)
  | p => p

/-- `MediaFile`. -/
structure MediaFile where
  file_id : String
  content_hash : String
  bucket : String
  object_key : String
  file_name : String
  file_size : ℤ
  mime_type : String
  purpose : MediaPurpose
  owner_id : String
  uploaded_at : ℤ
  status : MediaFileStatus := .PENDING
  upload_id : Option String := none
  deriving DecidableEq

/-- Where the object of a row is. -/
def MediaFile.place (f : MediaFile) : String × String := (f.bucket, f.object_key)

/-- `_db->update`: the row, as it has been read and set, takes the place of what the table has now.
No method sets another column than these three once the row is inserted, so that the others are the
same in both. -/
def MediaFile.write_back (row f : MediaFile) : MediaFile :=
  { f with bucket := row.bucket, object_key := row.object_key, status := row.status }

/-- `MediaBlobRef`. -/
structure MediaBlobRef where
  content_hash : String
  bucket : String
  object_key : String
  ref_count : ℤ := 0
  total_size : ℤ := 0
  last_decremented_at : ℤ
  deriving DecidableEq

/-- `kMediaDefaultQuotaBytes`. -/
def kMediaDefaultQuotaBytes : ℤ := 5 * 1024 * 1024 * 1024

/-- `MediaUserQuota`. -/
structure MediaUserQuota where
  user_id : String := ""
  used_bytes : ℤ := 0
  quota_bytes : ℤ := kMediaDefaultQuotaBytes
  deriving DecidableEq

/-- A multipart upload that the store keeps open in a bucket. -/
structure OrphanUpload where
  key : String
  upload_id : String
  initiated_ms : ℤ
  deriving DecidableEq

/-! ### Requests and answers -/

/-- The fields of `ApplyUploadReq` and of `InitMultipartReq`. -/
structure UploadReq where
  file_name : String := ""
  file_size : ℤ := 0
  mime_type : String := ""
  content_hash : String := ""
  purpose : MediaPurpose := .UNSPECIFIED
  deriving DecidableEq

structure ApplyUploadRsp where
  file_id : String
  already_exists : Bool
  upload_url : String := ""
  headers : List (String × String) := []
  expires_in_sec : ℤ
  deriving DecidableEq

structure InitMultipartRsp where
  file_id : String
  upload_id : String := ""
  recommended_part_size_bytes : ℤ := 0
  deriving DecidableEq

structure ApplyPartRsp where
  upload_url : String
  expires_in_sec : ℤ
  deriving DecidableEq

structure PartETag where
  part_number : ℤ
  etag : String
  deriving DecidableEq

structure FileInfo where
  file_id : String
  file_name : String
  file_size : ℤ
  mime_type : String
  uploaded_at_ms : ℤ
  deriving DecidableEq

/-- `fill_file_info`. -/
def fill_file_info (f : MediaFile) : FileInfo :=
  ⟨f.file_id, f.file_name, f.file_size, f.mime_type, f.uploaded_at⟩

/-! ### Hashes and keys -/

namespace content_hash

def is_hex_lower (s : List Char) : Bool :=
  s.all fun c ↦ ('0' ≤ c && c ≤ '9') || ('a' ≤ c && c ≤ 'f')

def is_valid (h : String) : Bool :=
  h.toList.length == 71 && h.toList.take 7 == "sha256:".toList && is_hex_lower (h.toList.drop 7)

def hex_part (h : String) : String := if is_valid h then String.ofList (h.toList.drop 7) else ""

end content_hash

/-- What the media service was built with. -/
structure MediaConfig where
  public_bucket : String
  private_bucket : String
  presign_seconds : ℤ
  /-- The sizes that `MimeWhitelist` allows. -/
  mime : String → Option ℤ
  /-- `object_key::yyyymmdd_slashed`. -/
  utc_date : ℤ → String

namespace MediaConfig

variable (cfg : MediaConfig)

def pick_bucket : MediaPurpose → String
  | .AVATAR | .GROUP_AVATAR | .STICKER => cfg.public_bucket
  | _ => cfg.private_bucket

def purpose_prefix : MediaPurpose → String
  | .AVATAR => "avatar"
  | .GROUP_AVATAR => "group_avatar"
  | .STICKER => "sticker"
  | _ => "chat"

/-- `MimeWhitelist::is_allowed`. -/
def is_allowed (mime : String) (size : ℤ) : Bool :=
  match cfg.mime mime with
  | some max => 0 < size && size ≤ max
  | none => false

/-- `MimeWhitelist::max_size`. -/
def max_size (mime : String) : ℤ := (cfg.mime mime).getD (-1)

/-- `object_key::build` for messages, `object_key::build_flat` for everything else. -/
def object_key (req : UploadReq) (now_ms : ℤ) : String :=
  let hex := content_hash.hex_part req.content_hash
  if req.purpose = .CHAT then
    purpose_prefix req.purpose ++ "/" ++ cfg.utc_date now_ms ++ "/" ++
      String.ofList (hex.toList.take 2) ++ "/" ++ hex
  else purpose_prefix req.purpose ++ "/" ++ hex

end MediaConfig

/-! ### The signature -/

/-- The operations of the media service. -/
inductive MediaOp
  /-- The clock. -/
  | clock
  /-- `next_file_id_hex`. -/
  | nextFileId
  | selectByFileId (file_id : String)
  | selectByUploadId (upload_id : String)
  | insertFile (f : MediaFile)
  /-- The query of `update_bucket_key`. -/
  | readBucketKey (file_id : String)
  /-- The commit of `update_bucket_key`, with the row that the query has found. -/
  | writeBucketKey (row : MediaFile) (bucket object_key : String)
  /-- The query of `update_status`. -/
  | readStatus (file_id : String) (status : MediaFileStatus)
  /-- The commit of `update_status`, with the row that the query has found. -/
  | writeStatus (row : MediaFile) (status : MediaFileStatus)
  | listPendingOlderThan (cutoff : ℤ) (limit : ℕ)
  | listQuarantinedOlderThan (cutoff : ℤ) (limit : ℕ)
  | listCommittedAfter (cursor : ℤ) (limit : ℕ)
  | listFilesByHashDead (hash : String)
  | pendingBytesOfOwner (owner_id : String)
  | selectByHash (hash : String)
  | upsertBlob (r : MediaBlobRef)
  | incRef (hash : String)
  | listZeroRefOlderThan (cutoff : ℤ) (limit : ℕ)
  | eraseBlob (hash : String)
  | ensureQuota (user_id : String)
  | incUsed (user_id : String) (delta : ℤ)
  | decUsed (user_id : String) (delta : ℤ)
  | presignedPut (bucket key : String)
  | presignedPart (bucket key upload_id : String) (part_number : ℤ)
  /-- `head_object` of the object of a row. -/
  | headObject (f : MediaFile)
  | deleteObject (bucket key : String)
  | getRange (bucket key : String) (bytes : ℕ)
  | initMultipart (bucket key : String)
  | completeMultipart (bucket key upload_id : String) (parts : List PartETag)
  | abortMultipart (bucket key upload_id : String)
  | listMultipartUploads (bucket : String)

/-- What each operation answers. A call of the object store that throws answers `none` or
`false`. -/
@[reducible]
def MediaOp.Res : MediaOp → Type
  | clock => ℤ
  | nextFileId => String
  | selectByFileId _ => Option MediaFile
  | selectByUploadId _ => Option MediaFile
  | insertFile _ => Bool
  | readBucketKey _ => Option MediaFile
  | writeBucketKey _ _ _ => Bool
  | readStatus _ _ => Option MediaFile
  | writeStatus _ _ => Bool
  | listPendingOlderThan _ _ => List MediaFile
  | listQuarantinedOlderThan _ _ => List MediaFile
  | listCommittedAfter _ _ => List MediaFile
  | listFilesByHashDead _ => List MediaFile
  | pendingBytesOfOwner _ => ℤ
  | selectByHash _ => Option MediaBlobRef
  | upsertBlob _ => Bool
  | incRef _ => Bool
  | listZeroRefOlderThan _ _ => List MediaBlobRef
  | eraseBlob _ => Bool
  | ensureQuota _ => MediaUserQuota
  | incUsed _ _ => Bool
  | decUsed _ _ => Bool
  | presignedPut _ _ => Option String
  | presignedPart _ _ _ _ => Option String
  | headObject _ => Option ℤ
  | deleteObject _ _ => Bool
  | getRange _ _ _ => Option (List UInt8)
  | initMultipart _ _ => Option String
  | completeMultipart _ _ _ _ => Bool
  | abortMultipart _ _ _ => Bool
  | listMultipartUploads _ => Option (List OrphanUpload)

/-- Programs of the media service. -/
abbrev MediaM := Prog MediaOp MediaOp.Res

open MediaOp

namespace MediaFileTable

/-- `update_bucket_key`. -/
def update_bucket_key (file_id bucket object_key : String) : MediaM Bool := do
  match ← op (readBucketKey file_id) with
  | none => return false
  | some row => op (writeBucketKey row bucket object_key)

/-- `update_status`. -/
def update_status (file_id : String) (status : MediaFileStatus) : MediaM Bool := do
  match ← op (readStatus file_id status) with
  | none => return false
  | some row => op (writeStatus row status)

end MediaFileTable

/-- What `S3Client` throws. -/
def s3_failed : ServiceError := ⟨error.kMediaUploadFailed, "media storage error"⟩

/-! ### Beginning an upload -/

/-- The row that `apply` and `init` write. -/
def pending_row (user_id : String) (req : UploadReq) (file_id bucket object_key : String)
    (uploaded_at : ℤ) (upload_id : Option String) : MediaFile where
  file_id := file_id
  content_hash := req.content_hash
  bucket := bucket
  object_key := object_key
  file_name := req.file_name
  file_size := req.file_size
  mime_type := req.mime_type
  purpose := req.purpose.column
  owner_id := user_id
  uploaded_at := uploaded_at
  upload_id := upload_id

section Begin

variable (cfg : MediaConfig) (user_id : String) (req : UploadReq)

/-- The checks that `apply` and `init` begin with. -/
def check_upload : MediaM (Except ServiceError Unit) := do
  if !content_hash.is_valid req.content_hash then
    return .error ⟨error.kMediaHashMismatch, "bad content_hash"⟩
  if !cfg.is_allowed req.mime_type req.file_size then
    if cfg.max_size req.mime_type < 0 then
      return .error ⟨error.kMediaUnsupportedFormat, "mime not allowed"⟩
    return .error ⟨error.kMediaFileTooLarge, "file too large for mime"⟩
  let qrow ← op (ensureQuota user_id)
  let pending_others ← op (pendingBytesOfOwner user_id)
  if qrow.quota_bytes < qrow.used_bytes + req.file_size + pending_others then
    return .error ⟨error.kMediaQuotaExceeded, "user quota exceeded"⟩
  return .ok ()

/-- A row for content that is there already. -/
def insert_dedup (blob : MediaBlobRef) : MediaM (Except ServiceError String) := do
  let file_id ← op nextFileId
  let uploaded_at ← op clock
  if ← op (insertFile
      (pending_row user_id req file_id blob.bucket blob.object_key uploaded_at none)) then
    return .ok file_id
  else return .error ⟨error.kMediaUploadFailed, "media_file insert"⟩

/-- A row for new content in single-part upload, and the URL for it. -/
def insert_single : MediaM (Except ServiceError ApplyUploadRsp) := do
  let bucket := cfg.pick_bucket req.purpose
  let now_ms ← op clock
  let key := cfg.object_key req now_ms
  let file_id ← op nextFileId
  let uploaded_at ← op clock
  if ← op (insertFile (pending_row user_id req file_id bucket key uploaded_at none)) then
    match ← op (presignedPut bucket key) with
    | none => return .error s3_failed
    | some url =>
      return .ok
        { file_id, already_exists := false, upload_url := url
          headers :=
            [("Content-Length", toString req.file_size), ("Content-Type", req.mime_type)]
          expires_in_sec := cfg.presign_seconds }
  else return .error ⟨error.kMediaUploadFailed, "media_file insert"⟩

/-- `UploadHandler::apply`. -/
def UploadHandler.apply : MediaM (Except ServiceError ApplyUploadRsp) := do
  match ← check_upload cfg user_id req with
  | .error e => return .error e
  | .ok () =>
    match (← op (selectByHash req.content_hash)).filter (0 < ·.ref_count) with
    | some blob =>
      match ← insert_dedup user_id req blob with
      | .error e => return .error e
      | .ok file_id => return .ok { file_id, already_exists := true, expires_in_sec := 0 }
    | none => insert_single cfg user_id req

/-- A row for new content in parts. -/
def insert_multipart : MediaM (Except ServiceError InitMultipartRsp) := do
  let bucket := cfg.pick_bucket req.purpose
  let now_ms ← op clock
  let key := cfg.object_key req now_ms
  match ← op (initMultipart bucket key) with
  | none => return .error s3_failed
  | some upload_id =>
    let file_id ← op nextFileId
    let uploaded_at ← op clock
    if ← op (insertFile
        (pending_row user_id req file_id bucket key uploaded_at (some upload_id))) then
      return .ok { file_id, upload_id, recommended_part_size_bytes := 8 * 1024 * 1024 }
    else
      let _ ← op (abortMultipart bucket key upload_id)
      return .error ⟨error.kMediaUploadFailed, "media_file insert"⟩

/-- `MultipartHandler::init`. -/
def MultipartHandler.init : MediaM (Except ServiceError InitMultipartRsp) := do
  match ← check_upload cfg user_id req with
  | .error e => return .error e
  | .ok () =>
    match (← op (selectByHash req.content_hash)).filter (0 < ·.ref_count) with
    | some blob =>
      match ← insert_dedup user_id req blob with
      | .error e => return .error e
      | .ok file_id => return .ok { file_id }
    | none => insert_multipart cfg user_id req

end Begin

/-! ### Ending an upload -/

/-- The object that a completed row is to have: that of an earlier row with the same hash, or the
one that has just been put. -/
def share_blob (file : MediaFile) : MediaM MediaFile := do
  match ← op (selectByHash file.content_hash) with
  | some existing =>
    if existing.object_key ≠ file.object_key then
      let _ ← op (deleteObject file.bucket file.object_key)
      let _ ← MediaFileTable.update_bucket_key file.file_id existing.bucket existing.object_key
      return { file with bucket := existing.bucket, object_key := existing.object_key }
    else return file
  | none =>
    let last_decremented_at ← op clock
    let _ ← op (upsertBlob
      { content_hash := file.content_hash, bucket := file.bucket, object_key := file.object_key
        total_size := file.file_size, last_decremented_at })
    return file

/-- What both completions do once the size is right. -/
def commit (user_id : String) (file : MediaFile) : MediaM FileInfo := do
  let file ← share_blob file
  let _ ← op (incRef file.content_hash)
  let _ ← MediaFileTable.update_status file.file_id .COMMITTED
  let _ ← op (incUsed user_id file.file_size)
  return fill_file_info file

/-- What both completions do with the size of the object. -/
def check_size (user_id : String) (file : MediaFile) (content_length : ℤ) :
    MediaM (Except ServiceError FileInfo) := do
  if content_length ≠ file.file_size then
    let _ ← op (deleteObject file.bucket file.object_key)
    let _ ← MediaFileTable.update_status file.file_id .DELETED
    return .error ⟨error.kMediaHashMismatch, "size mismatch"⟩
  else
    let info ← commit user_id file
    return .ok info

/-- `UploadHandler::complete`. -/
def UploadHandler.complete (user_id file_id : String) : MediaM (Except ServiceError FileInfo) := do
  match ← op (selectByFileId file_id) with
  | none => return .error ⟨error.kMediaFileNotFound, "file not found"⟩
  | some file =>
    if file.owner_id ≠ user_id then
      return .error ⟨error.kMediaFileNotFound, "owner mismatch"⟩
    else if file.status = .COMMITTED then return .ok (fill_file_info file)
    else if file.status ≠ .PENDING then
      return .error ⟨error.kMediaUploadFailed, "bad status"⟩
    else
      match ← op (headObject file) with
      | none =>
        let _ ← MediaFileTable.update_status file.file_id .DELETED
        return .error ⟨error.kMediaUploadIncomplete, "object not found in storage"⟩
      | some content_length => check_size user_id file content_length

namespace MultipartHandler

/-- `MultipartHandler::apply_part`. -/
def apply_part (cfg : MediaConfig) (user_id upload_id : String) (part_number : ℤ) :
    MediaM (Except ServiceError ApplyPartRsp) := do
  if part_number < 1 ∨ 10000 < part_number then
    return .error ⟨error.kSystemInvalidArgument, "part_number out of range"⟩
  match ← op (selectByUploadId upload_id) with
  | none => return .error ⟨error.kMediaFileNotFound, "upload not found"⟩
  | some file =>
    if file.owner_id ≠ user_id then
      return .error ⟨error.kMediaFileNotFound, "owner mismatch"⟩
    else if file.status ≠ .PENDING then
      return .error ⟨error.kMediaUploadFailed, "bad status"⟩
    else
      match ← op (presignedPart file.bucket file.object_key upload_id part_number) with
      | none => return .error s3_failed
      | some url => return .ok ⟨url, cfg.presign_seconds⟩

/-- `MultipartHandler::complete`. -/
def complete (user_id upload_id : String) (parts : List PartETag) :
    MediaM (Except ServiceError FileInfo) := do
  match ← op (selectByUploadId upload_id) with
  | none => return .error ⟨error.kMediaFileNotFound, "upload not found"⟩
  | some file =>
    if file.owner_id ≠ user_id then
      return .error ⟨error.kMediaFileNotFound, "owner mismatch"⟩
    else if file.status = .COMMITTED then return .ok (fill_file_info file)
    else if file.status ≠ .PENDING then
      return .error ⟨error.kMediaUploadFailed, "bad status"⟩
    else if parts.isEmpty then
      return .error ⟨error.kMediaPartNotFound, "no parts to complete"⟩
    else if ← op (completeMultipart file.bucket file.object_key upload_id parts) then
      match ← op (headObject file) with
      | none => return .error s3_failed
      | some content_length => check_size user_id file content_length
    else return .error s3_failed

/-- `MultipartHandler::abort`. -/
def abort (user_id upload_id : String) : MediaM (Except ServiceError Unit) := do
  match ← op (selectByUploadId upload_id) with
  | none => return .ok ()
  | some file =>
    if file.owner_id ≠ user_id then
      return .error ⟨error.kMediaFileNotFound, "owner mismatch"⟩
    else
      let _ ← op (abortMultipart file.bucket file.object_key upload_id)
      let _ ← MediaFileTable.update_status file.file_id .DELETED
      return .ok ()

end MultipartHandler

end ChatNow
