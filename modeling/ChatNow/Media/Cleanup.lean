import ChatNow.Media.Handlers

/-!
# Cleaning up

The tasks of `CleanupWorker` in `media/source/cleanup_worker.hpp`. Each takes a list of rows from a
table and goes through it; what it does with a row it decides on what stands in the list, or on one
more look at a table, and not on what has become of the row since.

`task_magic_sniff` moves a cursor over the rows that have been committed; the cursor is given to it
and returned by it. The counts of the log lines are left out.
-/

namespace ChatNow

open Prog MediaOp

namespace magic_sniff

/-- The numbers of Mach-O, as big-endian words. -/
def mach_words : List (List UInt8) :=
  [[0xFE, 0xED, 0xFA, 0xCE], [0xFE, 0xED, 0xFA, 0xCF], [0xCE, 0xFA, 0xED, 0xFE],
    [0xCF, 0xFA, 0xED, 0xFE]]

/-- `sniff`; the empty text when nothing is recognised. -/
def sniff (buf : List UInt8) : String :=
  if buf.length < 4 then ""
  else if [0xFF, 0xD8, 0xFF].isPrefixOf buf then "image/jpeg"
  else if [0x89, 0x50, 0x4E, 0x47, 0x0D, 0x0A, 0x1A, 0x0A].isPrefixOf buf then "image/png"
  else if [0x47, 0x49, 0x46, 0x38, 0x37, 0x61].isPrefixOf buf then "image/gif"
  else if [0x47, 0x49, 0x46, 0x38, 0x39, 0x61].isPrefixOf buf then "image/gif"
  else if [0x52, 0x49, 0x46, 0x46].isPrefixOf buf &&
      [0x57, 0x45, 0x42, 0x50].isPrefixOf (buf.drop 8) then "image/webp"
  else if [0x4D, 0x5A].isPrefixOf buf then "application/x-dosexec"
  else if [0x7F, 0x45, 0x4C, 0x46].isPrefixOf buf then "application/x-elf"
  else if buf.take 4 ∈ mach_words then "application/x-mach-binary"
  else ""

def matches_claimed (buf : List UInt8) (claimed_mime : String) : Bool :=
  let detected := sniff buf
  if detected = "" then true
  else if detected = "application/x-dosexec" ∨ detected = "application/x-elf" ∨
      detected = "application/x-mach-binary" then false
  else detected == claimed_mime

end magic_sniff

namespace CleanupWorker

def hours (n : ℤ) : ℤ := n * 3600000

/-! ### Uploads that nobody has completed -/

/-- The object goes if there is no reference to it. -/
def delete_unreferenced (r : MediaFile) : MediaM Unit := do
  match ← op (selectByHash r.content_hash) with
  | none =>
    let _ ← op (deleteObject r.bucket r.object_key)
    return ()
  | some blob =>
    if blob.ref_count = 0 then
      let _ ← op (deleteObject r.bucket r.object_key)
      return ()
    else return ()

/-- The multipart upload of a row is aborted, if it has one. -/
def abort_upload (r : MediaFile) : MediaM Unit :=
  match r.upload_id with
  | none => return ()
  | some "" => return ()
  | some upload_id => do
    let _ ← op (abortMultipart r.bucket r.object_key upload_id)
    return ()

/-- What `task_pending_timeout` does with a row. -/
def expire_row (r : MediaFile) : MediaM Unit := do
  delete_unreferenced r
  abort_upload r
  let _ ← MediaFileTable.update_status r.file_id .DELETED
  return ()

def task_pending_timeout : MediaM Unit := do
  let now ← op clock
  let rows ← op (listPendingOlderThan (now - hours 1) 200)
  each expire_row rows

/-- The row of an upload that has been aborted. -/
def drop_row (upload_id : String) : MediaM Unit := do
  match ← op (selectByUploadId upload_id) with
  | none => return ()
  | some file =>
    if file.status = .PENDING then
      let _ ← MediaFileTable.update_status file.file_id .DELETED
      return ()
    else return ()

/-- What `task_multipart_orphan` does with an upload. -/
def orphan_upload (cutoff_ms : ℤ) (bucket : String) (u : OrphanUpload) : MediaM Unit := do
  if cutoff_ms < u.initiated_ms then return ()
  else
    let _ ← op (abortMultipart bucket u.key u.upload_id)
    drop_row u.upload_id

/-- What `task_multipart_orphan` does with a bucket. -/
def orphan_bucket (cutoff_ms : ℤ) (bucket : String) : MediaM Unit := do
  match ← op (listMultipartUploads bucket) with
  | none => return ()
  | some ups => each (orphan_upload cutoff_ms bucket) ups

def task_multipart_orphan (cfg : MediaConfig) : MediaM Unit := do
  let now ← op clock
  each (orphan_bucket (now - hours 24)) [cfg.public_bucket, cfg.private_bucket]

/-! ### Objects that are not needed -/

/-- The size of a blob is given back to the owner of a dead row. -/
def refund (total_size : ℤ) (f : MediaFile) : MediaM Unit := do
  let _ ← op (decUsed f.owner_id total_size)
  return ()

/-- What `task_unref_blob_gc` does with a blob. -/
def collect_blob (b : MediaBlobRef) : MediaM Unit := do
  if ← op (deleteObject b.bucket b.object_key) then
    let orphans ← op (listFilesByHashDead b.content_hash)
    each (refund b.total_size) orphans
    let _ ← op (eraseBlob b.content_hash)
    return ()
  else return ()

def task_unref_blob_gc : MediaM Unit := do
  let now ← op clock
  let rows ← op (listZeroRefOlderThan (now - hours (24 * 7)) 200)
  each collect_blob rows

/-- What `task_quarantine_gc` does with a row. -/
def purge_row (r : MediaFile) : MediaM Unit := do
  let _ ← op (deleteObject r.bucket r.object_key)
  let _ ← MediaFileTable.update_status r.file_id .DELETED
  return ()

def task_quarantine_gc : MediaM Unit := do
  let now ← op clock
  let rows ← op (listQuarantinedOlderThan (now - hours (24 * 7)) 200)
  each purge_row rows

/-! ### Content that is not what it claims to be -/

/-- What `task_magic_sniff` does with a row. -/
def sniff_row (r : MediaFile) : MediaM Unit := do
  match ← op (getRange r.bucket r.object_key 512) with
  | none => return ()
  | some buf =>
    if magic_sniff.matches_claimed buf r.mime_type then return ()
    else
      let _ ← MediaFileTable.update_status r.file_id .QUARANTINED
      return ()

/-- The cursor after a batch. -/
def advance (cursor : ℤ) (rows : List MediaFile) : ℤ :=
  rows.foldl (fun cursor r ↦ max cursor r.uploaded_at) cursor

def task_magic_sniff (cursor : ℤ) : MediaM ℤ := do
  let rows ← op (listCommittedAfter cursor 100)
  each sniff_row rows
  return advance cursor rows

end CleanupWorker

end ChatNow
