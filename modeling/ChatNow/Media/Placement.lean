import ChatNow.Media.ObjectsKept
import ChatNow.Media.RefCount

/-!
# Public and private files

A new object is put into the bucket for its purpose (`pick_bucket`): avatars and stickers into the
public one, all else into the private one. Rows with the same hash share one object, and the bucket
of that is the one of the first upload. `apply` and `init` write a row with the place of a blob that
they find, and a completion points its row there; neither asks for what purpose the blob was made.

* `bucketsKept`: the assumption on the steps under which each row is in the bucket for its purpose.
* `own_bucket`: under it, so is every committed row of a run of uploads.
* `avatar_in_private_bucket`: bob's avatar has the content of a file that alice has sent.
-/

namespace ChatNow

open Prog MediaOp

/-! ### The assumption -/

/-- Where the object of a blob is. -/
def MediaBlobRef.place (b : MediaBlobRef) : String × String := (b.bucket, b.object_key)

/-- The requests that upload something, and what clients do. -/
def MediaEv.Uploads : MediaEv → Prop
  | apply _ _ | complete _ _ | init _ _ | complete_multipart _ _ _ | put _ _ | crash _ => True
  | _ => False

/-- The purpose that an upload is begun for. -/
def MediaEv.begins : MediaEv → Option MediaPurpose
  | apply _ req => some req.purpose
  | init _ req => some req.purpose
  | _ => none

/-- The row that a call inserts. -/
def MediaOp.inserts : MediaOp → Option MediaFile
  | insertFile f => some f
  | _ => none

/-- The row that a call points to another object. -/
def MediaOp.moves : MediaOp → Option String
  | writeBucketKey row _ _ => some row.file_id
  | _ => none

/-- A row is given the place of the blob of its hash only where that is the bucket for its purpose,
and the purpose that is written is one of the same bucket as the one that was asked for. -/
def bucketsKept (cfg : MediaConfig) :
    Machine.Guard MediaOp MediaOp.Res MediaState MediaChoice MediaEv where
  onOp _ o c s := c.acts = true →
    (∀ f ∈ o.inserts, ∀ b ∈ s.blobs f.content_hash, f.place = b.place →
      b.bucket = cfg.pick_bucket f.purpose) ∧
    ∀ file_id ∈ o.moves, ∀ f ∈ s.files, f.file_id = file_id → ∀ b ∈ s.blobs f.content_hash,
      b.bucket = cfg.pick_bucket f.purpose
  onEv e _ := e.Uploads ∧ ∀ purpose ∈ e.begins,
    cfg.pick_bucket purpose.column = cfg.pick_bucket purpose

/-! ### The contract of an upload -/

/-- What an upload has found. -/
inductive BucketPhase
  | free
  /-- It has read the row. -/
  | read (f : MediaFile)
  /-- It has no row yet, and there is a blob with its hash. -/
  | sharing (hash : String) (b : MediaBlobRef)
  /-- There is a blob with the hash of its row. -/
  | moving (f : MediaFile) (b : MediaBlobRef)

namespace BucketPhase

/-- After a look at a row. -/
def select : Option MediaFile → BucketPhase
  | some f => read f
  | none => free

/-- After a look for a blob. -/
def find (hash : String) : Option MediaBlobRef → BucketPhase → BucketPhase
  | some b, read f => moving f b
  | some b, _ => sharing hash b
  | none, t => t

end BucketPhase

/-- The contract of the uploads: a row is written in the bucket for its purpose, or with the place
of a blob that has been found, or as it has just been read. -/
def bucketContract (cfg : MediaConfig) : Contract MediaOp MediaOp.Res BucketPhase where
  allowed t o :=
    match o with
    | insertFile f => f.bucket = cfg.pick_bucket f.purpose ∨
        ∃ b, t = .sharing f.content_hash b ∧ f.place = b.place
    | writeBucketKey row bucket key =>
      ∃ f b, t = .moving f b ∧ row.file_id = f.file_id ∧ (bucket, key) = b.place
    | writeStatus row _ => t = .read row
    | selectByHash hash => t = .free ∨ ∃ f, t = .read f ∧ hash = f.content_hash
    | eraseBlob _ => False
    | _ => True
  admits _ o r :=
    match o, r with
    | readBucketKey file_id, r => ∀ row ∈ r, row.file_id = file_id
    | _, _ => True
  next t o r :=
    match o, r with
    | selectByFileId _, f => .select f
    | selectByUploadId _, f => .select f
    | readStatus _ _, f => .select f
    | selectByHash hash, b => t.find hash b
    | _, _ => t

section Meets

variable {cfg : MediaConfig} {user_id : String} {req : UploadReq} {file : MediaFile}
  {t : BucketPhase}

theorem check_upload_places :
    (check_upload cfg user_id req).Meets (bucketContract cfg) .free fun t _ ↦ t = .free := by
  rw [check_upload]
  split
  · rfl
  · split
    · split <;> rfl
    · refine meets_op_bind.2 ⟨trivial, fun qrow _ ↦ meets_op_bind.2 ⟨trivial, fun pending _ ↦ ?_⟩⟩
      split <;> rfl

theorem insert_dedup_places {blob : MediaBlobRef} :
    (insert_dedup user_id req blob).Meets (bucketContract cfg) (.sharing req.content_hash blob)
      fun _ _ ↦ True := by
  refine meets_op_bind.2 ⟨trivial, fun file_id _ ↦ meets_op_bind.2 ⟨trivial, fun at_ _ ↦ ?_⟩⟩
  refine meets_op_bind.2 ⟨.inr ⟨blob, rfl, rfl⟩, fun inserted _ ↦ ?_⟩
  cases inserted <;> trivial

theorem insert_single_places
    (hpurpose : cfg.pick_bucket req.purpose.column = cfg.pick_bucket req.purpose) :
    (insert_single cfg user_id req).Meets (bucketContract cfg) t fun _ _ ↦ True := by
  refine meets_op_bind.2 ⟨trivial, fun now_ms _ ↦ meets_op_bind.2 ⟨trivial, fun file_id _ ↦ ?_⟩⟩
  refine meets_op_bind.2 ⟨trivial, fun at_ _ ↦ ?_⟩
  refine meets_op_bind.2 ⟨.inl hpurpose.symm, fun inserted _ ↦ ?_⟩
  cases inserted with
  | false => trivial
  | true =>
    refine meets_op_bind.2 ⟨trivial, fun url _ ↦ ?_⟩
    cases url <;> trivial

theorem insert_multipart_places
    (hpurpose : cfg.pick_bucket req.purpose.column = cfg.pick_bucket req.purpose) :
    (insert_multipart cfg user_id req).Meets (bucketContract cfg) t fun _ _ ↦ True := by
  refine meets_op_bind.2 ⟨trivial, fun now_ms _ ↦ meets_op_bind.2 ⟨trivial, fun upload _ ↦ ?_⟩⟩
  cases upload with
  | none => trivial
  | some upload_id =>
    refine meets_op_bind.2 ⟨trivial, fun file_id _ ↦ meets_op_bind.2 ⟨trivial, fun at_ _ ↦ ?_⟩⟩
    refine meets_op_bind.2 ⟨.inl hpurpose.symm, fun inserted _ ↦ ?_⟩
    cases inserted with
    | true => trivial
    | false => exact meets_op_bind.2 ⟨trivial, fun _ _ ↦ trivial⟩

/-- A blob that is found is shared, and otherwise a row for new content is written. -/
theorem begin_places {α : Type} {shared : String → α} {fresh : MediaM (Except ServiceError α)}
    (hfresh : ∀ t, fresh.Meets (bucketContract cfg) t fun _ _ ↦ True) :
    Prog.Meets (bucketContract cfg) (do
      match ← check_upload cfg user_id req with
      | .error e => return .error e
      | .ok () =>
        match (← op (selectByHash req.content_hash)).filter (0 < ·.ref_count) with
        | some blob =>
          match ← insert_dedup user_id req blob with
          | .error e => return .error e
          | .ok file_id => return .ok (shared file_id)
        | none => fresh) .free fun _ _ ↦ True := by
  refine check_upload_places.bind fun t r ht ↦ ?_
  obtain rfl := ht
  cases r with
  | error e => trivial
  | ok _ =>
    refine meets_op_bind.2 ⟨.inl rfl, fun blob _ ↦ ?_⟩
    split
    · next b hb =>
      obtain rfl := (Option.filter_eq_some_iff.1 hb).1
      refine insert_dedup_places.bind fun t r _ ↦ ?_
      cases r <;> trivial
    · exact hfresh _

theorem MediaFileTable.update_bucket_key_places {b : MediaBlobRef} :
    (MediaFileTable.update_bucket_key file.file_id b.bucket b.object_key).Meets
      (bucketContract cfg) (.moving file b) fun _ _ ↦ True := by
  refine meets_op_bind.2 ⟨trivial, fun row hid ↦ ?_⟩
  cases row with
  | none => trivial
  | some row => exact ⟨⟨file, b, rfl, hid row rfl, rfl⟩, fun _ _ ↦ trivial⟩

theorem MediaFileTable.update_status_places {file_id : String} {status : MediaFileStatus} :
    (MediaFileTable.update_status file_id status).Meets (bucketContract cfg) t
      fun _ _ ↦ True := by
  refine meets_op_bind.2 ⟨trivial, fun row _ ↦ ?_⟩
  cases row with
  | none => trivial
  | some row => exact ⟨rfl, fun _ _ ↦ trivial⟩

theorem share_blob_places :
    (share_blob file).Meets (bucketContract cfg) (.read file) fun _ _ ↦ True := by
  refine meets_op_bind.2 ⟨.inr ⟨file, rfl, rfl⟩, fun existing _ ↦ ?_⟩
  cases existing with
  | some existing =>
    dsimp only
    split
    · refine meets_op_bind.2 ⟨trivial, fun _ _ ↦ ?_⟩
      exact MediaFileTable.update_bucket_key_places.bind fun _ _ _ ↦ trivial
    · trivial
  | none => exact meets_op_bind.2 ⟨trivial, fun _ _ ↦ meets_op_bind.2 ⟨trivial, fun _ _ ↦ trivial⟩⟩

theorem check_size_places {content_length : ℤ} :
    (check_size user_id file content_length).Meets (bucketContract cfg) (.read file)
      fun _ _ ↦ True := by
  rw [check_size]
  split
  · refine meets_op_bind.2 ⟨trivial, fun _ _ ↦ ?_⟩
    exact MediaFileTable.update_status_places.bind fun _ _ _ ↦ trivial
  · have hcommit : (commit user_id file).Meets (bucketContract cfg) (.read file)
        fun _ _ ↦ True := by
      refine share_blob_places.bind fun t file' _ ↦ meets_op_bind.2 ⟨trivial, fun _ _ ↦ ?_⟩
      refine MediaFileTable.update_status_places.bind fun _ _ _ ↦ ?_
      exact meets_op_bind.2 ⟨trivial, fun _ _ ↦ trivial⟩
    exact hcommit.bind fun _ _ _ ↦ trivial

theorem UploadHandler.complete_places {file_id : String} :
    (UploadHandler.complete user_id file_id).Meets (bucketContract cfg) .free
      fun _ _ ↦ True := by
  refine meets_op_bind.2 ⟨trivial, fun file _ ↦ ?_⟩
  cases file with
  | none => trivial
  | some file =>
    dsimp only
    split
    · trivial
    · split
      · trivial
      · split
        · trivial
        · refine meets_op_bind.2 ⟨trivial, fun head _ ↦ ?_⟩
          cases head with
          | none => exact MediaFileTable.update_status_places.bind fun _ _ _ ↦ trivial
          | some content_length => exact check_size_places

theorem MultipartHandler.complete_places {upload_id : String} {parts : List PartETag} :
    (MultipartHandler.complete user_id upload_id parts).Meets (bucketContract cfg) .free
      fun _ _ ↦ True := by
  refine meets_op_bind.2 ⟨trivial, fun file _ ↦ ?_⟩
  cases file with
  | none => trivial
  | some file =>
    dsimp only
    split
    · trivial
    · split
      · trivial
      · split
        · trivial
        · split
          · trivial
          · refine meets_op_bind.2 ⟨trivial, fun completed _ ↦ ?_⟩
            cases completed with
            | false => trivial
            | true =>
              refine meets_op_bind.2 ⟨trivial, fun head _ ↦ ?_⟩
              cases head with
              | none => trivial
              | some content_length => exact check_size_places

/-- Every upload keeps to the contract. -/
theorem MediaEv.uploads_places {e : MediaEv} {q : MediaM Unit} (he : e.Uploads)
    (hpurpose : ∀ purpose ∈ e.begins, cfg.pick_bucket purpose.column = cfg.pick_bucket purpose)
    (h : e.program cfg = some q) : q.Meets (bucketContract cfg) .free fun _ _ ↦ True := by
  have hdone {α : Type} {p : MediaM α} (hp : p.Meets (bucketContract cfg) .free fun _ _ ↦ True) :
      (p >>= fun _ ↦ pure ()).Meets (bucketContract cfg) .free fun _ _ ↦ True :=
    hp.bind fun _ _ _ ↦ trivial
  cases e with
  | apply user_id req =>
    obtain rfl := Option.some.inj h
    exact hdone (begin_places fun _ ↦ insert_single_places (hpurpose _ rfl))
  | init user_id req =>
    obtain rfl := Option.some.inj h
    exact hdone (begin_places fun _ ↦ insert_multipart_places (hpurpose _ rfl))
  | complete user_id file_id =>
    obtain rfl := Option.some.inj h
    exact hdone UploadHandler.complete_places
  | complete_multipart user_id upload_id parts =>
    obtain rfl := Option.some.inj h
    exact hdone MultipartHandler.complete_places
  | put place body => cases h
  | crash i => cases h
  | _ => exact he.elim

end Meets

/-! ### The invariant -/

namespace MediaState

/-- The blob of the hash is in the given place. -/
def BlobAt (s : MediaState) (hash : String) (place : String × String) : Prop :=
  ∃ b ∈ s.blobs hash, b.place = place

/-- The row is in the table, with its hash and its purpose. -/
def HasFile (s : MediaState) (f : MediaFile) : Prop :=
  ∃ g ∈ s.files, g.file_id = f.file_id ∧ g.content_hash = f.content_hash ∧ g.purpose = f.purpose

/-- Rows keep their hashes and purposes, and blobs their places. -/
structure Grows (s s' : MediaState) : Prop where
  rows : ∀ f, s.HasFile f → s'.HasFile f
  blobs : ∀ hash place, s.BlobAt hash place → s'.BlobAt hash place

end MediaState

/-- What an upload has found is so; a row that it has read was in the bucket for its purpose. -/
def BucketPhase.Knows (cfg : MediaConfig) (s : MediaState) : BucketPhase → Prop
  | free => True
  | read f => s.HasFile f ∧ f.bucket = cfg.pick_bucket f.purpose
  | sharing hash b => s.BlobAt hash b.place
  | moving f b => s.HasFile f ∧ s.BlobAt f.content_hash b.place

/-- The rows are in the buckets for their purposes. -/
def MediaState.OwnBuckets (cfg : MediaConfig) (s : MediaState) : Prop :=
  ∀ f ∈ s.files, f.bucket = cfg.pick_bucket f.purpose

/-- The invariant. -/
structure BucketInv (cfg : MediaConfig) (ts : List BucketPhase) (s : MediaState) : Prop where
  own : s.OwnBuckets cfg
  threads : ∀ (i : ℕ) (t : BucketPhase), ts[i]? = some t → t.Knows cfg s

section Steps

variable {cfg : MediaConfig} {ts : List BucketPhase} {s s' : MediaState} {i : ℕ} {o : MediaOp}
  {c : MediaChoice} {r : o.Res} {t : BucketPhase}

open MediaState

theorem MediaState.Grows.of_eq (hfiles : s'.files = s.files) (hblobs : s'.blobs = s.blobs) :
    s.Grows s' where
  rows f h := by rwa [HasFile, hfiles]
  blobs hash place h := by rwa [BlobAt, hblobs]

theorem MediaState.HasFile.hasRow {f : MediaFile} (h : s.HasFile f) :
    s.HasRow f.file_id f.content_hash := by
  obtain ⟨g, hg, hid, hhash, -⟩ := h
  exact ⟨g, hg, hid, hhash⟩

theorem MediaState.HasFile.purpose_eq {f g : MediaFile} (h : s.HasFile f) (hg : g ∈ s.files)
    (hid : g.file_id = f.file_id) : g.purpose = f.purpose := by
  obtain ⟨g', hg', hid', -, hpurpose⟩ := h
  rw [List.inj_on_of_nodup_map s.unique hg hg' (hid.trans hid'.symm), hpurpose]

theorem BucketPhase.Knows.mono (h : t.Knows cfg s) (hs : s.Grows s') : t.Knows cfg s' := by
  cases t with
  | free => trivial
  | read f => exact ⟨hs.rows _ h.1, h.2⟩
  | sharing hash b => exact hs.blobs _ _ h
  | moving f b => exact ⟨hs.rows _ h.1, hs.blobs _ _ h.2⟩

/-- One upload moves on, and what all have found stays so. -/
theorem BucketInv.move (h : BucketInv cfg ts s) (hown : s'.OwnBuckets cfg) (hs : s.Grows s')
    (ht : t.Knows cfg s') : BucketInv cfg (ts.set i t) s' where
  own := hown
  threads j u hj := by
    rcases Pool.getElem?_set_cases hj with ⟨-, rfl⟩ | ⟨-, hj⟩
    · exact ht
    · exact (h.threads j u hj).mono hs

theorem knows_select_row {f? : Option MediaFile} (hown : s.OwnBuckets cfg)
    (h : ∀ f ∈ f?, f ∈ s.files) : (BucketPhase.select f?).Knows cfg s := by
  cases f? with
  | none => trivial
  | some f => exact ⟨⟨f, h f rfl, rfl, rfl, rfl⟩, hown f (h f rfl)⟩

theorem knows_find {hash : String} {b? : Option MediaBlobRef} (hk : t.Knows cfg s)
    (ha : t = .free ∨ ∃ f, t = .read f ∧ hash = f.content_hash)
    (h : ∀ b ∈ b?, s.blobs hash = some b) : (t.find hash b?).Knows cfg s := by
  cases b? with
  | none =>
    rcases ha with rfl | ⟨f, rfl, rfl⟩
    · trivial
    · exact hk
  | some b =>
    rcases ha with rfl | ⟨f, rfl, rfl⟩
    · exact ⟨b, h b rfl, rfl⟩
    · exact ⟨hk.1, b, h b rfl, rfl⟩

/-- A blob that is written where there was none, or where one of the same place was. -/
theorem grows_setBlob {hash : String} {b : MediaBlobRef}
    (h : ∀ b₀ ∈ s.blobs hash, b.place = b₀.place) : s.Grows (s.setBlob hash (some b)) where
  rows _ h := h
  blobs hash' place hat := by
    obtain ⟨b₀, hb₀, rfl⟩ := hat
    show ∃ b' ∈ Function.update s.blobs hash (some b) hash', b'.place = b₀.place
    rw [Function.update_apply]
    split
    · next heq =>
      obtain rfl := heq
      exact ⟨b, rfl, h b₀ hb₀⟩
    · exact ⟨b₀, hb₀, rfl⟩

theorem grows_addRef (hash : String) : s.Grows (s.addRef hash) := by
  rw [addRef]
  split
  · next b hb =>
    refine grows_setBlob fun b₀ hb₀ ↦ ?_
    obtain rfl := Option.some.inj (hb.symm.trans hb₀)
    rfl
  · exact .of_eq rfl rfl

theorem ownBuckets_insert {f : MediaFile} (h : s.OwnBuckets cfg)
    (hf : f.bucket = cfg.pick_bucket f.purpose) : (s.insert f).OwnBuckets cfg := by
  intro g hg
  rw [MediaState.insert] at hg
  split at hg
  · rcases List.mem_append.1 hg with hg | hg
    · exact h g hg
    · obtain rfl := List.mem_singleton.1 hg
      exact hf
  · exact h g hg

theorem grows_writeBack (row : MediaFile) : s.Grows (s.writeBack row) where
  rows _ h := exists_writeBack (fun _ hrow ↦ hrow) h
  blobs _ _ h := h

theorem grows_insert (f : MediaFile) : s.Grows (s.insert f) := by
  rw [MediaState.insert]
  split
  · refine ⟨fun f' hf ↦ ?_, fun _ _ h ↦ h⟩
    obtain ⟨g, hg, hrow⟩ := hf
    exact ⟨g, List.mem_append_left _ hg, hrow⟩
  · exact .of_eq rfl rfl

/-- A row that is written back is in the bucket of what is written. -/
theorem ownBuckets_writeBack {row : MediaFile} (h : s.OwnBuckets cfg)
    (hrow : ∀ f ∈ s.files, f.file_id = row.file_id → row.bucket = cfg.pick_bucket f.purpose) :
    (s.writeBack row).OwnBuckets cfg := by
  intro g hg
  rcases mem_writeBack hg with ⟨hg, -⟩ | ⟨f, hf, hid, rfl⟩
  · exact h g hg
  · exact hrow f hf hid

/-- The row is inserted by an upload that keeps to the contract. -/
theorem bucketInv_insertFile {f : MediaFile} {r : (insertFile f).Res} (h : BucketInv cfg ts s)
    (ht : ts[i]? = some t) (ha : (bucketContract cfg).allowed t (insertFile f))
    (hG : (bucketsKept cfg).onOp i (insertFile f) c s)
    (hx : MediaState.exec i (insertFile f) c s = some (r, s')) :
    BucketInv cfg (ts.set i t) s' := by
  obtain ⟨-, rfl⟩ := Prod.mk.inj (Option.some.inj hx)
  have hk := h.threads i t ht
  split
  · next hacts =>
    refine h.move (ownBuckets_insert h.own ?_) (grows_insert f) (hk.mono (grows_insert f))
    rcases ha with hown | ⟨b, rfl, hplace⟩
    · exact hown
    · -- the blob that was found is still there, and the assumption is about it
      obtain ⟨b', hb', hat⟩ := hk
      have hshared : f.place = b'.place := hplace.trans hat.symm
      have hbucket : f.bucket = b'.bucket := congrArg Prod.fst hshared
      exact hbucket.trans ((hG hacts).1 f rfl b' hb' hshared)
  · exact h.move h.own (.of_eq rfl rfl) hk

/-- The row is pointed to the blob that was found. -/
theorem bucketInv_writeBucketKey {row : MediaFile} {bucket key : String}
    {r : (writeBucketKey row bucket key).Res} (h : BucketInv cfg ts s)
    (ht : ts[i]? = some t)
    (ha : (bucketContract cfg).allowed t (writeBucketKey row bucket key))
    (hG : (bucketsKept cfg).onOp i (writeBucketKey row bucket key) c s)
    (hx : MediaState.exec i (writeBucketKey row bucket key) c s = some (r, s')) :
    BucketInv cfg (ts.set i t) s' := by
  obtain ⟨-, rfl⟩ := Prod.mk.inj (Option.some.inj hx)
  have hk := h.threads i t ht
  split
  · next hacts =>
    have hgrows : s.Grows (s.writeBack { row with bucket := bucket, object_key := key }) :=
      grows_writeBack _
    refine h.move (ownBuckets_writeBack h.own fun f₀ hf₀ hid ↦ ?_) hgrows (hk.mono hgrows)
    obtain ⟨f, b, rfl, hrow, hplace⟩ := ha
    obtain ⟨hfile, b', hb', hat⟩ := hk
    have hhash : f₀.content_hash = f.content_hash := hfile.hasRow.hash_eq hf₀ (hid.trans hrow)
    have hbucket : bucket = b'.bucket := congrArg Prod.fst (hplace.trans hat.symm)
    exact hbucket.trans ((hG hacts).2 row.file_id rfl f₀ hf₀ hid b' (hhash ▸ hb'))
  · exact h.move h.own (.of_eq rfl rfl) hk

/-- The row is written back to the bucket in which it was read. -/
theorem bucketInv_writeStatus {row : MediaFile} {status : MediaFileStatus}
    {r : (writeStatus row status).Res} (h : BucketInv cfg ts s) (ht : ts[i]? = some (.read row))
    (hx : MediaState.exec i (writeStatus row status) c s = some (r, s')) :
    BucketInv cfg (ts.set i (.read row)) s' := by
  obtain ⟨-, rfl⟩ := Prod.mk.inj (Option.some.inj hx)
  have hk := h.threads i _ ht
  obtain ⟨hfile, hbucket⟩ := id hk
  split
  · have hwritten : s.Grows (s.writeBack { row with status := status }) := grows_writeBack _
    have hgrows : s.Grows ((s.writeBack { row with status := status }).clear i) :=
      ⟨hwritten.rows, hwritten.blobs⟩
    have hown : (s.writeBack { row with status := status }).OwnBuckets cfg :=
      ownBuckets_writeBack h.own fun f₀ hf₀ hid ↦ by rw [hfile.purpose_eq hf₀ hid]; exact hbucket
    exact h.move hown hgrows (hk.mono hgrows)
  · exact h.move h.own (.of_eq rfl rfl) hk

/-- What is known of the answers: the row that is to be moved is the one that was asked for. -/
theorem bucketContract_admits (hx : MediaState.exec i o c s = some (r, s')) :
    (bucketContract cfg).admits t o r := by
  cases o with
  | readBucketKey file_id =>
    obtain ⟨rfl, -⟩ := Prod.mk.inj (Option.some.inj hx)
    exact fun row hrow ↦ id_of_find hrow
  | _ => trivial

/-- **One call** of an upload, made under the assumption. -/
theorem bucketInv_call (h : BucketInv cfg ts s) (ht : ts[i]? = some t)
    (ha : (bucketContract cfg).allowed t o) (hG : (bucketsKept cfg).onOp i o c s)
    (hx : MediaState.exec i o c s = some (r, s')) :
    BucketInv cfg (ts.set i ((bucketContract cfg).next t o r)) s' := by
  have hk := h.threads i t ht
  cases o with
  | selectByFileId file_id =>
    obtain ⟨rfl, rfl⟩ := Prod.mk.inj (Option.some.inj hx)
    exact h.move h.own (.of_eq rfl rfl) (knows_select_row h.own fun f hf ↦ mem_of_find hf)
  | selectByUploadId upload_id =>
    obtain ⟨rfl, rfl⟩ := Prod.mk.inj (Option.some.inj hx)
    exact h.move h.own (.of_eq rfl rfl) (knows_select_row h.own fun f hf ↦ mem_of_find hf)
  | selectByHash hash =>
    obtain ⟨rfl, rfl⟩ := Prod.mk.inj (Option.some.inj hx)
    refine h.move h.own (.of_eq rfl rfl) (knows_find hk ha fun b hb ↦ ?_)
    exact (Option.ite_none_left_eq_some.1 hb).2
  | insertFile f => exact bucketInv_insertFile h ht ha hG hx
  | writeBucketKey row bucket key => exact bucketInv_writeBucketKey h ht ha hG hx
  | readStatus file_id status =>
    obtain ⟨hfiles, hblobs⟩ := readStatus_tables hx
    obtain ⟨rfl, -⟩ := Prod.mk.inj (Option.some.inj hx)
    have hgrows : s.Grows s' := .of_eq hfiles hblobs
    have hselect := knows_select_row h.own fun f (hf : f ∈ if c.fault then none
      else s.files.find? (·.file_id = file_id)) ↦ mem_of_find hf
    exact h.move (by rw [OwnBuckets, hfiles]; exact h.own) hgrows (hselect.mono hgrows)
  | writeStatus row status =>
    obtain rfl : t = .read row := ha
    exact bucketInv_writeStatus h ht hx
  | upsertBlob b =>
    obtain ⟨-, rfl⟩ := Prod.mk.inj (Option.some.inj hx)
    split
    · next hnew =>
      have hgrows : s.Grows (s.setBlob b.content_hash (some b)) := by
        refine grows_setBlob fun b₀ hb₀ ↦ ?_
        rw [hnew.2] at hb₀
        cases hb₀
      exact h.move h.own hgrows (hk.mono hgrows)
    · exact h.move h.own (.of_eq rfl rfl) hk
  | incRef hash =>
    obtain ⟨-, rfl⟩ := Prod.mk.inj (Option.some.inj hx)
    split
    · refine h.move ?_ (grows_addRef hash) (hk.mono (grows_addRef hash))
      rw [addRef]
      split <;> exact h.own
    · exact h.move h.own (.of_eq rfl rfl) hk
  | eraseBlob hash => exact ha.elim
  | headObject f =>
    obtain ⟨-, rfl⟩ := Prod.mk.inj (Option.some.inj hx)
    split <;> exact h.move h.own (.of_eq rfl rfl) hk
  | deleteObject bucket key =>
    obtain ⟨-, rfl⟩ := Prod.mk.inj (Option.some.inj hx)
    split <;> exact h.move h.own (.of_eq rfl rfl) hk
  | completeMultipart bucket key upload_id parts =>
    obtain ⟨-, rfl⟩ := Prod.mk.inj (Option.some.inj hx)
    split <;> exact h.move h.own (.of_eq rfl rfl) hk
  | _ =>
    have hs := exec_quiet (by exact trivial) hx
    have hgrows : s.Grows s' := .of_eq hs.files hs.blobs
    exact h.move (by rw [OwnBuckets, hs.files]; exact h.own) hgrows (hk.mono hgrows)

end Steps

/-! ### Runs -/

section Runs

variable {cfg : MediaConfig} {ts : List BucketPhase} {p p' : MediaPool}

theorem bucketInv_event {e : MediaEv} (h : BucketInv cfg ts p.shared)
    (hm : p.Meets (bucketContract cfg) (fun _ ↦ True) ts) (hG : (bucketsKept cfg).onEv e p)
    (hx : MediaState.env cfg e p = some p') :
    ∃ ts', BucketInv cfg ts' p'.shared ∧ p'.Meets (bucketContract cfg) (fun _ ↦ True) ts' := by
  rcases MediaState.env_cases hx with ⟨q, hq, rfl⟩ | ⟨place, body, rfl⟩ | ⟨i, rfl, rfl⟩
  · refine ⟨ts ++ [.free], ⟨h.own, fun j t hj ↦ ?_⟩,
      hm.spawn (MediaEv.uploads_places hG.1 hG.2 hq) _⟩
    rcases Pool.getElem?_append_cases hj with ⟨-, rfl⟩ | ⟨-, hj⟩
    · trivial
    · exact h.threads j t hj
  · exact ⟨ts, ⟨h.own, fun j t hj ↦ (h.threads j t hj).mono (.of_eq rfl rfl)⟩, hm⟩
  · refine ⟨ts, ⟨h.own, fun j t hj ↦ (h.threads j t hj).mono (.of_eq rfl rfl)⟩, ?_⟩
    exact hm.stop (fun _ ↦ trivial) i _

/-- **Committed rows are in the buckets for their purposes** in every run of uploads in which a row
is given the place of a blob only where that is the bucket for its purpose. -/
theorem own_bucket (cfg : MediaConfig) (p : MediaPool)
    (hr : (mediaService cfg).Reach (bucketsKept cfg) MediaState.start p) :
    ∀ f ∈ p.shared.files, f.status = .COMMITTED → f.bucket = cfg.pick_bucket f.purpose := by
  obtain ⟨ts, h, -⟩ : ∃ ts, BucketInv cfg ts p.shared ∧
      p.Meets (bucketContract cfg) (fun _ ↦ True) ts := by
    refine Machine.invariant hr ⟨[], ⟨fun f hf ↦ ?_, fun i t hi ↦ ?_⟩, .nil⟩ ?_ ?_
    · exact absurd hf List.not_mem_nil
    · simp at hi
    · intro ts s i t o c r s' h hi ha hG hx
      exact ⟨bucketContract_admits hx, bucketInv_call h hi ha hG hx⟩
    · intro ts p e p' h hm hG hx
      exact bucketInv_event h hm hG hx
  exact fun f hf _ ↦ h.own f hf

end Runs

instance (cfg : MediaConfig) (i : ℕ) (o : MediaOp) (c : MediaChoice) (s : MediaState) :
    Decidable ((bucketsKept cfg).onOp i o c s) :=
  inferInstanceAs (Decidable (_ → (∀ f ∈ o.inserts, ∀ b ∈ s.blobs f.content_hash, _ → _) ∧
    ∀ file_id ∈ o.moves, ∀ f ∈ s.files, _ → ∀ b ∈ s.blobs f.content_hash, _))

instance (e : MediaEv) : Decidable e.Uploads :=
  match e with
  | .apply _ _ | .complete _ _ | .init _ _ | .complete_multipart _ _ _ | .put _ _ | .crash _ =>
    .isTrue trivial
  | .apply_part _ _ _ | .abort _ _ | .pending_timeout | .multipart_orphan | .unref_blob_gc
  | .quarantine_gc | .magic_sniff _ => .isFalse id

instance (cfg : MediaConfig) (e : MediaEv) (p : MediaPool) :
    Decidable ((bucketsKept cfg).onEv e p) :=
  inferInstanceAs (Decidable (e.Uploads ∧ ∀ purpose ∈ e.begins, _))

/-- The requests that upload something, without any assumption on their steps. -/
def uploadsOnly : Machine.Guard MediaOp MediaOp.Res MediaState MediaChoice MediaEv :=
  ⟨fun _ _ _ _ ↦ True, fun e _ ↦ e.Uploads⟩

instance (i : ℕ) (o : MediaOp) (c : MediaChoice) (s : MediaState) :
    Decidable (uploadsOnly.onOp i o c s) := .isTrue trivial

instance (e : MediaEv) (p : MediaPool) : Decidable (uploadsOnly.onEv e p) :=
  inferInstanceAs (Decidable e.Uploads)

/-- Alice sends a text, and bob sends the same. -/
theorem own_bucket_shared :
    ∃ p, (mediaService plainMedia).Reach (bucketsKept plainMedia) MediaState.start p ∧
      p.shared.files.map (fun f ↦ (f.file_id, f.status, f.bucket)) =
        [("f1", .COMMITTED, "pri"), ("f2", .COMMITTED, "pri")] ∧
      ∀ f ∈ p.shared.files, f.status = .COMMITTED →
        f.bucket = plainMedia.pick_bucket f.purpose := by
  obtain ⟨p, hp, hfiles⟩ := Machine.exists_of_run (mediaService plainMedia)
    (bucketsKept plainMedia) MediaState.start (aliceUploads ++ bobUploads 4 7)
    (fun p ↦ p.shared.files.map (fun f ↦ (f.file_id, f.status, f.bucket)) =
      [("f1", .COMMITTED, "pri"), ("f2", .COMMITTED, "pri")]) (by decide +kernel)
  exact ⟨p, hp, hfiles, own_bucket plainMedia p hp⟩

/-- Bob takes the content of alice's text for an avatar. -/
def bobsAvatar : List (Machine.Label MediaChoice MediaEv) :=
  .event (.apply "bob" { note 4 with purpose := .AVATAR }) :: mediaCalls 2 3 ++
  mediaId 2 "f2" :: mediaCalls 2 2 ++ .event (.complete "bob" "f2") :: mediaCalls 3 7

/-- Alice sends a text, and bob makes an avatar of it, which is in the private bucket. -/
theorem avatar_in_private_bucket :
    ∃ p, (mediaService plainMedia).Reach uploadsOnly MediaState.start p ∧
      ∃ f ∈ p.shared.files, f.status = .COMMITTED ∧ f.purpose = .AVATAR ∧
        f.bucket = plainMedia.private_bucket ∧ f.bucket ≠ plainMedia.pick_bucket f.purpose := by
  obtain ⟨p, hp, hf⟩ := Machine.exists_of_run (mediaService plainMedia) uploadsOnly
    MediaState.start (aliceUploads ++ bobsAvatar)
    (fun p ↦ ∃ f ∈ p.shared.files, f.status = .COMMITTED ∧ f.purpose = .AVATAR ∧
      f.bucket = plainMedia.private_bucket ∧ f.bucket ≠ plainMedia.pick_bucket f.purpose)
    (by decide +kernel)
  exact ⟨p, hp, hf⟩

end ChatNow
