import ChatNow.Media.Machine
import Mathlib.Data.List.Count
import Mathlib.Data.List.Nodup

/-!
# The reference counts of blobs

`ref_count` is raised by a completion before it commits its row, and lowered nowhere: `dec_ref` has
no caller. So the count of a hash and the number of its committed rows come apart wherever a row is
committed a second time, or leaves the committed status, or where a completion does one of the two
changes only. A row also leaves the committed status when `update_bucket_key` writes back what it
has read before.

* `refsCounted`: the assumption on the steps under which they stay together.
* `ref_count_eq`: under it they are equal in every reachable state in which all programs have
  finished.
* `abort_keeps_reference`: an upload is aborted after it has been completed.
* `write_back_undoes_commit`: of two completions of one file, one undoes what the other has done.

In between the count is ahead by the completions that have made the first of the two changes
(`RefInv`).
-/

namespace ChatNow

open Prog MediaOp

/-! ### The assumption -/

/-- The hash whose count a call raises. -/
def MediaOp.incs : MediaOp → Option String
  | incRef hash => some hash
  | _ => none

/-- The row whose status a call sets. -/
def MediaOp.sets : MediaOp → Option (String × MediaFileStatus)
  | writeStatus row status => some (row.file_id, status)
  | _ => none

/-- The status for which a call reads the row. -/
def MediaOp.asks : MediaOp → Option MediaFileStatus
  | readStatus _ status => some status
  | _ => none

/-- The row that a call of `update_bucket_key` writes back. -/
def MediaOp.relocates : MediaOp → Option MediaFile
  | writeBucketKey row _ _ => some row
  | _ => none

/-- The hash whose blob a call erases. -/
def MediaOp.erases : MediaOp → Option String
  | eraseBlob hash => some hash
  | _ => none

/-- The call is one of those that commit a row. -/
def MediaOp.Commits : MediaOp → Bool
  | readStatus _ .COMMITTED => true
  | writeStatus _ .COMMITTED => true
  | _ => false

/-- The next call of the program is one of those that commit a row. -/
def committing : MediaM Unit → Bool
  | .ret _ => false
  | .call o _ => o.Commits

/-- The thread that is gone. -/
def MediaEv.crashes : MediaEv → Option ℕ
  | crash i => some i
  | _ => none

namespace MediaState

variable (s : MediaState)

/-- The count of a hash, 0 if there is no blob. -/
def ref_count (hash : String) : ℤ := ((s.blobs hash).map (·.ref_count)).getD 0

/-- How many rows with the hash are committed. -/
def committed (hash : String) : ℕ :=
  s.files.countP fun f ↦ f.content_hash = hash ∧ f.status = .COMMITTED

/-- The row is not committed. -/
def NotCommitted (file_id : String) : Prop :=
  ∀ f ∈ s.files, f.file_id = file_id → f.status ≠ .COMMITTED

instance (file_id : String) : Decidable (s.NotCommitted file_id) :=
  inferInstanceAs (Decidable (∀ f ∈ s.files, _))

/-- The row that is written back is COMMITTED exactly if the one in the table is. -/
def KeepsCommit (row : MediaFile) : Prop :=
  ∀ f ∈ s.files, f.file_id = row.file_id → (f.status = .COMMITTED ↔ row.status = .COMMITTED)

instance (row : MediaFile) : Decidable (s.KeepsCommit row) :=
  inferInstanceAs (Decidable (∀ f ∈ s.files, _))

end MediaState

/-- A count is raised in a blob that is there; the status of a committed row is not set any more,
and that of a row to be committed is; a blob is erased while its count is 0; and no thread is gone
between the count and the status. -/
def commitsPaired : Machine.Guard MediaOp MediaOp.Res MediaState MediaChoice MediaEv where
  onOp _ o c s :=
    (∀ hash ∈ o.incs, c.acts = true ∧ s.blobs hash ≠ none ∧ s.ref_count hash + 1 < 2 ^ 31) ∧
    ((∀ status ∈ o.asks, c.fault = true → status ≠ .COMMITTED) ∧
      ∀ e ∈ o.sets, if c.acts then s.NotCommitted e.1 else e.2 ≠ .COMMITTED) ∧
    ∀ hash ∈ o.erases, c.acts = true → s.ref_count hash = 0
  onEv e p := ∀ i ∈ e.crashes, ∀ q ∈ p.threads[i]?, committing q = false

/-- And `update_bucket_key`, which writes the status of a row as it has read it, neither commits a
row nor undoes that. -/
def refsCounted : Machine.Guard MediaOp MediaOp.Res MediaState MediaChoice MediaEv where
  onOp i o c s := commitsPaired.onOp i o c s ∧
    ∀ row ∈ o.relocates, c.acts = true → s.KeepsCommit row
  onEv := commitsPaired.onEv

/-! ### The invariant -/

/-- The program has raised the count of the hash and has not committed its row. -/
def MediaPhase.counts (hash : String) : MediaPhase → Bool
  | counted f => f.content_hash = hash
  | _ => false

theorem MediaPhase.Free.counts {ph : MediaPhase} (h : ph.Free) (hash : String) :
    ph.counts hash = false := by
  cases ph with
  | counted f => exact h.elim
  | _ => rfl

/-- There is a row with the id and the hash. -/
def MediaState.HasRow (s : MediaState) (file_id hash : String) : Prop :=
  ∃ f ∈ s.files, f.file_id = file_id ∧ f.content_hash = hash

/-- What a program has read of its row is so. -/
def MediaPhase.OfRow (s : MediaState) : MediaPhase → Prop
  | idle => True
  | read f => s.HasRow f.file_id f.content_hash
  | passed f => s.HasRow f.file_id f.content_hash
  | moving f => s.HasRow f.file_id f.content_hash
  | counted f => s.HasRow f.file_id f.content_hash

theorem MediaPhase.OfRow.mono {s s' : MediaState} {ph : MediaPhase} (hk : ph.OfRow s)
    (h : ∀ id hash, s.HasRow id hash → s'.HasRow id hash) : ph.OfRow s' := by
  cases ph with
  | idle => exact trivial
  | _ => exact h _ _ hk

/-- The invariant. -/
structure RefInv (ts : List MediaPhase) (s : MediaState) : Prop where
  count : ∀ hash, s.ref_count hash = s.committed hash + ts.countP (MediaPhase.counts hash)
  threads : ∀ (i : ℕ) (ph : MediaPhase), ts[i]? = some ph → ph.OfRow s

/-! ### Counting rows -/

section Counting

variable {α : Type} {p : α → Bool} {file_id : String} {g : MediaFile → MediaFile}
  {files : List MediaFile}

/-- One element of a list is exchanged. -/
theorem countP_set_add {l : List α} {i : ℕ} {a b : α} (h : l[i]? = some a) :
    (l.set i b).countP p + (if p a then 1 else 0) = l.countP p + if p b then 1 else 0 := by
  obtain ⟨hlt, rfl⟩ := List.getElem?_eq_some_iff.1 h
  have hle : (if p l[i] then 1 else 0) ≤ l.countP p := by
    split
    · next hp => exact List.countP_pos_iff.2 ⟨l[i], List.getElem_mem hlt, hp⟩
    · exact Nat.zero_le _
  rw [List.countP_set hlt]
  omega

theorem countP_update_row {q : MediaFile → Bool}
    (h : ∀ f ∈ files, f.file_id = file_id → q (g f) = q f) :
    (update_row file_id g files).countP q = files.countP q := by
  induction files with
  | nil => rfl
  | cons f files ih =>
    rw [update_row]
    split
    · next hid => rw [List.countP_cons, List.countP_cons, h f List.mem_cons_self hid]
    · rw [List.countP_cons, List.countP_cons, ih fun f hf ↦ h f (List.mem_cons_of_mem _ hf)]

/-- A row that did not count comes to count. -/
theorem countP_update_row_succ {q : MediaFile → Bool} (hex : ∃ f ∈ files, f.file_id = file_id)
    (h : ∀ f ∈ files, f.file_id = file_id → q f = false ∧ q (g f) = true) :
    (update_row file_id g files).countP q = files.countP q + 1 := by
  induction files with
  | nil =>
    obtain ⟨f, hf, -⟩ := hex
    exact absurd hf List.not_mem_nil
  | cons f files ih =>
    rw [update_row]
    split
    · next hid =>
      obtain ⟨hf, hg⟩ := h f List.mem_cons_self hid
      rw [List.countP_cons_of_pos hg, List.countP_cons_of_neg (by simp [hf])]
    · next hid =>
      have hex' : ∃ f ∈ files, f.file_id = file_id := by
        obtain ⟨f', hf', hid'⟩ := hex
        rcases List.mem_cons.1 hf' with rfl | hf'
        · exact absurd hid' hid
        · exact ⟨f', hf', hid'⟩
      rw [List.countP_cons, List.countP_cons, ih hex' fun f hf ↦ h f (List.mem_cons_of_mem _ hf)]
      omega

end Counting

/-! ### What the changes do to the counts -/

namespace MediaState

variable {s : MediaState} {row : MediaFile} {file_id hash : String}

theorem ref_count_setBlob (s : MediaState) (hash : String) (b : Option MediaBlobRef)
    (hash' : String) : (s.setBlob hash b).ref_count hash' =
      if hash' = hash then (b.map (·.ref_count)).getD 0 else s.ref_count hash' := by
  simp only [ref_count, setBlob, Function.update_apply]
  split <;> rfl

/-- A blob that is not there counts as one with count 0. -/
theorem ref_count_setBlob_zero {b : Option MediaBlobRef} (hb : (b.map (·.ref_count)).getD 0 = 0)
    (h : s.ref_count hash = 0) (hash' : String) :
    (s.setBlob hash b).ref_count hash' = s.ref_count hash' := by
  rw [ref_count_setBlob]
  split
  · next heq => rw [hb, heq, h]
  · rfl

theorem ref_count_addRef (hb : s.blobs hash ≠ none) (h0 : 0 ≤ s.ref_count hash)
    (hlt : s.ref_count hash + 1 < 2 ^ 31) (hash' : String) :
    (s.addRef hash).ref_count hash' = s.ref_count hash' + if hash = hash' then 1 else 0 := by
  obtain ⟨b, hsome⟩ := Option.ne_none_iff_exists'.1 hb
  have hcount : s.ref_count hash = b.ref_count := by
    rw [ref_count, hsome]
    rfl
  rw [addRef, hsome]
  dsimp only
  rw [ref_count_setBlob]
  by_cases heq : hash' = hash
  · rw [if_pos heq, if_pos heq.symm, heq, hcount]
    rw [hcount] at h0 hlt
    exact Int.bmod_eq_of_le (by omega) (by omega)
  · rw [if_neg heq, if_neg (Ne.symm heq), add_zero]

theorem committed_insert {f : MediaFile} (hf : f.status = .PENDING) (hash : String) :
    (s.insert f).committed hash = s.committed hash := by
  rw [insert]
  split
  · show (s.files ++ [f]).countP _ = _
    rw [List.countP_append, List.countP_singleton]
    simp [hf, committed]
  · rfl

/-- A row that is written back counts as before. -/
theorem committed_writeBack_eq (h : s.KeepsCommit row) (hash : String) :
    (s.writeBack row).committed hash = s.committed hash :=
  countP_update_row fun f hf hid ↦
    decide_eq_decide.2 (and_congr_right' (h f hf hid).symm)

/-- A row that is not committed gets a status other than that. -/
theorem NotCommitted.keepsCommit (h : s.NotCommitted row.file_id) (hne : row.status ≠ .COMMITTED) :
    s.KeepsCommit row := fun f hf hid ↦ iff_of_false (h f hf hid) hne

/-- Rows with the same id have the same hash. -/
theorem HasRow.hash_eq (h : s.HasRow file_id hash) {f : MediaFile} (hf : f ∈ s.files)
    (hid : f.file_id = file_id) : f.content_hash = hash := by
  obtain ⟨g, hg, hgid, rfl⟩ := h
  rw [List.inj_on_of_nodup_map s.unique hf hg (hid.trans hgid.symm)]

/-- A row that is not committed is committed. -/
theorem committed_writeBack (hrow : s.HasRow row.file_id hash) (hst : row.status = .COMMITTED)
    (hn : s.NotCommitted row.file_id) (hash' : String) : (s.writeBack row).committed hash' =
      s.committed hash' + if hash = hash' then 1 else 0 := by
  split
  · next heq =>
    obtain ⟨g, hg, hid, -⟩ := id hrow
    refine countP_update_row_succ ⟨g, hg, hid⟩ fun f hf hid ↦ ?_
    simp [MediaFile.write_back, hst, hn f hf hid, hrow.hash_eq hf hid, heq]
  · next hne =>
    refine countP_update_row fun f hf hid ↦ ?_
    simp [MediaFile.write_back, hrow.hash_eq hf hid, hne]

theorem hasRow_writeBack (row : MediaFile) {id hash : String} (h : s.HasRow id hash) :
    (s.writeBack row).HasRow id hash :=
  exists_writeBack (fun _ hrow ↦ hrow) h

theorem hasRow_insert (f : MediaFile) {id hash : String} (h : s.HasRow id hash) :
    (s.insert f).HasRow id hash := by
  obtain ⟨g, hg, hrow⟩ := h
  rw [insert]
  split
  · exact ⟨g, List.mem_append_left _ hg, hrow⟩
  · exact ⟨g, hg, hrow⟩

end MediaState

/-! ### One call -/

/-- What a call does to the counts: the number by which the count of a hash is ahead of its
committed rows changes with the thread only. -/
structure RefStep (ph ph' : MediaPhase) (s s' : MediaState) : Prop where
  balance : ∀ hash,
    s'.ref_count hash + s.committed hash + (if ph.counts hash then 1 else 0) =
      s.ref_count hash + s'.committed hash + if ph'.counts hash then 1 else 0
  rows : ∀ id hash, s.HasRow id hash → s'.HasRow id hash
  row : ph'.OfRow s'

section Calls

variable {ts : List MediaPhase} {s s' : MediaState} {i : ℕ} {o : MediaOp} {c : MediaChoice}
  {r : o.Res} {ph ph' : MediaPhase}

open MediaState

theorem RefStep.of_eq (href : ∀ hash, s'.ref_count hash = s.ref_count hash)
    (hcommitted : ∀ hash, s'.committed hash = s.committed hash)
    (hcounts : ∀ hash, ph'.counts hash = ph.counts hash)
    (hrows : ∀ id hash, s.HasRow id hash → s'.HasRow id hash) (hrow : ph'.OfRow s') :
    RefStep ph ph' s s' where
  balance hash := by rw [href, hcommitted, hcounts]
  rows := hrows
  row := hrow

/-- The tables are as before. -/
theorem RefStep.of_tables (hfiles : s'.files = s.files) (hblobs : s'.blobs = s.blobs)
    (hcounts : ∀ hash, ph'.counts hash = ph.counts hash) (hrow : ph'.OfRow s) :
    RefStep ph ph' s s' := by
  have hrows (id hash : String) (h : s.HasRow id hash) : s'.HasRow id hash := by
    rwa [HasRow, hfiles]
  refine .of_eq (fun hash ↦ ?_) (fun hash ↦ ?_) hcounts hrows (hrow.mono hrows)
  · rw [ref_count, hblobs, ref_count]
  · rw [committed, hfiles, committed]

theorem ofRow_select {f? : Option MediaFile} (h : ∀ f ∈ f?, f ∈ s.files) :
    (MediaPhase.select f?).OfRow s := by
  cases f? with
  | none => exact trivial
  | some f => exact ⟨f, h f rfl, rfl, rfl⟩

/-- Only a program that has counted commits a row. -/
theorem free_of_writeStatus {row : MediaFile} {status : MediaFileStatus}
    (ha : mediaContract.allowed ph (writeStatus row status)) (hne : status ≠ .COMMITTED) :
    ph.Free := by
  cases status with
  | COMMITTED => exact absurd rfl hne
  | _ => exact ha

/-- A row that has been counted is found when it is to be committed. -/
theorem refs_readStatus {file_id : String} {status : MediaFileStatus}
    {r : (readStatus file_id status).Res} (hk : ph.OfRow s)
    (ha : mediaContract.allowed ph (readStatus file_id status))
    (hfault : c.fault = true → status ≠ .COMMITTED)
    (hx : MediaState.exec i (readStatus file_id status) c s = some (r, s')) :
    RefStep ph (ph.recheck r) s s' := by
  obtain ⟨rfl, rfl⟩ := Prod.mk.inj (Option.some.inj hx)
  by_cases hst : status = .COMMITTED
  · obtain rfl := hst
    obtain ⟨f, rfl, rfl⟩ := ha
    obtain ⟨g, hg, hid, -⟩ := id hk
    have hfound : s.files.find? (·.file_id = f.file_id) = some g := hid ▸ find_of_mem hg
    rw [if_neg fun hf ↦ hfault hf rfl, hfound]
    exact .of_tables rfl rfl (fun _ ↦ rfl) hk
  · have hfree : ph.Free := by
      cases status with
      | COMMITTED => exact absurd rfl hst
      | _ => exact ha
    have hcounts (row : Option MediaFile) (hash : String) :
        (ph.recheck row).counts hash = ph.counts hash := by
      rw [hfree.counts, (hfree.recheck row).counts]
    cases hrow : if c.fault then none else s.files.find? (·.file_id = file_id) with
    | none => exact .of_tables rfl rfl (hcounts none) trivial
    | some row => exact .of_tables rfl rfl (hcounts (some row)) hk

/-- A row that has been counted is committed, or one that has not gets another status. -/
theorem refs_writeStatus {row : MediaFile} {status : MediaFileStatus}
    {r : (writeStatus row status).Res} (hk : ph.OfRow s)
    (ha : mediaContract.allowed ph (writeStatus row status))
    (hset : if c.acts then s.NotCommitted row.file_id else status ≠ .COMMITTED)
    (hx : MediaState.exec i (writeStatus row status) c s = some (r, s')) :
    RefStep ph .idle s s' := by
  obtain ⟨-, rfl⟩ := Prod.mk.inj (Option.some.inj hx)
  have hrows (id hash : String) (h : s.HasRow id hash) :
      (s.writeBack { row with status := status }).HasRow id hash := hasRow_writeBack _ h
  split
  · next hacts =>
    rw [if_pos hacts] at hset
    by_cases hst : status = .COMMITTED
    · obtain rfl := hst
      obtain ⟨f, rfl, hid⟩ := ha
      refine ⟨fun hash ↦ ?_, hrows, trivial⟩
      have hrow : s.HasRow ({ row with status := .COMMITTED } : MediaFile).file_id
          f.content_hash := by
        rw [hid]
        exact hk
      have hcommitted := committed_writeBack hrow rfl hset hash
      show s.ref_count hash + s.committed hash + _ = s.ref_count hash +
        ((s.writeBack { row with status := .COMMITTED }).committed hash : ℕ) + 0
      rw [hcommitted]
      simp only [MediaPhase.counts, decide_eq_true_eq]
      split <;> omega
    · have hfree := free_of_writeStatus ha hst
      have hkeeps : s.KeepsCommit { row with status := status } :=
        NotCommitted.keepsCommit hset hst
      exact .of_eq (fun _ ↦ rfl) (committed_writeBack_eq hkeeps)
        (fun hash ↦ (hfree.counts hash).symm) hrows trivial
  · next hacts =>
    rw [if_neg hacts] at hset
    have hfree := free_of_writeStatus ha hset
    exact .of_tables rfl rfl (fun hash ↦ (hfree.counts hash).symm) trivial

/-- The count of a row's hash is raised. -/
theorem refs_addRef {f : MediaFile} (hk : (MediaPhase.passed f).OfRow s)
    (hb : s.blobs f.content_hash ≠ none) (h0 : 0 ≤ s.ref_count f.content_hash)
    (hlt : s.ref_count f.content_hash + 1 < 2 ^ 31) :
    RefStep (.passed f) (.counted f) s (s.addRef f.content_hash) := by
  have hfiles : (s.addRef f.content_hash).files = s.files := by
    rw [addRef]
    split <;> rfl
  have hrows (id hash : String) (h : s.HasRow id hash) :
      (s.addRef f.content_hash).HasRow id hash := by
    rwa [HasRow, hfiles]
  refine ⟨fun hash ↦ ?_, hrows, hrows _ _ hk⟩
  rw [ref_count_addRef hb h0 hlt, committed, committed, hfiles]
  show _ + 0 = _ + if MediaPhase.counts hash (.counted f) then 1 else 0
  simp only [MediaPhase.counts, decide_eq_true_eq]
  omega

/-- **One call**, made under the assumption. -/
theorem refs_call (h0 : ∀ hash, 0 ≤ s.ref_count hash) (hk : ph.OfRow s)
    (ha : mediaContract.allowed ph o) (hG : refsCounted.onOp i o c s)
    (hx : MediaState.exec i o c s = some (r, s')) :
    RefStep ph (mediaContract.next ph o r) s s' := by
  obtain ⟨⟨hinc, ⟨hask, hset⟩, herase⟩, hkeeps⟩ := hG
  cases o with
  | selectByFileId file_id =>
    obtain ⟨rfl, rfl⟩ := Prod.mk.inj (Option.some.inj hx)
    refine .of_tables rfl rfl (fun hash ↦ ?_) (ofRow_select fun f hf ↦ mem_of_find hf)
    rw [MediaPhase.Free.counts ha]
    exact (MediaPhase.free_select _).counts hash
  | selectByUploadId upload_id =>
    obtain ⟨rfl, rfl⟩ := Prod.mk.inj (Option.some.inj hx)
    refine .of_tables rfl rfl (fun hash ↦ ?_) (ofRow_select fun f hf ↦ mem_of_find hf)
    rw [MediaPhase.Free.counts ha]
    exact (MediaPhase.free_select _).counts hash
  | insertFile f =>
    obtain ⟨-, rfl⟩ := Prod.mk.inj (Option.some.inj hx)
    split
    · have hrows (id hash : String) (h : s.HasRow id hash) := hasRow_insert f h
      refine .of_eq (fun _ ↦ ?_) (committed_insert ha.2) (fun _ ↦ rfl) hrows (hk.mono hrows)
      rw [MediaState.insert]
      split <;> rfl
    · exact .of_tables rfl rfl (fun _ ↦ rfl) hk
  | readBucketKey file_id =>
    obtain ⟨f, rfl, rfl⟩ := ha
    obtain ⟨rfl, rfl⟩ := Prod.mk.inj (Option.some.inj hx)
    show RefStep _ ((MediaPhase.moving f).reread _) s s
    cases if c.fault then none else s.files.find? (·.file_id = f.file_id) with
    | none => exact .of_tables rfl rfl (fun _ ↦ rfl) hk
    | some row => exact .of_tables rfl rfl (fun _ ↦ rfl) hk
  | writeBucketKey row bucket key =>
    obtain ⟨f, rfl, -⟩ := ha
    obtain ⟨-, rfl⟩ := Prod.mk.inj (Option.some.inj hx)
    split
    · next hacts =>
      have hrows (id hash : String) (h : s.HasRow id hash) :
          (s.writeBack { row with bucket := bucket, object_key := key }).HasRow id hash :=
        hasRow_writeBack _ h
      -- the row that is written back has the status that the row has now
      have hcommit : s.KeepsCommit { row with bucket := bucket, object_key := key } :=
        hkeeps row rfl hacts
      exact .of_eq (fun _ ↦ rfl) (committed_writeBack_eq hcommit) (fun _ ↦ rfl) hrows
        (hrows _ _ hk)
    · exact .of_tables rfl rfl (fun _ ↦ rfl) hk
  | readStatus file_id status => exact refs_readStatus hk ha (hask _ rfl) hx
  | writeStatus row status => exact refs_writeStatus hk ha (hset _ rfl) hx
  | upsertBlob b =>
    obtain ⟨-, rfl⟩ := Prod.mk.inj (Option.some.inj hx)
    split
    · next hnew =>
      -- a new blob counts nothing yet
      refine .of_eq (ref_count_setBlob_zero ha.2 ?_) (fun _ ↦ rfl) (fun _ ↦ rfl) (fun _ _ h ↦ h) hk
      rw [ref_count, hnew.2]
      rfl
    · exact .of_tables rfl rfl (fun _ ↦ rfl) hk
  | incRef hash =>
    obtain ⟨f, rfl, rfl⟩ := ha
    obtain ⟨hacts, hb, hlt⟩ := hinc _ rfl
    obtain ⟨-, rfl⟩ := Prod.mk.inj (Option.some.inj hx)
    rw [if_pos hacts]
    exact refs_addRef hk hb (h0 _) hlt
  | eraseBlob hash =>
    obtain ⟨-, rfl⟩ := Prod.mk.inj (Option.some.inj hx)
    split
    · next hacts =>
      exact .of_eq (ref_count_setBlob_zero rfl (herase _ rfl hacts)) (fun _ ↦ rfl) (fun _ ↦ rfl)
        (fun _ _ h ↦ h) hk
    · exact .of_tables rfl rfl (fun _ ↦ rfl) hk
  | headObject f =>
    obtain rfl : ph = .read f := ha
    obtain ⟨rfl, rfl⟩ := Prod.mk.inj (Option.some.inj hx)
    show RefStep _ (MediaPhase.head f (s.head c f)) s _
    rw [MediaPhase.head]
    split
    · exact .of_tables rfl rfl (fun _ ↦ rfl) hk
    · exact .of_tables rfl rfl (fun _ ↦ rfl) trivial
  | deleteObject bucket key =>
    obtain ⟨-, rfl⟩ := Prod.mk.inj (Option.some.inj hx)
    have hnext : ph.delete.OfRow s ∧ ∀ hash, ph.delete.counts hash = ph.counts hash := by
      rcases ha with hfree | ⟨f, rfl⟩
      · rw [hfree.delete]
        exact ⟨hk, fun _ ↦ rfl⟩
      · exact ⟨hk, fun _ ↦ rfl⟩
    split
    · exact .of_tables rfl rfl hnext.2 hnext.1
    · exact .of_tables rfl rfl hnext.2 hnext.1
  | completeMultipart bucket key upload_id parts =>
    obtain ⟨-, rfl⟩ := Prod.mk.inj (Option.some.inj hx)
    split
    · exact .of_tables rfl rfl (fun _ ↦ rfl) hk
    · exact .of_tables rfl rfl (fun _ ↦ rfl) hk
  | _ =>
    have hs := exec_quiet (by exact trivial) hx
    exact .of_tables hs.files hs.blobs (fun _ ↦ rfl) hk

end Calls

/-! ### Runs -/

theorem refInv_start : RefInv [] {} where
  count _ := rfl
  threads _ _ h := absurd h (by simp)

section Runs

variable {cfg : MediaConfig} {ts : List MediaPhase} {s s' : MediaState} {p p' : MediaPool} {i : ℕ}
  {ph ph' : MediaPhase}

open MediaState

theorem RefInv.nonneg (h : RefInv ts s) (hash : String) : 0 ≤ s.ref_count hash := by
  rw [h.count]
  omega

/-- A thread takes a step. -/
theorem RefInv.set (h : RefInv ts s) (hi : ts[i]? = some ph) (hs : RefStep ph ph' s s') :
    RefInv (ts.set i ph') s' where
  count hash := by
    have hbalance := hs.balance hash
    have hset := countP_set_add (p := MediaPhase.counts hash) (b := ph') hi
    rw [h.count] at hbalance
    cases hc : ph.counts hash <;> cases hc' : ph'.counts hash <;>
      simp only [hc, hc', if_true, if_false, Bool.false_eq_true] at hbalance hset <;> omega
  threads j ph₁ hj := by
    rcases Pool.getElem?_set_cases hj with ⟨-, rfl⟩ | ⟨-, hj⟩
    · exact hs.row
    · exact (h.threads j ph₁ hj).mono hs.rows

/-- After the count a program does nothing before the status. -/
theorem commits_of_allowed {f : MediaFile} {o : MediaOp}
    (h : mediaContract.allowed (.counted f) o) : o.Commits = true := by
  cases o with
  | readStatus file_id status =>
    cases status with
    | COMMITTED => rfl
    | _ => exact False.elim h
  | writeStatus row status =>
    cases status with
    | COMMITTED => rfl
    | _ => exact False.elim h
  | headObject g => cases h
  | deleteObject bucket key =>
    rcases h with h | ⟨g, h⟩
    · exact False.elim h
    · cases h
  | readBucketKey file_id =>
    obtain ⟨g, h, -⟩ := h
    cases h
  | writeBucketKey row bucket key =>
    obtain ⟨g, h, -⟩ := h
    cases h
  | incRef hash =>
    obtain ⟨g, h, -⟩ := h
    cases h
  | insertFile g => exact False.elim h.1
  | upsertBlob b => exact False.elim h.1
  | _ => exact False.elim h

/-- A thread that may go has not counted. -/
theorem counts_of_not_committing {q : MediaM Unit}
    (hq : q.Meets mediaContract ph fun ph _ ↦ ph.Free) (hn : committing q = false)
    (hash : String) : ph.counts hash = false := by
  cases ph with
  | counted f =>
    cases q with
    | ret _ => exact hq.elim
    | call o k =>
      rw [committing, commits_of_allowed hq.1] at hn
      cases hn
  | _ => rfl

/-- An event keeps the invariant, and a program that it begins keeps to the contract. -/
theorem refInv_event {e : MediaEv} (h : RefInv ts p.shared)
    (hm : p.Meets mediaContract MediaPhase.Free ts) (hG : refsCounted.onEv e p)
    (hx : MediaState.env cfg e p = some p') :
    ∃ ts', RefInv ts' p'.shared ∧ p'.Meets mediaContract MediaPhase.Free ts' := by
  rcases MediaState.env_cases hx with ⟨q, hq, rfl⟩ | ⟨place, body, rfl⟩ | ⟨i, rfl, rfl⟩
  · refine ⟨ts ++ [.idle], ⟨fun hash ↦ ?_, fun j ph hj ↦ ?_⟩,
      hm.spawn (MediaEv.program_meets hq) _⟩
    · rw [h.count, List.countP_append]
      rfl
    · rcases Pool.getElem?_append_cases hj with ⟨-, rfl⟩ | ⟨-, hj⟩
      · exact trivial
      · exact h.threads j ph hj
  · exact ⟨ts, ⟨h.count, h.threads⟩, hm⟩
  · have hret : (Prog.ret () : MediaM Unit).Meets mediaContract .idle fun ph _ ↦ ph.Free := trivial
    refine ⟨ts.set i .idle, ?_, hm.set i hret _⟩
    cases hi : p.threads[i]? with
    | none =>
      have hlen : ts.length ≤ i := by
        rw [← hm.length_eq]
        exact List.getElem?_eq_none_iff.1 hi
      rw [List.set_eq_of_length_le hlen]
      exact ⟨h.count, h.threads⟩
    | some q =>
      obtain ⟨ph, hph, hq⟩ := hm.get hi
      have hcounts := counts_of_not_committing hq (hG i rfl q hi)
      exact h.set hph (.of_tables rfl rfl (fun hash ↦ (hcounts hash).symm) trivial)

/-- The invariant holds in every state that a run reaches. -/
theorem refInv_of_reach (hr : (mediaService cfg).Reach refsCounted MediaState.start p) :
    ∃ ts, RefInv ts p.shared ∧ p.Meets mediaContract MediaPhase.Free ts := by
  refine Machine.invariant hr ⟨[], refInv_start, .nil⟩ ?_ ?_
  · intro ts s i ph o c r s' hinv hi ha hG hx
    exact ⟨admits_of_exec hx, hinv.set hi (refs_call hinv.nonneg (hinv.threads i ph hi) ha hG hx)⟩
  · intro ts p e p' hinv hm hG hx
    exact refInv_event hinv hm hG hx

/-- **The count of a hash is the number of its committed rows** whenever no program is under way,
in every run that keeps to the assumption. -/
theorem ref_count_eq (cfg : MediaConfig) (p : MediaPool)
    (hr : (mediaService cfg).Reach refsCounted MediaState.start p)
    (hdone : ∀ q ∈ p.threads, q.finished = true) (hash : String) :
    p.shared.ref_count hash = p.shared.committed hash := by
  obtain ⟨ts, h, hm⟩ := refInv_of_reach hr
  have hnone : ts.countP (MediaPhase.counts hash) = 0 := by
    refine List.countP_eq_zero.2 fun ph hph ↦ ?_
    rw [MediaPhase.Free.counts (hm.finished hdone ph hph)]
    exact Bool.false_ne_true
  rw [h.count, hnone]
  omega

end Runs

instance (i : ℕ) (o : MediaOp) (c : MediaChoice) (s : MediaState) :
    Decidable (commitsPaired.onOp i o c s) :=
  inferInstanceAs (Decidable ((∀ hash ∈ o.incs, _) ∧
    ((∀ status ∈ o.asks, _ → _) ∧ ∀ e ∈ o.sets, _) ∧ ∀ hash ∈ o.erases, _ → _))

instance (e : MediaEv) (p : MediaPool) : Decidable (commitsPaired.onEv e p) :=
  inferInstanceAs (Decidable (∀ i ∈ e.crashes, ∀ q ∈ p.threads[i]?, _))

instance (i : ℕ) (o : MediaOp) (c : MediaChoice) (s : MediaState) :
    Decidable (refsCounted.onOp i o c s) :=
  inferInstanceAs (Decidable (commitsPaired.onOp i o c s ∧ ∀ row ∈ o.relocates, _ → _))

instance (e : MediaEv) (p : MediaPool) : Decidable (refsCounted.onEv e p) :=
  inferInstanceAs (Decidable (commitsPaired.onEv e p))

/-- The hash of a note. -/
def noteHash : String := (note 4).content_hash

/-- Alice completes an upload; the first time the thread is gone before the count. -/
def aliceRetries : List (Machine.Label MediaChoice MediaEv) :=
  .event (.apply "alice" (note 4)) :: mediaCalls 0 4 ++ mediaId 0 "f1" :: mediaCalls 0 3 ++
  .event (.put notePlace [1, 2, 3, 4]) :: .event (.complete "alice" "f1") :: mediaCalls 1 5 ++
  .event (.crash 1) :: .event (.complete "alice" "f1") :: mediaCalls 2 7

theorem ref_count_eq_retry :
    ∃ p, (mediaService plainMedia).Reach refsCounted MediaState.start p ∧
      (∀ q ∈ p.threads, q.finished = true) ∧ p.shared.committed noteHash = 1 ∧
      p.shared.ref_count noteHash = p.shared.committed noteHash := by
  obtain ⟨p, hp, hdone, hone⟩ := Machine.exists_of_run (mediaService plainMedia) refsCounted
    MediaState.start aliceRetries
    (fun p ↦ (∀ q ∈ p.threads, q.finished = true) ∧ p.shared.committed noteHash = 1) (by decide)
  exact ⟨p, hp, hdone, hone, ref_count_eq _ p hp hdone noteHash⟩

/-- Alice completes an upload in parts, and aborts it. -/
def aliceAborts : List (Machine.Label MediaChoice MediaEv) :=
  .event (.init "alice" (note 4)) :: mediaCalls 0 4 ++ mediaId 0 "u1" :: mediaId 0 "f1" ::
  mediaCalls 0 2 ++ .event (.complete_multipart "alice" "u1" [⟨1, "etag"⟩]) :: mediaCalls 1 1 ++
  .call 1 { body := [1, 2, 3, 4] } :: mediaCalls 1 8 ++
  .event (.abort "alice" "u1") :: mediaCalls 2 4

/-- The row is deleted; its reference stays. -/
theorem abort_keeps_reference :
    ∃ p, (mediaService plainMedia).Reach .any MediaState.start p ∧
      (∀ q ∈ p.threads, q.finished = true) ∧
      p.shared.ref_count noteHash = 1 ∧ p.shared.committed noteHash = 0 := by
  obtain ⟨p, hp, hrest⟩ := Machine.exists_of_run (mediaService plainMedia) .any MediaState.start
    aliceAborts
    (fun p ↦ (∀ q ∈ p.threads, q.finished = true) ∧ p.shared.ref_count noteHash = 1 ∧
      p.shared.committed noteHash = 0) (by decide)
  exact ⟨p, hp, hrest⟩

/-- Bob completes his upload twice at a time. Both completions find another object for his row, and
the first has read the row for that when the second commits it. -/
def bobCompletesTwice : List (Machine.Label MediaChoice MediaEv) :=
  .event (.complete "bob" "f2") :: .event (.complete "bob" "f2") :: mediaCalls 4 2 ++
  mediaCalls 3 5 ++ mediaCalls 4 8 ++ mediaCalls 3 5

/-- Every row that is committed is counted once, and still there are three counts for two rows. -/
theorem write_back_undoes_commit :
    ∃ p, (mediaService plainMedia).Reach commitsPaired MediaState.start p ∧
      (∀ q ∈ p.threads, q.finished = true) ∧
      p.shared.ref_count noteHash = 3 ∧ p.shared.committed noteHash = 2 := by
  obtain ⟨p, hp, hrest⟩ := Machine.exists_of_run (mediaService plainMedia) commitsPaired
    MediaState.start (bobBegins ++ aliceFollows ++ bobCompletesTwice)
    (fun p ↦ (∀ q ∈ p.threads, q.finished = true) ∧ p.shared.ref_count noteHash = 3 ∧
      p.shared.committed noteHash = 2) (by decide +kernel)
  exact ⟨p, hp, hrest⟩

end ChatNow
