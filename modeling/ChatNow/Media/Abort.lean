import ChatNow.Lib.Turns
import ChatNow.Media.ObjectsKept
import ChatNow.Media.RefCount

/-!
# Aborting an upload

`MultipartHandler::abort` amid any other requests and tasks: between its calls the tables may change
in any way, also between the query and the commit of its `update_status`.

`complete` looks at the status of the row before it does anything, and answers a row that is
COMMITTED as if nothing were to do. `abort` writes DELETED without a look. An upload that is aborted
after its completion is deleted, and neither its reference nor its share of the quota is given back
(`abort_deletes_committed`).

`abort_harmless_iff` says when an abort does what it is for: at its write the row is neither
COMMITTED nor QUARANTINED, and where it is DELETED it has the place with which it was read; and if
it is PENDING, neither a query nor the write has failed.
-/

namespace ChatNow

open Prog MediaOp

/-! ### The row -/

namespace MediaState

variable {s s' : MediaState} {row : MediaFile} {file_id : String}

/-- The place of the row with the id. -/
def placeOf (s : MediaState) (file_id : String) : Option (String × String) :=
  (s.files.find? (·.file_id = file_id)).map (·.place)

theorem find_update_row {g : MediaFile → MediaFile} {files : List MediaFile}
    (hg : ∀ f, (g f).file_id = f.file_id) :
    (update_row file_id g files).find? (·.file_id = file_id) =
      (files.find? (·.file_id = file_id)).map g := by
  induction files with
  | nil => rfl
  | cons f files ih =>
    rw [update_row]
    split
    · next hid =>
      rw [List.find?_cons_of_pos (by simpa [hg] using hid), List.find?_cons_of_pos (by simpa)]
      rfl
    · next hid => rw [List.find?_cons_of_neg (by simpa), List.find?_cons_of_neg (by simpa), ih]

/-- A row that is not changed by the change. -/
theorem update_row_self {g : MediaFile → MediaFile} {files : List MediaFile}
    (h : ∀ f ∈ files.find? (·.file_id = file_id), g f = f) :
    update_row file_id g files = files := by
  induction files with
  | nil => rfl
  | cons f files ih =>
    rw [update_row]
    split
    · next hid => rw [h f (List.find?_cons_of_pos (by simpa))]
    · next hid => rw [ih fun f' hf' ↦ h f' (by rwa [List.find?_cons_of_neg (by simpa)])]

theorem find_writeBack (s : MediaState) (row : MediaFile) :
    (s.writeBack row).files.find? (·.file_id = row.file_id) =
      (s.files.find? (·.file_id = row.file_id)).map row.write_back :=
  find_update_row fun _ ↦ rfl

theorem statusOf_writeBack (s : MediaState) (row : MediaFile) :
    (s.writeBack row).statusOf row.file_id = (s.statusOf row.file_id).map fun _ ↦ row.status := by
  rw [statusOf, statusOf, find_writeBack, Option.map_map, Option.map_map]
  rfl

theorem placeOf_writeBack (s : MediaState) (row : MediaFile) :
    (s.writeBack row).placeOf row.file_id = (s.placeOf row.file_id).map fun _ ↦ row.place := by
  rw [placeOf, placeOf, find_writeBack, Option.map_map, Option.map_map]
  rfl

/-- A status that is written again changes no row exactly if the place does not change. -/
theorem writeBack_files_iff (h : s.statusOf row.file_id = some row.status) :
    (s.writeBack row).files = s.files ↔ s.placeOf row.file_id = some row.place := by
  obtain ⟨f, hf, hst⟩ := Option.map_eq_some_iff.1 h
  have hplace : s.placeOf row.file_id = some f.place := by rw [placeOf, hf, Option.map_some]
  constructor
  · intro hfiles
    have hafter := placeOf_writeBack s row
    have hsame : (s.writeBack row).placeOf row.file_id = s.placeOf row.file_id := by
      rw [placeOf, hfiles, placeOf]
    rw [hsame, hplace, Option.map_some] at hafter
    rw [hplace, hafter]
  · intro hsame
    refine update_row_self fun f' hf' ↦ ?_
    obtain rfl : f = f' := Option.some.inj (hf.symm.trans hf')
    have hkept : f.place = row.place := Option.some.inj (hplace.symm.trans hsame)
    obtain ⟨hbucket, hkey⟩ := Prod.mk.inj hkept
    rw [MediaFile.write_back, ← hst, ← hbucket, ← hkey]

/-- No reference, no quota and no object has changed. -/
structure SameStores (s s' : MediaState) : Prop where
  blobs : s'.blobs = s.blobs
  quotas : s'.quotas = s.quotas
  objects : s'.objects = s.objects

end MediaState

/-! ### The turns of an abort -/

/-- A call of the media service, with the states before and after. -/
abbrev MediaTurn := Turn MediaOp MediaState MediaChoice

/-- The abort does no harm to the row with the id: it leaves references, quotas and objects alone,
and the status where the row is COMMITTED or QUARANTINED; a row that is PENDING to its end it
deletes; and where the row is DELETED it changes no row. -/
structure HarmlessAbort (file_id : String) (tr : List MediaTurn) : Prop where
  stores : ∀ x ∈ tr, x.before.SameStores x.after
  kept : ∀ x ∈ tr, ∀ status, x.before.statusOf file_id = some status →
    status = .COMMITTED ∨ status = .QUARANTINED → x.after.statusOf file_id = some status
  deleted : ∀ x ∈ tr.getLast?, x.before.statusOf file_id = some .PENDING →
    x.after.statusOf file_id = some .DELETED
  again : ∀ x ∈ tr, x.before.statusOf file_id = some .DELETED → x.after.files = x.before.files

/-- The call writes that the row is DELETED, and the write takes effect. -/
def DeletesRow (file_id : String) (x : MediaTurn) : Prop :=
  x.op.sets = some (file_id, .DELETED) ∧ x.choice.acts = true

instance (file_id : String) (x : MediaTurn) : Decidable (DeletesRow file_id x) :=
  inferInstanceAs (Decidable (_ ∧ _))

/-- What is deleted is neither COMMITTED nor QUARANTINED, and has not been moved since it was read
if it is DELETED already; and what is PENDING to the end is deleted. -/
structure AbortsOpen (file_id : String) (tr : List MediaTurn) : Prop where
  opened : ∀ x ∈ tr, DeletesRow file_id x → ∀ status ∈ x.before.statusOf file_id,
    status ≠ .COMMITTED ∧ status ≠ .QUARANTINED
  unmoved : ∀ x ∈ tr, DeletesRow file_id x → x.before.statusOf file_id = some .DELETED →
    x.before.placeOf file_id = x.op.restores.map (·.place)
  written : ∀ x ∈ tr.getLast?, x.before.statusOf file_id = some .PENDING → DeletesRow file_id x

section Turns

variable {i : ℕ} {user_id upload_id file_id : String} {status : MediaFileStatus}
  {tr ys : List MediaTurn} {f row : MediaFile} {z : MediaTurn}

/-- A call that changes neither a row nor a store. -/
structure LeavesTables (x : MediaTurn) : Prop where
  files : x.after.files = x.before.files
  stores : x.before.SameStores x.after
  op : x.op.sets = none

theorem LeavesTables.statusOf {x : MediaTurn} (h : LeavesTables x) (file_id : String) :
    x.after.statusOf file_id = x.before.statusOf file_id := by
  rw [MediaState.statusOf, MediaState.statusOf, h.files]

theorem LeavesTables.not_deletes {x : MediaTurn} (h : LeavesTables x) (file_id : String) :
    ¬DeletesRow file_id x := by
  rintro ⟨hsets, -⟩
  rw [h.op] at hsets
  cases hsets

/-- The call is the commit of `update_status`, with the row that was read. -/
structure WritesStatus (i : ℕ) (row : MediaFile) (status : MediaFileStatus) (z : MediaTurn) :
    Prop where
  op : z.op = writeStatus row status
  after : z.after = (if z.choice.acts then z.before.writeBack { row with status := status }
    else z.before).clear i

/-- How an abort can go that finds the row of its caller: a query fails, or the row is written last.
-/
inductive AbortTurns (i : ℕ) (file_id : String) (tr : List MediaTurn) : Prop
  | unwritten (h : ∀ x ∈ tr, LeavesTables x)
  | written {ys : List MediaTurn} {z : MediaTurn} {row : MediaFile} (htr : tr = ys ++ [z])
      (h : ∀ x ∈ ys, LeavesTables x) (hid : row.file_id = file_id)
      (hz : WritesStatus i row .DELETED z)

theorem AbortTurns.cons {x : MediaTurn} (hx : LeavesTables x) (h : AbortTurns i file_id tr) :
    AbortTurns i file_id (x :: tr) := by
  cases h with
  | unwritten h => exact .unwritten (List.forall_mem_cons.2 ⟨hx, h⟩)
  | @written ys z row htr h hid hz =>
    have htr' : x :: tr = (x :: ys) ++ [z] := congrArg (x :: ·) htr
    exact .written htr' (List.forall_mem_cons.2 ⟨hx, h⟩) hid hz

/-- The turns of the update: the row is read and, if it is found, written back. -/
theorem update_status_turns {b : Bool}
    (h : (MediaFileTable.update_status file_id .DELETED).Amid (MediaState.exec i) tr b) :
    AbortTurns i file_id tr := by
  obtain ⟨c, s, row, s', tr, rfl, hx, hk⟩ := amid_call.1 h
  obtain ⟨rfl, rfl⟩ := Prod.mk.inj (Option.some.inj hx)
  have hread (gone : Bool) :
      LeavesTables ⟨readStatus file_id .DELETED, c, s, if gone then s.clear i else s⟩ := by
    cases gone <;> exact ⟨rfl, ⟨rfl, rfl, rfl⟩, rfl⟩
  refine .cons (hread _) ?_
  cases hrow : if c.fault then none else s.files.find? (·.file_id = file_id) with
  | none =>
    rw [hrow] at hk
    obtain ⟨rfl, -⟩ := amid_ret.1 hk
    exact .unwritten fun x hx ↦ absurd hx List.not_mem_nil
  | some row =>
    rw [hrow] at hk
    obtain ⟨c', s₁, r, s₁', tr, rfl, hx, hret⟩ := amid_call.1 hk
    obtain ⟨-, rfl⟩ := Prod.mk.inj (Option.some.inj hx)
    obtain ⟨rfl, -⟩ := amid_ret.1 hret
    exact .written (List.nil_append _).symm (fun x hx ↦ absurd hx List.not_mem_nil)
      (MediaState.id_of_find hrow) ⟨rfl, rfl⟩

theorem abort_turns {rsp : Except ServiceError Unit}
    (h : (MultipartHandler.abort user_id upload_id).Amid (MediaState.exec i) tr rsp)
    (hf : ∀ x ∈ tr.head?, x.before.files.find? (·.upload_id = some upload_id) = some f)
    (hown : f.owner_id = user_id) : AbortTurns i f.file_id tr := by
  obtain ⟨c, s, r, s', tr, rfl, hx, hk⟩ := amid_call.1 h
  obtain ⟨rfl, rfl⟩ := Prod.mk.inj (Option.some.inj hx)
  refine .cons ⟨rfl, ⟨rfl, rfl, rfl⟩, rfl⟩ ?_
  cases hfault : c.fault with
  | true =>
    rw [hfault, if_pos rfl] at hk
    obtain ⟨rfl, -⟩ := amid_ret.1 hk
    exact .unwritten fun x hx ↦ absurd hx List.not_mem_nil
  | false =>
    rw [hfault, if_neg Bool.false_ne_true, hf _ rfl] at hk
    simp only [Prog.bind] at hk
    rw [if_neg (not_not.2 hown)] at hk
    obtain ⟨c', s₁, r, s₁', tr, rfl, hx, hupdate⟩ := amid_call.1 hk
    obtain ⟨-, rfl⟩ := Prod.mk.inj (Option.some.inj hx)
    refine .cons ⟨?_, ?_, rfl⟩ ?_
    · show MediaState.files (ite _ _ _) = _
      split <;> rfl
    · show MediaState.SameStores _ (ite _ _ _)
      split <;> exact ⟨rfl, rfl, rfl⟩
    · have hrest : (MediaFileTable.update_status f.file_id .DELETED >>= fun _ ↦
          pure (Except.ok ())).Amid (MediaState.exec i) tr rsp := hupdate
      obtain ⟨tr₁, b, tr₂, rfl, hwrite, hret⟩ := amid_bind.1 hrest
      obtain ⟨rfl, -⟩ := amid_ret.1 hret
      rw [List.append_nil]
      exact update_status_turns hwrite

/-! ### The write -/

namespace WritesStatus

theorem deletes_iff (h : WritesStatus i row .DELETED z) :
    DeletesRow row.file_id z ↔ z.choice.acts = true := by
  rw [DeletesRow, h.op]
  exact and_iff_right rfl

theorem restores (h : WritesStatus i row status z) :
    z.op.restores.map (·.place) = some row.place := by
  rw [h.op]
  rfl

theorem stores (h : WritesStatus i row status z) : z.before.SameStores z.after := by
  rw [h.after]
  split <;> exact ⟨rfl, rfl, rfl⟩

theorem statusOf_of_acts (h : WritesStatus i row status z) (hacts : z.choice.acts = true) :
    z.after.statusOf row.file_id = (z.before.statusOf row.file_id).map fun _ ↦ status := by
  rw [h.after, if_pos hacts]
  exact MediaState.statusOf_writeBack z.before { row with status := status }

theorem files_of_not_acts (h : WritesStatus i row status z) (hacts : ¬z.choice.acts = true) :
    z.after.files = z.before.files := by
  rw [h.after, if_neg hacts]
  rfl

theorem statusOf_of_not_acts (h : WritesStatus i row status z) (hacts : ¬z.choice.acts = true) :
    z.after.statusOf row.file_id = z.before.statusOf row.file_id := by
  rw [MediaState.statusOf, h.files_of_not_acts hacts, MediaState.statusOf]

/-- A status that is written again changes no row exactly if the place does not change. -/
theorem files_iff (h : WritesStatus i row status z) (hacts : z.choice.acts = true)
    (hst : z.before.statusOf row.file_id = some status) :
    z.after.files = z.before.files ↔ z.before.placeOf row.file_id = some row.place := by
  rw [h.after, if_pos hacts]
  exact MediaState.writeBack_files_iff (s := z.before) hst

/-- The write does no harm exactly where the row is open, or unmoved, and the write does not fail.
-/
theorem harmless_iff (hz : WritesStatus i row .DELETED z) (hys : ∀ y ∈ ys, LeavesTables y) :
    HarmlessAbort row.file_id (ys ++ [z]) ↔ AbortsOpen row.file_id (ys ++ [z]) := by
  have hlast : z ∈ ys ++ [z] := List.mem_append_right _ List.mem_cons_self
  have hgetLast {x : MediaTurn} (hx : x ∈ (ys ++ [z]).getLast?) : z = x := by
    rw [List.getLast?_concat] at hx
    exact Option.some.inj hx
  have hmem {P : MediaTurn → Prop} (hP : ∀ y ∈ ys, P y) (hPz : P z) : ∀ x ∈ ys ++ [z], P x :=
    List.forall_mem_append.2 ⟨hP, List.forall_mem_singleton.2 hPz⟩
  constructor
  · intro h
    refine ⟨hmem (fun y hy hd ↦ absurd hd ((hys y hy).not_deletes _)) ?_,
      hmem (fun y hy hd ↦ absurd hd ((hys y hy).not_deletes _)) ?_, fun x hx hpending ↦ ?_⟩
    · intro hd status hst
      have hafter := hz.statusOf_of_acts hd.2
      rw [hst, Option.map_some] at hafter
      -- a status that is kept is DELETED after the write
      have hkept (hclosed : status = .COMMITTED ∨ status = .QUARANTINED) : status = .DELETED :=
        Option.some.inj ((h.kept z hlast status hst hclosed).symm.trans hafter)
      refine ⟨fun hc ↦ ?_, fun hq ↦ ?_⟩
      · exact absurd (hc.symm.trans (hkept (.inl hc))) (by decide)
      · exact absurd (hq.symm.trans (hkept (.inr hq))) (by decide)
    · intro hd hdeleted
      rw [hz.restores]
      exact (hz.files_iff hd.2 hdeleted).1 (h.again z hlast hdeleted)
    · obtain rfl := hgetLast hx
      have hdeleted := h.deleted z hx hpending
      refine hz.deletes_iff.2 ?_
      by_contra hacts
      rw [hz.statusOf_of_not_acts hacts, hpending] at hdeleted
      cases hdeleted
  · intro h
    refine ⟨hmem (fun y hy ↦ (hys y hy).stores) hz.stores, hmem ?_ ?_, fun x hx hpending ↦ ?_,
      hmem (fun y hy _ ↦ (hys y hy).files) fun hdeleted ↦ ?_⟩
    · exact fun y hy status hst _ ↦ ((hys y hy).statusOf _).trans hst
    · intro status hst hclosed
      by_cases hacts : z.choice.acts = true
      · obtain ⟨hc, hq⟩ := h.opened z hlast (hz.deletes_iff.2 hacts) status hst
        rcases hclosed with heq | heq
        · exact absurd heq hc
        · exact absurd heq hq
      · exact (hz.statusOf_of_not_acts hacts).trans hst
    · obtain rfl := hgetLast hx
      rw [hz.statusOf_of_acts (h.written z hx hpending).2, hpending]
      rfl
    · by_cases hacts : z.choice.acts = true
      · have hplace := h.unmoved z hlast (hz.deletes_iff.2 hacts) hdeleted
        exact (hz.files_iff hacts hdeleted).2 (hplace.trans hz.restores)
      · exact hz.files_of_not_acts hacts

end WritesStatus

/-- Without a write, a row that is PENDING to the end stays so. -/
theorem harmless_iff_of_leaves (h : ∀ x ∈ tr, LeavesTables x) :
    HarmlessAbort file_id tr ↔ AbortsOpen file_id tr := by
  constructor
  · intro hharmless
    refine ⟨fun x hx hd ↦ absurd hd ((h x hx).not_deletes _),
      fun x hx hd ↦ absurd hd ((h x hx).not_deletes _), fun x hx hpending ↦ ?_⟩
    have hdeleted := hharmless.deleted x hx hpending
    rw [(h x (List.mem_of_getLast? hx)).statusOf, hpending] at hdeleted
    cases hdeleted
  · intro hopen
    refine ⟨fun x hx ↦ (h x hx).stores, fun x hx status hst _ ↦ ((h x hx).statusOf _).trans hst,
      fun x hx hpending ↦ ?_, fun x hx _ ↦ (h x hx).files⟩
    have hd := hopen.written x hx hpending
    exact absurd hd ((h x (List.mem_of_getLast? hx)).not_deletes _)

theorem AbortTurns.harmless_iff (h : AbortTurns i file_id tr) :
    HarmlessAbort file_id tr ↔ AbortsOpen file_id tr := by
  cases h with
  | unwritten h => exact harmless_iff_of_leaves h
  | written htr h hid hz =>
    obtain rfl := htr
    obtain rfl := hid
    exact hz.harmless_iff h

end Turns

/-- **An abort does no harm** exactly if at its write the row is neither COMMITTED nor QUARANTINED,
and has the place with which it was read where it is DELETED, and, where the row is PENDING to the
end, neither a query nor the write has failed. The others may do anything in between. -/
theorem abort_harmless_iff (cfg : MediaConfig) (p p' : MediaPool) (user_id upload_id : String)
    (tr : List MediaTurn)
    (hw : (mediaService cfg).Watch p.threads.length
      ⟨p.threads ++ [do let _ ← MultipartHandler.abort user_id upload_id], p.shared⟩ tr p')
    (hdone : p'.threads[p.threads.length]? = some (.ret ())) (f : MediaFile)
    (hf : ∀ x ∈ tr.head?, x.before.files.find? (·.upload_id = some upload_id) = some f)
    (hown : f.owner_id = user_id) :
    HarmlessAbort f.file_id tr ↔ AbortsOpen f.file_id tr := by
  have hamid := hw.amid List.getElem?_concat_length hdone
  obtain ⟨tr₁, rsp, tr₂, rfl, habort, hret⟩ := amid_bind.1 hamid
  obtain ⟨rfl, -⟩ := amid_ret.1 hret
  rw [List.append_nil] at hf ⊢
  exact (abort_turns habort hf hown).harmless_iff

instance (file_id : String) (tr : List MediaTurn) : Decidable (AbortsOpen file_id tr) :=
  decidable_of_iff ((∀ x ∈ tr, DeletesRow file_id x → ∀ status ∈ (x.before.statusOf file_id).toList,
      status ≠ .COMMITTED ∧ status ≠ .QUARANTINED) ∧
    (∀ x ∈ tr, DeletesRow file_id x → x.before.statusOf file_id = some .DELETED →
      x.before.placeOf file_id = x.op.restores.map (·.place)) ∧
    ∀ x ∈ tr.getLast?.toList, x.before.statusOf file_id = some .PENDING → DeletesRow file_id x)
    ⟨fun h ↦ ⟨fun x hx hd st hst ↦ h.1 x hx hd st (Option.mem_toList.2 hst), h.2.1,
        fun x hx ↦ h.2.2 x (Option.mem_toList.2 hx)⟩,
      fun h ↦ ⟨fun x hx hd st hst ↦ h.opened x hx hd st (Option.mem_toList.1 hst), h.unmoved,
        fun x hx ↦ h.written x (Option.mem_toList.1 hx)⟩⟩

/-- Alice begins an upload in parts. -/
def aliceInits : List (Machine.Label MediaChoice MediaEv) :=
  .event (.init "alice" (note 4)) :: mediaCalls 0 4 ++ mediaId 0 "u1" :: mediaId 0 "f1" ::
  mediaCalls 0 2

/-- She completes it. -/
def aliceCompletes : List (Machine.Label MediaChoice MediaEv) :=
  aliceInits ++ .event (.complete_multipart "alice" "u1" [⟨1, "etag"⟩]) :: mediaCalls 1 1 ++
  .call 1 { body := [1, 2, 3, 4] } :: mediaCalls 1 8

/-- Her row. -/
def aliceRow (status : MediaFileStatus) : MediaFile :=
  { pending_row "alice" (note 4) "f1" notePlace.1 notePlace.2 0 (some "u1") with status }

/-- Alice has asked for the upload to be aborted. -/
def aliceAborting (p : MediaPool) : MediaPool :=
  ⟨p.threads ++ [do let _ ← MultipartHandler.abort "alice" "u1"], p.shared⟩

/-- The turns of alice's abort, which nobody interrupts. -/
def aliceTurns (p : MediaPool) : Option (List MediaTurn × MediaPool) :=
  (mediaService plainMedia).turns p.threads.length [{}, {}, {}, {}] (aliceAborting p)

/-- The abort has ended, and has found alice's row with the status. -/
def FindsRow (status : MediaFileStatus) (i : ℕ) (y : List MediaTurn × MediaPool) : Prop :=
  (y.2.threads[i]?.any (·.finished)) = true ∧
    ∀ x ∈ y.1.head?, x.before.files.find? (·.upload_id = some "u1") = some (aliceRow status)

instance (status : MediaFileStatus) (i : ℕ) (y : List MediaTurn × MediaPool) :
    Decidable (FindsRow status i y) := inferInstanceAs (Decidable (_ ∧ _))

theorem FindsRow.done {status : MediaFileStatus} {i : ℕ} {y : List MediaTurn × MediaPool}
    (h : FindsRow status i y) : y.2.threads[i]? = some (.ret ()) := by
  obtain ⟨q, hq, hfinished⟩ := (Option.any_eq_true _ _).1 h.1
  rw [hq, eq_ret_of_finished hfinished]

/-- An upload that is aborted before its completion. -/
theorem abort_harmless_before_completion :
    ∃ p, (mediaService plainMedia).Reach .any MediaState.start p ∧ ∃ tr p',
      (mediaService plainMedia).Watch p.threads.length (aliceAborting p) tr p' ∧
      p'.shared.statusOf "f1" = some .DELETED ∧ HarmlessAbort "f1" tr := by
  obtain ⟨p, hp, hy⟩ := Machine.exists_of_run (mediaService plainMedia) .any MediaState.start
    aliceInits
    (fun p ↦ (aliceTurns p).any (fun y ↦ FindsRow .PENDING p.threads.length y ∧
      y.2.shared.statusOf "f1" = some .DELETED ∧ AbortsOpen "f1" y.1) = true) (by decide +kernel)
  obtain ⟨⟨tr, p'⟩, hturns, hy⟩ := (Option.any_eq_true _ _).1 hy
  obtain ⟨hfinds, hdeleted, hopen⟩ := of_decide_eq_true hy
  have hw := Machine.Watch.of_turns hturns
  have hiff := abort_harmless_iff plainMedia p p' "alice" "u1" tr hw hfinds.done
    (aliceRow .PENDING) hfinds.2 rfl
  exact ⟨p, hp, tr, p', hw, hdeleted, hiff.2 hopen⟩

/-- An upload that is aborted after its completion: the row is deleted, the reference stays. -/
theorem abort_deletes_committed :
    ∃ p, (mediaService plainMedia).Reach .any MediaState.start p ∧
      p.shared.statusOf "f1" = some .COMMITTED ∧ ∃ tr p',
      (mediaService plainMedia).Watch p.threads.length (aliceAborting p) tr p' ∧
      FindsRow .COMMITTED p.threads.length (tr, p') ∧
      p'.shared.statusOf "f1" = some .DELETED ∧ p'.shared.ref_count noteHash = 1 ∧
      ¬HarmlessAbort "f1" tr := by
  obtain ⟨p, hp, hst, hy⟩ := Machine.exists_of_run (mediaService plainMedia) .any MediaState.start
    aliceCompletes
    (fun p ↦ p.shared.statusOf "f1" = some .COMMITTED ∧
      (aliceTurns p).any (fun y ↦ FindsRow .COMMITTED p.threads.length y ∧
        y.2.shared.statusOf "f1" = some .DELETED ∧ y.2.shared.ref_count noteHash = 1 ∧
        ∃ x ∈ y.1, x.before.statusOf "f1" = some .COMMITTED ∧
          x.after.statusOf "f1" = some .DELETED) = true) (by decide +kernel)
  obtain ⟨⟨tr, p'⟩, hturns, hy⟩ := (Option.any_eq_true _ _).1 hy
  obtain ⟨hfinds, hdeleted, href, x, hx, hbefore, hafter⟩ := of_decide_eq_true hy
  refine ⟨p, hp, hst, tr, p', Machine.Watch.of_turns hturns, hfinds, hdeleted, href, fun h ↦ ?_⟩
  have hkept := h.kept x hx .COMMITTED hbefore (.inl rfl)
  rw [hafter] at hkept
  cases hkept

end ChatNow
