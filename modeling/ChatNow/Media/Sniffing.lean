import ChatNow.Lib.Labelled
import ChatNow.Media.Machine
import Mathlib.Algebra.Order.Ring.Int

/-!
# What the sniffing worker covers

One worker runs `task_magic_sniff` over and over, while requests and other tasks write the table of
files. Its cursor follows `uploaded_at`, which is the time of the application; a row gets into the
list when it is committed. A row is passed by for good if the cursor is behind it by then, if its
object cannot be read at the one time that it is in a batch, or if the limit cuts a batch between
two rows of the same time (`not_covered_of_late`).

* `program_step`: the calls of the worker are those of `task_magic_sniff`.
* `covered_of_reach`: in runs without any of the three, every row that is committed is checked or
  still to come, and it is checked after as many runs as the cursor can make steps up to it.

Of a row it is known since when it is committed and whether it has been checked (`Watch`), which is
in no store.
-/

namespace ChatNow.Sniffing

open Prog MediaOp CleanupWorker

/-! ### The worker -/

/-- A row that has been committed while the worker runs. -/
structure Watch where
  /-- The cursor at that time. -/
  cursor : ℤ
  /-- How many runs had begun. -/
  runs : ℕ
  /-- Its content has been read and compared with its type since. -/
  checked : Bool
  deriving DecidableEq

/-- A row that has been read and is not what it claims to be. -/
structure Mismatch where
  row : MediaFile
  /-- The row as the update of its status has found it. -/
  found : Option MediaFile := none

structure World where
  media : MediaState
  /-- The cursor, which is `static thread_local`. -/
  cursor : ℤ
  /-- A run is in progress. -/
  busy : Bool := false
  /-- The rows of the batch that have not been read. -/
  rest : List MediaFile := []
  mismatch : Option Mismatch := none
  /-- How many runs have begun. -/
  runs : ℕ := 0
  watch : String → Option Watch := fun _ ↦ none

/-- What can happen. -/
inductive Label
  /-- A call of a request or of another task. -/
  | other (i : ℕ) (o : MediaOp) (c : MediaChoice)
  /-- A client puts an object. -/
  | put (place : String × String) (body : List UInt8)
  /-- A run begins with its batch. -/
  | list (c : MediaChoice)
  /-- The next row is read. -/
  | read (c : MediaChoice)
  /-- The row that is to be quarantined is looked up. -/
  | lookup (c : MediaChoice)
  /-- It is quarantined. -/
  | quarantine (c : MediaChoice)
  /-- A run ends. -/
  | finish

namespace World

variable (w : World)

/-- The table changes. A row that is not committed is not watched, and one that has been committed
is from now on. -/
def write (s : MediaState) : World :=
  { w with
    media := s
    watch := fun file_id ↦
      if s.statusOf file_id = some .COMMITTED then
        if w.media.statusOf file_id = some .COMMITTED then w.watch file_id
        else some ⟨w.cursor, w.runs, false⟩
      else none }

/-- The row has been checked. -/
def check (r : MediaFile) : World :=
  { w with
    watch := Function.update w.watch r.file_id
      ((w.watch r.file_id).map fun v ↦ { v with checked := true }) }

/-- The end of a turn of the loop. -/
def advance (r : MediaFile) : World :=
  { w with cursor := max w.cursor r.uploaded_at }

/-- The row at the head of the batch has been read, or not. -/
def read_row (r : MediaFile) (rest : List MediaFile) : Option (List UInt8) → World
  | none => { w with rest := rest }.advance r
  | some buf =>
    let w := ({ w with rest := rest } : World).check r
    if magic_sniff.matches_claimed buf r.mime_type then w.advance r
    else { w with mismatch := some { row := r } }

/-- The row that is to be quarantined has been found, or not. -/
def find_row (r : MediaFile) : Option MediaFile → World
  | none => { w with mismatch := none }.advance r
  | some row => { w with mismatch := some ⟨r, row⟩ }

/-- What happens. The worker is thread `0`. -/
def step : Label → World → Option World
  | .other i o c, w => (w.media.exec i o c).map fun x ↦ w.write x.2
  | .put place body, w => some { w with media := w.media.setObject place (some body) }
  | .list c, w =>
    if w.busy then none
    else
      (w.media.exec 0 (listCommittedAfter w.cursor 100) c).map fun x ↦
        { w with busy := true, rest := x.1, runs := w.runs + 1 }
  | .read c, w =>
    match w.mismatch, w.rest with
    | none, r :: rest =>
      (w.media.exec 0 (getRange r.bucket r.object_key 512) c).map fun x ↦ w.read_row r rest x.1
    | _, _ => none
  | .lookup c, w =>
    match w.mismatch with
    | some ⟨r, none⟩ =>
      (w.media.exec 0 (readStatus r.file_id .QUARANTINED) c).map fun x ↦
        (w.write x.2).find_row r x.1
    | _ => none
  | .quarantine c, w =>
    match w.mismatch with
    | some ⟨r, some row⟩ =>
      (w.media.exec 0 (writeStatus row .QUARANTINED) c).map fun x ↦
        ({ w.write x.2 with mismatch := none } : World).advance r
    | _ => none
  | .finish, w =>
    if w.busy ∧ w.rest = [] ∧ w.mismatch = none then some { w with busy := false } else none

end World

/-- The worker, and everybody else. -/
def worker : Labelled World Label := ⟨World.step⟩

/-! ### The program of the worker -/

/-- What is left of the update that quarantines a row. -/
def Mismatch.program (m : Mismatch) : MediaM Bool :=
  match m.found with
  | none => MediaFileTable.update_status m.row.file_id .QUARANTINED
  | some row => op (writeStatus row .QUARANTINED)

/-- What is left of the task. -/
def World.program (w : World) : MediaM ℤ :=
  match w.mismatch with
  | some m => do
    let _ ← m.program
    each sniff_row w.rest
    return CleanupWorker.advance (max w.cursor m.row.uploaded_at) w.rest
  | none => do
    each sniff_row w.rest
    return CleanupWorker.advance w.cursor w.rest

section Program

variable {w : World} {r row : MediaFile} {rest : List MediaFile}

/-- **A run is one of `task_magic_sniff`.** -/
theorem program_list (hm : w.mismatch = none) :
    task_magic_sniff w.cursor = .call (listCommittedAfter w.cursor 100) fun rows ↦
      World.program { w with busy := true, rest := rows, runs := w.runs + 1 } := by
  simp only [World.program, hm]
  rfl

theorem program_read (hm : w.mismatch = none) (hr : w.rest = r :: rest) :
    w.program = .call (getRange r.bucket r.object_key 512) fun x ↦
      (w.read_row r rest x).program := by
  simp only [World.program, hm, hr]
  refine congrArg (Prog.call _) (funext fun x ↦ ?_)
  cases x with
  | none => simp only [World.read_row, World.advance, hm]; rfl
  | some buf =>
    simp only [World.read_row, World.advance, World.check]
    show ((if magic_sniff.matches_claimed buf r.mime_type then pure ()
      else (MediaFileTable.update_status r.file_id .QUARANTINED >>= fun _ ↦ pure () :
        MediaM Unit)) >>= fun _ ↦ each sniff_row rest) >>=
          (fun _ ↦ pure (CleanupWorker.advance w.cursor (r :: rest)) : Unit → MediaM ℤ) = _
    split
    · simp only [hm]
      rfl
    · refine congrArg (Prog.call _) (funext fun row ↦ ?_)
      cases row <;> rfl

theorem program_lookup (hm : w.mismatch = some ⟨r, none⟩) :
    w.program = .call (readStatus r.file_id .QUARANTINED) fun row ↦
      (w.find_row r row).program := by
  simp only [World.program, hm]
  refine congrArg (Prog.call _) (funext fun row ↦ ?_)
  cases row <;> rfl

theorem program_quarantine (hm : w.mismatch = some ⟨r, some row⟩) :
    w.program = .call (writeStatus row .QUARANTINED) fun _ ↦
      (({ w with mismatch := none } : World).advance r).program := by
  simp only [World.program, hm]
  rfl

theorem program_finish (hm : w.mismatch = none) (hr : w.rest = []) : w.program = .ret w.cursor := by
  simp only [World.program, hm, hr]
  rfl

end Program

/-! ### What is asked of a run -/

/-- Where the cursor will be when the run that is in progress has ended. -/
def World.target (w : World) : ℤ :=
  CleanupWorker.advance w.cursor (w.mismatch.toList.map (·.row) ++ w.rest)

/-- The database leaves a row out of a batch only because of the limit, in the order of the times.
-/
def Answers : Label → World → Prop
  | .list c, w => ∀ f ∈ w.media.files, f.status = .COMMITTED → w.cursor < f.uploaded_at →
      f ∉ c.rows → c.rows.length = 100 ∧ ∀ r ∈ c.rows, r.uploaded_at ≤ f.uploaded_at
  | _, _ => True

/-- A row is committed when the cursor is not behind it and will not be after this run; the object
of a row that has been committed can be read; and the limit does not cut a batch between two rows of
the same time. -/
def InTime : Label → World → Prop
  | .other i o c, w => ∀ x ∈ w.media.exec i o c, ∀ f ∈ x.2.files, f.status = .COMMITTED →
      w.media.statusOf f.file_id ≠ some .COMMITTED → w.target < f.uploaded_at
  | .read c, w => ∀ r ∈ w.rest.head?, (w.watch r.file_id).isSome →
      c.fault = false ∧ (w.media.objects r.place).isSome
  | .list c, w => ∀ f ∈ w.media.files, f.status = .COMMITTED → w.cursor < f.uploaded_at →
      f ∉ c.rows → ∀ r ∈ c.rows, r.uploaded_at ≠ f.uploaded_at
  | _, _ => True

instance (l : Label) (w : World) : Decidable (Answers l w) :=
  match l with
  | .list c => inferInstanceAs (Decidable (∀ f ∈ w.media.files, f.status = .COMMITTED →
      w.cursor < f.uploaded_at → f ∉ c.rows →
        c.rows.length = 100 ∧ ∀ r ∈ c.rows, r.uploaded_at ≤ f.uploaded_at))
  | .other _ _ _ => .isTrue trivial
  | .put _ _ => .isTrue trivial
  | .read _ => .isTrue trivial
  | .lookup _ => .isTrue trivial
  | .quarantine _ => .isTrue trivial
  | .finish => .isTrue trivial

instance (l : Label) (w : World) : Decidable (InTime l w) :=
  match l with
  | .other i o c => inferInstanceAs (Decidable (∀ x ∈ w.media.exec i o c, ∀ f ∈ x.2.files,
      f.status = .COMMITTED → w.media.statusOf f.file_id ≠ some .COMMITTED →
        w.target < f.uploaded_at))
  | .read c => inferInstanceAs (Decidable (∀ r ∈ w.rest.head?, (w.watch r.file_id).isSome →
      c.fault = false ∧ (w.media.objects r.place).isSome))
  | .list c => inferInstanceAs (Decidable (∀ f ∈ w.media.files, f.status = .COMMITTED →
      w.cursor < f.uploaded_at → f ∉ c.rows → ∀ r ∈ c.rows, r.uploaded_at ≠ f.uploaded_at))
  | .put _ _ => .isTrue trivial
  | .lookup _ => .isTrue trivial
  | .quarantine _ => .isTrue trivial
  | .finish => .isTrue trivial

/-- Every row that has been committed while the worker runs, and still is, has been checked, or the
cursor is not past it, or it is still in the batch. It has been checked when as many runs have ended
since as the cursor had to go up to it. -/
def Covered (w : World) : Prop :=
  ∀ f ∈ w.media.files, ∀ v ∈ w.watch f.file_id,
    (v.checked = true ∨ w.cursor < f.uploaded_at ∨ ∃ r ∈ w.rest, r.file_id = f.file_id) ∧
      (w.busy = false → f.uploaded_at - v.cursor ≤ (w.runs : ℤ) - v.runs → v.checked = true)

/-! ### Rows -/

section Rows

variable {s s' : MediaState} {f : MediaFile} {i : ℕ} {o : MediaOp} {c : MediaChoice} {r : o.Res}

/-- Rows keep their times. -/
def Grown (s s' : MediaState) : Prop :=
  ∀ f' ∈ s'.files, (∃ f ∈ s.files, f.file_id = f'.file_id ∧ f.uploaded_at = f'.uploaded_at) ∨
    ∀ f ∈ s.files, f.file_id ≠ f'.file_id

theorem Grown.of_files (h : s'.files = s.files) : Grown s s' :=
  fun f' hf' ↦ .inl ⟨f', h ▸ hf', rfl, rfl⟩

theorem grown_writeBack (s : MediaState) (row : MediaFile) : Grown s (s.writeBack row) := by
  intro f' hf'
  rcases MediaState.mem_writeBack hf' with ⟨hf, -⟩ | ⟨f₀, hf₀, -, rfl⟩
  · exact .inl ⟨f', hf, rfl, rfl⟩
  · exact .inl ⟨f₀, hf₀, rfl, rfl⟩

theorem grown_insert (s : MediaState) (f : MediaFile) : Grown s (s.insert f) := by
  rw [MediaState.insert]
  split
  · next hnew =>
    intro f' hf'
    rcases List.mem_append.1 hf' with hf' | hf'
    · exact .inl ⟨f', hf', rfl, rfl⟩
    · obtain rfl := List.mem_singleton.1 hf'
      exact .inr hnew
  · exact .of_files rfl

theorem Grown.ite {P : Prop} [Decidable P] (h : Grown s s') : Grown s (if P then s' else s) := by
  split
  · exact h
  · exact .of_files rfl

/-- **An operation** keeps the times of the rows. -/
theorem grown_exec (hx : s.exec i o c = some (r, s')) : Grown s s' := by
  by_cases hquiet : o.Quiet
  · exact .of_files (exec_quiet hquiet hx).files
  have hsome {s₁ : MediaState} {r' : o.Res} (h : some (r', s₁) = some (r, s'))
      (hs₁ : Grown s s₁) : Grown s s' := by
    obtain ⟨-, rfl⟩ := Prod.mk.inj (Option.some.inj h)
    exact hs₁
  cases o with
  | insertFile f => exact hsome hx (grown_insert s f).ite
  | writeBucketKey row bucket key => exact hsome hx (grown_writeBack s _).ite
  | readStatus file_id status => exact .of_files (MediaState.readStatus_tables hx).1
  | writeStatus row status =>
    have hwrite : Grown s (if c.acts then s.writeBack { row with status := status } else s) :=
      (grown_writeBack s _).ite
    exact hsome hx hwrite
  | upsertBlob b =>
    refine hsome hx (Grown.ite (.of_files ?_))
    rfl
  | incRef hash =>
    refine hsome hx (Grown.ite (.of_files ?_))
    rw [MediaState.addRef]
    split <;> rfl
  | eraseBlob hash =>
    refine hsome hx (Grown.ite (.of_files ?_))
    rfl
  | headObject f =>
    refine hsome hx (.of_files ?_)
    split <;> rfl
  | deleteObject bucket key =>
    refine hsome hx (Grown.ite (.of_files ?_))
    rfl
  | completeMultipart bucket key upload_id parts =>
    refine hsome hx (Grown.ite (.of_files ?_))
    rfl
  | _ => exact absurd trivial hquiet

end Rows

/-! ### The target -/

section Target

variable {cursor x : ℤ} {rows : List MediaFile} {r : MediaFile}

theorem advance_cons (cursor : ℤ) (r : MediaFile) (rows : List MediaFile) :
    CleanupWorker.advance cursor (r :: rows) =
      CleanupWorker.advance (max cursor r.uploaded_at) rows := rfl

theorem advance_lt : CleanupWorker.advance cursor rows < x ↔
    cursor < x ∧ ∀ r ∈ rows, r.uploaded_at < x := by
  induction rows generalizing cursor with
  | nil => simp [CleanupWorker.advance]
  | cons r rows ih => rw [advance_cons, ih, List.forall_mem_cons, max_lt_iff, and_assoc]

theorem le_advance (cursor : ℤ) (rows : List MediaFile) :
    cursor ≤ CleanupWorker.advance cursor rows := by
  by_contra hlt
  exact absurd (advance_lt.1 (not_le.1 hlt)).1 (lt_irrefl _)

theorem le_advance_of_mem (cursor : ℤ) (hr : r ∈ rows) :
    r.uploaded_at ≤ CleanupWorker.advance cursor rows := by
  by_contra hlt
  exact absurd ((advance_lt.1 (not_le.1 hlt)).2 r hr) (lt_irrefl _)

end Target

/-! ### The invariant -/

/-- What a row waits for that has been committed and not checked: to be read in this run, or for the
cursor to come up to it. -/
def Awaits (w : World) (f : MediaFile) (v : Watch) : Prop :=
  (∃ r ∈ w.rest, r.file_id = f.file_id) ∧ (w.runs : ℤ) - v.runs ≤ f.uploaded_at - v.cursor ∨
    w.target < f.uploaded_at ∧ (w.runs : ℤ) - v.runs ≤ w.target - v.cursor

structure Inv (w : World) : Prop where
  idle : w.busy = false → w.rest = [] ∧ w.mismatch = none
  committed : ∀ file_id, ∀ v ∈ w.watch file_id, w.media.statusOf file_id = some .COMMITTED
  awaits : ∀ f ∈ w.media.files, ∀ v ∈ w.watch f.file_id, v.checked = false → Awaits w f v

section Inv

variable {w w' : World} {s' : MediaState} {c : MediaChoice} {r : MediaFile} {rest : List MediaFile}

theorem cursor_le_target (w : World) : w.cursor ≤ w.target := le_advance _ _

theorem Inv.covered (h : Inv w) : Covered w := by
  intro f hf v hv
  refine ⟨?_, fun hidle hruns ↦ ?_⟩
  · cases hchecked : v.checked with
    | true => exact .inl rfl
    | false =>
      rcases h.awaits f hf v hv hchecked with ⟨hrest, -⟩ | ⟨hlt, -⟩
      · exact .inr (.inr hrest)
      · exact .inr (.inl ((cursor_le_target w).trans_lt hlt))
  · by_contra hchecked
    rcases h.awaits f hf v hv (Bool.of_not_eq_true hchecked) with
      ⟨⟨r, hr, -⟩, -⟩ | ⟨hlt, hle⟩
    · rw [(h.idle hidle).1] at hr
      exact absurd hr List.not_mem_nil
    · omega

/-- The table changes, and what is committed is in time. -/
theorem Inv.write (h : Inv w) (hgrown : Grown w.media s')
    (hnew : ∀ f ∈ s'.files, f.status = .COMMITTED →
      w.media.statusOf f.file_id ≠ some .COMMITTED → w.target < f.uploaded_at) :
    Inv (w.write s') where
  idle := h.idle
  committed file_id v hv := by
    change v ∈ (if s'.statusOf file_id = some .COMMITTED then _ else none) at hv
    split at hv
    · next hcom => exact hcom
    · cases hv
  awaits f' hf' v hv hchecked := by
    change v ∈ (if s'.statusOf f'.file_id = some .COMMITTED then _ else none) at hv
    split at hv
    · next hcom =>
      rw [MediaState.statusOf_of_mem (s := s') hf'] at hcom
      split at hv
      · next hbefore =>
        rcases hgrown f' hf' with ⟨f, hf, hid, htime⟩ | hfresh
        · have hawaits := h.awaits f hf v (hid ▸ hv) hchecked
          rw [Awaits, hid, htime] at hawaits
          exact hawaits
        · rw [MediaState.statusOf] at hbefore
          obtain ⟨f, hf, -⟩ := Option.map_eq_some_iff.1 hbefore
          have hdec := List.find?_some hf
          exact absurd (of_decide_eq_true hdec) (hfresh f (List.mem_of_find?_eq_some hf))
      · next hbefore =>
        obtain rfl := Option.some.inj hv
        refine .inr ⟨hnew f' hf' (Option.some.inj hcom) hbefore, ?_⟩
        have hle := cursor_le_target w
        show (w.runs : ℤ) - w.runs ≤ w.target - w.cursor
        omega
    · cases hv

/-- The row has been checked. -/
theorem Inv.check (h : Inv w) (r : MediaFile) : Inv (w.check r) where
  idle := h.idle
  committed file_id v hv := by
    change v ∈ Function.update w.watch r.file_id _ file_id at hv
    rcases eq_or_ne file_id r.file_id with rfl | hne
    · rw [Function.update_self] at hv
      obtain ⟨v₀, hv₀, -⟩ := Option.map_eq_some_iff.1 hv
      exact h.committed _ v₀ hv₀
    · rw [Function.update_of_ne hne] at hv
      exact h.committed _ v hv
  awaits f hf v hv hchecked := by
    change v ∈ Function.update w.watch r.file_id _ f.file_id at hv
    rcases eq_or_ne f.file_id r.file_id with heq | hne
    · rw [heq, Function.update_self] at hv
      obtain ⟨v₀, -, rfl⟩ := Option.map_eq_some_iff.1 hv
      cases hchecked
    · rw [Function.update_of_ne hne] at hv
      exact h.awaits f hf v hv hchecked

/-- The worker goes on, to the same target. -/
theorem Inv.of_target (h : Inv w) (hmedia : w'.media = w.media) (hwatch : w'.watch = w.watch)
    (hruns : w'.runs = w.runs) (htarget : w'.target = w.target)
    (hidle : w'.busy = false → w'.rest = [] ∧ w'.mismatch = none)
    (hrest : ∀ file_id, ∀ v ∈ w.watch file_id, v.checked = false →
      (∃ r ∈ w.rest, r.file_id = file_id) → ∃ r ∈ w'.rest, r.file_id = file_id) : Inv w' where
  idle := hidle
  committed file_id v hv := by
    rw [hwatch] at hv
    rw [hmedia]
    exact h.committed file_id v hv
  awaits f hf v hv hchecked := by
    rw [hmedia] at hf
    rw [hwatch] at hv
    rw [Awaits, hruns, htarget]
    exact (h.awaits f hf v hv hchecked).imp_left
      fun ⟨hin, hle⟩ ↦ ⟨hrest f.file_id v hv hchecked hin, hle⟩

/-- The row at the head of the batch is left behind: it has been checked if it is watched. -/
theorem Inv.behind (h : Inv w) (hr : w.rest = r :: rest)
    (hchecked : ∀ v ∈ w.watch r.file_id, v.checked = true) (hmedia : w'.media = w.media)
    (hwatch : w'.watch = w.watch) (hruns : w'.runs = w.runs) (htarget : w'.target = w.target)
    (hbusy : w'.busy = w.busy) (hrest : w'.rest = rest) : Inv w' := by
  refine h.of_target hmedia hwatch hruns htarget (fun hidle ↦ ?_) fun file_id v hv hfalse hin ↦ ?_
  · rw [hbusy] at hidle
    rw [(h.idle hidle).1] at hr
    cases hr
  · obtain ⟨r', hr', rfl⟩ := hin
    rw [hr] at hr'
    rcases List.mem_cons.1 hr' with rfl | hr'
    · rw [hchecked v hv] at hfalse
      cases hfalse
    · exact ⟨r', hrest ▸ hr', rfl⟩

/-- **A row is read**, or not if it is not watched. -/
theorem Inv.read_row (h : Inv w) (hm : w.mismatch = none) (hr : w.rest = r :: rest)
    {x : Option (List UInt8)} (hx : (w.watch r.file_id).isSome → x.isSome) :
    Inv (w.read_row r rest x) := by
  have htarget : w.target = CleanupWorker.advance (max w.cursor r.uploaded_at) rest := by
    rw [World.target, hm, hr]
    rfl
  cases x with
  | none =>
    refine h.behind hr (fun v hv ↦ ?_) rfl rfl rfl ?_ rfl rfl
    · rw [Option.mem_def.1 hv] at hx
      cases hx rfl
    · rw [htarget, World.read_row, World.target]
      show CleanupWorker.advance _ (w.mismatch.toList.map (·.row) ++ rest) = _
      rw [hm]
      rfl
  | some buf =>
    have hchecked : ∀ v ∈ (w.check r).watch r.file_id, v.checked = true := fun v hv ↦ by
      change v ∈ Function.update w.watch r.file_id _ r.file_id at hv
      rw [Function.update_self] at hv
      obtain ⟨v₀, -, rfl⟩ := Option.map_eq_some_iff.1 hv
      rfl
    rw [World.read_row]
    split
    · refine (h.check r).behind hr hchecked rfl rfl rfl ?_ rfl rfl
      show CleanupWorker.advance _ (w.mismatch.toList.map (·.row) ++ rest) = w.target
      rw [hm, htarget]
      rfl
    · refine (h.check r).behind hr hchecked rfl rfl rfl ?_ rfl rfl
      show CleanupWorker.advance w.cursor (r :: rest) = w.target
      rw [htarget]
      rfl

/-- **A run begins** with all rows that the cursor has not passed, or as many as there may be. -/
theorem Inv.list (h : Inv w) (hbusy : w.busy = false) {rows : List MediaFile}
    (hlists : ∀ r ∈ rows, w.cursor < r.uploaded_at)
    (hanswers : ∀ f ∈ w.media.files, f.status = .COMMITTED → w.cursor < f.uploaded_at →
      f ∉ rows → rows.length = 100 ∧ ∀ r ∈ rows, r.uploaded_at < f.uploaded_at) :
    Inv { w with busy := true, rest := rows, runs := w.runs + 1 } where
  idle hidle := by cases hidle
  committed := h.committed
  awaits f hf v hv hchecked := by
    obtain ⟨hrest, hm⟩ := h.idle hbusy
    have htarget : w.target = w.cursor := by rw [World.target, hm, hrest]; rfl
    rcases h.awaits f hf v hv hchecked with ⟨⟨r, hr, -⟩, -⟩ | ⟨hlt, hle⟩
    · rw [hrest] at hr
      exact absurd hr List.not_mem_nil
    rw [htarget] at hlt hle
    by_cases hin : f ∈ rows
    · refine .inl ⟨⟨f, hin, rfl⟩, ?_⟩
      show ((w.runs + 1 : ℕ) : ℤ) - v.runs ≤ f.uploaded_at - v.cursor
      omega
    · have hcom : f.status = .COMMITTED := by
        have hstatus := h.committed _ v hv
        rw [MediaState.statusOf_of_mem hf] at hstatus
        exact Option.some.inj hstatus
      obtain ⟨hlen, hbefore⟩ := hanswers f hf hcom hlt hin
      obtain ⟨r, hr⟩ : ∃ r, r ∈ rows := List.exists_mem_of_length_pos (by omega)
      have hstep := le_advance_of_mem w.cursor hr
      have hpast := hlists r hr
      refine .inr ⟨?_, ?_⟩
      · show CleanupWorker.advance w.cursor (w.mismatch.toList.map (·.row) ++ rows) < _
        rw [hm]
        exact advance_lt.2 ⟨hlt, hbefore⟩
      · show ((w.runs + 1 : ℕ) : ℤ) - v.runs ≤
          CleanupWorker.advance w.cursor (w.mismatch.toList.map (·.row) ++ rows) - v.cursor
        rw [hm, Option.toList_none, List.map_nil, List.nil_append]
        omega

/-- Without a new committed row, what is committed is in time. -/
theorem Inv.write_of_subset (h : Inv w) (hgrown : Grown w.media s')
    (hold : ∀ f ∈ s'.files, f.status = .COMMITTED → f ∈ w.media.files) : Inv (w.write s') :=
  h.write hgrown fun f hf hcom hnot ↦ by
    rw [MediaState.statusOf_of_mem (hold f hf hcom), hcom] at hnot
    exact absurd rfl hnot

/-- A quarantine commits nothing. -/
theorem mem_of_quarantine {s : MediaState} {row : MediaFile} {x : Bool × MediaState}
    (hx : s.exec 0 (writeStatus row .QUARANTINED) c = some x) {f : MediaFile}
    (hf : f ∈ x.2.files) (hcom : f.status = .COMMITTED) : f ∈ s.files := by
  obtain rfl := Option.some.inj hx
  have hf' : f ∈ (if c.acts then s.writeBack { row with status := .QUARANTINED }
    else s).files := hf
  split at hf'
  · rcases MediaState.mem_writeBack hf' with ⟨hmem, -⟩ | ⟨f₀, -, -, rfl⟩
    · exact hmem
    · cases hcom
  · exact hf'

/-- **The worker is done with a row** that it has quarantined, or not found. -/
theorem Inv.done {m : Mismatch} (h : Inv w) (hm : w.mismatch = some m) :
    Inv (({ w with mismatch := none } : World).advance m.row) := by
  refine h.of_target rfl rfl rfl ?_ (fun hidle ↦ ?_) fun _ _ _ _ hin ↦ hin
  · show CleanupWorker.advance (max w.cursor m.row.uploaded_at) w.rest =
      CleanupWorker.advance w.cursor (w.mismatch.toList.map (·.row) ++ w.rest)
    rw [hm]
    rfl
  · have hnone := (h.idle hidle).2
    rw [hm] at hnone
    cases hnone

/-- **A step in time.** -/
theorem Inv.step (h : Inv w) {l : Label} (hanswers : Answers l w) (htime : InTime l w)
    (hstep : worker.step l w = some w') : Inv w' := by
  cases l with
  | other i o c =>
    obtain ⟨x, hx, rfl⟩ := Option.map_eq_some_iff.1 hstep
    exact h.write (grown_exec hx) (htime x hx)
  | put place body =>
    obtain rfl := Option.some.inj hstep
    exact ⟨h.idle, h.committed, h.awaits⟩
  | list c =>
    change (if w.busy then none else _) = _ at hstep
    split at hstep
    · cases hstep
    · next hbusy =>
      obtain ⟨x, hx, rfl⟩ := Option.map_eq_some_iff.1 hstep
      obtain ⟨⟨-, -, hlists⟩, heq⟩ := Option.ite_none_right_eq_some.1 hx
      obtain rfl := Option.some.inj heq
      refine h.list (Bool.of_not_eq_true hbusy) (fun r hr ↦ (hlists r hr).2.2)
        fun f hf hcom hlt hout ↦ ?_
      obtain ⟨hlen, hle⟩ := hanswers f hf hcom hlt hout
      exact ⟨hlen, fun r hr ↦ lt_of_le_of_ne (hle r hr) (htime f hf hcom hlt hout r hr)⟩
  | read c =>
    change (match w.mismatch, w.rest with | none, r :: rest => _ | _, _ => none) = _ at hstep
    split at hstep
    · next r rest hm hr =>
      obtain ⟨x, hx, rfl⟩ := Option.map_eq_some_iff.1 hstep
      obtain rfl := Option.some.inj hx
      refine h.read_row hm hr fun hw ↦ ?_
      obtain ⟨hfault, hobject⟩ := htime r (by rw [hr]; rfl) hw
      show (if c.fault then none else (w.media.objects r.place).map _).isSome
      rw [hfault, if_neg Bool.false_ne_true, Option.isSome_map]
      exact hobject
    · cases hstep
  | lookup c =>
    change (match w.mismatch with | some ⟨r, none⟩ => _ | _ => none) = _ at hstep
    split at hstep
    · next r hm =>
      obtain ⟨x, hx, rfl⟩ := Option.map_eq_some_iff.1 hstep
      have hfiles := (MediaState.readStatus_tables hx).1
      have hwrite := h.write_of_subset (.of_files hfiles) fun f hf _ ↦ hfiles ▸ hf
      cases x.1 with
      | none => exact hwrite.done hm
      | some row =>
        refine hwrite.of_target rfl rfl rfl ?_ (fun hidle ↦ ?_) fun _ _ _ _ hin ↦ hin
        · show CleanupWorker.advance w.cursor (r :: w.rest) =
            CleanupWorker.advance w.cursor (w.mismatch.toList.map (·.row) ++ w.rest)
          rw [hm]
          rfl
        · have hnone := (h.idle hidle).2
          rw [hm] at hnone
          cases hnone
    · cases hstep
  | quarantine c =>
    change (match w.mismatch with | some ⟨r, some row⟩ => _ | _ => none) = _ at hstep
    split at hstep
    · next r row hm =>
      obtain ⟨x, hx, rfl⟩ := Option.map_eq_some_iff.1 hstep
      have hwrite := h.write_of_subset (grown_exec hx) fun f hf hcom ↦ mem_of_quarantine hx hf hcom
      exact hwrite.done hm
    · cases hstep
  | finish =>
    obtain ⟨⟨-, hrest, hm⟩, heq⟩ := Option.ite_none_right_eq_some.1 hstep
    obtain rfl := Option.some.inj heq
    exact ⟨fun _ ↦ ⟨hrest, hm⟩, h.committed, h.awaits⟩

end Inv

/-! ### Runs -/

/-- The worker before its first run, with any tables and any cursor. -/
def World.start (s : MediaState) (cursor : ℤ) : World := { media := s, cursor }

/-- **Every row that is committed in time is checked.** -/
theorem covered_of_reach {s : MediaState} {cursor : ℤ} {w : World}
    (hr : worker.Reach (fun l w ↦ Answers l w ∧ InTime l w) (.start s cursor) w) : Covered w := by
  have hstart : Inv (.start s cursor) :=
    ⟨fun _ ↦ ⟨rfl, rfl⟩, fun _ _ hv ↦ (by cases hv), fun _ _ _ hv ↦ (by cases hv)⟩
  exact (Labelled.invariant hr hstart fun h hG hstep ↦ h.step hG.1 hG.2 hstep).covered

/-- A row of somebody, applied for at the given time. -/
def applied (file_id : String) (uploaded_at : ℤ) : MediaFile where
  file_id := file_id
  content_hash := file_id
  bucket := "private"
  object_key := file_id
  file_name := file_id
  file_size := 1
  mime_type := "image/png"
  purpose := .CHAT
  owner_id := "alice"
  uploaded_at := uploaded_at

/-- The row, committed. -/
def committed (file_id : String) (uploaded_at : ℤ) : MediaFile :=
  { applied file_id uploaded_at with status := .COMMITTED }

/-- Two rows are applied for, and have their objects. -/
def twoApplied : List Label :=
  [.other 1 (insertFile (applied "a" 1)) {}, .other 2 (insertFile (applied "b" 2)) {},
    .put ("private", "a") [1], .put ("private", "b") [1]]

/-- A run over one row. -/
def runOver (r : MediaFile) : List Label :=
  [.list { rows := [r] }, .read {}, .finish]

/-- Two rows are committed in the order of their times. -/
theorem covered_of_reach_two :
    ∃ w, worker.Reach (fun l w ↦ Answers l w ∧ InTime l w) (.start {} 0) w ∧
    (w.runs = 2 ∧ w.watch "b" = some ⟨1, 1, true⟩) ∧ Covered w := by
  obtain ⟨w, hr, hw⟩ := Labelled.exists_of_run worker (fun l w ↦ Answers l w ∧ InTime l w)
    (.start {} 0)
    (twoApplied ++
      .other 1 (writeStatus (applied "a" 1) .COMMITTED) {} :: runOver (committed "a" 1) ++
      .other 2 (writeStatus (applied "b" 2) .COMMITTED) {} :: runOver (committed "b" 2))
    (fun w ↦ w.runs = 2 ∧ w.watch "b" = some ⟨1, 1, true⟩) (by decide +kernel)
  exact ⟨w, hr, hw, covered_of_reach hr⟩

/-- **A row that is committed late** is passed by: the cursor has followed the time of a row that
has been applied for after it and committed before. -/
theorem not_covered_of_late : ¬∀ w, worker.Reach Answers (.start {} 0) w → Covered w := by
  intro h
  obtain ⟨w, hr, hmem, hcursor, hwatch, hrest⟩ := Labelled.exists_of_run worker Answers
    (.start {} 0)
    (twoApplied ++
      .other 2 (writeStatus (applied "b" 2) .COMMITTED) {} :: runOver (committed "b" 2) ++
      [.other 1 (writeStatus (applied "a" 1) .COMMITTED) {}])
    (fun w ↦ committed "a" 1 ∈ w.media.files ∧ w.cursor = 2 ∧
      w.watch "a" = some ⟨2, 1, false⟩ ∧ w.rest = []) (by decide +kernel)
  rcases (h w hr (committed "a" 1) hmem ⟨2, 1, false⟩ hwatch).1 with hchecked | hlt | ⟨r, hin, -⟩
  · cases hchecked
  · rw [hcursor] at hlt
    exact absurd hlt (by decide)
  · rw [hrest] at hin
    exact absurd hin List.not_mem_nil

end ChatNow.Sniffing
